import ObjectTalk.Proofs.Plan.Step
/-!
# `Proofs.Plan.Walk` — one walk over the plans of evaluation

Many statements about evaluation have the form "each plan of evaluation is such and such": it takes known values only
(`Plan.Within`), makes frames in certain places only (`Plan.Regular`), and so on. Each of them would be a walk over
all nodes, built-in methods and texts. The walk is made here once, for any judgement about plans that is closed under
the ways in which evaluation puts plans together.

A judgement relates a plan to the values that are known when it begins and to the `Shape` of its result, which says
what is known of the result.
* `Plan.Asks` has the closure conditions for messages and texts, and `Asks.displayed` and its like are the walk.
* `Plan.Evaluates` adds those for nodes and methods, and `Evaluates.ofNode` and `Evaluates.invoke` are the walk.

A judgement that looks at the plan only, and neither at values nor at results, is closed as soon as it is closed for
all results: `Shape.fits_univ`.
-/

namespace ObjectTalk

/-! ## Results and what is known of them -/

/-- The value is known. A case of `Shape.Fits`, as are the next ones. -/
def KnownValue (known : Set Value) (value : Value) : Prop := value ∈ known

/-- All values of a list are known, as `Shape.values` has it. -/
def KnownValues (known : Set Value) (values : List Value) : Prop := ∀ value ∈ values, value ∈ known

/-- The class is known, as `Shape.classId` has it. -/
def KnownClass (known : Set Value) (id : ClassId) : Prop := .classRef id ∈ known

/-- The class that is written, or else `ClassId.root`, is known. -/
def KnownParent (known : Set Value) (superclass : Option ClassId) : Prop :=
  .classRef (superclass.getD ClassId.root) ∈ known

/-- The items that a `Payload` holds, if any, are known. -/
def KnownPayload (known : Set Value) (payload : Option Payload) : Prop :=
  ∀ items, payload = some (.items items) → KnownValues known items

/-- Nothing is said of the result: in a `Shape.plain` there are no values. -/
def Plain {α : Type} (_ : Set Value) (_ : α) : Prop := True

/-- `KnownValues` is kept when more values become known. -/
theorem KnownValues.mono {known more : Set Value} {values : List Value} (h : KnownValues known values)
    (hle : known ⊆ more) : KnownValues more values :=
  fun value hvalue => hle (h value hvalue)

/-- Where in a result of type `α` there are values. -/
inductive Shape : Type → Type 1 where
  | value : Shape Value
  | values : Shape (List Value)
  | classId : Shape ClassId
  | parent : Shape (Option ClassId)
  | payload : Shape (Option Payload)
  | plain {α : Type} : Shape α

/-- The values in a result of this `Shape` are known. -/
def Shape.Fits : {α : Type} → Shape α → Set Value → α → Prop
  | _, value => KnownValue
  | _, values => KnownValues
  | _, classId => KnownClass
  | _, parent => KnownParent
  | _, payload => KnownPayload
  | _, plain => Plain

/-- Any result `Fits` where all values are known. -/
theorem Shape.fits_univ {α : Type} (shape : Shape α) (result : α) : shape.Fits Set.univ result := by
  cases shape with
  | value => exact Set.mem_univ _
  | values => exact fun _ _ => Set.mem_univ _
  | classId => exact Set.mem_univ _
  | parent => exact Set.mem_univ _
  | payload => exact fun _ _ _ _ => Set.mem_univ _
  | plain => trivial

/-- The `Shape` of an answer. -/
def Query.shape : {α : Type} → Query α → Shape α
  | _, .methodFor .. => .plain
  | _, .asClass _ => .classId
  | _, .textOf _ => .plain
  | _, .numberOf _ => .plain
  | _, .itemsOf _ => .values
  | _, .answerText _ => .plain
  | _, .payload _ => .payload
  | _, .self => .value
  | _, .readLocal _ => .value
  | _, .readIvar .. => .value
  | _, .constant .. => .value
  | _, .classOfReceiver _ => .classId
  | _, .methodTarget => .classId
  | _, .className _ => .plain
  | _, .superclass _ => .value
  | _, .checkArity .. => .plain
  | _, .onlyArg .. => .value
  | _, .fitInteger .. => .plain

/-- What `Query.Gives` says of an answer is what its shape says, and more. -/
theorem Query.fits_of_gives {α : Type} {question : Query α} {known : Set Value} {answer : α}
    (h : question.Gives known answer) : question.shape.Fits known answer := by
  cases question with
  | methodFor | textOf | numberOf | answerText | className | checkArity | fitInteger => trivial
  | _ => exact h

/-- The `Shape` of what a change gives. -/
def Change.shape : {α : Type} → Change α → Shape α
  | _, .alloc _ => .value
  | _, .bindIvar .. => .plain
  | _, .bindLocal .. => .plain
  | _, .write _ => .plain
  | _, .define .. => .plain
  | _, .declare .. => .classId
  | _, .trace _ => .plain

/-- What `Change.Gives` says of a result is what its shape says. -/
theorem Change.fits_of_gives {α : Type} {step : Change α} {known : Set Value} {result : α}
    (h : step.Gives known result) : step.shape.Fits known result := by
  cases step with
  | alloc | declare => exact h
  | _ => trivial

/-! ## What evaluation sees to before it acts -/

/-- The `Expectation` is one that evaluation has seen to before it calls for it. -/
def Expectation.Assured : Expectation → Prop
  | methodHolder | ivarHolder | anObject | classNamed _ => True
  | _ => False

/-- The fault says that something `Expectation.Assured` was missing. -/
def Fault.Absurd : Fault → Prop
  | wrongKind expected _ => expected.Assured
  | _ => False

/-- The fault says that the stack is as deep as allowed: it is `Fault.tooDeep`. -/
def Fault.isOverflow : Fault → Bool
  | tooDeep .. => true
  | _ => false

/-- The question about the class of a receiver is about a `sure` one. -/
def Query.Guarded (sure : Value → Prop) : {α : Type} → Query α → Prop
  | _, .classOfReceiver receiver => sure receiver
  | _, _ => True

/-- The change binds instance variables of a `sure` target only, and makes no instance of the metaclass. -/
def Change.Guarded (sure : Value → Prop) : {α : Type} → Change α → Prop
  | _, .bindIvar target _ _ => sure target
  | _, .alloc (.ofClass id) => id ≠ ClassId.metaclass
  | _, _ => True

/-- What evaluation knows from the start: `nil` and the root class. -/
structure Grounded (known : Set Value) : Prop where
  nil : .nil ∈ known
  root : .classRef ClassId.root ∈ known

/-- `Grounded` is kept when more values become known. -/
theorem Grounded.mono {known more : Set Value} (h : Grounded known) (hle : known ⊆ more) : Grounded more :=
  ⟨hle h.nil, hle h.root⟩

/-- Where all values are known, they are `Grounded`. -/
theorem grounded_univ : Grounded Set.univ := ⟨Set.mem_univ _, Set.mem_univ _⟩

namespace Plan

/-! ## Messages and texts -/

/-- The judgement is closed under the ways in which plans of messages and texts, such as `Plan.displayed`, are put
    together. -/
structure Asks (Judged : {α : Type} → Set Value → Plan α → Shape α → Prop) : Prop where
  done : ∀ {α : Type} {known : Set Value} {shape : Shape α} {result : α}, shape.Fits known result →
    Judged known (.done result) shape
  /-- What comes next may count on what is known of the first result, whatever else has become known. -/
  andThen : ∀ {α β : Type} {known : Set Value} {first : Plan α} {next : α → Plan β} {between : Shape α}
    {shape : Shape β}, Judged known first between →
    (∀ more, known ⊆ more → ∀ result, between.Fits more result → Judged more (next result) shape) →
    Judged known (.andThen first next) shape
  send : ∀ {known : Set Value} {receiver : Value} {args : List Value} (name : String), receiver ∈ known →
    KnownValues known args → Judged known (send receiver name args) .value
  answerText : ∀ {known : Set Value} {answer : Value}, answer ∈ known →
    Judged known (.query (.answerText answer)) .plain
  payload : ∀ {known : Set Value} {value : Value}, value ∈ known → Judged known (.query (.payload value)) .payload
  display : ∀ {known : Set Value} {value : Value}, value ∈ known → Judged known (.display value) .plain

namespace Asks

variable {Judged : {α : Type} → Set Value → Plan α → Shape α → Prop} {known : Set Value} {value : Value}

/-- The plan `Plan.askText` is as judged. -/
theorem askText (h : Asks Judged) (hvalue : value ∈ known) : Judged known (askText value) .plain :=
  h.andThen (h.send "to_s" hvalue (by simp [KnownValues])) fun _ _ _ hanswer => h.answerText hanswer

/-- The plan `Plan.displayAll` is as judged. By induction on the values. -/
theorem displayAll (h : Asks Judged) {values : List Value} (hvalues : KnownValues known values) :
    Judged known (displayAll values) .plain := by
  induction values generalizing known with
  | nil => exact h.done trivial
  | cons value values ih =>
      refine h.andThen (h.display (hvalues value (by simp))) fun more hle text _ => ?_
      refine h.andThen (ih fun item hitem => hle (hvalues item (by simp [hitem]))) fun _ _ texts _ => ?_
      exact h.done trivial

/-- The plan `Plan.displayHolding` is as judged, whatever the payload is. -/
theorem displayHolding (h : Asks Judged) {payload : Option Payload} (hvalue : value ∈ known)
    (hpayload : KnownPayload known payload) : Judged known (displayHolding value payload) .plain := by
  match payload with
  | some (.text text) => exact h.done trivial
  | some (.number number) => exact h.done trivial
  | some (.items items) => exact h.andThen (h.displayAll (hpayload items rfl)) fun _ _ _ _ => h.done trivial
  | none => exact h.askText hvalue

/-- **The plan of a text, `Plan.displayed`, is as judged.** -/
theorem displayed (h : Asks Judged) (hvalue : value ∈ known) : Judged known (displayed value) .plain := by
  have hheld : ∀ more, known ⊆ more → ∀ payload, KnownPayload more payload →
      Judged more (Plan.displayHolding value payload) .plain :=
    fun more hle payload hpayload => h.displayHolding (hle hvalue) hpayload
  cases value with
  | nil => exact h.done trivial
  | object id => exact h.andThen (h.payload hvalue) hheld
  | classRef id => exact h.andThen (h.payload hvalue) hheld

/-- The plan `Plan.displayedFlat` is as judged. -/
theorem displayedFlat (h : Asks Judged) (hvalue : value ∈ known) : Judged known (displayedFlat value) .plain := by
  cases value with
  | nil => exact h.done trivial
  | object id => exact h.askText hvalue
  | classRef id => exact h.askText hvalue

end Asks

/-! ## Nodes and methods -/

/-- The judgement is closed under the ways in which plans of nodes and methods, such as `Plan.ofNode`, are put
    together. A self is `sure`, and so is the receiver of a method. -/
structure Evaluates (sure : Value → Prop) (Judged : {α : Type} → Set Value → Plan α → Shape α → Prop) : Prop
    extends Asks Judged where
  stop : ∀ {α : Type} {known : Set Value} {shape : Shape α} {fault : Fault}, ¬ fault.Absurd →
    fault.isOverflow = false → Judged known (.stop fault) shape
  query : ∀ {α : Type} {known : Set Value} (question : Query α), question.Takes known → question.Guarded sure →
    Judged known (.query question) question.shape
  change : ∀ {α : Type} {known : Set Value} (step : Change α), step.Takes known → step.Guarded sure →
    Judged known (.change step) step.shape
  /-- What is done with self may count on its being `sure`. -/
  onSelf : ∀ {α : Type} {known : Set Value} {next : Value → Plan α} {shape : Shape α},
    (∀ more, known ⊆ more → ∀ self ∈ more, sure self → Judged more (next self) shape) →
    Judged known (.andThen (.query .self) next) shape
  /-- Each part of a class definition begins when those before it are done. -/
  classDef : ∀ {known : Set Value} {scope : Plan ClassId} {superclass : Plan (Option ClassId)}
    {body : Plan Value} (name : String), (∀ more, known ⊆ more → Judged more scope .classId) →
    (∀ more, known ⊆ more → Judged more superclass .parent) →
    (∀ more, known ⊆ more → Judged more body .value) →
    Judged known (classDefinition scope name superclass body) .value

/-- What `itemAt` finds is known, if the items and `nil` are. -/
theorem itemAt_mem {known : Set Value} {items : List Value} (hnil : .nil ∈ known) (hitems : KnownValues known items)
    (place : Int) : itemAt items place ∈ known := by
  unfold itemAt
  generalize (if place < 0 then (items.length : Int) + place else place) = found
  by_cases hneg : found < 0
  · simpa only [if_pos hneg] using hnil
  · simp only [if_neg hneg]
    rw [List.getD_eq_getElem?_getD]
    cases hget : items[found.toNat]? with
    | none => exact hnil
    | some item => exact hitems item (List.mem_of_getElem? hget)

namespace Evaluates

variable {sure : Value → Prop} {Judged : {α : Type} → Set Value → Plan α → Shape α → Prop} {known : Set Value}
  {receiver : Value} {args : List Value}

/-- What comes after `Change.trace` is as judged if it is so by itself. -/
theorem traced (h : Evaluates sure Judged) {α : Type} {kind : String} {next : Plan α} {shape : Shape α}
    (hnext : ∀ more, known ⊆ more → Judged more next shape) :
    Judged known (.andThen (.change (.trace kind)) fun _ => next) shape :=
  h.andThen (h.change (.trace kind) trivial trivial) fun more hle _ _ => hnext more hle

/-- A new string is as judged: `Evaluates.change` for `NewObject.string`. -/
theorem string (h : Evaluates sure Judged) (text : String) :
    Judged known (.change (.alloc (.string text))) .value :=
  h.change (.alloc (.string text)) trivial trivial

/-- A number becomes an integer if it fits, by `Query.fitInteger`. -/
theorem integer (h : Evaluates sure Judged) (operation : String) (number : Int) :
    Judged known (do
      let result ← Plan.query (.fitInteger operation number)
      Plan.change (.alloc (.integer result))) .value :=
  h.andThen (h.query (.fitInteger operation number) trivial trivial) fun _ _ result _ =>
    h.change (.alloc (.integer result)) trivial trivial

/-- The plan `Plan.writeAll` is as judged. By induction on the values. -/
theorem writeAll (h : Evaluates sure Judged) (form : String → String) {values : List Value}
    (hvalues : KnownValues known values) : Judged known (writeAll form values) .plain := by
  induction values generalizing known with
  | nil => exact h.done trivial
  | cons value values ih =>
      refine h.andThen (h.display (hvalues value (by simp))) fun more hle text _ => ?_
      refine h.andThen (h.change (.write (form text)) trivial trivial) fun most hle' _ _ => ?_
      exact ih fun item hitem => (hle.trans hle') (hvalues item (by simp [hitem]))

/-- The plan `Plan.arithmetic` is as judged. -/
theorem arithmetic (h : Evaluates sure Judged) (operation : String) (apply : Int → Int → Int)
    (hreceiver : receiver ∈ known) (hargs : KnownValues known args) :
    Judged known (arithmetic operation apply receiver args) .value := by
  refine h.andThen (h.query (.numberOf receiver) hreceiver trivial) fun k₁ h₁ left _ => ?_
  refine h.andThen (h.query (.onlyArg operation args) (hargs.mono h₁) trivial) fun k₂ h₂ arg harg => ?_
  refine h.andThen (h.query (.numberOf arg) harg trivial) fun k₃ h₃ right _ => ?_
  exact h.integer operation _

/-- The plan `Plan.instantiate` is as judged: the class has been compared with `ClassId.metaclass`. -/
theorem instantiate (h : Evaluates sure Judged) (hreceiver : receiver ∈ known) (hargs : KnownValues known args) :
    Judged known (instantiate receiver args) .value := by
  refine h.andThen (h.query (.asClass receiver) hreceiver trivial) fun k₁ h₁ id hid => ?_
  by_cases hmeta : id = ClassId.metaclass
  · rw [if_pos hmeta]
    exact h.stop (fun habsurd => habsurd) rfl
  · rw [if_neg hmeta]
    -- the new object is known from here on, and it is what is given in the end
    refine h.andThen (h.change (.alloc (.ofClass id)) hid hmeta) fun k₂ h₂ object hobject => ?_
    refine h.andThen (h.send "initialize" hobject (hargs.mono (h₁.trans h₂))) fun k₃ h₃ _ _ => ?_
    exact h.done (h₃ hobject)

/-- **The plan of a built-in method, `Plan.builtin`, is as judged**, if the receiver is `sure`. -/
theorem builtin (h : Evaluates sure Judged) (action : Builtin) (hground : Grounded known)
    (hreceiver : receiver ∈ known) (hself : sure receiver) (hargs : KnownValues known args) :
    Judged known (builtin action receiver args) .value := by
  cases action with
  | puts =>
      have hlines : Judged known (writeLines args) .plain := by
        unfold writeLines
        split
        · exact h.change (.write "\n") trivial trivial
        · exact h.writeAll asLine hargs
      exact h.andThen hlines fun k₁ h₁ _ _ => h.done (h₁ hground.nil)
  | print => exact h.andThen (h.writeAll id hargs) fun k₁ h₁ _ _ => h.done (h₁ hground.nil)
  | objectText =>
      refine h.andThen (h.query (.classOfReceiver receiver) hreceiver hself) fun k₁ h₁ id hid => ?_
      exact h.andThen (h.query (.className id) hid trivial) fun _ _ name _ => h.string _
  | classOf =>
      exact h.andThen (h.query (.classOfReceiver receiver) hreceiver hself) fun _ _ id hid => h.done hid
  | noop => exact h.done hground.nil
  | identity => exact h.done hreceiver
  | instantiate => exact h.instantiate hreceiver hargs
  | className =>
      refine h.andThen (h.query (.asClass receiver) hreceiver trivial) fun k₁ h₁ id hid => ?_
      exact h.andThen (h.query (.className id) hid trivial) fun _ _ name _ => h.string name
  | superclass =>
      exact h.andThen (h.query (.asClass receiver) hreceiver trivial) fun _ _ id hid =>
        h.query (.superclass id) hid trivial
  | concat =>
      refine h.andThen (h.query (.textOf receiver) hreceiver trivial) fun k₁ h₁ left _ => ?_
      refine h.andThen (h.query (.onlyArg "+" args) (hargs.mono h₁) trivial) fun k₂ h₂ arg harg => ?_
      exact h.andThen (h.query (.textOf arg) harg trivial) fun _ _ right _ => h.string _
  | length =>
      exact h.andThen (h.query (.textOf receiver) hreceiver trivial) fun _ _ text _ => h.integer "length" _
  | add => exact h.arithmetic "+" _ hreceiver hargs
  | subtract => exact h.arithmetic "-" _ hreceiver hargs
  | multiply => exact h.arithmetic "*" _ hreceiver hargs
  | integerText =>
      exact h.andThen (h.query (.numberOf receiver) hreceiver trivial) fun _ _ number _ => h.string _
  | size => exact h.andThen (h.query (.itemsOf receiver) hreceiver trivial) fun _ _ items _ => h.integer "size" _
  | itemAt =>
      refine h.andThen (h.query (.itemsOf receiver) hreceiver trivial) fun k₁ h₁ items hitems => ?_
      refine h.andThen (h.query (.onlyArg "[]" args) (hargs.mono h₁) trivial) fun k₂ h₂ arg harg => ?_
      refine h.andThen (h.query (.numberOf arg) harg trivial) fun k₃ h₃ place _ => ?_
      have hnil : .nil ∈ k₃ := h₃ (h₂ (h₁ hground.nil))
      exact h.done (itemAt_mem hnil ((KnownValues.mono hitems h₂).mono h₃) _)

mutual

/-- **The plan of a node, `Plan.ofNode`, is as judged.** By induction on the node. -/
theorem ofNode (h : Evaluates sure Judged) : (node : Node) → {known : Set Value} → Grounded known →
    Judged known (ofNode node) .value
  | .sequence statements, _, hground => by
      rw [Plan.ofNode]
      exact h.traced fun _ h₁ => h.ofStatements statements (hground.mono h₁) (h₁ hground.nil)
  | .classDef scope name superclass body, _, hground => by
      rw [Plan.ofNode]
      exact h.classDef name (fun _ hle => h.ofScope scope (hground.mono hle))
        (fun _ hle => h.ofSuperclass superclass (hground.mono hle)) fun _ hle => h.ofNode body (hground.mono hle)
  | .methodDef name signature body, _, _ => by
      rw [Plan.ofNode]
      refine h.traced fun k₁ h₁ => ?_
      refine h.andThen (h.query .methodTarget trivial trivial) fun k₂ h₂ id hid => ?_
      exact h.andThen (h.change (.define id name (.written signature body)) hid trivial) fun _ _ _ _ =>
        h.string name
  | .localAssign name value, _, hground => by
      rw [Plan.ofNode]
      refine h.traced fun k₁ h₁ => ?_
      refine h.andThen (h.ofNode value (hground.mono h₁)) fun k₂ h₂ value hvalue => ?_
      exact h.andThen (h.change (.bindLocal name value) hvalue trivial) fun k₃ h₃ _ _ => h.done (h₃ hvalue)
  | .ivarAssign name value, _, hground => by
      rw [Plan.ofNode]
      refine h.traced fun k₁ h₁ => ?_
      refine h.andThen (h.ofNode value (hground.mono h₁)) fun k₂ h₂ value hvalue => ?_
      refine h.onSelf fun k₃ h₃ self hself hsure => ?_
      exact h.andThen (h.change (.bindIvar self name value) ⟨hself, h₃ hvalue⟩ hsure) fun k₄ h₄ _ _ =>
        h.done (h₄ (h₃ hvalue))
  | .localRead name, _, _ => by
      rw [Plan.ofNode]
      exact h.traced fun _ _ => h.query (.readLocal name) trivial trivial
  | .ivarRead name, _, _ => by
      rw [Plan.ofNode]
      refine h.traced fun k₁ h₁ => ?_
      exact h.andThen (h.query .self trivial trivial) fun _ _ self hself =>
        h.query (.readIvar self name) hself trivial
  | .send receiver method args, _, hground => by
      rw [Plan.ofNode]
      refine h.traced fun k₁ h₁ => ?_
      refine h.andThen (h.ofReceiver receiver (hground.mono h₁)) fun k₂ h₂ receiver hreceiver => ?_
      refine h.andThen (h.ofAll args (hground.mono (h₁.trans h₂))) fun k₃ h₃ args hargs => ?_
      exact h.send method (h₃ hreceiver) hargs
  | .constRef scope name, _, hground => by
      rw [Plan.ofNode]
      refine h.traced fun k₁ h₁ => ?_
      exact h.andThen (h.ofScope scope (hground.mono h₁)) fun _ _ scope hscope =>
        h.query (.constant scope name) hscope trivial
  | .stringLit text, _, _ => by
      rw [Plan.ofNode]
      exact h.traced fun _ _ => h.string text
  | .integerLit value, _, _ => by
      rw [Plan.ofNode]
      exact h.traced fun _ _ => h.change (.alloc (.integer value)) trivial trivial
  | .interpolated parts, _, hground => by
      rw [Plan.ofNode]
      refine h.traced fun k₁ h₁ => ?_
      exact h.andThen (h.ofParts "" parts (hground.mono h₁)) fun _ _ text _ => h.string text

theorem ofStatements (h : Evaluates sure Judged) {last : Value} : (nodes : List Node) → {known : Set Value} →
    Grounded known → last ∈ known → Judged known (ofStatements last nodes) .value
  | [], _, _, hlast => by
      rw [Plan.ofStatements]
      exact h.done hlast
  | node :: nodes, _, hground, _ => by
      rw [Plan.ofStatements]
      exact h.andThen (h.ofNode node hground) fun _ h₁ value hvalue => h.ofStatements nodes (hground.mono h₁) hvalue

theorem ofAll (h : Evaluates sure Judged) : (nodes : List Node) → {known : Set Value} → Grounded known →
    Judged known (ofAll nodes) .values
  | [], _, _ => by
      rw [Plan.ofAll]
      exact h.done fun _ hnone => absurd hnone List.not_mem_nil
  | node :: nodes, _, hground => by
      rw [Plan.ofAll]
      refine h.andThen (h.ofNode node hground) fun k₁ h₁ value hvalue => ?_
      refine h.andThen (h.ofAll nodes (hground.mono h₁)) fun k₂ h₂ values hvalues => ?_
      exact h.done (List.forall_mem_cons.mpr ⟨h₂ hvalue, hvalues⟩)

theorem ofParts (h : Evaluates sure Judged) (text : String) : (nodes : List Node) → {known : Set Value} →
    Grounded known → Judged known (ofParts text nodes) .plain
  | [], _, _ => by
      rw [Plan.ofParts]
      exact h.done trivial
  | node :: nodes, _, hground => by
      rw [Plan.ofParts]
      refine h.andThen (h.ofNode node hground) fun k₁ h₁ value hvalue => ?_
      exact h.andThen (h.display hvalue) fun _ h₂ part _ =>
        h.ofParts (text ++ part) nodes (hground.mono (h₁.trans h₂))

theorem ofScope (h : Evaluates sure Judged) : (scope : Option Node) → {known : Set Value} → Grounded known →
    Judged known (ofScope scope) .classId
  | none, _, hground => by
      rw [Plan.ofScope]
      exact h.done hground.root
  | some node, _, hground => by
      rw [Plan.ofScope]
      exact h.andThen (h.ofNode node hground) fun _ _ value hvalue => h.query (.asClass value) hvalue trivial

theorem ofSuperclass (h : Evaluates sure Judged) : (superclass : Option Node) → {known : Set Value} →
    Grounded known → Judged known (ofSuperclass superclass) .parent
  | none, _, hground => by
      rw [Plan.ofSuperclass]
      exact h.done hground.root
  | some node, _, hground => by
      rw [Plan.ofSuperclass]
      refine h.andThen (h.ofNode node hground) fun k₁ h₁ value hvalue => ?_
      exact h.andThen (h.query (.asClass value) hvalue trivial) fun _ _ id hid => h.done hid

theorem ofReceiver (h : Evaluates sure Judged) : (receiver : Option Node) → {known : Set Value} →
    Grounded known → Judged known (ofReceiver receiver) .value
  | none, _, _ => by
      rw [Plan.ofReceiver]
      exact h.query .self trivial trivial
  | some node, _, hground => by
      rw [Plan.ofReceiver]
      exact h.ofNode node hground

end

/-! ## Parameters -/

/-- The plan `Plan.bindFixed` is as judged: what is left of the arguments are arguments. -/
theorem bindFixed (h : Evaluates sure Judged) {missing : Fault} (habsurd : ¬ missing.Absurd)
    (hoverflow : missing.isOverflow = false) (names : List String) (hargs : KnownValues known args) :
    Judged known (bindFixed missing names args) .values := by
  induction names generalizing known args with
  | nil => exact h.done hargs
  | cons name names ih =>
      cases args with
      | nil => exact h.stop habsurd hoverflow
      | cons arg args =>
          obtain ⟨harg, hrest⟩ := List.forall_mem_cons.mp hargs
          exact h.andThen (h.change (.bindLocal name arg) harg trivial) fun _ h₁ _ _ => ih (KnownValues.mono hrest h₁)

/-- The plan `Plan.bindRest` is as judged: the array holds arguments. -/
theorem bindRest (h : Evaluates sure Judged) {surplus : Fault} (habsurd : ¬ surplus.Absurd)
    (hoverflow : surplus.isOverflow = false) (rest : Option String) {left : List Value}
    (hleft : KnownValues known left) : Judged known (bindRest surplus rest left) .plain := by
  cases rest with
  | some name =>
      exact h.andThen (h.change (.alloc (.array left)) hleft trivial) fun _ _ array harray =>
        h.change (.bindLocal name array) harray trivial
  | none =>
      cases left with
      | nil => exact h.done trivial
      | cons arg left => exact h.stop habsurd hoverflow

/-- **The plan of a method in its frame, `Plan.invoke`, is as judged.** -/
theorem invoke (h : Evaluates sure Judged) (name : String) (method : Method) (hground : Grounded known)
    (hreceiver : receiver ∈ known) (hself : sure receiver) (hargs : KnownValues known args) :
    Judged known (invoke receiver name args method) .value := by
  cases method with
  | written signature body =>
      have hmismatch : ¬ (Fault.wrongArity name signature.arity args.length).Absurd := fun habsurd => habsurd
      have hassign : Judged known (Plan.assignParams name signature args) .plain :=
        h.andThen (h.bindFixed hmismatch rfl signature.fixed hargs) fun _ _ left hleft =>
          h.bindRest hmismatch rfl signature.rest hleft
      exact h.andThen hassign fun _ h₁ _ _ => h.ofNode body (hground.mono h₁)
  | builtin written arity action => exact h.builtin action hground hreceiver hself hargs

end Evaluates

end Plan

end ObjectTalk

import ObjectTalk.Proofs.Plan.Walk
/-!
# `Proofs.Plan.Values` — evaluation works with the values it has been given

Evaluation makes up no values. What it puts somewhere, calls or shows it has either been given or has found in
the machine by a question about something it has been given. `Plan.Within` says so of a plan: it starts from a
set of known values, each step takes known values only, and the set grows by what the step gives. The growth
is not spelled out. A step may leave any larger set behind, so that whatever else has become known meanwhile,
say in a call, does no harm.

All plans of evaluation are within the values they are given: the walk of `Proofs.Plan.Walk` shows it, once
`within_evaluates` has said how the values pass from one step to the next.
-/

namespace ObjectTalk

/-- What evaluation starts from: `nil` and the root class are known, and any value but `nil` may be a self. -/
structure Basic (selves : Value → Prop) (known : Set Value) : Prop where
  nil : .nil ∈ known
  root : .classRef ClassId.root ∈ known
  self : ∀ value, value ≠ .nil → selves value

/-- `Basic` is kept when more values become known. -/
theorem Basic.mono {selves : Value → Prop} {known more : Set Value} (h : Basic selves known)
    (hle : known ⊆ more) : Basic selves more :=
  ⟨hle h.nil, hle h.root, h.self⟩

/-- What is `Basic` is `Grounded`. -/
theorem Basic.grounded {selves : Value → Prop} {known : Set Value} (h : Basic selves known) : Grounded known :=
  ⟨h.nil, h.root⟩

/-! ## Plans -/

/-- `post` holds of every result that is `fit`, however many more values have become known. -/
def Accepts {α : Type} (fit : Set Value → α → Prop) (known : Set Value) (post : Set Value → α → Prop) :
    Prop :=
  ∀ more, known ⊆ more → ∀ result, fit more result → post more result

/-- `Accepts` is kept when more values become known. -/
theorem Accepts.mono {α : Type} {fit : Set Value → α → Prop} {known more : Set Value}
    {post : Set Value → α → Prop} (h : Accepts fit known post) (hle : known ⊆ more) :
    Accepts fit more post :=
  fun most hle' => h most (hle.trans hle')

/-- What is accepted later is accepted now. -/
theorem Accepts.now {α : Type} {fit : Set Value → α → Prop} {known : Set Value}
    {post : Set Value → α → Prop} (h : Accepts fit known post) {result : α} (hfit : fit known result) :
    post known result :=
  h known subset_rfl result hfit

namespace Plan

/-- The plan takes known values only, and when it ends with a result, `post` holds of that and of the values
    known then. A frame is made only for a self that `selves` admits. -/
def Within (selves : Value → Prop) :
    {α : Type} → Plan α → (known : Set Value) → (post : Set Value → α → Prop) → Prop
  | _, done result, known, post => post known result
  | _, stop _, _, _ => True
  | _, query question, known, post =>
    question.Takes known ∧ Accepts (fun more => question.Gives more) known post
  | _, change step, known, post =>
    step.Takes known ∧ Accepts (fun more => step.Gives more) known post
  | _, andThen first next, known, post =>
    first.Within selves known fun more result => (next result).Within selves more post
  | _, inFrame self body, known, post =>
    self ∈ known ∧ selves self ∧ ∀ more, known ⊆ more →
      body.Within selves more fun inside result => ∀ most, inside ⊆ most → post most result
  | _, inCall _ body, known, post =>
    ∀ more, known ⊆ more →
      body.Within selves more fun inside result => ∀ most, inside ⊆ most → post most result
  | _, call receiver _ _ args, known, post =>
    receiver ∈ known ∧ selves receiver ∧ KnownValues known args ∧ Accepts KnownValue known post
  | _, display value, known, post => value ∈ known ∧ Accepts Plain known post
  | _, overflow, _, _ => True

/-- The plan is `Within` the known values, and of its result no more is said than its shape. -/
def WithinShape (selves : Value → Prop) {α : Type} (known : Set Value) (plan : Plan α) (shape : Shape α) : Prop :=
  Basic selves known → ∀ {post : Set Value → α → Prop}, Accepts shape.Fits known post →
    plan.Within selves known post

/-- **`WithinShape` is closed under the ways in which evaluation puts plans together.** A message is sent only to a
    value that has a class, so never to `nil`. -/
theorem within_evaluates (selves : Value → Prop) : Evaluates (fun _ => True) (WithinShape selves) where
  done hfits := fun _ _ hpost => hpost.now hfits
  andThen hfirst hnext := by
    intro hbasic post hpost
    refine hfirst hbasic fun more hle result hfits => ?_
    exact hnext more hle result hfits (hbasic.mono hle) (hpost.mono hle)
  send name hreceiver hargs := by
    intro hbasic post hpost
    refine ⟨hreceiver, fun more hle method hne => ?_⟩
    exact ⟨hle hreceiver, hbasic.self _ hne, hargs.mono hle, hpost.mono hle⟩
  answerText hanswer := fun _ _ hpost => ⟨hanswer, hpost⟩
  payload hvalue := fun _ _ hpost => ⟨hvalue, hpost⟩
  display hvalue := fun _ _ hpost => ⟨hvalue, hpost⟩
  stop _ _ := fun _ _ _ => trivial
  query question htakes _ := fun _ _ hpost =>
    ⟨htakes, fun more hle answer hgives => hpost more hle answer (Query.fits_of_gives hgives)⟩
  change step htakes _ := fun _ _ hpost =>
    ⟨htakes, fun more hle result hgives => hpost more hle result (Change.fits_of_gives hgives)⟩
  onSelf hnext := fun hbasic _ hpost =>
    ⟨trivial, fun more hle self hself => hnext more hle self hself trivial (hbasic.mono hle) (hpost.mono hle)⟩
  classDef name hscope hsuper hbody := by
    intro hbasic post hpost
    refine ⟨trivial, fun k₁ h₁ _ _ => ?_⟩
    refine hscope k₁ h₁ (hbasic.mono h₁) fun k₂ h₂ scope hfound => ?_
    refine hsuper k₂ (h₁.trans h₂) (hbasic.mono (h₁.trans h₂)) fun k₃ h₃ superclass hparent => ?_
    -- the class that is declared becomes known, and is then the self of the body
    refine ⟨⟨h₃ hfound, hparent⟩, fun k₄ h₄ id hid => ⟨hid, hbasic.self _ (by simp), fun k₅ h₅ => ?_⟩⟩
    have hle : _ ⊆ k₅ := (((h₁.trans h₂).trans h₃).trans h₄).trans h₅
    refine hbody k₅ hle (hbasic.mono hle) fun k₆ h₆ value hvalue k₇ h₇ => ?_
    exact hpost k₇ ((hle.trans h₆).trans h₇) value (h₇ hvalue)

/-! ## The plans of evaluation -/

section

variable {selves : Value → Prop} {known : Set Value}

/-- The plan of a node is `Within` what it starts from. -/
theorem within_ofNode (node : Node) (hbasic : Basic selves known) {post : Set Value → Value → Prop}
    (hpost : Accepts KnownValue known post) : (ofNode node).Within selves known post :=
  (within_evaluates selves).ofNode node hbasic.grounded hbasic hpost

/-- The plan of a scope is `Within` what it starts from. -/
theorem within_ofScope (scope : Option Node) (hbasic : Basic selves known) {post : Set Value → ClassId → Prop}
    (hpost : Accepts KnownClass known post) : (ofScope scope).Within selves known post :=
  (within_evaluates selves).ofScope scope hbasic.grounded hbasic hpost

/-- The plan of a superclass is `Within` what it starts from. -/
theorem within_ofSuperclass (superclass : Option Node) (hbasic : Basic selves known)
    {post : Set Value → Option ClassId → Prop} (hpost : Accepts KnownParent known post) :
    (ofSuperclass superclass).Within selves known post :=
  (within_evaluates selves).ofSuperclass superclass hbasic.grounded hbasic hpost

/-- The plan of a message is `Within` the values that know its receiver and its arguments. -/
theorem within_send (hbasic : Basic selves known) {receiver : Value} {args : List Value}
    {post : Set Value → Value → Prop} (name : String) (hreceiver : receiver ∈ known)
    (hargs : KnownValues known args) (hpost : Accepts KnownValue known post) :
    (send receiver name args).Within selves known post :=
  (within_evaluates selves).send name hreceiver hargs hbasic hpost

/-- The plan of a text is `Within` the values that know its value. -/
theorem within_displayed (hbasic : Basic selves known) {value : Value} {post : Set Value → String → Prop}
    (hvalue : value ∈ known) (hpost : Accepts Plain known post) :
    (displayed value).Within selves known post :=
  (within_evaluates selves).displayed hvalue hbasic hpost

/-- The plan of a text that is asked for by message is `Within` the values that know its value. -/
theorem within_displayedFlat (hbasic : Basic selves known) {value : Value} {post : Set Value → String → Prop}
    (hvalue : value ∈ known) (hpost : Accepts Plain known post) :
    (displayedFlat value).Within selves known post :=
  (within_evaluates selves).displayedFlat hvalue hbasic hpost

/-- The plan of a method, in its frame, is `Within` the values that know its receiver and its arguments. -/
theorem within_invoke (hbasic : Basic selves known) {receiver : Value} (name : String) {args : List Value}
    (method : Method) {post : Set Value → Value → Prop} (hreceiver : receiver ∈ known)
    (hargs : KnownValues known args) (hpost : Accepts KnownValue known post) :
    (invoke receiver name args method).Within selves known post :=
  (within_evaluates selves).invoke name method hbasic.grounded hreceiver trivial hargs hbasic hpost

/-- **The plan of a call is `Within` the values that know its receiver and its arguments**, if the receiver may be a
    self. -/
theorem within_called (hbasic : Basic selves known) {receiver : Value} (name : String) (method : Method)
    {args : List Value} {post : Set Value → Value → Prop} (hreceiver : receiver ∈ known)
    (hself : selves receiver) (hargs : KnownValues known args) (hpost : Accepts KnownValue known post) :
    (called receiver name method args).Within selves known post := by
  intro k₁ h₁
  refine ⟨trivial, fun k₂ h₂ _ _ => ⟨h₂ (h₁ hreceiver), hself, fun k₃ h₃ => ?_⟩⟩
  have hle : known ⊆ k₃ := (h₁.trans h₂).trans h₃
  refine within_invoke (hbasic.mono hle) name method (hle hreceiver) (hargs.mono hle) ?_
  intro k₄ h₄ value hvalue k₅ h₅ k₆ h₆
  exact hpost k₆ (((hle.trans h₄).trans h₅).trans h₆) value (h₆ (h₅ hvalue))

/-- A call for which there is no room is `Within` any values. -/
theorem within_refused (name : String) (method : Method) (args : List Value)
    {post : Set Value → Value → Prop} : (refused name method args).Within selves known post :=
  fun _ _ => ⟨trivial, fun _ _ _ _ => trivial⟩

end

end Plan

end ObjectTalk

import ObjectTalk.Proofs.Binding
import ObjectTalk.Proofs.Growth
/-!
# `Proofs.Payloads` — objects hold what their class asks for

Strings, integers and arrays hold something, and so do the instances of the classes that descend from theirs.
What an object holds is settled when it is made, by the ancestors that its class has then. Whatever a host does
later, the class keeps these ancestors and the object what it holds, so that the two go on agreeing
(`Machine.Typed`, kept by `Machine.typed`).

The three primitive classes have no descendants in common (`Hierarchy.primitive_unique`). So the order in which
they are tried for a new instance does not matter, and a message that finds a built-in method of one of them has
a receiver that holds what the method asks for.
-/

namespace ObjectTalk

/-! ## Primitive classes -/

/-- The classes whose instances hold a `Payload`, in the order in which `emptyPayload` tries them. -/
def ClassId.primitives : List ClassId := [string, integer, array]

namespace Payload

/-- The class whose instances hold a `Payload` of this kind. -/
def primitive : Payload → ClassId
  | text _ => ClassId.string
  | number _ => ClassId.integer
  | items _ => ClassId.array

theorem primitive_eq_string {held : Option Payload} :
    held.map primitive = some ClassId.string ↔ ∃ value, held = some (.text value) := by
  rcases held with _ | (_ | _ | _) <;> simp [primitive, ClassId.string, ClassId.integer, ClassId.array]

theorem primitive_eq_integer {held : Option Payload} :
    held.map primitive = some ClassId.integer ↔ ∃ value, held = some (.number value) := by
  rcases held with _ | (_ | _ | _) <;> simp [primitive, ClassId.string, ClassId.integer, ClassId.array]

theorem primitive_eq_array {held : Option Payload} :
    held.map primitive = some ClassId.array ↔ ∃ values, held = some (.items values) := by
  rcases held with _ | (_ | _ | _) <;> simp [primitive, ClassId.string, ClassId.integer, ClassId.array]

end Payload

namespace Hierarchy

variable {hierarchy before after : Hierarchy} {id owner : ClassId}

/-- The one of `ClassId.primitives` that a class is or descends from. -/
def primitive? (hierarchy : Hierarchy) (id : ClassId) : Option ClassId :=
  ClassId.primitives.find? (hierarchy.descends id)

theorem Grown.descends_eq (h : before.Grown ClassEntry.SameLinks after) (hbefore : before.Rooted)
    (hafter : after.Rooted) (hid : id < before.size) : after.descends id = before.descends id := by
  funext ancestor
  unfold descends
  rw [h.ancestors_eq hbefore hafter hid]

/-- `bindConstant`, whatever the name was bound to before, changes no link. -/
theorem grown_bindConstant (hierarchy : Hierarchy) (scope : ClassId) (name : String) (value : Value) :
    hierarchy.Grown ClassEntry.SameLinks (hierarchy.bindConstant scope name value) :=
  grown_modify ClassEntry.SameLinks.refl scope ⟨rfl, rfl, rfl⟩

/-- The classes are those of `Hierarchy.initial`, and others after them; no link has changed. -/
structure Settled (hierarchy : Hierarchy) : Prop where
  rooted : hierarchy.Rooted
  links : initial.Grown ClassEntry.SameLinks hierarchy

namespace Settled

theorem descends_initial (h : hierarchy.Settled) (hid : id < 5) :
    hierarchy.descends id = initial.descends id :=
  h.links.descends_eq rooted_initial h.rooted (Nat.lt_of_lt_of_le hid rooted_initial.initial)

/-- **`ClassId.primitives` have no descendants in common.** The ancestors of a class form a chain, and none of the
    three descends from another. -/
theorem primitive_unique (h : hierarchy.Settled) (hid : id < hierarchy.size) {other : ClassId}
    (howner : owner ∈ ClassId.primitives) (hother : other ∈ ClassId.primitives)
    (hdescends : hierarchy.descends id owner) (hdescends' : hierarchy.descends id other) :
    owner = other := by
  have hapart : ∀ above ∈ ClassId.primitives, ∀ below ∈ ClassId.primitives,
      below < 5 ∧ (initial.descends below above → below = above) := by decide
  have hlinear := h.rooted.ordered.linear id hid owner (descends_iff.mp hdescends) other
    (descends_iff.mp hdescends')
  rcases hlinear with hle | hle
  · obtain ⟨hlt, heq⟩ := hapart other hother owner howner
    rw [h.descends_initial hlt] at hle
    exact heq hle
  · obtain ⟨hlt, heq⟩ := hapart owner howner other hother
    rw [h.descends_initial hlt] at hle
    exact (heq hle).symm

theorem primitive?_eq_some_iff (h : hierarchy.Settled) (hid : id < hierarchy.size)
    (howner : owner ∈ ClassId.primitives) :
    hierarchy.primitive? id = some owner ↔ hierarchy.descends id owner := by
  unfold primitive?
  constructor
  · intro hfind
    exact List.find?_some hfind
  · intro hdescends
    -- some class is found, and there is only one to be found
    cases hfind : ClassId.primitives.find? (hierarchy.descends id) with
    | none => exact absurd hdescends (List.find?_eq_none.mp hfind owner howner)
    | some found =>
        have hfound := List.find?_some hfind
        rw [h.primitive_unique hid (List.mem_of_find?_eq_some hfind) howner hfound hdescends]

end Settled

end Hierarchy

/-! ## Objects that agree with their class -/

/-- The object holds a text, a number or items exactly if its class is that of strings, integers or arrays or
    descends from it, and nothing if its class descends from none of them. -/
structure Object.Agrees (classes : Hierarchy) (object : Object) : Prop where
  text : (∃ value, object.payload = some (.text value)) ↔ classes.descends object.classId ClassId.string
  number : (∃ value, object.payload = some (.number value)) ↔ classes.descends object.classId ClassId.integer
  items : (∃ values, object.payload = some (.items values)) ↔ classes.descends object.classId ClassId.array
  nothing : object.payload = none
    ↔ ∀ owner ∈ ClassId.primitives, ¬ classes.descends object.classId owner

/-- The `Payload` of the object is of the kind that belongs to its class, by `primitive?`. -/
def Object.Fits (classes : Hierarchy) (object : Object) : Prop :=
  object.payload.map Payload.primitive = classes.primitive? object.classId

theorem Object.Fits.agrees {classes : Hierarchy} {object : Object} (h : object.Fits classes)
    (hsettled : classes.Settled) (hid : object.classId < classes.size) : object.Agrees classes := by
  have hkind : ∀ owner ∈ ClassId.primitives, object.payload.map Payload.primitive = some owner
      ↔ classes.descends object.classId owner := by
    intro owner howner
    rw [h]
    exact hsettled.primitive?_eq_some_iff hid howner
  refine ⟨?_, ?_, ?_, ?_⟩
  · rw [← Payload.primitive_eq_string]
    exact hkind ClassId.string (by decide)
  · rw [← Payload.primitive_eq_integer]
    exact hkind ClassId.integer (by decide)
  · rw [← Payload.primitive_eq_array]
    exact hkind ClassId.array (by decide)
  · rw [← Option.map_eq_none_iff, h]
    exact List.find?_eq_none

namespace Machine

variable {machine last : Machine}

/-- `emptyPayload` is of the kind that `primitive?` finds. -/
theorem primitive_emptyPayload (id : ClassId) :
    (machine.emptyPayload id).map Payload.primitive = machine.classes.primitive? id := by
  unfold emptyPayload Hierarchy.primitive? ClassId.primitives
  by_cases hstring : machine.classes.descends id ClassId.string
  · simp [hstring, Payload.primitive]
  · by_cases hinteger : machine.classes.descends id ClassId.integer
    · simp [hstring, hinteger, Payload.primitive]
    · by_cases harray : machine.classes.descends id ClassId.array
      · simp [hstring, hinteger, harray, Payload.primitive]
      · simp [hstring, hinteger, harray]

/-- **A new object `Fits` its class**: literals have the primitive classes themselves. -/
theorem fits_object (h : machine.classes.Settled) (new : NewObject) :
    (new.object machine).Fits machine.classes := by
  have hinitial : ∀ owner ∈ ClassId.primitives, machine.classes.primitive? owner = some owner := by
    intro owner howner
    have hlt : ∀ id ∈ ClassId.primitives, id < 5 := by decide
    have hid : owner < machine.classes.size := Nat.lt_of_lt_of_le (hlt owner howner) h.rooted.initial
    rw [h.primitive?_eq_some_iff hid howner]
    exact h.rooted.ordered.refl owner hid
  cases new with
  | string text => exact (hinitial ClassId.string (by decide)).symm
  | integer number => exact (hinitial ClassId.integer (by decide)).symm
  | array items => exact (hinitial ClassId.array (by decide)).symm
  | ofClass id => exact primitive_emptyPayload id

/-! ## All objects, for ever -/

/-- The classes are `Settled`, and each object `Fits` its class. -/
structure Typed (machine : Machine) : Prop where
  settled : machine.classes.Settled
  fits : ∀ id < machine.heap.size, (machine.heap.get id).Fits machine.classes

/-- What keeps classes and objects (`Machine.Grown`), and adds no object, keeps all objects fitting. -/
theorem Typed.of_grown (h : machine.Typed) (hcontained : machine.Contained) (hrooted : last.classes.Rooted)
    (hgrown : machine.Grown ClassEntry.SameLinks last) (hsize : last.heap.size = machine.heap.size) :
    last.Typed := by
  refine ⟨⟨hrooted, h.settled.links.trans ClassEntry.SameLinks.trans hgrown.classes⟩, ?_⟩
  intro id hid
  rw [hsize] at hid
  have hclass : (machine.heap.get id).classId < machine.classes.size :=
    (hcontained.holds.objects id hid).classId
  have hdescends := hgrown.classes.descends_eq h.settled.rooted hrooted hclass
  have hfits := h.fits id hid
  unfold Object.Fits Hierarchy.primitive? at hfits ⊢
  rw [hgrown.heap.payload id hid, hgrown.heap.classId id hid, hdescends]
  exact hfits

theorem Typed.step (h : machine.Typed) (hmachine : machine.WellFormed) (hlast : last.WellFormed)
    (hstep : machine.Step machine.Owns last) : last.Typed := by
  have hgrown := (adds_of_step (hstep.mono (Set.subset_univ _))).sameLinks
  cases hstep with
  | alloc new hnew =>
      refine ⟨h.settled, ?_⟩
      exact Heap.forall_push h.fits (fits_object h.settled new)
  | bindIvar id name value hid hvalue =>
      exact h.of_grown hmachine.contained hlast.rooted hgrown (Heap.size_bindIvar _ id name value)
  | _ => exact h.of_grown hmachine.contained hlast.rooted hgrown rfl

/-- **Evaluation keeps all objects fitting**: that a machine is `Typed` is an `Invariant`. -/
def typed : Invariant :=
  wellFormed.strengthen Typed (fun _ => True) (fun _ _ => trivial) (fun _ _ => trivial)
    (fun hmachine hlast h hstep => h.step hmachine hlast hstep)
    (fun h _ => ⟨h.settled, h.fits⟩) (fun h => ⟨h.settled, h.fits⟩)

/-- **And so does everything else that a host does**: the invariant is `Hosted`. -/
theorem typed_hosted : Hosted typed where
  boot settings output := by
    have hlinks : Hierarchy.initial.Grown ClassEntry.SameLinks Hierarchy.initial :=
      .refl ClassEntry.SameLinks.refl _
    refine ⟨wellFormed_boot settings output, ⟨⟨Hierarchy.rooted_initial, hlinks⟩, ?_⟩⟩
    have hmain : Object.Fits Hierarchy.initial { classId := ClassId.root } := by
      unfold Object.Fits
      decide
    have hempty : ∀ id < Heap.size {}, (Heap.get {} id).Fits Hierarchy.initial :=
      fun id hid => absurd hid (Nat.not_lt_zero id)
    exact Heap.forall_push hempty hmain
  owns _ hvalue := hvalue
  selves _ := trivial
  bindConstant {machine} scope name {value} h hvalue := by
    have hwellFormed := wellFormed_hosted.bindConstant scope name h.1 hvalue
    have hgrown := Hierarchy.grown_bindConstant machine.classes scope name value
    exact ⟨hwellFormed, h.2.of_grown h.1.contained hwellFormed.rooted ⟨hgrown, .refl _⟩ rfl⟩
  popped h := ⟨wellFormed_hosted.popped h.1, ⟨h.2.settled, h.2.fits⟩⟩
  rewritten output h := ⟨wellFormed_hosted.rewritten output h.1, ⟨h.2.settled, h.2.fits⟩⟩

/-- **No `HostStep` changes a link between classes, the class of an object or its `Payload`.** -/
theorem HostStep.grown (h : machine.HostStep last) : machine.Grown ClassEntry.SameLinks last := by
  have hsame := (adds_progress.refl machine).sameLinks
  have hplan : ∀ {α : Type} (plan : Plan α),
      machine.Grown ClassEntry.SameLinks ((plan.follow (.within machine.room)).after machine) :=
    fun plan => (adds_progress.follow_within plan machine.room machine).sameLinks
  have hchange : ∀ {α : Type} (change : Change α),
      machine.Grown ClassEntry.SameLinks (change.run.after machine) :=
    fun change => (adds_progress.steps (change.steps_run change.takes_all machine)).sameLinks
  cases h with
  | run program => exact (adds_progress.reaches_run program machine).sameLinks
  | eval node => exact (adds_progress.reaches_eval node machine).sameLinks
  | send receiver name args _ _ => exact hplan (Plan.send receiver name args)
  | call receiver name method args _ _ => exact hplan (Plan.call receiver name method args)
  | display value _ => exact hplan (Plan.display value)
  | declare scope name superclass _ _ => exact hchange (.declare scope name superclass)
  | bindConstant scope name value _ _ =>
      exact ⟨Hierarchy.grown_bindConstant machine.classes scope name value, hsame.heap⟩
  | define id name method _ => exact hchange (.define id name method)
  | alloc new _ => exact hchange (.alloc new)
  | bindIvar target name value _ _ => exact hchange (.bindIvar target name value)
  | push self _ =>
      rw [Run.after, Run.push_apply]
      split
      · exact ⟨hsame.classes, hsame.heap⟩
      · exact hsame
  | pop => exact ⟨hsame.classes, hsame.heap⟩
  | bindLocal name value _ => exact hchange (.bindLocal name value)
  | write text => exact hchange (.write text)
  | drain => exact ⟨hsame.classes, hsame.heap⟩

/-- A receiver whose class descends from one of `ClassId.primitives` holds a `Payload` of that kind. Classes
    themselves do not come into question: they are instances of the metaclass. -/
theorem Typed.payload_of_descends (h : machine.Typed) (hcontained : machine.Contained) {receiver : Value}
    (hreceiver : machine.Owns receiver) {id owner : ClassId} (hclass : machine.classOf? receiver = some id)
    (howner : owner ∈ ClassId.primitives) (hdescends : machine.classes.descends id owner) :
    (machine.heap.payload? receiver).map Payload.primitive = some owner := by
  cases receiver with
  | nil => cases hclass
  | object place =>
      cases hclass
      have hid := (hcontained.holds.objects place hreceiver).classId
      have hprimitive := (h.settled.primitive?_eq_some_iff hid howner).mpr hdescends
      exact (h.fits place hreceiver).trans hprimitive
  | classRef place =>
      have hmeta : id = ClassId.metaclass := by
        cases hclass
        exact h.settled.rooted.classId place hreceiver
      have hapart : ∀ owner ∈ ClassId.primitives, ¬ Hierarchy.initial.descends ClassId.metaclass owner := by
        decide
      rw [hmeta, h.settled.descends_initial (by decide)] at hdescends
      exact absurd hdescends (hapart owner howner)

end Machine

/-! ## Built-in methods -/

namespace Run

variable {machine : Machine} {value : Value}

theorem textOf_of_payload? {text : String} (h : machine.heap.payload? value = some (.text text)) :
    textOf value machine = .ok text machine := by
  rw [textOf, get_bind, Heap.text?, h]
  rfl

theorem numberOf_of_payload? {number : Int64} (h : machine.heap.payload? value = some (.number number)) :
    numberOf value machine = .ok number machine := by
  rw [numberOf, get_bind, Heap.number?, h]
  rfl

theorem itemsOf_of_payload? {items : List Value} (h : machine.heap.payload? value = some (.items items)) :
    itemsOf value machine = .ok items machine := by
  rw [itemsOf, get_bind, Heap.items?, h]
  rfl

end Run

namespace Handler

/-- The one of `ClassId.primitives` whose payload the `Handler` asks of its receiver, if it asks for any. -/
def asks? : Handler → Option ClassId
  | onReceiver _ => none
  | onText _ => some ClassId.string
  | onNumber _ => some ClassId.integer
  | onItems _ => some ClassId.array

/-- The receiver holds what the handler asks for, the question is answered in the machine, and `rest` is what the
    handler does then. -/
inductive Proceeds (machine : Machine) (receiver : Value) :
    Handler → (Caller → List Value → Run Value) → Prop where
  | onReceiver (work : Caller → Value → List Value → Run Value) :
      Proceeds machine receiver (.onReceiver work) fun call => work call receiver
  | onText {text : String} (work : String → List Value → Run Value)
      (hheld : machine.heap.payload? receiver = some (.text text))
      (hanswer : Run.textOf receiver machine = .ok text machine) :
      Proceeds machine receiver (.onText work) fun _ => work text
  | onNumber {number : Int64} (work : Int64 → List Value → Run Value)
      (hheld : machine.heap.payload? receiver = some (.number number))
      (hanswer : Run.numberOf receiver machine = .ok number machine) :
      Proceeds machine receiver (.onNumber work) fun _ => work number
  | onItems {items : List Value} (work : List Value → List Value → Run Value)
      (hheld : machine.heap.payload? receiver = some (.items items))
      (hanswer : Run.itemsOf receiver machine = .ok items machine) :
      Proceeds machine receiver (.onItems work) fun _ => work items

variable {machine : Machine} {receiver : Value} {handler : Handler}

/-- `Handler.applyWith` is the question on the receiver, and then the rest. -/
theorem Proceeds.applyWith_eq {rest : Caller → List Value → Run Value}
    (h : handler.Proceeds machine receiver rest) (call : Caller) (args : List Value) :
    handler.applyWith call receiver args machine = rest call args machine := by
  cases h with
  | onReceiver work => rfl
  | onText work hheld hanswer => rw [applyWith, Run.bind_apply, hanswer]
  | onNumber work hheld hanswer => rw [applyWith, Run.bind_apply, hanswer]
  | onItems work hheld hanswer => rw [applyWith, Run.bind_apply, hanswer]

/-- A receiver whose payload is of the kind that the handler `asks?` for lets it proceed. -/
theorem proceeds_of_payload
    (h : ∀ owner, handler.asks? = some owner →
      (machine.heap.payload? receiver).map Payload.primitive = some owner) :
    ∃ rest, handler.Proceeds machine receiver rest := by
  cases handler with
  | onReceiver work => exact ⟨_, .onReceiver work⟩
  | onText work =>
      obtain ⟨text, hheld⟩ := Payload.primitive_eq_string.mp (h _ rfl)
      exact ⟨_, .onText work hheld (Run.textOf_of_payload? hheld)⟩
  | onNumber work =>
      obtain ⟨number, hheld⟩ := Payload.primitive_eq_integer.mp (h _ rfl)
      exact ⟨_, .onNumber work hheld (Run.numberOf_of_payload? hheld)⟩
  | onItems work =>
      obtain ⟨items, hheld⟩ := Payload.primitive_eq_array.mp (h _ rfl)
      exact ⟨_, .onItems work hheld (Run.itemsOf_of_payload? hheld)⟩

end Handler

/-- The `Hierarchy.builtins` of the primitive classes ask for what belongs to the class that has them, but for the
    one that answers the receiver. -/
theorem Hierarchy.asks?_of_mem_builtins : ∀ entry ∈ builtins, entry.owner ∈ ClassId.primitives →
    entry.action = .identity ∨ entry.action.handler.asks? = some entry.owner := by
  decide

/-! ## Faults of built-in methods -/

/-- The value is not the string, the integer or the array that the `Expectation` asks for. -/
def Heap.Lacks (heap : Heap) (value : Value) : Expectation → Prop
  | .string => heap.text? value = none
  | .integer => heap.number? value = none
  | .array => heap.items? value = none
  | _ => False

/-- A `Fault.wrongKind` is about the only argument, which is not what is expected. -/
def Machine.RefusesArg (machine : Machine) (args : List Value) (expected : Expectation) (found : String) : Prop :=
  ∃ arg, args = [arg] ∧ found = machine.describe arg ∧ machine.heap.Lacks arg expected

section WrongKind

variable {machine last : Machine} {expected : Expectation} {found : String} {args : List Value}

/-- A `Fault.wrongKind` of work that begins with `onlyArg` comes from what it does with the argument. -/
theorem error_of_onlyArg {operation : String} {next : Value → Run Value}
    (h : (onlyArg operation args >>= next) machine = .error (.wrongKind expected found) last) :
    ∃ arg, args = [arg] ∧ next arg machine = .error (.wrongKind expected found) last := by
  rcases args with _ | ⟨arg, _ | ⟨other, more⟩⟩
  · cases h
  · exact ⟨arg, rfl, h⟩
  · cases h

/-- A fault of work that begins with a `Query`, if it is not one of what comes next, is the answer to the query. -/
theorem Query.ask_of_error {α : Type} (question : Query α) {next : α → Run Value} {fault : Fault}
    (hnext : ∀ answer, next answer machine ≠ .error fault last)
    (h : (question.run >>= next) machine = .error fault last) : question.ask machine = .error fault := by
  rw [Run.bind_apply, question.run_eq_outcome] at h
  cases hask : question.ask machine with
  | ok answer =>
      rw [hask] at h
      exact absurd h (hnext answer)
  | error raised =>
      rw [hask] at h
      cases h
      rfl

/-- A `Fault.wrongKind` that `Query.orMismatch` raises is about the value that was asked for its payload. -/
theorem lacks_of_orMismatch {α : Type} {asked : Expectation} {value : Value} {held : Option α}
    (hasked : held = none → machine.heap.Lacks value asked)
    (h : Query.orMismatch machine asked value held = .error (.wrongKind expected found)) :
    found = machine.describe value ∧ machine.heap.Lacks value expected := by
  obtain ⟨hnone, hfault⟩ := Query.eq_none_of_orMismatch h
  cases hfault
  exact ⟨rfl, hasked hnone⟩

/-- Making an integer of a number, with `fitInteger`, raises no `Fault.wrongKind`. -/
theorem fitInteger_ne_wrongKind (operation : String) (number : Int) :
    (fitInteger operation number >>= Run.allocInteger) machine ≠ .error (.wrongKind expected found) last := by
  unfold fitInteger
  intro h
  split at h
  · cases h
  · cases h

theorem refusesArg_of_arithmetic {operation : String} {apply : Int → Int → Int} {left : Int64}
    (h : arithmetic operation apply left args machine = .error (.wrongKind expected found) last) :
    machine.RefusesArg args expected found := by
  obtain ⟨arg, rfl, harg⟩ := error_of_onlyArg h
  have hask := (Query.numberOf arg).ask_of_error (fun right => fitInteger_ne_wrongKind _ _) harg
  exact ⟨arg, rfl, lacks_of_orMismatch id hask⟩

/-- **What a handler of a primitive class does after its question** raises no `Fault.wrongKind` but about its only
    argument. -/
theorem Builtin.refusesArg_of_error {action : Builtin} (hasks : action = .identity ∨ action.handler.asks? ≠ none)
    {receiver : Value} {rest : Caller → List Value → Run Value} {call : Caller}
    (hproceeds : action.handler.Proceeds machine receiver rest)
    (h : rest call args machine = .error (.wrongKind expected found) last) :
    machine.RefusesArg args expected found := by
  cases action with
  | identity =>
      cases hproceeds
      cases h
  | concat =>
      cases hproceeds
      obtain ⟨arg, rfl, harg⟩ := error_of_onlyArg h
      have hask := (Query.textOf arg).ask_of_error (fun right hright => by cases hright) harg
      exact ⟨arg, rfl, lacks_of_orMismatch id hask⟩
  | length =>
      cases hproceeds
      exact absurd h (fitInteger_ne_wrongKind _ _)
  | add =>
      cases hproceeds
      exact refusesArg_of_arithmetic h
  | subtract =>
      cases hproceeds
      exact refusesArg_of_arithmetic h
  | multiply =>
      cases hproceeds
      exact refusesArg_of_arithmetic h
  | integerText =>
      cases hproceeds
      cases h
  | size =>
      cases hproceeds
      exact absurd h (fitInteger_ne_wrongKind _ _)
  | itemAt =>
      cases hproceeds
      obtain ⟨arg, rfl, harg⟩ := error_of_onlyArg h
      have hask := (Query.numberOf arg).ask_of_error (fun place hplace => by cases hplace) harg
      exact ⟨arg, rfl, lacks_of_orMismatch id hask⟩
  | _ => simp [handler, Handler.asks?] at hasks

end WrongKind

namespace Machine

variable {machine : Machine}

/-- A `send` that finds a method is a `call` of it. -/
theorem send_eq_call {receiver : Value} {name : String} {id owner : ClassId} {method : Method}
    (hclass : machine.classOf? receiver = some id)
    (hlookup : machine.classes.lookup id name = some (owner, method)) (args : List Value) :
    send receiver name args machine = call receiver name method args machine := by
  have hfound : machine.methodFor receiver name = .ok method := by
    simp [methodFor, hclass, hlookup]
  have hrun : Run.methodFor receiver name machine = .ok method machine := by
    have hask := (Query.methodFor receiver name).run_eq_outcome machine
    rw [Query.ask, hfound] at hask
    exact hask
  rw [send, sendWith, Run.bind_apply, hrun]
  rfl

/-- A `send` that finds a built-in method has it act in a frame for the receiver, if the number of arguments is
    right and there is room. -/
theorem send_of_lookup {receiver : Value} {name written : String} {args : List Value} {id owner : ClassId}
    {arity : Arity} {action : Builtin} (hclass : machine.classOf? receiver = some id)
    (hlookup : machine.classes.lookup id name = some (owner, .builtin written arity action))
    (harity : arity.admits args.length) (hroom : machine.stack.depth < machine.settings.maxDepth) :
    send receiver name args machine
      = Outcome.through (fun inside => inside.popped.log (.left name))
          (action.applyWith (callWithin (machine.room - 1)) receiver args
            ((machine.log (.entered name)).pushed receiver)) := by
  have hmethod : (Method.builtin written arity action).arity.admits args.length := harity
  rw [send_eq_call hclass hlookup, call, room_eq_succ hroom, callWithin_of_admits _ receiver name _ hmethod hroom]
  rfl

/-- Only a method that acts raises a `Fault.wrongKind`: the arguments were counted, and there was room. -/
theorem acts_of_wrongKind {receiver : Value} {name : String} {method : Method} {args : List Value}
    {expected : Expectation} {found : String} {last : Machine}
    (h : call receiver name method args machine = .error (.wrongKind expected found) last) :
    method.arity.admits args.length ∧ machine.stack.depth < machine.settings.maxDepth := by
  by_cases hadmits : method.arity.admits args.length
  · by_cases hroom : machine.stack.depth < machine.settings.maxDepth
    · exact ⟨hadmits, hroom⟩
    · rw [call_of_full receiver name method hadmits hroom] at h
      cases h
  · rw [call_of_not_admits receiver name method hadmits] at h
    cases h

section Found

variable {entry : Hierarchy.BuiltinEntry} {receiver : Value} {id : ClassId} {args : List Value}

/-- A `send` that finds a built-in method of a primitive class, for a receiver that holds what belongs to it, has
    the question of the handler answered and then does the rest. -/
theorem proceeds_of_lookup (hentry : entry ∈ Hierarchy.builtins) (howner : entry.owner ∈ ClassId.primitives)
    (hclass : machine.classOf? receiver = some id)
    (hlookup : machine.classes.lookup id entry.name = some (entry.owner, entry.method))
    (hheld : (machine.heap.payload? receiver).map Payload.primitive = some entry.owner)
    (harity : entry.arity.admits args.length) (hroom : machine.stack.depth < machine.settings.maxDepth) :
    let inside := (machine.log (.entered entry.name)).pushed receiver
    ∃ rest, entry.action.handler.Proceeds inside receiver rest ∧
      send receiver entry.name args machine
        = Outcome.through (fun last => last.popped.log (.left entry.name))
            (rest (callWithin (machine.room - 1)) args inside) := by
  intro inside
  obtain ⟨rest, hproceeds⟩ : ∃ rest, entry.action.handler.Proceeds inside receiver rest := by
    refine Handler.proceeds_of_payload fun owner hasks => ?_
    rcases Hierarchy.asks?_of_mem_builtins entry hentry howner with hidentity | hsome
    · rw [hidentity] at hasks
      cases hasks
    · rw [hsome] at hasks
      cases hasks
      exact hheld
  refine ⟨rest, hproceeds, ?_⟩
  rw [← hproceeds.applyWith_eq]
  exact send_of_lookup hclass hlookup harity hroom

/-- A `Fault.wrongKind` of such a `send` is about the only argument. -/
theorem refusesArg_of_send (hentry : entry ∈ Hierarchy.builtins) (howner : entry.owner ∈ ClassId.primitives)
    (hclass : machine.classOf? receiver = some id)
    (hlookup : machine.classes.lookup id entry.name = some (entry.owner, entry.method))
    (hheld : (machine.heap.payload? receiver).map Payload.primitive = some entry.owner)
    {expected : Expectation} {found : String} {last : Machine}
    (hsend : send receiver entry.name args machine = .error (.wrongKind expected found) last) :
    machine.RefusesArg args expected found := by
  have hcall := hsend
  rw [send_eq_call hclass hlookup] at hcall
  obtain ⟨harity, hroom⟩ := acts_of_wrongKind hcall
  obtain ⟨rest, hproceeds, heq⟩ := proceeds_of_lookup hentry howner hclass hlookup hheld harity hroom
  have hasks : entry.action = .identity ∨ entry.action.handler.asks? ≠ none :=
    (Hierarchy.asks?_of_mem_builtins entry hentry howner).imp_right fun hsome => by simp [hsome]
  rw [heq] at hsend
  -- the fault is raised in the frame, where values are described as outside
  cases hrest : rest (callWithin (machine.room - 1)) args
      ((machine.log (.entered entry.name)).pushed receiver) with
  | ok value inside =>
      rw [hrest] at hsend
      cases hsend
  | error fault inside =>
      rw [hrest] at hsend
      cases hsend
      obtain ⟨arg, rfl, rfl, hlacks⟩ := Builtin.refusesArg_of_error hasks hproceeds hrest
      exact ⟨arg, rfl, rfl, hlacks⟩

end Found

/-- **What objects hold agrees with their class, for ever**: see `Object.Agrees` and `Heap.Grown`. So when a message
    finds one of the `Hierarchy.builtins` of strings, integers or arrays, the question of its handler on the
    receiver is answered in the frame of the call, the rest follows, and a `Fault.wrongKind` is never about the
    receiver. -/
theorem payloads_agree_with_classes {machine : Machine} (h : machine.Arises) :
    (∀ id < machine.heap.size, (machine.heap.get id).Agrees machine.classes) ∧
    (∀ last, machine.HostStep last → machine.heap.Grown last.heap) ∧
    (∀ (α : Type) (plan : Plan α) met, plan.Meets machine met → machine.heap.Grown met.heap) ∧
    ∀ entry ∈ Hierarchy.builtins, entry.owner ∈ ClassId.primitives →
      ∀ receiver id, machine.Owns receiver → machine.classOf? receiver = some id →
        machine.classes.lookup id entry.name = some (entry.owner, entry.method) →
        (∃ payload, machine.heap.payload? receiver = some payload ∧ payload.primitive = entry.owner) ∧
        (∀ args, entry.arity.admits args.length → machine.stack.depth < machine.settings.maxDepth →
          let inside := (machine.log (.entered entry.name)).pushed receiver
          ∃ rest, entry.action.handler.Proceeds inside receiver rest ∧
            send receiver entry.name args machine
              = Outcome.through (fun last => last.popped.log (.left entry.name))
                  (rest (callWithin (machine.room - 1)) args inside)) ∧
        ∀ args expected found last,
          send receiver entry.name args machine = .error (.wrongKind expected found) last →
          machine.RefusesArg args expected found := by
  obtain ⟨hwellFormed, htyped⟩ : typed.holds machine := typed_hosted.holds_of_arises h
  refine ⟨?_, ?_, ?_, ?_⟩
  · intro id hid
    exact (htyped.fits id hid).agrees htyped.settled (hwellFormed.contained.holds.objects id hid).classId
  · intro last hstep
    exact hstep.grown.heap
  · intro α plan met hmeets
    exact (adds_progress.reaches_of_meets adds_pushed hmeets).heap
  · intro entry hentry howner receiver id hreceiver hclass hlookup
    have hheld := htyped.payload_of_descends hwellFormed.contained hreceiver hclass howner
      (Hierarchy.descends_of_lookup hlookup)
    refine ⟨Option.map_eq_some_iff.mp hheld, ?_, ?_⟩
    · intro args harity hroom
      exact proceeds_of_lookup hentry howner hclass hlookup hheld harity hroom
    · intro args expected found last hsend
      exact refusesArg_of_send hentry howner hclass hlookup hheld hsend

/-- A new machine after a program that makes a class which descends from that of strings, and an instance of
    it. -/
def labelled : Machine :=
  (run (.sequence [.classDef none "Label" (some (.constRef none "String")) (.sequence []),
    .send (some (.constRef none "Label")) "new" []])).after (boot {} (.kept ""))

theorem payloads_agree_with_classes_labelled :
    (labelled.Arises ∧ labelled.Owns (.object 1) ∧ labelled.classOf? (.object 1) = some 5
      ∧ labelled.classes.lookup 5 "length"
        = some (ClassId.string, .builtin "length" (.exactly 0) .length))
    ∧ (labelled.heap.get 1).Agrees labelled.classes
    ∧ (∃ payload, labelled.heap.payload? (.object 1) = some payload ∧ payload.primitive = ClassId.string)
    ∧ (∃ rest, Builtin.length.handler.Proceeds ((labelled.log (.entered "length")).pushed (.object 1))
          (.object 1) rest
        ∧ send (.object 1) "length" [] labelled
          = Outcome.through (fun last => last.popped.log (.left "length"))
              (rest (callWithin (labelled.room - 1)) []
                ((labelled.log (.entered "length")).pushed (.object 1))))
    ∧ Outcome.result (send (.object 1) "length" [] labelled) = .ok (.object 2)
    ∧ ((send (.object 1) "length" []).after labelled).heap.payload? (.object 2) = some (.number 0)
    ∧ Outcome.result (send (.object 1) "+" [main] labelled)
      = .error (.wrongKind .string "an instance of Object")
    ∧ labelled.RefusesArg [main] .string "an instance of Object" := by
  have hoccurs : (boot {} (.kept "")).Occurs labelled := (RunsTo.refl.run _).occurs
  have harises : labelled.Arises := hoccurs.arises (.boot {} (.kept ""))
  have howns : labelled.Owns (.object 1) := by
    show 1 < labelled.heap.size
    decide
  have hclass : labelled.classOf? (.object 1) = some 5 := by decide
  have hlookup : labelled.classes.lookup 5 "length"
      = some (ClassId.string, .builtin "length" (.exactly 0) .length) := by rfl
  have hlookup' : labelled.classes.lookup 5 "+"
      = some (ClassId.string, .builtin "+" (.exactly 1) .concat) := by rfl
  obtain ⟨hagrees, _, _, hfound⟩ := payloads_agree_with_classes harises
  have hlength : (⟨ClassId.string, "length", .exactly 0, .length⟩ : Hierarchy.BuiltinEntry)
      ∈ Hierarchy.builtins := by simp [Hierarchy.builtins]
  have hconcat : (⟨ClassId.string, "+", .exactly 1, .concat⟩ : Hierarchy.BuiltinEntry)
      ∈ Hierarchy.builtins := by simp [Hierarchy.builtins]
  obtain ⟨hheld, hacts, _⟩ := hfound _ hlength (by decide) _ _ howns hclass hlookup
  obtain ⟨_, _, hrefuses⟩ := hfound _ hconcat (by decide) _ _ howns hclass hlookup'
  have hrefused : send (.object 1) "+" [main] labelled = .error (.wrongKind .string "an instance of Object")
      ((send (.object 1) "+" [main]).after labelled) := by rfl
  exact ⟨⟨harises, howns, hclass, hlookup⟩, hagrees 1 howns, hheld, hacts [] (by decide) (by decide),
    by rfl, by rfl, by rfl, hrefuses _ _ _ _ hrefused⟩

end Machine

end ObjectTalk

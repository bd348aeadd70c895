import Mathlib.Data.Set.Basic
import ObjectTalk.Proofs.Plan.Evaluation
/-!
# `Proofs.Plan.Step` — what evaluation can do to a machine

`Machine.Step known` lists the ways in which evaluation changes a machine, frames apart; the values and
classes that a step puts somewhere are among those that are `known`. Every `Change` is a sequence of steps
(`Change.steps_run`), so that a property of machines need only be looked at step by step. `takes` and `gives`
say which values a question or a change needs and which it brings to light.
-/

namespace ObjectTalk

/-- The values of a `NewObject` are known. -/
def NewObject.Within (known : Set Value) : NewObject → Prop
  | string _ => True
  | integer _ => True
  | array items => ∀ item ∈ items, item ∈ known
  | ofClass id => .classRef id ∈ known

/-- `NewObject.Within` is kept when more values become known. -/
theorem NewObject.Within.mono {known more : Set Value} {new : NewObject} (h : new.Within known)
    (hle : known ⊆ more) : new.Within more := by
  cases new with
  | string text => trivial
  | integer number => trivial
  | array items => exact fun item hitem => hle (h item hitem)
  | ofClass id => exact hle h

/-! ## Steps -/

namespace Machine

/-- One change of a machine by evaluation, of which all values are known; frames come and go by `Plan.inFrame`. -/
inductive Step (known : Set Value) (machine : Machine) : Machine → Prop where
  | log (event : Event) : Step known machine (machine.log event)
  | alloc (new : NewObject) (hnew : new.Within known) :
      Step known machine { machine with heap := machine.heap.push (new.object machine) }
  | bindIvar (id : ObjectId) (name : String) (value : Value) (hid : .object id ∈ known)
      (hvalue : value ∈ known) :
      Step known machine { machine with heap := machine.heap.bindIvar id name value }
  | bindClassIvar (id : ClassId) (name : String) (value : Value) (hid : .classRef id ∈ known)
      (hvalue : value ∈ known) :
      Step known machine { machine with classes := machine.classes.bindIvar id name value }
  | bindLocal (name : String) (value : Value) (hvalue : value ∈ known) :
      Step known machine { machine with stack := machine.stack.bindLocal name value }
  | write (text : String) : Step known machine { machine with output := machine.output.write text }
  | define (id : ClassId) (name : String) (method : Method) (hid : .classRef id ∈ known) :
      Step known machine { machine with classes := machine.classes.define id name method }
  | create (scope : ClassId) (name : String) (superclass : ClassId)
      (hscope : .classRef scope ∈ known) (hsuperclass : .classRef superclass ∈ known)
      (hfree : machine.classes.constant? scope name = none) :
      Step known machine { machine with classes := machine.classes.create scope name superclass }

/-- A `Step` stays one when more values become known. -/
theorem Step.mono {known more : Set Value} (hle : known ⊆ more) {machine last : Machine}
    (h : Step known machine last) : Step more machine last := by
  cases h with
  | log event => exact .log event
  | alloc new hnew => exact .alloc new (hnew.mono hle)
  | bindIvar id name value hid hvalue => exact .bindIvar id name value (hle hid) (hle hvalue)
  | bindClassIvar id name value hid hvalue => exact .bindClassIvar id name value (hle hid) (hle hvalue)
  | bindLocal name value hvalue => exact .bindLocal name value (hle hvalue)
  | write text => exact .write text
  | define id name method hid => exact .define id name method (hle hid)
  | create scope name superclass hscope hsuper hfree =>
      exact .create scope name superclass (hle hscope) (hle hsuper) hfree

/-- A `Step` after another. -/
inductive Steps (known : Set Value) (machine : Machine) : Machine → Prop where
  | refl : Steps known machine machine
  | tail {middle last : Machine} : Steps known machine middle → Step known middle last →
      Steps known machine last

theorem Steps.single {known : Set Value} {machine last : Machine} (h : Step known machine last) :
    Steps known machine last := .tail .refl h

end Machine

/-! ## Values that are needed and values that are given -/

/-- The values that a `Query` is about are known. -/
def Query.Takes (known : Set Value) : {α : Type} → Query α → Prop
  | _, .methodFor receiver _ => receiver ∈ known
  | _, .asClass value => value ∈ known
  | _, .textOf value => value ∈ known
  | _, .numberOf value => value ∈ known
  | _, .itemsOf value => value ∈ known
  | _, .answerText answer => answer ∈ known
  | _, .payload value => value ∈ known
  | _, .self => True
  | _, .readLocal _ => True
  | _, .readIvar target _ => target ∈ known
  | _, .constant scope _ => .classRef scope ∈ known
  | _, .classOfReceiver receiver => receiver ∈ known
  | _, .methodTarget => True
  | _, .className id => .classRef id ∈ known
  | _, .superclass id => .classRef id ∈ known
  | _, .checkArity .. => True
  | _, .onlyArg _ args => ∀ arg ∈ args, arg ∈ known
  | _, .fitInteger .. => True

/-- The values in an answer to a `Query` are known. -/
def Query.Gives (known : Set Value) : {α : Type} → Query α → α → Prop
  | _, .methodFor receiver _, _ => receiver ≠ .nil
  | _, .asClass _, id => .classRef id ∈ known
  | _, .textOf _, _ => True
  | _, .numberOf _, _ => True
  | _, .itemsOf _, items => ∀ item ∈ items, item ∈ known
  | _, .answerText _, _ => True
  | _, .payload _, held => ∀ items, held = some (.items items) → ∀ item ∈ items, item ∈ known
  | _, .self, value => value ∈ known
  | _, .readLocal _, value => value ∈ known
  | _, .readIvar .., value => value ∈ known
  | _, .constant .., value => value ∈ known
  | _, .classOfReceiver _, id => .classRef id ∈ known
  | _, .methodTarget, id => .classRef id ∈ known
  | _, .className _, _ => True
  | _, .superclass _, value => value ∈ known
  | _, .checkArity .., _ => True
  | _, .onlyArg .., value => value ∈ known
  | _, .fitInteger .., _ => True

/-- The values that a `Change` puts somewhere are known. -/
def Change.Takes (known : Set Value) : {α : Type} → Change α → Prop
  | _, .alloc new => new.Within known
  | _, .bindIvar target _ value => target ∈ known ∧ value ∈ known
  | _, .bindLocal _ value => value ∈ known
  | _, .write _ => True
  | _, .define id _ _ => .classRef id ∈ known
  | _, .declare scope _ superclass =>
    .classRef scope ∈ known ∧ .classRef (superclass.getD ClassId.root) ∈ known
  | _, .trace _ => True

/-- `Change.Takes` asks for nothing where all values are known. -/
theorem Change.takes_all {α : Type} (change : Change α) : change.Takes Set.univ := by
  cases change with
  | alloc new => cases new <;> simp [Takes, NewObject.Within]
  | _ => simp [Takes]

/-- The value that a `Change` gives is known. -/
def Change.Gives (known : Set Value) : {α : Type} → Change α → α → Prop
  | _, .alloc _, value => value ∈ known
  | _, .bindIvar .., _ => True
  | _, .bindLocal .., _ => True
  | _, .write _, _ => True
  | _, .define .., _ => True
  | _, .declare .., id => .classRef id ∈ known
  | _, .trace _, _ => True

/-! ## Changes as steps -/

/-- `Run.declare` opens the class that has the name, or makes one when the name is free. -/
theorem Run.declare_apply (scope : ClassId) (name : String) (superclass : Option ClassId)
    (machine : Machine) :
    Run.declare scope name superclass machine
      = match machine.classes.constant? scope name with
        | some (.classRef id) => .ok id (machine.log (.classReopened (machine.classes.name id)))
        | some value => .error (.wrongKind (.classNamed name) (machine.describe value)) machine
        | none =>
          let classes := machine.classes.create scope name (superclass.getD ClassId.root)
          .ok machine.classes.size
            (Machine.log { machine with classes }
              (.classDefined (classes.name machine.classes.size)
                (classes.name (superclass.getD ClassId.root)))) := by
  rw [Run.declare, Run.get_bind, Hierarchy.declare]
  cases machine.classes.constant? scope name with
  | none => rfl
  | some value => cases value <;> rfl

open Machine in
/-- **Every `Change` is a sequence of `Steps`**, also one that ends with a fault. -/
theorem Change.steps_run {known : Set Value} {α : Type} (change : Change α)
    (htakes : change.Takes known) (machine : Machine) :
    Steps known machine (change.run.after machine) := by
  cases change with
  | alloc new =>
      rw [Run.after, Change.run_alloc]
      exact .single (.alloc new htakes)
  | bindIvar target name value =>
      cases target with
      | nil => exact .refl
      | object id => exact .single (.bindIvar id name value htakes.1 htakes.2)
      | classRef id => exact .single (.bindClassIvar id name value htakes.1 htakes.2)
  | bindLocal name value => exact .single (.bindLocal name value htakes)
  | write text => exact .single (.write text)
  | define id name method => exact .tail (.single (.log _)) (.define id name method htakes)
  | declare scope name superclass =>
      -- a class that is there is only mentioned in the journal, and a name that is taken stops the run
      show Steps known machine (Outcome.machine (Run.declare scope name superclass machine))
      rw [Run.declare_apply]
      cases hc : machine.classes.constant? scope name with
      | none => exact .tail (.single (.create scope name _ htakes.1 htakes.2 hc)) (.log _)
      | some value =>
          cases value with
          | nil => exact .refl
          | object id => exact .refl
          | classRef id => exact .single (.log _)
  | trace kind =>
      rw [Run.after, Change.run_trace]
      show Steps known machine (if machine.settings.trace then _ else machine)
      split
      · exact .single (.log _)
      · exact .refl

end ObjectTalk

import ObjectTalk.Evaluation
/-!
# `Proofs.Plan` — evaluation laid out as data

Evaluation is recursion on a node as long as no method is called and no text is asked for; both go on with
something that is no part of the node. A `Plan` keeps what is recursion on the node and names the rest: its
steps are questions to the machine (`Query`), changes of the machine (`Change`), frames, calls and requests
for texts, and its branching is on the answers.

A plan can be read in two ways.
* `Plan.follow` does it, given a way to call methods and to show values (`Services`). The evaluator is the
  case in which these are `callWithin` and `displayWith` (`Proofs.Plan.Evaluation`).
* `Plan.Ends` says how it comes to an end when a call is carried out by the body of the method and a value is
  shown by showing its parts, however deep that goes. No bound occurs in it: a plan that would go on for ever
  has no outcome.
-/

namespace ObjectTalk

/-- How a `Run` ends. -/
abbrev Outcome (α : Type) := EStateM.Result Fault Machine α

namespace Outcome

variable {α : Type}

/-- The machine with which an `Outcome` leaves off. -/
def machine : Outcome α → Machine
  | .ok _ machine => machine
  | .error _ machine => machine

/-- The result or the fault of an `Outcome`, without the machine. -/
def result : Outcome α → Except Fault α
  | .ok result _ => .ok result
  | .error fault _ => .error fault

/-- The `Outcome`, with its machine changed. -/
def through (change : Machine → Machine) : Outcome α → Outcome α
  | .ok result machine => .ok result (change machine)
  | .error fault machine => .error fault (change machine)

@[simp] theorem machine_through (change : Machine → Machine) (outcome : Outcome α) :
    machine (through change outcome) = change (machine outcome) := by
  cases outcome <;> rfl

end Outcome

namespace Machine

/-- The machine with a new frame, by `CallStack.push`. -/
def pushed (machine : Machine) (self : Value) : Machine :=
  { machine with stack := machine.stack.push self }

/-- The machine without its current frame, by `CallStack.pop`. -/
def popped (machine : Machine) : Machine :=
  { machine with stack := machine.stack.pop }

end Machine

namespace Run

variable {α β : Type}

/-- The machine when a `Run` has ended, with a result or with a fault. -/
def after (work : Run α) (machine : Machine) : Machine := Outcome.machine (work machine)

/-- A `Run` that begins with `get` looks at the machine. -/
theorem get_bind (next : Machine → Run β) (machine : Machine) :
    (get >>= next) machine = next machine machine := rfl

/-- What `>>=` does on a machine: what comes next is done only if the first work has a result. -/
theorem bind_apply (first : Run α) (next : α → Run β) (machine : Machine) :
    (first >>= next) machine
      = match first machine with
        | .ok result machine => next result machine
        | .error fault machine => .error fault machine := by
  simp only [bind, EStateM.bind]
  cases first machine <;> rfl

/-- `Run.push` puts a frame on the stack only if there is room. -/
theorem push_apply (self : Value) (machine : Machine) :
    Run.push self machine
      = if machine.stack.depth < machine.settings.maxDepth then .ok () (machine.pushed self)
        else .error (.tooDeep machine.stack.depth machine.settings.maxDepth) machine := by
  rw [Run.push, get_bind]
  split <;> rfl

/-- `Run.inFrame` takes away again the frame that it puts on the stack. -/
theorem inFrame_apply (self : Value) (body : Run α) (machine : Machine) :
    Run.inFrame self body machine
      = if machine.stack.depth < machine.settings.maxDepth then
          Outcome.through Machine.popped (body (machine.pushed self))
        else .error (.tooDeep machine.stack.depth machine.settings.maxDepth) machine := by
  rw [Run.inFrame, bind_apply, push_apply]
  by_cases h : machine.stack.depth < machine.settings.maxDepth
  · rw [if_pos h, if_pos h]
    rfl
  · rw [if_neg h, if_neg h]

/-- `Run.inCall` records the end of the call, however the body ends. -/
theorem inCall_apply (method : String) (body : Run α) (machine : Machine) :
    Run.inCall method body machine
      = Outcome.through (fun machine => machine.log (.left method))
          (body (machine.log (.entered method))) := rfl

end Run

/-! ## Questions -/

/-- What evaluation asks of a machine. A `Query` changes nothing; the answer may be a fault. -/
inductive Query : Type → Type where
  /-- The method that a message calls. -/
  | methodFor (receiver : Value) (name : String) : Query Method
  | asClass (value : Value) : Query ClassId
  | textOf (value : Value) : Query String
  | numberOf (value : Value) : Query Int64
  | itemsOf (value : Value) : Query (List Value)
  /-- The text of what `to_s` answered. -/
  | answerText (answer : Value) : Query String
  | payload (value : Value) : Query (Option Payload)
  | self : Query Value
  | readLocal (name : String) : Query Value
  | readIvar (target : Value) (name : String) : Query Value
  | constant (scope : ClassId) (name : String) : Query Value
  | classOfReceiver (receiver : Value) : Query ClassId
  /-- The class to which a method definition adds. -/
  | methodTarget : Query ClassId
  | className (id : ClassId) : Query String
  | superclass (id : ClassId) : Query Value
  | checkArity (method : String) (arity : Arity) (given : Nat) : Query Unit
  | onlyArg (operation : String) (args : List Value) : Query Value
  | fitInteger (operation : String) (number : Int) : Query Int64

namespace Query

variable {α : Type}

/-- The `Query`, asked in a `Run`. -/
def run : {α : Type} → Query α → Run α
  | _, methodFor receiver name => Run.methodFor receiver name
  | _, asClass value => Run.asClass value
  | _, textOf value => Run.textOf value
  | _, numberOf value => Run.numberOf value
  | _, itemsOf value => Run.itemsOf value
  | _, answerText answer => do
    match (← get).heap.text? answer with
    | some text => return text
    | none => Run.mismatch .stringAnswer answer
  | _, payload value => return (← get).heap.payload? value
  | _, self => Run.self
  | _, readLocal name => Run.readLocal name
  | _, readIvar target name => return (← get).ivar target name
  | _, constant scope name => Run.constant scope name
  | _, classOfReceiver receiver => ObjectTalk.classOfReceiver receiver
  | _, methodTarget => ObjectTalk.methodTarget
  | _, className id => return (← get).classes.name id
  | _, superclass id => return ((← get).classes.get id).superclass.elim .nil .classRef
  | _, checkArity method arity given => Run.checkArity method arity given
  | _, onlyArg operation args => ObjectTalk.onlyArg operation args
  | _, fitInteger operation number => ObjectTalk.fitInteger operation number

/-- The value, or the fault `Fault.wrongKind` that another value was found. -/
def orMismatch (machine : Machine) (expected : Expectation) (found : Value) :
    Option α → Except Fault α
  | some answer => .ok answer
  | none => .error (.wrongKind expected (machine.describe found))

theorem eq_some_of_orMismatch {machine : Machine} {expected : Expectation} {found : Value}
    {option : Option α} {answer : α} (h : orMismatch machine expected found option = .ok answer) :
    option = some answer := by
  cases option with
  | none => cases h
  | some _ =>
      cases h
      rfl

theorem eq_none_of_orMismatch {machine : Machine} {expected : Expectation} {found : Value}
    {option : Option α} {fault : Fault} (h : orMismatch machine expected found option = .error fault) :
    option = none ∧ fault = .wrongKind expected (machine.describe found) := by
  cases option with
  | none =>
      cases h
      exact ⟨rfl, rfl⟩
  | some _ => cases h

/-- The answer that a machine gives to a `Query`. -/
def ask : {α : Type} → Query α → Machine → Except Fault α
  | _, methodFor receiver name, machine => machine.methodFor receiver name
  | _, asClass value, machine =>
    orMismatch machine .aClass value (match value with | .classRef id => some id | _ => none)
  | _, textOf value, machine => orMismatch machine .string value (machine.heap.text? value)
  | _, numberOf value, machine => orMismatch machine .integer value (machine.heap.number? value)
  | _, itemsOf value, machine => orMismatch machine .array value (machine.heap.items? value)
  | _, answerText answer, machine =>
    orMismatch machine .stringAnswer answer (machine.heap.text? answer)
  | _, payload value, machine => .ok (machine.heap.payload? value)
  | _, self, machine => .ok machine.stack.current.self
  | _, readLocal name, machine => .ok ((machine.stack.current.locals.get? name).getD .nil)
  | _, readIvar target name, machine => .ok (machine.ivar target name)
  | _, constant scope name, machine =>
    match machine.classes.constant? scope name with
    | some value => .ok value
    | none => .error (.unboundConstant name (machine.classes.name scope))
  | _, classOfReceiver receiver, machine =>
    orMismatch machine .anObject .nil (machine.classOf? receiver)
  | _, methodTarget, machine =>
    orMismatch machine .methodHolder .nil
      (match machine.stack.current.self with
        | .classRef id => some id
        | other => machine.classOf? other)
  | _, className id, machine => .ok (machine.classes.name id)
  | _, superclass id, machine => .ok ((machine.classes.get id).superclass.elim .nil .classRef)
  | _, checkArity method arity given, _ =>
    if arity.admits given then .ok () else .error (.wrongArity method arity given)
  | _, onlyArg operation args, _ =>
    match args with
    | [arg] => .ok arg
    | args => .error (.wrongArity operation (.exactly 1) args.length)
  | _, fitInteger operation number, _ =>
    if Int64.minValue.toInt ≤ number ∧ number ≤ Int64.maxValue.toInt then .ok (Int64.ofInt number)
    else .error (.outOfRange operation)

/-- The `Outcome` of asking: the machine stays as it is. -/
def outcome (machine : Machine) : Except Fault α → Outcome α
  | .ok answer => .ok answer machine
  | .error fault => .error fault machine

/-- **Asking changes nothing**: `Query.run` gives the answer of `Query.ask`. -/
theorem run_eq_outcome (query : Query α) (machine : Machine) :
    query.run machine = outcome machine (query.ask machine) := by
  cases query with
  | methodFor receiver name =>
      simp only [run, ask, Run.methodFor, Run.get_bind]
      cases machine.methodFor receiver name <;> rfl
  | asClass value => cases value <;> rfl
  | textOf value =>
      simp only [run, ask, Run.textOf, Run.get_bind]
      cases machine.heap.text? value <;> rfl
  | numberOf value =>
      simp only [run, ask, Run.numberOf, Run.get_bind]
      cases machine.heap.number? value <;> rfl
  | itemsOf value =>
      simp only [run, ask, Run.itemsOf, Run.get_bind]
      cases machine.heap.items? value <;> rfl
  | answerText answer =>
      simp only [run, ask, Run.get_bind]
      cases machine.heap.text? answer <;> rfl
  | payload value => rfl
  | self => rfl
  | readLocal name => rfl
  | readIvar target name => rfl
  | constant scope name =>
      simp only [run, ask, Run.constant, Run.get_bind]
      cases machine.classes.constant? scope name <;> rfl
  | classOfReceiver receiver =>
      simp only [run, ask, ObjectTalk.classOfReceiver, Run.get_bind]
      cases machine.classOf? receiver <;> rfl
  | methodTarget =>
      have hself : Run.self machine = .ok machine.stack.current.self machine := rfl
      rw [run, ask, ObjectTalk.methodTarget, Run.bind_apply, hself]
      cases machine.stack.current.self <;> rfl
  | className id => rfl
  | superclass id => rfl
  | checkArity method arity given =>
      simp only [run, ask, Run.checkArity]
      split <;> rfl
  | onlyArg operation args => rcases args with _ | ⟨arg, _ | ⟨other, rest⟩⟩ <;> rfl
  | fitInteger operation number =>
      simp only [run, ask, ObjectTalk.fitInteger]
      split <;> rfl

theorem eq_of_run_ok {query : Query α} {machine middle : Machine} {answer : α}
    (h : query.run machine = .ok answer middle) : middle = machine := by
  rw [run_eq_outcome] at h
  cases hask : query.ask machine with
  | ok _ =>
      rw [hask] at h
      cases h
      rfl
  | error _ =>
      rw [hask] at h
      cases h

end Query

/-! ## Changes -/

/-- What `Change.alloc` allocates. -/
inductive NewObject where
  | string (text : String)
  | integer (number : Int64)
  | array (items : List Value)
  /-- An instance of a class, not yet initialised. -/
  | ofClass (id : ClassId)

/-- The `Object` as it is when it is new. -/
def NewObject.object (machine : Machine) : NewObject → Object
  | string text => { classId := ClassId.string, payload := some (.text text) }
  | integer number => { classId := ClassId.integer, payload := some (.number number) }
  | array items => { classId := ClassId.array, payload := some (.items items) }
  | ofClass id => { classId := id, payload := machine.emptyPayload id }

/-- What evaluation does to a machine, apart from frames, which `Plan.inFrame` makes. -/
inductive Change : Type → Type where
  | alloc (new : NewObject) : Change Value
  | bindIvar (target : Value) (name : String) (value : Value) : Change Unit
  | bindLocal (name : String) (value : Value) : Change Unit
  | write (text : String) : Change Unit
  | define (id : ClassId) (name : String) (method : Method) : Change Unit
  | declare (scope : ClassId) (name : String) (superclass : Option ClassId) : Change ClassId
  /-- Record that a node is about to be evaluated. -/
  | trace (kind : String) : Change Unit

namespace Change

/-- The `Change`, made in a `Run`. -/
def run : {α : Type} → Change α → Run α
  | _, alloc (.string text) => Run.allocString text
  | _, alloc (.integer number) => Run.allocInteger number
  | _, alloc (.array items) => Run.allocArray items
  | _, alloc (.ofClass id) => Run.allocInstance id
  | _, bindIvar target name value => Run.bindIvar target name value
  | _, bindLocal name value => Run.bindLocal name value
  | _, write text => Run.write text
  | _, define id name method => Run.define id name method
  | _, declare scope name superclass => Run.declare scope name superclass
  | _, trace kind => do
    let machine ← get
    if machine.settings.trace then
      Run.log (.evaluating kind machine.stack.depth)

/-- A `NewObject` comes to stand at the end of the heap. -/
theorem run_alloc (new : NewObject) (machine : Machine) :
    (alloc new).run machine
      = .ok (.object machine.heap.size)
          { machine with heap := machine.heap.push (new.object machine) } := by
  cases new <;> rfl

/-- `Change.trace` records a node only if the machine is to trace. -/
theorem run_trace (kind : String) (machine : Machine) :
    (trace kind).run machine
      = .ok () (if machine.settings.trace then machine.log (.evaluating kind machine.stack.depth)
          else machine) := by
  show (if machine.settings.trace then Run.log (.evaluating kind machine.stack.depth) else pure ()) machine = _
  by_cases htrace : machine.settings.trace
  · rw [if_pos htrace, if_pos htrace]
    rfl
  · rw [if_neg htrace, if_neg htrace]
    rfl

end Change

/-! ## Plans -/

/-- What evaluation does, step by step, up to the methods it calls (`Plan.call`) and the texts it asks for
    (`Plan.display`). -/
inductive Plan : Type → Type 1 where
  | done {α : Type} (result : α) : Plan α
  | stop {α : Type} (fault : Fault) : Plan α
  | query {α : Type} (question : Query α) : Plan α
  | change {α : Type} (step : Change α) : Plan α
  | andThen {α β : Type} (first : Plan α) (next : α → Plan β) : Plan β
  /-- Do `body` in a frame of its own. -/
  | inFrame {α : Type} (self : Value) (body : Plan α) : Plan α
  /-- Do `body` between the events that begin and end a call. -/
  | inCall {α : Type} (method : String) (body : Plan α) : Plan α
  | call (receiver : Value) (name : String) (method : Method) (args : List Value) : Plan Value
  | display (value : Value) : Plan String
  /-- Stop because the call stack is as deep as allowed. -/
  | overflow {α : Type} : Plan α

/-- How `Plan.call` and `Plan.display` are carried out. -/
structure Services where
  call : Caller
  display : Value → Run String

namespace Plan

variable {α β : Type}

instance : Monad Plan where
  pure := done
  bind := andThen

/-- Do what the `Plan` says. -/
def follow (services : Services) : {α : Type} → Plan α → Run α
  | _, done result => pure result
  | _, stop fault => throw fault
  | _, .query question => question.run
  | _, .change step => step.run
  | _, andThen first next => do
    let result ← first.follow services
    (next result).follow services
  | _, inFrame self body => Run.inFrame self (body.follow services)
  | _, inCall method body => Run.inCall method (body.follow services)
  | _, call receiver name method args => services.call receiver name method args
  | _, display value => services.display value
  | _, overflow => Run.overflow

/-- To follow `first >>= next` is to follow the one and then the other. -/
@[simp] theorem follow_bind (services : Services) (first : Plan α) (next : α → Plan β) :
    (first >>= next).follow services
      = first.follow services >>= fun result => (next result).follow services := rfl

end Plan

end ObjectTalk

import ObjectTalk.Hierarchy.Initial
import ObjectTalk.Event
import ObjectTalk.CallStack
/-!
# `Machine` — the state of an evaluation

A machine holds the classes, the heap, the call stack, what has been written and the journal. A `Run` is a
piece of work on a machine: it ends with a result or with a fault, and in both cases with a machine, so
that what happened before a fault stays. This module has the steps of which evaluation is made; none of
them evaluates anything itself.

Text that is written is kept by the machine or dropped (`Output`). Neither refuses text, so writing has no
fault. Left out is a place for text outside the machine, which might refuse it.
-/

namespace ObjectTalk

/-- What a machine is told when it is made. -/
structure Settings where
  /-- How many frames the call stack may hold. -/
  maxDepth : Nat := 1000
  /-- Whether the journal records each node that is evaluated. -/
  trace : Bool := false
deriving DecidableEq, Repr, Inhabited

/-- Where the text goes that programs write. Both places take any text. -/
inductive Output where
  /-- It is kept. -/
  | kept (text : String)
  /-- It is dropped. -/
  | dropped
deriving DecidableEq, Repr, Inhabited

namespace Output

/-- Append text. -/
def write (text : String) : Output → Output
  | kept before => kept (before ++ text)
  | dropped => dropped

/-- The text kept so far, if text is kept. -/
def text? : Output → Option String
  | kept text => some text
  | dropped => none

/-- The text kept so far, and the output without it. -/
def drain : Output → String × Output
  | kept text => (text, kept "")
  | dropped => ("", dropped)

end Output

/-- The state of an evaluation. -/
structure Machine where
  classes : Hierarchy
  heap : Heap
  stack : CallStack
  output : Output
  settings : Settings
  journal : Array Event
deriving Inhabited

/-- Work on a machine that ends with a result or a fault. -/
abbrev Run (α : Type) := EStateM Fault Machine α

namespace Machine

/-- The self of the top level. -/
def main : Value := .object 0

/-- A new machine. The journal begins with the definitions of the built-in methods. -/
def boot (settings : Settings) (output : Output) : Machine where
  classes := Hierarchy.initial
  heap := Heap.push {} { classId := ClassId.root }
  stack := .ofBottom { self := main }
  output := output
  settings := settings
  journal := (Hierarchy.builtins.map fun entry =>
    Event.methodDefined (Hierarchy.bare.name entry.owner) entry.name).toArray

/-- The class of a value; `nil` has none. -/
def classOf? (machine : Machine) : Value → Option ClassId
  | .nil => none
  | .object id => some (machine.heap.get id).classId
  | .classRef id => some (machine.classes.get id).classId

/-- A value as messages describe it. -/
def describe (machine : Machine) : Value → String
  | .nil => "nil"
  | .classRef id => machine.classes.name id ++ ":Class"
  | .object id => "an instance of " ++ machine.classes.name (machine.heap.get id).classId

/-- The method that a message to `receiver` calls. -/
def methodFor (machine : Machine) (receiver : Value) (name : String) : Except Fault Method :=
  match (machine.classOf? receiver).bind fun id => machine.classes.lookup id name with
  | some (_, method) => .ok method
  | none => .error (.notUnderstood name (machine.describe receiver))

/-- An instance variable; one that is not bound reads as `nil`. -/
def ivar (machine : Machine) (target : Value) (name : String) : Value :=
  match target with
  | .nil => .nil
  | .object id => ((machine.heap.get id).ivars.get? name).getD .nil
  | .classRef id => ((machine.classes.get id).ivars.get? name).getD .nil

/-- What a new instance of a class holds: the empty payload of the primitive class it descends from. -/
def emptyPayload (machine : Machine) (id : ClassId) : Option Payload :=
  if machine.classes.descends id ClassId.string then some (.text "")
  else if machine.classes.descends id ClassId.integer then some (.number 0)
  else if machine.classes.descends id ClassId.array then some (.items [])
  else none

/-- The machine after an event. -/
def log (machine : Machine) (event : Event) : Machine :=
  { machine with journal := machine.journal.push event }

/-- How many frames may still be put on the call stack. -/
def room (machine : Machine) : Nat :=
  machine.settings.maxDepth - machine.stack.depth

end Machine

namespace Run

/-- Record an event. -/
def log (event : Event) : Run Unit :=
  modify fun machine => machine.log event

/-- Stop because a value of another kind was called for. -/
def mismatch {α : Type} (expected : Expectation) (found : Value) : Run α := do
  throw (.wrongKind expected ((← get).describe found))

/-- The method that a message to `receiver` calls. -/
def methodFor (receiver : Value) (name : String) : Run Method := do
  match (← get).methodFor receiver name with
  | .ok method => return method
  | .error fault => throw fault

/-- The class that a value is. -/
def asClass : Value → Run ClassId
  | .classRef id => return id
  | value => mismatch .aClass value

/-- The text of a string. -/
def textOf (value : Value) : Run String := do
  match (← get).heap.text? value with
  | some text => return text
  | none => mismatch .string value

/-- The number of an integer. -/
def numberOf (value : Value) : Run Int64 := do
  match (← get).heap.number? value with
  | some number => return number
  | none => mismatch .integer value

/-- The items of an array. -/
def itemsOf (value : Value) : Run (List Value) := do
  match (← get).heap.items? value with
  | some items => return items
  | none => mismatch .array value

/-- Allocate an object. -/
def alloc (object : Object) : Run Value :=
  modifyGet fun machine =>
    (.object machine.heap.size, { machine with heap := machine.heap.push object })

/-- Allocate a string. -/
def allocString (text : String) : Run Value :=
  alloc { classId := ClassId.string, payload := some (.text text) }

/-- Allocate an integer. -/
def allocInteger (number : Int64) : Run Value :=
  alloc { classId := ClassId.integer, payload := some (.number number) }

/-- Allocate an array. -/
def allocArray (items : List Value) : Run Value :=
  alloc { classId := ClassId.array, payload := some (.items items) }

/-- Allocate an instance of a class. -/
def allocInstance (id : ClassId) : Run Value := do
  alloc { classId := id, payload := (← get).emptyPayload id }

/-- Bind an instance variable; `nil` has none. -/
def bindIvar (target : Value) (name : String) (value : Value) : Run Unit :=
  match target with
  | .nil => mismatch .ivarHolder .nil
  | .object id => modify fun machine => { machine with heap := machine.heap.bindIvar id name value }
  | .classRef id =>
    modify fun machine => { machine with classes := machine.classes.bindIvar id name value }

/-- The self of the current frame. -/
def self : Run Value :=
  return (← get).stack.current.self

/-- A local variable of the current frame; one that is not bound reads as `nil`. -/
def readLocal (name : String) : Run Value :=
  return ((← get).stack.current.locals.get? name).getD .nil

/-- Bind a local variable of the current frame. -/
def bindLocal (name : String) (value : Value) : Run Unit :=
  modify fun machine => { machine with stack := machine.stack.bindLocal name value }

/-- Write text. -/
def write (text : String) : Run Unit :=
  modify fun machine => { machine with output := machine.output.write text }

/-- Store a method in a class. -/
def define (id : ClassId) (name : String) (method : Method) : Run Unit :=
  modify fun machine =>
    { machine.log (.methodDefined (machine.classes.name id) name) with
      classes := machine.classes.define id name method }

/-- The class called `name` in a namespace; it is made when the name is free. -/
def declare (scope : ClassId) (name : String) (superclass : Option ClassId) : Run ClassId := do
  let machine ← get
  match machine.classes.declare scope name superclass with
  | .known id =>
    log (.classReopened (machine.classes.name id))
    return id
  | .taken value => mismatch (.classNamed name) value
  | .created classes id =>
    set { machine with classes }
    log (.classDefined (classes.name id) (classes.name (superclass.getD ClassId.root)))
    return id

/-- A constant of a namespace. -/
def constant (scope : ClassId) (name : String) : Run Value := do
  let machine ← get
  match machine.classes.constant? scope name with
  | some value => return value
  | none => throw (.unboundConstant name (machine.classes.name scope))

/-- Bind a constant of a namespace. -/
def bindConstant (scope : ClassId) (name : String) (value : Value) : Run Unit :=
  modify fun machine => { machine with classes := machine.classes.bindConstant scope name value }

/-- The text written so far, which is then forgotten. -/
def drain : Run String :=
  modifyGet fun machine =>
    let (text, output) := machine.output.drain
    (text, { machine with output })

/-- Stop because the call stack is as deep as allowed. -/
def overflow {α : Type} : Run α := do
  let machine ← get
  throw (.tooDeep machine.stack.depth machine.settings.maxDepth)

/-- Put a frame on the call stack, if there is room. -/
def push (self : Value) : Run Unit := do
  let machine ← get
  if machine.stack.depth < machine.settings.maxDepth then
    set { machine with stack := machine.stack.push self }
  else
    overflow

/-- Take the current frame away. -/
def pop : Run Unit :=
  modify fun machine => { machine with stack := machine.stack.pop }

/-- Do `body`, then `after`, whether `body` ends with a result or with a fault. -/
@[inline] def always {α : Type} (body : Run α) (after : Machine → Machine) : Run α := fun machine =>
  match body machine with
  | .ok result machine => .ok result (after machine)
  | .error fault machine => .error fault (after machine)

/-- Do `body` in a frame of its own. -/
@[inline] def inFrame {α : Type} (self : Value) (body : Run α) : Run α := do
  push self
  always body fun machine => { machine with stack := machine.stack.pop }

/-- Do `body` between the events that begin and end a call. -/
@[inline] def inCall {α : Type} (method : String) (body : Run α) : Run α := do
  log (.entered method)
  always body fun machine => machine.log (.left method)

/-- Check the number of arguments. -/
def checkArity (method : String) (arity : Arity) (given : Nat) : Run Unit :=
  if arity.admits given then return () else throw (.wrongArity method arity given)

end Run

end ObjectTalk

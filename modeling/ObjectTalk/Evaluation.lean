import ObjectTalk.Machine
/-!
# `Evaluation` — nodes, messages and calls

Evaluating a node follows the node, except that a call of a method goes on with the method's body, which
is no part of the node. So evaluation is written for any `Caller`, a way to call methods, and is then
recursion on the tree. Calling a method puts a frame on the call stack, and the stack is bounded:
`callWithin` is recursion on the number of frames for which there is still room.
-/

namespace ObjectTalk

/-- A way to call a method: on a receiver, under a name, with arguments. -/
abbrev Caller := Value → String → Method → List Value → Run Value

/-! ## Messages and texts -/

/-- Send a message: find the method, then call it. -/
def sendWith (call : Caller) (receiver : Value) (name : String) (args : List Value) : Run Value := do
  let method ← Run.methodFor receiver name
  call receiver name method args

/-- The text that a value gives for itself when asked by message. -/
def askText (call : Caller) (value : Value) : Run String := do
  let answer ← sendWith call value "to_s" []
  match (← get).heap.text? answer with
  | some text => return text
  | none => Run.mismatch .stringAnswer answer

/-- The text of an array, given the texts of its items. -/
def bracketed (texts : List String) : String :=
  "[" ++ ", ".intercalate texts ++ "]"

/-- The text of a value, where arrays stand at most `levels` deep inside one another: `nil` is empty, a
payload is written as it is, and any other value is asked for its text. -/
def displayUpTo (call : Caller) : (levels : Nat) → Value → Run String
  | _, .nil => return ""
  | 0, value => askText call value
  | levels + 1, value => do
    match (← get).heap.payload? value with
    | some (.text text) => return text
    | some (.number number) => return toString number.toInt
    | some (.items items) => return bracketed (← items.mapM (displayUpTo call levels))
    | none => askText call value

/-- The text of a value. The items of an array are older than the array, so the rank of the value is
deep enough. -/
def displayWith (call : Caller) (value : Value) : Run String :=
  displayUpTo call value.rank value

/-! ## Built-in methods -/

/-- The text as a line: it ends with a line feed. -/
def asLine (text : String) : String :=
  if text.toList.getLast? = some '\n' then text else text ++ "\n"

/-- The only argument of an operation. -/
def onlyArg (operation : String) : List Value → Run Value
  | [arg] => return arg
  | args => throw (.wrongArity operation (.exactly 1) args.length)

/-- A number as a 64-bit integer. -/
def fitInteger (operation : String) (number : Int) : Run Int64 :=
  if Int64.minValue.toInt ≤ number ∧ number ≤ Int64.maxValue.toInt then return Int64.ofInt number
  else throw (.outOfRange operation)

/-- An arithmetic operation on a number and the only argument. -/
def arithmetic (operation : String) (apply : Int → Int → Int) (left : Int64) (args : List Value) :
    Run Value := do
  let arg ← onlyArg operation args
  let right ← Run.numberOf arg
  let result ← fitInteger operation (apply left.toInt right.toInt)
  Run.allocInteger result

/-- The item at a place; places below zero count from the end, and beyond the ends there is `nil`. -/
def itemAt (items : List Value) (place : Int) : Value :=
  let place := if place < 0 then items.length + place else place
  if place < 0 then .nil else items.getD place.toNat .nil

/-- The class of the receiver. -/
def classOfReceiver (receiver : Value) : Run ClassId := do
  match (← get).classOf? receiver with
  | some id => return id
  | none => Run.mismatch .anObject .nil

/-- Make an instance and let it initialise itself; what that answers is dropped. -/
def instantiateWith (call : Caller) (receiver : Value) (args : List Value) : Run Value := do
  let id ← Run.asClass receiver
  if id = ClassId.metaclass then
    throw (.wrongKind .instantiable "Class")
  let object ← Run.allocInstance id
  let _ ← sendWith call object "initialize" args
  return object

/-- Write each argument on its line, or an empty line when there is none. -/
def putsWith (call : Caller) (args : List Value) : Run Value := do
  if args.isEmpty then
    Run.write "\n"
  else
    args.forM fun arg => do Run.write (asLine (← displayWith call arg))
  return .nil

/-- How a built-in method does its work. Those of strings, integers and arrays work on what the receiver
holds. -/
inductive Handler where
  /-- Works on the receiver as it is. -/
  | onReceiver (work : Caller → Value → List Value → Run Value)
  /-- Works on the text that the receiver holds. -/
  | onText (work : String → List Value → Run Value)
  /-- Works on the number that the receiver holds. -/
  | onNumber (work : Int64 → List Value → Run Value)
  /-- Works on the items that the receiver holds. -/
  | onItems (work : List Value → List Value → Run Value)

/-- Ask the receiver for what the handler works on, and then do the work. -/
def Handler.applyWith (call : Caller) (receiver : Value) (args : List Value) : Handler → Run Value
  | onReceiver work => work call receiver args
  | onText work => do
    let text ← Run.textOf receiver
    work text args
  | onNumber work => do
    let number ← Run.numberOf receiver
    work number args
  | onItems work => do
    let items ← Run.itemsOf receiver
    work items args

/-- What the built-in methods do. -/
def Builtin.handler : Builtin → Handler
  | puts => .onReceiver fun call _ args => putsWith call args
  | print => .onReceiver fun call _ args => do
    args.forM fun arg => do Run.write (← displayWith call arg)
    return .nil
  | objectText => .onReceiver fun _ receiver _ => do
    let id ← classOfReceiver receiver
    Run.allocString ("#<" ++ (← get).classes.name id ++ ">")
  | classOf => .onReceiver fun _ receiver _ => do
    return .classRef (← classOfReceiver receiver)
  | noop => .onReceiver fun _ _ _ => return .nil
  | identity => .onReceiver fun _ receiver _ => return receiver
  | instantiate => .onReceiver instantiateWith
  | className => .onReceiver fun _ receiver _ => do
    let id ← Run.asClass receiver
    Run.allocString ((← get).classes.name id)
  | superclass => .onReceiver fun _ receiver _ => do
    let id ← Run.asClass receiver
    return ((← get).classes.get id).superclass.elim .nil .classRef
  | concat => .onText fun left args => do
    let arg ← onlyArg "+" args
    let right ← Run.textOf arg
    Run.allocString (left ++ right)
  | length => .onText fun text _ => do
    let count ← fitInteger "length" text.length
    Run.allocInteger count
  | add => .onNumber (arithmetic "+" (· + ·))
  | subtract => .onNumber (arithmetic "-" (· - ·))
  | multiply => .onNumber (arithmetic "*" (· * ·))
  | integerText => .onNumber fun number _ => Run.allocString (toString number.toInt)
  | size => .onItems fun items _ => do
    let count ← fitInteger "size" items.length
    Run.allocInteger count
  | itemAt => .onItems fun items args => do
    let arg ← onlyArg "[]" args
    let place ← Run.numberOf arg
    return ObjectTalk.itemAt items place.toInt

/-- Do what a built-in method does. -/
def Builtin.applyWith (call : Caller) (action : Builtin) (receiver : Value) (args : List Value) :
    Run Value :=
  action.handler.applyWith call receiver args

/-! ## Nodes -/

/-- Record that a node is about to be evaluated, if the machine is to trace. -/
def traceNode (node : Node) : Run Unit := do
  let machine ← get
  if machine.settings.trace then
    Run.log (.evaluating node.kind machine.stack.depth)

/-- The class to which a method definition adds: self when it is a class, and otherwise self's class. -/
def methodTarget : Run ClassId := do
  match ← Run.self with
  | .classRef id => return id
  | self =>
    match (← get).classOf? self with
    | some id => return id
    | none => Run.mismatch .methodHolder .nil

mutual

/-- Evaluate a node. -/
def evalWith (call : Caller) : Node → Run Value
  | node@(.sequence statements) => do
    traceNode node
    evalStatements call .nil statements
  | node@(.classDef scope name superclass body) => do
    traceNode node
    let scope ← evalScope call scope
    let superclass ← evalSuperclass call superclass
    let id ← Run.declare scope name superclass
    Run.inFrame (.classRef id) (evalWith call body)
  | node@(.methodDef name signature body) => do
    traceNode node
    let id ← methodTarget
    Run.define id name (.written signature body)
    Run.allocString name
  | node@(.localAssign name value) => do
    traceNode node
    let value ← evalWith call value
    Run.bindLocal name value
    return value
  | node@(.ivarAssign name value) => do
    traceNode node
    let value ← evalWith call value
    let self ← Run.self
    Run.bindIvar self name value
    return value
  | node@(.localRead name) => do
    traceNode node
    Run.readLocal name
  | node@(.ivarRead name) => do
    traceNode node
    let self ← Run.self
    return (← get).ivar self name
  | node@(.send receiver method args) => do
    traceNode node
    let receiver ← evalReceiver call receiver
    let args ← evalAll call args
    sendWith call receiver method args
  | node@(.constRef scope name) => do
    traceNode node
    let scope ← evalScope call scope
    Run.constant scope name
  | node@(.stringLit text) => do
    traceNode node
    Run.allocString text
  | node@(.integerLit value) => do
    traceNode node
    Run.allocInteger value
  | node@(.interpolated parts) => do
    traceNode node
    let text ← evalParts call "" parts
    Run.allocString text

/-- Evaluate statements in order; gives the last value, or `last` when there is no statement. -/
def evalStatements (call : Caller) (last : Value) : List Node → Run Value
  | [] => return last
  | node :: nodes => do
    let value ← evalWith call node
    evalStatements call value nodes

/-- Evaluate nodes in order; gives all values. -/
def evalAll (call : Caller) : List Node → Run (List Value)
  | [] => return []
  | node :: nodes => do
    let value ← evalWith call node
    let values ← evalAll call nodes
    return value :: values

/-- Evaluate nodes in order and append their texts to `text`, each before the next is evaluated. -/
def evalParts (call : Caller) (text : String) : List Node → Run String
  | [] => return text
  | node :: nodes => do
    let value ← evalWith call node
    let part ← displayWith call value
    evalParts call (text ++ part) nodes

/-- The namespace that a scope denotes; without a scope it is the root class. -/
def evalScope (call : Caller) : Option Node → Run ClassId
  | none => return ClassId.root
  | some node => do
    let value ← evalWith call node
    Run.asClass value

/-- The superclass of a class definition, if one is written. -/
def evalSuperclass (call : Caller) : Option Node → Run (Option ClassId)
  | none => return none
  | some node => do
    let value ← evalWith call node
    let id ← Run.asClass value
    return some id

/-- The receiver of a message; without one it is self. -/
def evalReceiver (call : Caller) : Option Node → Run Value
  | none => Run.self
  | some node => evalWith call node

end

/-! ## Calls -/

/-- Bind the fixed parameters to the first arguments, one after another; gives the arguments that are left,
or stops at the first parameter for which there is none. -/
def bindFixed (missing : Fault) : List String → List Value → Run (List Value)
  | [], args => return args
  | _ :: _, [] => throw missing
  | name :: names, arg :: args => do
    Run.bindLocal name arg
    bindFixed missing names args

/-- Bind the rest parameter to an array of the arguments that are left. Without one, none may be left. -/
def bindRest (surplus : Fault) : Option String → List Value → Run Unit
  | some name, left => do
    let array ← Run.allocArray left
    Run.bindLocal name array
  | none, [] => return ()
  | none, _ :: _ => throw surplus

/-- Bind the parameters of a method in the current frame. -/
def assignParams (method : String) (signature : Signature) (args : List Value) : Run Unit := do
  let mismatch := Fault.wrongArity method signature.arity args.length
  let left ← bindFixed mismatch signature.fixed args
  bindRest mismatch signature.rest left

/-- Carry out a method in its frame. -/
def invokeWith (call : Caller) (receiver : Value) (name : String) (args : List Value) :
    Method → Run Value
  | .written signature body => do
    assignParams name signature args
    evalWith call body
  | .builtin _ _ action => action.applyWith call receiver args

/-- Call a method when there is room for at most `room` more frames. -/
def callWithin : (room : Nat) → Caller
  | 0, _, name, method, args =>
    Run.inCall name do
      Run.checkArity name method.arity args.length
      Run.overflow
  | room + 1, receiver, name, method, args =>
    Run.inCall name do
      Run.checkArity name method.arity args.length
      Run.inFrame receiver (invokeWith (callWithin room) receiver name args method)

namespace Machine

/-- Evaluate a node in the current frame. -/
def eval (node : Node) : Run Value := fun machine =>
  evalWith (callWithin machine.room) node machine

/-- Call a method. -/
def call (receiver : Value) (name : String) (method : Method) (args : List Value) : Run Value :=
  fun machine => callWithin machine.room receiver name method args machine

/-- Send a message. -/
def send (receiver : Value) (name : String) (args : List Value) : Run Value := fun machine =>
  sendWith (callWithin machine.room) receiver name args machine

/-- The text of a value. -/
def display (value : Value) : Run String := fun machine =>
  displayWith (callWithin machine.room) value machine

/-- Evaluate a program; a fault that stops it is recorded. -/
def run (program : Node) : Run Value := fun machine =>
  match eval program machine with
  | .ok value machine => .ok value machine
  | .error fault machine => .error fault (machine.log (.aborted fault))

end Machine

end ObjectTalk

import ObjectTalk.Proofs.Plan.Basic
/-!
# `Proofs.Plan.Evaluation` — the plans of evaluation

The plan of each piece of evaluation, and that the evaluator follows it. A node's plan is recursion on the
node; `called` is how a method is called and `displayed` how a value is shown, one level deep. The
evaluator's own recursion, on the room left and on the depth of arrays, is met only in `callWithin_succ` and
`displayUpTo_succ`: below them stand all statements about evaluation that are proved by following a plan.
-/

namespace ObjectTalk

namespace Plan

/-! ## The plans of evaluation -/

/-- The plan of `sendWith`: find the method, then call it. -/
def send (receiver : Value) (name : String) (args : List Value) : Plan Value := do
  let method ← query (.methodFor receiver name)
  call receiver name method args

/-- The plan of `ObjectTalk.askText`: the text that a value gives for itself when it is sent `to_s`. -/
def askText (value : Value) : Plan String := do
  let answer ← send value "to_s" []
  query (.answerText answer)

/-- `Plan.display` for values in order; gives all texts. -/
def displayAll : List Value → Plan (List String)
  | [] => return []
  | value :: values => do
    let text ← display value
    let texts ← displayAll values
    return text :: texts

/-- How a value is shown, given what it holds: the second half of `displayed`. -/
def displayHolding (value : Value) : Option Payload → Plan String
  | some (.text text) => return text
  | some (.number number) => return toString number.toInt
  | some (.items items) => do
    let texts ← displayAll items
    return bracketed texts
  | none => askText value

/-- One level of `displayUpTo`: the items of an array are shown in turn. -/
def displayed : Value → Plan String
  | .nil => return ""
  | value => do
    let payload ← query (.payload value)
    displayHolding value payload

/-- The last level of `displayUpTo`, where arrays may stand no deeper. -/
def displayedFlat : Value → Plan String
  | .nil => return ""
  | value => askText value

/-- `Plan.display` for values in order; each text is written as `form` makes it. -/
def writeAll (form : String → String) : List Value → Plan Unit
  | [] => return ()
  | value :: values => do
    let text ← display value
    change (.write (form text))
    writeAll form values

/-- The plan of `putsWith`, up to its answer: each argument on its line, or an empty line when there is none. -/
def writeLines (args : List Value) : Plan Unit :=
  if args.isEmpty then change (.write "\n") else writeAll asLine args

/-- The plan of a `Handler.onNumber` that does `ObjectTalk.arithmetic`. -/
def arithmetic (operation : String) (apply : Int → Int → Int) (receiver : Value) (args : List Value) :
    Plan Value := do
  let left ← query (.numberOf receiver)
  let arg ← query (.onlyArg operation args)
  let right ← query (.numberOf arg)
  let result ← query (.fitInteger operation (apply left.toInt right.toInt))
  change (.alloc (.integer result))

/-- Define or open a class, and do `body` in a frame for it. -/
def classDefinition (scope : Plan ClassId) (name : String) (superclass : Plan (Option ClassId))
    (body : Plan Value) : Plan Value := do
  change (.trace "class-def")
  let scope ← scope
  let superclass ← superclass
  let id ← change (.declare scope name superclass)
  inFrame (.classRef id) body

/-- The plan of `instantiateWith`: make an instance and let it initialise itself. -/
def instantiate (receiver : Value) (args : List Value) : Plan Value := do
  let id ← query (.asClass receiver)
  if id = ClassId.metaclass then
    stop (.wrongKind .instantiable "Class")
  else
    let object ← change (.alloc (.ofClass id))
    let _ ← send object "initialize" args
    return object

/-- The plan of `Builtin.applyWith`. -/
def builtin (action : Builtin) (receiver : Value) (args : List Value) : Plan Value :=
  match action with
  | .puts => do
    writeLines args
    return .nil
  | .print => do
    writeAll id args
    return .nil
  | .objectText => do
    let id ← query (.classOfReceiver receiver)
    let name ← query (.className id)
    change (.alloc (.string ("#<" ++ name ++ ">")))
  | .classOf => do
    let id ← query (.classOfReceiver receiver)
    return .classRef id
  | .noop => return .nil
  | .identity => return receiver
  | .instantiate => instantiate receiver args
  | .className => do
    let id ← query (.asClass receiver)
    let name ← query (.className id)
    change (.alloc (.string name))
  | .superclass => do
    let id ← query (.asClass receiver)
    query (.superclass id)
  | .concat => do
    let left ← query (.textOf receiver)
    let arg ← query (.onlyArg "+" args)
    let right ← query (.textOf arg)
    change (.alloc (.string (left ++ right)))
  | .length => do
    let text ← query (.textOf receiver)
    let count ← query (.fitInteger "length" text.length)
    change (.alloc (.integer count))
  | .add => arithmetic "+" (· + ·) receiver args
  | .subtract => arithmetic "-" (· - ·) receiver args
  | .multiply => arithmetic "*" (· * ·) receiver args
  | .integerText => do
    let number ← query (.numberOf receiver)
    change (.alloc (.string (toString number.toInt)))
  | .size => do
    let items ← query (.itemsOf receiver)
    let count ← query (.fitInteger "size" items.length)
    change (.alloc (.integer count))
  | .itemAt => do
    let items ← query (.itemsOf receiver)
    let arg ← query (.onlyArg "[]" args)
    let place ← query (.numberOf arg)
    return ObjectTalk.itemAt items place.toInt

mutual

/-- The plan of `evalWith`. -/
def ofNode : Node → Plan Value
  | node@(.sequence statements) => do
    change (.trace node.kind)
    ofStatements .nil statements
  | .classDef scope name superclass body =>
    classDefinition (ofScope scope) name (ofSuperclass superclass) (ofNode body)
  | node@(.methodDef name signature body) => do
    change (.trace node.kind)
    let id ← query .methodTarget
    change (.define id name (.written signature body))
    change (.alloc (.string name))
  | node@(.localAssign name value) => do
    change (.trace node.kind)
    let value ← ofNode value
    change (.bindLocal name value)
    return value
  | node@(.ivarAssign name value) => do
    change (.trace node.kind)
    let value ← ofNode value
    let self ← query .self
    change (.bindIvar self name value)
    return value
  | node@(.localRead name) => do
    change (.trace node.kind)
    query (.readLocal name)
  | node@(.ivarRead name) => do
    change (.trace node.kind)
    let self ← query .self
    query (.readIvar self name)
  | node@(.send receiver method args) => do
    change (.trace node.kind)
    let receiver ← ofReceiver receiver
    let args ← ofAll args
    send receiver method args
  | node@(.constRef scope name) => do
    change (.trace node.kind)
    let scope ← ofScope scope
    query (.constant scope name)
  | node@(.stringLit text) => do
    change (.trace node.kind)
    change (.alloc (.string text))
  | node@(.integerLit value) => do
    change (.trace node.kind)
    change (.alloc (.integer value))
  | node@(.interpolated parts) => do
    change (.trace node.kind)
    let text ← ofParts "" parts
    change (.alloc (.string text))

/-- The plan of `evalStatements`: the last value, or `last` when there is no statement. -/
def ofStatements (last : Value) : List Node → Plan Value
  | [] => return last
  | node :: nodes => do
    let value ← ofNode node
    ofStatements value nodes

/-- The plan of `evalAll`: all values in order. -/
def ofAll : List Node → Plan (List Value)
  | [] => return []
  | node :: nodes => do
    let value ← ofNode node
    let values ← ofAll nodes
    return value :: values

/-- The plan of `evalParts`: the texts of the values in order, after `text`. -/
def ofParts (text : String) : List Node → Plan String
  | [] => return text
  | node :: nodes => do
    let value ← ofNode node
    let part ← display value
    ofParts (text ++ part) nodes

/-- The plan of `evalScope`: the namespace that a scope denotes. -/
def ofScope : Option Node → Plan ClassId
  | none => return ClassId.root
  | some node => do
    let value ← ofNode node
    query (.asClass value)

/-- The plan of `evalSuperclass`: the superclass of a class definition, if one is written. -/
def ofSuperclass : Option Node → Plan (Option ClassId)
  | none => return none
  | some node => do
    let value ← ofNode node
    let id ← query (.asClass value)
    return some id

/-- The plan of `evalReceiver`: the receiver of a message, or self. -/
def ofReceiver : Option Node → Plan Value
  | none => query .self
  | some node => ofNode node

end

/-- The plan of `ObjectTalk.bindFixed`: one parameter after another takes an argument. -/
def bindFixed (missing : Fault) : List String → List Value → Plan (List Value)
  | [], args => return args
  | _ :: _, [] => stop missing
  | name :: names, arg :: args => do
    change (.bindLocal name arg)
    bindFixed missing names args

/-- The plan of `ObjectTalk.bindRest`: the rest parameter takes an array of what is left. -/
def bindRest (surplus : Fault) : Option String → List Value → Plan Unit
  | some name, left => do
    let array ← change (.alloc (.array left))
    change (.bindLocal name array)
  | none, [] => return ()
  | none, _ :: _ => stop surplus

/-- The plan of `ObjectTalk.assignParams`, in the current frame. -/
def assignParams (method : String) (signature : Signature) (args : List Value) : Plan Unit := do
  let mismatch := Fault.wrongArity method signature.arity args.length
  let left ← bindFixed mismatch signature.fixed args
  bindRest mismatch signature.rest left

/-- The plan of `invokeWith`: carry out a method in its frame. -/
def invoke (receiver : Value) (name : String) (args : List Value) : Method → Plan Value
  | .written signature body => do
    assignParams name signature args
    ofNode body
  | .builtin _ _ action => builtin action receiver args

/-- The plan of `callWithin` when there is no room for a frame. -/
def refused (name : String) (method : Method) (args : List Value) : Plan Value :=
  inCall name do
    query (.checkArity name method.arity args.length)
    overflow

/-- The plan of `callWithin`: the method is carried out in a new frame. -/
def called (receiver : Value) (name : String) (method : Method) (args : List Value) : Plan Value :=
  inCall name do
    query (.checkArity name method.arity args.length)
    inFrame receiver (invoke receiver name args method)

end Plan

/-! ## The evaluator follows the plans -/

/-- `Services` with calls as given, and with `displayWith` by means of them. -/
def Services.ofCaller (call : Caller) : Services := ⟨call, displayWith call⟩

open Plan

section

variable (call : Caller)

/-- Showing values one after another follows `displayAll`. -/
theorem mapM_display_eq_follow (services : Services) (values : List Value) :
    values.mapM services.display = (displayAll values).follow services := by
  induction values with
  | nil => rfl
  | cons value values ih =>
      rw [List.mapM_cons, ih]
      rfl

/-- Showing values and writing their texts follows `writeAll`. -/
theorem forM_write_eq_follow (services : Services) (form : String → String) (values : List Value) :
    (values.forM fun value => do Run.write (form (← services.display value)))
      = (writeAll form values).follow services := by
  induction values with
  | nil => rfl
  | cons value values ih =>
      rw [List.forM, ih, bind_assoc]
      rfl

/-- Where arrays may stand no deeper, `displayUpTo` follows `displayedFlat`. -/
theorem displayUpTo_zero (services : Services) (value : Value) :
    displayUpTo services.call 0 value = (displayedFlat value).follow services := by
  cases value <;> rfl

/-- **One level of `displayUpTo` follows `displayed`**, where `Plan.display` is the levels below. -/
theorem displayUpTo_succ (levels : Nat) (value : Value) :
    displayUpTo call (levels + 1) value = (displayed value).follow ⟨call, displayUpTo call levels⟩ := by
  -- both sides ask what the value holds, and then branch on it
  have hshow : ∀ payload : Option Payload,
      (match payload with
        | some (.text text) => (pure text : Run String)
        | some (.number number) => pure (toString number.toInt)
        | some (.items items) => do return bracketed (← items.mapM (displayUpTo call levels))
        | none => ObjectTalk.askText call value)
      = (displayHolding value payload).follow ⟨call, displayUpTo call levels⟩ := by
    intro payload
    match payload with
    | some (.text _) => rfl
    | some (.number _) => rfl
    | some (.items items) =>
        show (items.mapM (displayUpTo call levels) >>= fun texts => pure (bracketed texts)) = _
        rw [mapM_display_eq_follow ⟨call, displayUpTo call levels⟩]
        rfl
    | none => rfl
  funext machine
  cases value with
  | nil => rfl
  | object id => exact congrFun (hshow (machine.heap.payload? (.object id))) machine
  | classRef id => exact congrFun (hshow (machine.heap.payload? (.classRef id))) machine

/-- `instantiateWith` follows `instantiate`: both compare the class with the metaclass first. -/
theorem instantiateWith_eq_follow (services : Services) (receiver : Value) (args : List Value) :
    instantiateWith services.call receiver args = (instantiate receiver args).follow services := by
  show (Run.asClass receiver >>= fun id => _) = (Run.asClass receiver >>= fun id => _)
  congr 1
  funext id
  by_cases h : id = ClassId.metaclass
  · simp only [h, if_true]
    rfl
  · simp only [h, if_false]
    rfl

/-- `putsWith` follows the plan of `Builtin.puts`, whatever the receiver is. -/
theorem putsWith_eq_follow (receiver : Value) (args : List Value) :
    putsWith call args = (builtin .puts receiver args).follow (.ofCaller call) := by
  cases args with
  | nil => rfl
  | cons arg args =>
      show ((arg :: args).forM (fun arg => do Run.write (asLine (← displayWith call arg)))
        >>= fun _ => (pure Value.nil : Run Value)) = _
      have h := forM_write_eq_follow (.ofCaller call) asLine (arg :: args)
      simp only [Services.ofCaller] at h
      rw [h]
      rfl

/-- **`Builtin.applyWith` follows `Plan.builtin`**; but for those that show values, by definition. -/
theorem applyWith_eq_follow (action : Builtin) (receiver : Value) (args : List Value) :
    action.applyWith call receiver args = (builtin action receiver args).follow (.ofCaller call) := by
  cases action with
  | puts => exact putsWith_eq_follow call receiver args
  | print =>
      show (args.forM (fun arg => do Run.write (id (← displayWith call arg)))
        >>= fun _ => (pure Value.nil : Run Value)) = _
      have h := forM_write_eq_follow (.ofCaller call) id args
      simp only [Services.ofCaller] at h
      rw [h]
      rfl
  | instantiate => exact instantiateWith_eq_follow (.ofCaller call) receiver args
  | _ => rfl

mutual

/-- **`evalWith` follows `ofNode`**, whatever the caller is. By induction on the node. -/
theorem evalWith_eq_follow : (node : Node) →
    evalWith call node = (ofNode node).follow (.ofCaller call)
  | .sequence statements => by
      rw [evalWith, evalStatements_eq_follow]
      rfl
  | .classDef scope name superclass body => by
      rw [evalWith, evalScope_eq_follow, evalSuperclass_eq_follow, evalWith_eq_follow body]
      rfl
  | .methodDef name signature body => by
      rw [evalWith]
      rfl
  | .localAssign name value => by
      rw [evalWith, evalWith_eq_follow value]
      rfl
  | .ivarAssign name value => by
      rw [evalWith, evalWith_eq_follow value]
      rfl
  | .localRead name => by
      rw [evalWith]
      rfl
  | .ivarRead name => by
      rw [evalWith]
      rfl
  | .send receiver method args => by
      rw [evalWith, evalReceiver_eq_follow, evalAll_eq_follow]
      rfl
  | .constRef scope name => by
      rw [evalWith, evalScope_eq_follow]
      rfl
  | .stringLit text => by
      rw [evalWith]
      rfl
  | .integerLit value => by
      rw [evalWith]
      rfl
  | .interpolated parts => by
      rw [evalWith, evalParts_eq_follow]
      rfl

theorem evalStatements_eq_follow : (last : Value) → (nodes : List Node) →
    evalStatements call last nodes = (ofStatements last nodes).follow (.ofCaller call)
  | last, [] => by
      rw [evalStatements]
      rfl
  | last, node :: nodes => by
      rw [evalStatements, evalWith_eq_follow node]
      exact bind_congr fun value => evalStatements_eq_follow value nodes

theorem evalAll_eq_follow : (nodes : List Node) →
    evalAll call nodes = (ofAll nodes).follow (.ofCaller call)
  | [] => by
      rw [evalAll]
      rfl
  | node :: nodes => by
      rw [evalAll, evalWith_eq_follow node, evalAll_eq_follow nodes]
      rfl

theorem evalParts_eq_follow : (text : String) → (nodes : List Node) →
    evalParts call text nodes = (ofParts text nodes).follow (.ofCaller call)
  | text, [] => by
      rw [evalParts]
      rfl
  | text, node :: nodes => by
      rw [evalParts, evalWith_eq_follow node]
      exact bind_congr fun value => bind_congr fun part => evalParts_eq_follow (text ++ part) nodes

theorem evalScope_eq_follow : (scope : Option Node) →
    evalScope call scope = (ofScope scope).follow (.ofCaller call)
  | none => by
      rw [evalScope]
      rfl
  | some node => by
      rw [evalScope, evalWith_eq_follow node]
      rfl

theorem evalSuperclass_eq_follow : (superclass : Option Node) →
    evalSuperclass call superclass = (ofSuperclass superclass).follow (.ofCaller call)
  | none => by
      rw [evalSuperclass]
      rfl
  | some node => by
      rw [evalSuperclass, evalWith_eq_follow node]
      rfl

theorem evalReceiver_eq_follow : (receiver : Option Node) →
    evalReceiver call receiver = (ofReceiver receiver).follow (.ofCaller call)
  | none => by
      rw [evalReceiver]
      rfl
  | some node => by
      rw [evalReceiver, evalWith_eq_follow node]
      rfl

end

/-- Binding the fixed parameters follows `Plan.bindFixed`, argument by argument. -/
theorem bindFixed_eq_follow (services : Services) (missing : Fault) (names : List String) (args : List Value) :
    ObjectTalk.bindFixed missing names args = (Plan.bindFixed missing names args).follow services := by
  induction names generalizing args with
  | nil => rfl
  | cons name names ih =>
      cases args with
      | nil => rfl
      | cons arg args =>
          rw [ObjectTalk.bindFixed, ih]
          rfl

/-- Binding the rest parameter follows `Plan.bindRest`. -/
theorem bindRest_eq_follow (services : Services) (surplus : Fault) (rest : Option String) (left : List Value) :
    ObjectTalk.bindRest surplus rest left = (Plan.bindRest surplus rest left).follow services := by
  cases rest with
  | none => cases left <;> rfl
  | some name => rfl

/-- Binding the parameters follows `Plan.assignParams`. -/
theorem assignParams_eq_follow (services : Services) (method : String) (signature : Signature)
    (args : List Value) :
    ObjectTalk.assignParams method signature args
      = (Plan.assignParams method signature args).follow services := by
  rw [ObjectTalk.assignParams, Plan.assignParams, bindFixed_eq_follow services]
  exact bind_congr fun left => bindRest_eq_follow services _ signature.rest left

/-- `invokeWith` follows `invoke`, for methods of both kinds. -/
theorem invokeWith_eq_follow (receiver : Value) (name : String) (args : List Value)
    (method : Method) :
    invokeWith call receiver name args method
      = (invoke receiver name args method).follow (.ofCaller call) := by
  cases method with
  | written signature body =>
      rw [invokeWith, invoke, follow_bind, assignParams_eq_follow (.ofCaller call), evalWith_eq_follow]
  | builtin name arity action => exact applyWith_eq_follow call action receiver args

end

/-! ## Calls with room left -/

/-- The `Services` of evaluation when there is room for at most `room` more frames. -/
def Services.within (room : Nat) : Services := .ofCaller (callWithin room)

/-- Without room, `callWithin` follows `refused`. -/
theorem callWithin_zero (services : Services) (receiver : Value) (name : String) (method : Method)
    (args : List Value) :
    callWithin 0 receiver name method args = (refused name method args).follow services := rfl

/-- **With room for a frame, `callWithin` follows `called`**, in which there is room for one frame less. -/
theorem callWithin_succ (room : Nat) (receiver : Value) (name : String) (method : Method)
    (args : List Value) :
    callWithin (room + 1) receiver name method args
      = (called receiver name method args).follow (.within room) := by
  rw [callWithin, invokeWith_eq_follow]
  rfl

namespace Machine

/-- `Machine.eval` follows `ofNode` with the room that the machine has. -/
theorem eval_eq_follow (node : Node) (machine : Machine) :
    eval node machine = (ofNode node).follow (.within machine.room) machine :=
  congrFun (evalWith_eq_follow (callWithin machine.room) node) machine

/-- `Machine.send` follows `Plan.send` with the room that the machine has. -/
theorem send_eq_follow (receiver : Value) (name : String) (args : List Value) (machine : Machine) :
    send receiver name args machine
      = (Plan.send receiver name args).follow (.within machine.room) machine := rfl

theorem call_eq_follow (receiver : Value) (name : String) (method : Method) (args : List Value)
    (machine : Machine) :
    call receiver name method args machine
      = (Plan.call receiver name method args).follow (.within machine.room) machine := rfl

theorem display_eq_follow (value : Value) (machine : Machine) :
    display value machine = (Plan.display value).follow (.within machine.room) machine := rfl

end Machine

end ObjectTalk

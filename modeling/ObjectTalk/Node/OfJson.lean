import ObjectTalk.Node.Basic
import ObjectTalk.Json.Printer
/-!
# `Node.OfJson` — a program tree from its written form

A tagged array is read by its tag. A string or an integer that stands where a node is expected is a
literal. A class definition may leave out the place of its superclass. Whatever else differs from the
written form is reported: the first flaw in the order in which the parts are read, which is the order of
writing except that a superclass is read before the name of the class.
-/

namespace ObjectTalk

/-- How many parts a node has. -/
inductive PartCount where
  | exactly (n : Nat)
  | twoOrThree
  | orMore (n : Nat)
deriving DecidableEq, Repr

/-- The count in words. -/
def PartCount.text : PartCount → String
  | exactly n => toString n
  | twoOrThree => "2 or 3"
  | orMore n => "at least " ++ toString n

/-- What is wrong with a written node. -/
inductive Flaw where
  /-- Neither an array nor a literal. -/
  | notTagged (found : Json)
  | emptyArray
  | tagNotString (tag : Json)
  | partCount (expected : PartCount) (found : Nat)
  /-- A name that is not a string. -/
  | notName (found : Json)
  | payloadNotString
  | payloadNotInteger
  /-- A literal number that is no integer of 64 bits. -/
  | notInteger (found : Json)
  /-- A class definition whose target is no constant, but a node of another kind. -/
  | targetNotConstant (kind : String)
  | paramsNotArray
  | paramsTag (found : Json)
  | paramNotArray
  | paramNotPair
  /-- A parameter that is neither fixed nor rest. -/
  | paramKind (found : Json)
  | signature (flaw : SignatureFlaw)

/-- Why a JSON value is no program tree. -/
inductive TreeError where
  /-- No node has this tag. -/
  | unknownKind (kind : String)
  /-- The part read as `kind` does not have its form. -/
  | illFormed (kind : String) (flaw : Flaw)

/-- The rule that a parameter list breaks. -/
def SignatureFlaw.text : SignatureFlaw → String
  | severalRest => "more than one rest parameter"
  | restNotLast => "rest parameter must be last"

/-- What is wrong, in words. -/
def Flaw.text : Flaw → String
  | notTagged found => "expected a tagged array, found `" ++ found.compact ++ "`"
  | emptyArray => "empty array"
  | tagNotString tag => "tag `" ++ tag.compact ++ "` is not a string"
  | partCount expected found =>
    "expected " ++ expected.text ++ " children, found " ++ toString found
  | notName found => "expected a name, found `" ++ found.compact ++ "`"
  | payloadNotString => "payload is not a string"
  | payloadNotInteger => "payload is not an i64"
  | notInteger found => "`" ++ found.compact ++ "` is not an i64"
  | targetNotConstant kind => "target must be a const-ref, found `" ++ kind ++ "`"
  | paramsNotArray => "expected an array"
  | paramsTag found => "unexpected tag `" ++ found.compact ++ "`"
  | paramNotArray => "entry is not an array"
  | paramNotPair => "entry must be [kind, name]"
  | paramKind found => "unknown parameter kind `" ++ found.compact ++ "`"
  | signature flaw => flaw.text

/-- The message of an error in a tree. -/
def TreeError.message : TreeError → String
  | unknownKind kind => "unhandled node kind `" ++ kind ++ "`"
  | illFormed kind flaw => "malformed `" ++ kind ++ "` node: " ++ flaw.text

/-- A name that is part of a node of the given kind. -/
def nameIn (kind : String) : Json → Except TreeError String
  | .string name => .ok name
  | found => .error (.illFormed kind (.notName found))

namespace Param

/-- Read a parameter: first that it has a name, then what it is. -/
def ofJson : Json → Except TreeError Param
  | .array [tag, name] => do
    let name ← nameIn "params" name
    match tag with
    | .string "fixed" => .ok (.fixed name)
    | .string "rest" => .ok (.rest name)
    | tag => .error (.illFormed "params" (.paramKind tag))
  | .array _ => .error (.illFormed "params" .paramNotPair)
  | _ => .error (.illFormed "params" .paramNotArray)

/-- Read parameters in order. -/
def listOfJson : List Json → Except TreeError (List Param)
  | [] => .ok []
  | entry :: entries => do
    let param ← ofJson entry
    let params ← listOfJson entries
    return param :: params

end Param

namespace Signature

/-- Check the rules on the order of parameters. -/
def ofList (params : List Param) : Except TreeError Signature :=
  match ofParams params with
  | .ok signature => .ok signature
  | .error flaw => .error (.illFormed "params" (.signature flaw))

/-- Read a parameter list. -/
def ofJson : Json → Except TreeError Signature
  | .array (.string "params" :: entries) => do
    let params ← Param.listOfJson entries
    ofList params
  | .array (tag :: _) => .error (.illFormed "params" (.paramsTag tag))
  | .array [] => .error (.illFormed "params" .emptyArray)
  | _ => .error (.illFormed "params" .paramsNotArray)

end Signature

namespace Node

/-- A part of a written node, with what reading it as a node yields. -/
structure Part where
  json : Json
  node : Except TreeError Node

/-- The parts as nodes; the first that is none decides. -/
def nodesOf : List Part → Except TreeError (List Node)
  | [] => .ok []
  | part :: parts => do
    let node ← part.node
    let nodes ← nodesOf parts
    return node :: nodes

/-- A part that may be absent. -/
def Part.optional (part : Part) : Except TreeError (Option Node) :=
  match part.json with
  | .null => .ok none
  | _ => part.node.map some

/-- A node with the wrong number of parts. -/
def wrongCount (kind : String) (expected : PartCount) (parts : List Part) : Except TreeError Node :=
  .error (.illFormed kind (.partCount expected parts.length))

/-- A class definition, its superclass read already. -/
def assembleClass (target : Part) (superclass : Option Node) (body : Part) :
    Except TreeError Node := do
  match ← target.node with
  | constRef scope name => return classDef scope name superclass (← body.node)
  | other => .error (.illFormed "class-def" (.targetNotConstant other.kind))

/-- The node of the given kind with the given parts. -/
def assemble (kind : String) (parts : List Part) : Except TreeError Node :=
  match kind with
  | "sequence" => return sequence (← nodesOf parts)
  | "class-def" =>
    match parts with
    | [target, body] => assembleClass target none body
    | [target, superclass, body] => do assembleClass target (← superclass.optional) body
    | _ => wrongCount kind .twoOrThree parts
  | "method-def" =>
    match parts with
    | [name, params, body] =>
      return methodDef (← nameIn kind name.json) (← Signature.ofJson params.json) (← body.node)
    | _ => wrongCount kind (.exactly 3) parts
  | "local-assign" =>
    match parts with
    | [name, value] => return localAssign (← nameIn kind name.json) (← value.node)
    | _ => wrongCount kind (.exactly 2) parts
  | "ivar-assign" =>
    match parts with
    | [name, value] => return ivarAssign (← nameIn kind name.json) (← value.node)
    | _ => wrongCount kind (.exactly 2) parts
  | "local-read" =>
    match parts with
    | [name] => return localRead (← nameIn kind name.json)
    | _ => wrongCount kind (.exactly 1) parts
  | "ivar-read" =>
    match parts with
    | [name] => return ivarRead (← nameIn kind name.json)
    | _ => wrongCount kind (.exactly 1) parts
  | "send" =>
    match parts with
    | receiver :: method :: args =>
      return send (← receiver.optional) (← nameIn kind method.json) (← nodesOf args)
    | _ => wrongCount kind (.orMore 2) parts
  | "const-ref" =>
    match parts with
    | [scope, name] => return constRef (← scope.optional) (← nameIn kind name.json)
    | _ => wrongCount kind (.exactly 2) parts
  | "string-literal" =>
    match parts with
    | [payload] =>
      match payload.json.string? with
      | some text => .ok (stringLit text)
      | none => .error (.illFormed kind .payloadNotString)
    | _ => wrongCount kind (.exactly 1) parts
  | "integer-literal" =>
    match parts with
    | [payload] =>
      match payload.json.int64? with
      | some value => .ok (integerLit value)
      | none => .error (.illFormed kind .payloadNotInteger)
    | _ => wrongCount kind (.exactly 1) parts
  | "interpolated-string" => return interpolated (← nodesOf parts)
  | _ => .error (.unknownKind kind)

/-- A number where a node is expected. -/
def literalNumber (json : Json) : Except TreeError Node :=
  match json.int64? with
  | some value => .ok (integerLit value)
  | none => .error (.illFormed "integer-literal" (.notInteger json))

mutual

/-- Read a node. -/
def ofJson : Json → Except TreeError Node
  | .array (.string kind :: parts) => assemble kind (partsOfJson parts)
  | .array (tag :: _) => .error (.illFormed "node" (.tagNotString tag))
  | .array [] => .error (.illFormed "node" .emptyArray)
  | .string text => .ok (stringLit text)
  | .integer value => literalNumber (.integer value)
  | .float value => literalNumber (.float value)
  | found => .error (.illFormed "node" (.notTagged found))

/-- Read each part of a node as a node. -/
def partsOfJson : List Json → List Part
  | [] => []
  | json :: more => ⟨json, ofJson json⟩ :: partsOfJson more

end

end Node

end ObjectTalk

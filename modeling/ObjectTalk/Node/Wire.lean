import ObjectTalk.Node.Basic
import ObjectTalk.Json.Basic
/-!
# `Node.Wire` — the written form of a program tree

A node is written as an array: its kind, then its parts. Every optional part has its place, `null` when
it is absent, and literals are always tagged, so each node has one written form. `Node.ofJson` reads it
back, and reads shorter forms besides.
-/

namespace ObjectTalk

/-- The written form of a parameter. -/
def Param.wire : Param → Json
  | .fixed name => .array [.string "fixed", .string name]
  | .rest name => .array [.string "rest", .string name]

/-- The written form of a signature. -/
def Signature.wire (signature : Signature) : Json :=
  .array (.string "params" :: signature.params.map Param.wire)

namespace Node

mutual

/-- The written form of a node. -/
def wire : Node → Json
  | sequence statements => .array (.string "sequence" :: wireAll statements)
  | classDef scope name superclass body =>
    .array [.string "class-def", .array [.string "const-ref", wireOptional scope, .string name],
      wireOptional superclass, wire body]
  | methodDef name signature body =>
    .array [.string "method-def", .string name, signature.wire, wire body]
  | localAssign name value => .array [.string "local-assign", .string name, wire value]
  | ivarAssign name value => .array [.string "ivar-assign", .string name, wire value]
  | localRead name => .array [.string "local-read", .string name]
  | ivarRead name => .array [.string "ivar-read", .string name]
  | send receiver method args =>
    .array (.string "send" :: wireOptional receiver :: .string method :: wireAll args)
  | constRef scope name => .array [.string "const-ref", wireOptional scope, .string name]
  | stringLit text => .array [.string "string-literal", .string text]
  | integerLit value => .array [.string "integer-literal", .integer value.toInt]
  | interpolated parts => .array (.string "interpolated-string" :: wireAll parts)

/-- The written forms of some nodes. -/
def wireAll : List Node → List Json
  | [] => []
  | node :: nodes => wire node :: wireAll nodes

/-- The written form of a part that may be absent. -/
def wireOptional : Option Node → Json
  | none => .null
  | some node => wire node

end

end Node

end ObjectTalk

import ObjectTalk.Signature
/-!
# `Node` — the program tree

A program is one node. There are twelve kinds; a node's kind is also the tag by which its written form
(`Node.Wire`, `Node.OfJson`) is known.
-/

namespace ObjectTalk

/-- A program, or a part of one. -/
inductive Node where
  /-- Statements, one after another; the last gives the value. -/
  | sequence (statements : List Node)
  /-- Open the class called `name` in a namespace (the root class when no scope is written) and evaluate
  `body` with the class as self. -/
  | classDef (scope : Option Node) (name : String) (superclass : Option Node) (body : Node)
  /-- Define a method. -/
  | methodDef (name : String) (signature : Signature) (body : Node)
  /-- Bind a local variable. -/
  | localAssign (name : String) (value : Node)
  /-- Bind an instance variable of self. -/
  | ivarAssign (name : String) (value : Node)
  /-- Read a local variable. -/
  | localRead (name : String)
  /-- Read an instance variable of self. -/
  | ivarRead (name : String)
  /-- Send a message; without a receiver it goes to self. -/
  | send (receiver : Option Node) (method : String) (args : List Node)
  /-- Read a constant of a namespace. -/
  | constRef (scope : Option Node) (name : String)
  /-- A new string. -/
  | stringLit (text : String)
  /-- A new integer. -/
  | integerLit (value : Int64)
  /-- A new string, made of the texts of the parts. -/
  | interpolated (parts : List Node)
deriving Inhabited

namespace Node

/-- The tag of a node's written form. -/
def kind : Node → String
  | sequence _ => "sequence"
  | classDef .. => "class-def"
  | methodDef .. => "method-def"
  | localAssign .. => "local-assign"
  | ivarAssign .. => "ivar-assign"
  | localRead _ => "local-read"
  | ivarRead _ => "ivar-read"
  | send .. => "send"
  | constRef .. => "const-ref"
  | stringLit _ => "string-literal"
  | integerLit _ => "integer-literal"
  | interpolated _ => "interpolated-string"

/-- All tags. -/
def kinds : List String :=
  ["sequence", "class-def", "method-def", "local-assign", "ivar-assign", "local-read", "ivar-read",
    "send", "const-ref", "string-literal", "integer-literal", "interpolated-string"]

theorem kind_mem_kinds (node : Node) : node.kind ∈ kinds := by
  cases node <;> simp [kind, kinds]

end Node

end ObjectTalk

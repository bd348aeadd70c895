import ObjectTalk.Node.Basic
/-!
# `Method` — what a method table holds

A method is either written in the program or built in. What a built-in method does is one of a fixed list
of actions; the name and the arity under which it is known are its own. A host may store any of these
methods in any class. Left out are actions that a host brings itself, which could do anything to a machine.
-/

namespace ObjectTalk

/-- What a built-in method does. -/
inductive Builtin where
  /-- Write the texts of the arguments, each on its line. -/
  | puts
  /-- Write the texts of the arguments. -/
  | print
  /-- The class of the receiver in angle brackets. -/
  | objectText
  /-- The class of the receiver. -/
  | classOf
  /-- Nothing; gives `nil`. -/
  | noop
  /-- The receiver itself. -/
  | identity
  /-- A new instance of the receiver. -/
  | instantiate
  /-- The name of the receiver, a class. -/
  | className
  /-- The superclass of the receiver, a class. -/
  | superclass
  /-- The receiver's text followed by the argument's. -/
  | concat
  /-- The number of characters of the receiver. -/
  | length
  | add
  | subtract
  | multiply
  /-- The receiver, an integer, in decimal. -/
  | integerText
  /-- The number of items of the receiver. -/
  | size
  /-- The item of the receiver at a place. -/
  | itemAt
deriving DecidableEq, Repr

/-- An entry of a method table. -/
inductive Method where
  /-- A method written in the program. -/
  | written (signature : Signature) (body : Node)
  /-- A built-in method. -/
  | builtin (name : String) (arity : Arity) (action : Builtin)
deriving Inhabited

namespace Method

/-- How many arguments the method takes. -/
def arity : Method → Arity
  | written signature _ => signature.arity
  | builtin _ arity _ => arity

/-- Whether the method is built in. -/
def isBuiltin : Method → Bool
  | written .. => false
  | builtin .. => true

end Method

end ObjectTalk

/-!
# `Signature` — parameter lists and the argument counts they admit

A signature names some fixed parameters and then, possibly, one rest parameter that takes what is left.
The type holds no other shape, so the rules *at most one rest parameter* and *the rest parameter comes
last* are checked once, by `Signature.ofParams`, and hold ever after.
-/

namespace ObjectTalk

/-- How many arguments a method takes. -/
structure Arity where
  /-- Arguments that must be present. -/
  required : Nat
  /-- Whether any number of further arguments is taken as well. -/
  more : Bool
deriving DecidableEq, Repr, Inhabited

namespace Arity

/-- Exactly `n` arguments. -/
def exactly (n : Nat) : Arity := ⟨n, false⟩

/-- `n` arguments or more. -/
def orMore (n : Nat) : Arity := ⟨n, true⟩

/-- Whether `count` arguments are as many as asked for. -/
def admits (arity : Arity) (count : Nat) : Bool :=
  if arity.more then arity.required ≤ count else count = arity.required

/-- The arity as messages show it: `2`, or `2+` when more arguments are taken. -/
def text (arity : Arity) : String :=
  toString arity.required ++ (if arity.more then "+" else "")

end Arity

/-- One parameter as it is written. -/
inductive Param where
  /-- Takes one argument. -/
  | fixed (name : String)
  /-- Takes all arguments that are left, as an array. -/
  | rest (name : String)
deriving DecidableEq, Repr

namespace Param

/-- The local variable the parameter binds. -/
def name : Param → String
  | fixed name => name
  | rest name => name

/-- Whether the parameter takes all that is left. -/
def isRest : Param → Bool
  | fixed _ => false
  | rest _ => true

end Param

/-- What can be wrong with a written list of parameters. -/
inductive SignatureFlaw where
  /-- More than one parameter takes what is left. -/
  | severalRest
  /-- A parameter follows the one that takes what is left. -/
  | restNotLast
deriving DecidableEq, Repr

/-- Fixed parameters in order, then at most one that takes what is left. -/
structure Signature where
  fixed : List String := []
  rest : Option String := none
deriving DecidableEq, Repr, Inhabited

namespace Signature

/-- The parameters in the order in which they are written. -/
def params (signature : Signature) : List Param :=
  signature.fixed.map .fixed ++ (signature.rest.map Param.rest).toList

/-- The names that the parameters bind, in order. -/
def names (signature : Signature) : List String :=
  signature.params.map Param.name

/-- How many arguments the signature takes. -/
def arity (signature : Signature) : Arity :=
  ⟨signature.fixed.length, signature.rest.isSome⟩

/-- Read a written list from its front; `none` when a parameter follows the rest parameter. -/
def collect? : List Param → Option Signature
  | [] => some {}
  | [.rest name] => some ⟨[], some name⟩
  | .rest _ :: _ :: _ => none
  | .fixed name :: more =>
    (collect? more).map fun signature => { signature with fixed := name :: signature.fixed }

/-- Check a written list. That two parameters take the rest is reported before the place of one. -/
def ofParams (params : List Param) : Except SignatureFlaw Signature :=
  if 1 < params.countP Param.isRest then
    .error .severalRest
  else
    match collect? params with
    | some signature => .ok signature
    | none => .error .restNotLast

/-- The signature of fixed parameters with the given names. -/
def ofNames (names : List String) : Signature := { fixed := names }

end Signature

end ObjectTalk

import ObjectTalk.Signature
/-!
# `Fault` — why an evaluation stops

A fault says what went wrong; `Fault.message` is the only place that words it.
-/

namespace ObjectTalk

/-- What kind of value was called for where another one stood. -/
inductive Expectation where
  | aClass
  | string
  | integer
  | array
  /-- A receiver that has a class. -/
  | anObject
  /-- A class that can have instances. -/
  | instantiable
  /-- A self on which methods can be defined. -/
  | methodHolder
  /-- A self that can have instance variables. -/
  | ivarHolder
  /-- A class under the name of a class definition. -/
  | classNamed (name : String)
  /-- A string as the answer of `to_s`. -/
  | stringAnswer
deriving DecidableEq, Repr

/-- The expectation in words. -/
def Expectation.text : Expectation → String
  | aClass => "a class"
  | string => "String"
  | integer => "Integer"
  | array => "Array"
  | anObject => "an object"
  | instantiable => "an instantiable class"
  | methodHolder => "a receiver that can hold methods"
  | ivarHolder => "an object with instance variables"
  | classNamed name => "`" ++ name ++ "` to name a class"
  | stringAnswer => "`to_s' to return a String"

/-- Why an evaluation stops. -/
inductive Fault where
  /-- A namespace has no constant of this name. -/
  | unboundConstant (name scope : String)
  /-- No class of the receiver defines the method; the receiver is given by its description. -/
  | notUnderstood (method receiver : String)
  | wrongArity (method : String) (expected : Arity) (given : Nat)
  /-- A value of another kind was called for; the value found is given by its description. -/
  | wrongKind (expected : Expectation) (found : String)
  | outOfRange (operation : String)
  /-- The stack is as deep as allowed. -/
  | tooDeep (depth limit : Nat)
deriving DecidableEq, Repr

/-- The message of a fault. -/
def Fault.message : Fault → String
  | unboundConstant name scope => "uninitialized constant " ++ scope ++ "::" ++ name
  | notUnderstood method receiver => "undefined method `" ++ method ++ "' for " ++ receiver
  | wrongArity method expected given =>
    "wrong number of arguments for `" ++ method ++ "' (given " ++ toString given ++ ", expected "
      ++ expected.text ++ ")"
  | wrongKind expected found => "type error: expected " ++ expected.text ++ ", got " ++ found
  | outOfRange operation => "integer overflow in `" ++ operation ++ "'"
  | tooDeep depth limit =>
    "stack level too deep (depth " ++ toString depth ++ ", max " ++ toString limit ++ ")"

end ObjectTalk

/-!
# `Json` — JSON values

An integer is kept exactly; any other number is a double. The fields of an object stand in the order of
their keys' code points, each key once.
-/

namespace ObjectTalk

/-- A JSON value. -/
inductive Json where
  | null
  | bool (value : Bool)
  | integer (value : Int)
  | float (value : Float)
  | string (text : String)
  | array (items : List Json)
  | object (fields : List (String × Json))
deriving Inhabited

namespace Json

/-- Put a field in its place among sorted fields; a key that is there already takes the new value. -/
def insertField (key : String) (value : Json) : List (String × Json) → List (String × Json)
  | [] => [(key, value)]
  | (other, old) :: rest =>
    if key < other then (key, value) :: (other, old) :: rest
    else if key = other then (key, value) :: rest
    else (other, old) :: insertField key value rest

/-- The object with the given fields, of which the last wins where a key is repeated. -/
def ofFields (fields : List (String × Json)) : Json :=
  object (fields.foldl (fun sorted (key, value) => insertField key value sorted) [])

/-- The value of a field. -/
def field? (json : Json) (key : String) : Option Json :=
  match json with
  | object fields => fields.lookup key
  | _ => none

/-- The text, when the value is a string. -/
def string? : Json → Option String
  | string text => some text
  | _ => none

/-- The items, when the value is an array. -/
def array? : Json → Option (List Json)
  | array items => some items
  | _ => none

/-- The number, when the value is an integer that fits 64 bits with a sign. -/
def int64? : Json → Option Int64
  | integer value =>
    if Int64.minValue.toInt ≤ value ∧ value ≤ Int64.maxValue.toInt then some (Int64.ofInt value)
    else none
  | _ => none

mutual

/-- How many arrays and objects stand inside one another. -/
def nesting : Json → Nat
  | array items => nestingAll items + 1
  | object fields => nestingFields fields + 1
  | _ => 0

/-- The deepest nesting among some values. -/
def nestingAll : List Json → Nat
  | [] => 0
  | item :: items => max (nesting item) (nestingAll items)

/-- The deepest nesting among the values of some fields. -/
def nestingFields : List (String × Json) → Nat
  | [] => 0
  | (_, value) :: fields => max (nesting value) (nestingFields fields)

end

end Json

end ObjectTalk

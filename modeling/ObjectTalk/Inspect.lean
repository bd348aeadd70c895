import ObjectTalk.Text.Quoted
import ObjectTalk.Value
/-!
# `Inspect` — values as a diagnostic shows them

Unlike the text that programs show (`Machine.display`), this form asks the program for nothing: strings are quoted, and
objects without a payload are shown by the place of their class.
-/

namespace ObjectTalk.Heap

/-- A value for a diagnostic, where arrays stand at most `levels` deep inside one another. -/
def inspectUpTo (heap : Heap) : (levels : Nat) → Value → String
  | _, .nil => "nil"
  | _, .classRef id => "#<class " ++ toString id ++ ">"
  | 0, .object id => "#<object of class " ++ toString (heap.get id).classId ++ ">"
  | levels + 1, .object id =>
    match (heap.get id).payload with
    | some (.text text) => Text.quoted text
    | some (.number number) => toString number.toInt
    | some (.items items) => "[" ++ ", ".intercalate (items.map (heap.inspectUpTo levels)) ++ "]"
    | none => "#<object of class " ++ toString (heap.get id).classId ++ ">"

/-- A value for a diagnostic. The items of an array are older than the array, so the rank of the value is
deep enough. -/
def inspect (heap : Heap) (value : Value) : String :=
  heap.inspectUpTo value.rank value

end ObjectTalk.Heap

import ObjectTalk.Table
/-!
# `Value` — values, objects and the heap

A value is `nil`, an object or a class. Objects live in the heap and are known by their place in it;
classes live in the class hierarchy (`Hierarchy`). An object's class and payload never change, its instance
variables do. An array holds values that were there before it, so the objects in an array are older than
the array: `Value.rank` bounds how deep arrays stand inside one another.
-/

namespace ObjectTalk

/-- The place of a class in the class hierarchy. -/
abbrev ClassId := Nat

/-- The place of an object in the heap. -/
abbrev ObjectId := Nat

namespace ClassId

/-- The class of all classes. -/
def metaclass : ClassId := 0

/-- The class from which all others descend. -/
def root : ClassId := 1

/-- The class of strings. -/
def string : ClassId := 2

/-- The class of integers. -/
def integer : ClassId := 3

/-- The class of arrays. -/
def array : ClassId := 4

end ClassId

/-- A value. Two values are the same exactly when they are equal: objects are compared by identity. -/
inductive Value where
  | nil
  | object (id : ObjectId)
  | classRef (id : ClassId)
deriving DecidableEq, Repr, Inhabited

/-- More than how deep arrays can stand inside one another below a value. -/
def Value.rank : Value → Nat
  | nil => 0
  | object id => id + 1
  | classRef _ => 0

/-- What a string, an integer or an array holds. -/
inductive Payload where
  | text (value : String)
  | number (value : Int64)
  | items (values : List Value)
deriving DecidableEq, Repr

/-- An instance of a class. -/
structure Object where
  classId : ClassId
  payload : Option Payload := none
  ivars : Table Value := {}

instance : Inhabited Object := ⟨{ classId := ClassId.root }⟩

/-- All objects, in the order in which they were allocated. -/
structure Heap where
  objects : Array Object := #[]
deriving Inhabited

namespace Heap

/-- The number of objects. -/
def size (heap : Heap) : Nat := heap.objects.size

/-- The object at a place. -/
def get (heap : Heap) (id : ObjectId) : Object :=
  heap.objects.getD id default

/-- Add an object; its place is the size of the heap before. -/
def push (heap : Heap) (object : Object) : Heap :=
  ⟨heap.objects.push object⟩

/-- Bind an instance variable of an object. -/
def bindIvar (heap : Heap) (id : ObjectId) (name : String) (value : Value) : Heap :=
  ⟨heap.objects.modify id fun object => { object with ivars := object.ivars.set name value }⟩

/-- What a value holds, if it is an object with a payload. -/
def payload? (heap : Heap) : Value → Option Payload
  | .object id => (heap.get id).payload
  | _ => none

/-- The text of a string. -/
def text? (heap : Heap) (value : Value) : Option String :=
  match heap.payload? value with
  | some (.text text) => some text
  | _ => none

/-- The number of an integer. -/
def number? (heap : Heap) (value : Value) : Option Int64 :=
  match heap.payload? value with
  | some (.number number) => some number
  | _ => none

/-- The items of an array. -/
def items? (heap : Heap) (value : Value) : Option (List Value) :=
  match heap.payload? value with
  | some (.items values) => some values
  | _ => none

@[simp] theorem size_push (heap : Heap) (object : Object) :
    (heap.push object).size = heap.size + 1 := by
  simp [size, push]

@[simp] theorem size_bindIvar (heap : Heap) (id : ObjectId) (name : String) (value : Value) :
    (heap.bindIvar id name value).size = heap.size := by
  simp [size, bindIvar]

/-- There is nothing beyond the last object. -/
theorem get_of_size_le {heap : Heap} {id : ObjectId} (h : heap.size ≤ id) : heap.get id = default := by
  have hnone : heap.objects[id]? = none := Array.getElem?_eq_none h
  rw [get, Array.getD_eq_getD_getElem?, hnone]
  rfl

/-- A new object is found at the old size of the heap, and the others are where they were. -/
theorem get_push (heap : Heap) (object : Object) (id : ObjectId) :
    (heap.push object).get id = if id = heap.size then object else heap.get id := by
  simp only [get, push, size, Array.getD_eq_getD_getElem?, Array.getElem?_push]
  split <;> simp

/-- Binding an instance variable of an object leaves the others as they were. -/
theorem get_bindIvar (heap : Heap) (id other : ObjectId) (name : String) (value : Value) :
    (heap.bindIvar id name value).get other
      = if id = other ∧ other < heap.size then
          { heap.get other with ivars := (heap.get other).ivars.set name value }
        else heap.get other := by
  simp only [get, bindIvar, size, Array.getD_eq_getD_getElem?, Array.getElem?_modify]
  by_cases hother : other < heap.objects.size
  · by_cases hid : id = other <;> simp [hid, hother]
  · simp [hother]

end Heap

end ObjectTalk

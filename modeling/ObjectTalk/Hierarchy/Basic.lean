import ObjectTalk.Method
import ObjectTalk.Value
/-!
# `Hierarchy` — classes, their methods and their constants

Classes are numbered in the order in which they were made. Each has a name, a superclass (the root class
alone has none), its own methods, its own constants (which make it a namespace) and instance variables of
its own. A method is looked up along the superclass chain; a constant in one namespace only.
-/

namespace ObjectTalk

/-- A class. -/
structure ClassEntry where
  /-- The qualified name. -/
  name : String
  /-- The class of which the class is an instance. -/
  classId : ClassId := ClassId.metaclass
  superclass : Option ClassId := none
  methods : Table Method := {}
  constants : Table Value := {}
  ivars : Table Value := {}
deriving Inhabited

/-- The names of the class's own methods, in the order of their code points. -/
def ClassEntry.methodNames (entry : ClassEntry) : List String :=
  entry.methods.names.mergeSort fun a b => !(b < a)

/-- All classes, in the order in which they were made. -/
structure Hierarchy where
  entries : Array ClassEntry := #[]
deriving Inhabited

/-- What declaring a class by name comes to. -/
inductive Declaration where
  /-- The name was free: a class was made. -/
  | created (hierarchy : Hierarchy) (id : ClassId)
  /-- The name denotes a class. -/
  | known (id : ClassId)
  /-- The name denotes a value that is no class. -/
  | taken (value : Value)

namespace Hierarchy

/-- The number of classes. -/
def size (hierarchy : Hierarchy) : Nat := hierarchy.entries.size

/-- The class at a place. -/
def get (hierarchy : Hierarchy) (id : ClassId) : ClassEntry :=
  hierarchy.entries.getD id default

/-- The qualified name of a class. -/
def name (hierarchy : Hierarchy) (id : ClassId) : String :=
  (hierarchy.get id).name

/-- Change a class. -/
def modify (hierarchy : Hierarchy) (id : ClassId) (change : ClassEntry → ClassEntry) : Hierarchy :=
  ⟨hierarchy.entries.modify id change⟩

/-- Add a class; its place is the number of classes before. -/
def push (hierarchy : Hierarchy) (entry : ClassEntry) : Hierarchy :=
  ⟨hierarchy.entries.push entry⟩

@[simp] theorem size_modify (hierarchy : Hierarchy) (id : ClassId) (change : ClassEntry → ClassEntry) :
    (hierarchy.modify id change).size = hierarchy.size := by
  simp [size, modify]

@[simp] theorem size_push (hierarchy : Hierarchy) (entry : ClassEntry) :
    (hierarchy.push entry).size = hierarchy.size + 1 := by
  simp [size, push]

/-- There is nothing beyond the last class. -/
theorem get_of_size_le {hierarchy : Hierarchy} {id : ClassId} (h : hierarchy.size ≤ id) :
    hierarchy.get id = default := by
  have hnone : hierarchy.entries[id]? = none := Array.getElem?_eq_none h
  rw [get, Array.getD_eq_getD_getElem?, hnone]
  rfl

/-- Changing a class leaves the others as they were. -/
theorem get_modify (hierarchy : Hierarchy) (id other : ClassId) (change : ClassEntry → ClassEntry) :
    (hierarchy.modify id change).get other
      = if id = other ∧ other < hierarchy.size then change (hierarchy.get other)
        else hierarchy.get other := by
  simp only [get, modify, size, Array.getD_eq_getD_getElem?, Array.getElem?_modify]
  by_cases hother : other < hierarchy.entries.size
  · by_cases hid : id = other <;> simp [hid, hother]
  · simp [hother]

/-- A new class is found at the old number of classes, and the others are where they were. -/
theorem get_push (hierarchy : Hierarchy) (entry : ClassEntry) (id : ClassId) :
    (hierarchy.push entry).get id = if id = hierarchy.size then entry else hierarchy.get id := by
  simp only [get, push, size, Array.getD_eq_getD_getElem?, Array.getElem?_push]
  split <;> simp

/-- The first `n` classes on the superclass chain that starts at `id`. -/
def chain (hierarchy : Hierarchy) : (n : Nat) → (id : ClassId) → List ClassId
  | 0, _ => []
  | n + 1, id =>
    match (hierarchy.get id).superclass with
    | none => [id]
    | some parent => id :: hierarchy.chain n parent

/-- A class and its superclasses up to the root class. No class occurs twice, so there are at most as
many as there are classes. -/
def ancestors (hierarchy : Hierarchy) (id : ClassId) : List ClassId :=
  hierarchy.chain hierarchy.size id

/-- Whether a class is `ancestor` or descends from it. -/
def descends (hierarchy : Hierarchy) (id ancestor : ClassId) : Bool :=
  (hierarchy.ancestors id).contains ancestor

/-- The first class on the superclass chain that defines a method of the given name, and the method. -/
def lookup (hierarchy : Hierarchy) (id : ClassId) (name : String) : Option (ClassId × Method) :=
  (hierarchy.ancestors id).findSome? fun owner =>
    ((hierarchy.get owner).methods.get? name).map fun method => (owner, method)

/-- A constant of a namespace. -/
def constant? (hierarchy : Hierarchy) (scope : ClassId) (name : String) : Option Value :=
  (hierarchy.get scope).constants.get? name

/-- Bind a constant of a namespace. -/
def bindConstant (hierarchy : Hierarchy) (scope : ClassId) (name : String) (value : Value) :
    Hierarchy :=
  hierarchy.modify scope fun entry => { entry with constants := entry.constants.set name value }

/-- Bind an instance variable of a class. -/
def bindIvar (hierarchy : Hierarchy) (id : ClassId) (name : String) (value : Value) : Hierarchy :=
  hierarchy.modify id fun entry => { entry with ivars := entry.ivars.set name value }

/-- Store a method under a name of a class. -/
def define (hierarchy : Hierarchy) (id : ClassId) (name : String) (method : Method) : Hierarchy :=
  hierarchy.modify id fun entry => { entry with methods := entry.methods.set name method }

/-- The qualified name of a class that is called `name` in a namespace. -/
def qualify (hierarchy : Hierarchy) (scope : ClassId) (name : String) : String :=
  if scope = ClassId.root then name else hierarchy.name scope ++ "::" ++ name

/-- Make a class and bind it to a constant. -/
def create (hierarchy : Hierarchy) (scope : ClassId) (name : String) (superclass : ClassId) :
    Hierarchy :=
  (hierarchy.push { name := hierarchy.qualify scope name, superclass := some superclass }).bindConstant
    scope name (.classRef hierarchy.size)

/-- Declare the class called `name` in a namespace; it is made, with the given superclass or else with
the root class, when the name is free. -/
def declare (hierarchy : Hierarchy) (scope : ClassId) (name : String) (superclass : Option ClassId) :
    Declaration :=
  match hierarchy.constant? scope name with
  | some (.classRef id) => .known id
  | some value => .taken value
  | none =>
    .created (hierarchy.create scope name (superclass.getD ClassId.root)) hierarchy.size

/-- The classes that constants of a class denote. -/
def members (hierarchy : Hierarchy) (id : ClassId) : List ClassId :=
  (hierarchy.get id).constants.entries.filterMap fun entry =>
    match entry.2 with
    | .classRef member => some member
    | _ => none

/-- Add the classes that are reached from `frontier` in at most `n` steps through constants. -/
def reach (hierarchy : Hierarchy) : (n : Nat) → (seen frontier : List ClassId) → List ClassId
  | 0, seen, _ => seen
  | n + 1, seen, frontier =>
    let fresh := (frontier.flatMap hierarchy.members).eraseDups.filter fun id => !seen.contains id
    if fresh.isEmpty then seen else hierarchy.reach n (seen ++ fresh) fresh

/-- The classes that are reached from the root class through constants, in the order of their making. -/
def reachable (hierarchy : Hierarchy) : List ClassId :=
  let seen := hierarchy.reach hierarchy.size [ClassId.root] [ClassId.root]
  (List.range hierarchy.size).filter seen.contains

end Hierarchy

end ObjectTalk

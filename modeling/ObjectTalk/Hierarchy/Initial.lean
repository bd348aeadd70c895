import ObjectTalk.Hierarchy.Basic
/-!
# `Hierarchy.Initial` — the classes every machine starts with

`Class` is its own class and descends from `Object`; `Object` has no superclass; `String`, `Integer` and
`Array` descend from `Object`. All five are constants of `Object`. `builtins` lists their methods in the
order in which they are defined.
-/

namespace ObjectTalk.Hierarchy

/-- A built-in method and the class that has it. -/
structure BuiltinEntry where
  owner : ClassId
  name : String
  arity : Arity
  action : Builtin

/-- The method of an entry. -/
def BuiltinEntry.method (entry : BuiltinEntry) : Method :=
  .builtin entry.name entry.arity entry.action

/-- The built-in methods. -/
def builtins : List BuiltinEntry :=
  [⟨ClassId.root, "puts", .orMore 0, .puts⟩,
    ⟨ClassId.root, "print", .orMore 0, .print⟩,
    ⟨ClassId.root, "to_s", .exactly 0, .objectText⟩,
    ⟨ClassId.root, "class", .exactly 0, .classOf⟩,
    ⟨ClassId.root, "initialize", .exactly 0, .noop⟩,
    ⟨ClassId.metaclass, "new", .orMore 0, .instantiate⟩,
    ⟨ClassId.metaclass, "name", .exactly 0, .className⟩,
    ⟨ClassId.metaclass, "to_s", .exactly 0, .className⟩,
    ⟨ClassId.metaclass, "superclass", .exactly 0, .superclass⟩,
    ⟨ClassId.string, "+", .exactly 1, .concat⟩,
    ⟨ClassId.string, "to_s", .exactly 0, .identity⟩,
    ⟨ClassId.string, "length", .exactly 0, .length⟩,
    ⟨ClassId.integer, "+", .exactly 1, .add⟩,
    ⟨ClassId.integer, "-", .exactly 1, .subtract⟩,
    ⟨ClassId.integer, "*", .exactly 1, .multiply⟩,
    ⟨ClassId.integer, "to_s", .exactly 0, .integerText⟩,
    ⟨ClassId.array, "size", .exactly 0, .size⟩,
    ⟨ClassId.array, "[]", .exactly 1, .itemAt⟩]

/-- The five classes, without methods. -/
def bare : Hierarchy :=
  { entries := #[
      { name := "Class", superclass := some ClassId.root },
      { name := "Object"
        constants := ⟨[("Class", .classRef ClassId.metaclass), ("Object", .classRef ClassId.root),
          ("String", .classRef ClassId.string), ("Integer", .classRef ClassId.integer),
          ("Array", .classRef ClassId.array)]⟩ },
      { name := "String", superclass := some ClassId.root },
      { name := "Integer", superclass := some ClassId.root },
      { name := "Array", superclass := some ClassId.root }] }

/-- The five classes with their methods. -/
def initial : Hierarchy :=
  builtins.foldl (fun hierarchy entry => hierarchy.define entry.owner entry.name entry.method) bare

end ObjectTalk.Hierarchy

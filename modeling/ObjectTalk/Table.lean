/-!
# `Table` — names bound in the order of their first binding

Locals, instance variables, constants and method tables are all tables: a name is found by its text,
binding a new name puts it last, and binding a known name changes its value where it stands.
-/

namespace ObjectTalk

/-- Names with their values, in the order in which the names were first bound. -/
structure Table (α : Type) where
  entries : List (String × α) := []
deriving Inhabited

namespace Table

variable {α : Type}

/-- The value bound to `name`. -/
def get? (table : Table α) (name : String) : Option α :=
  table.entries.lookup name

/-- Whether `name` is bound. -/
def contains (table : Table α) (name : String) : Bool :=
  (table.get? name).isSome

/-- The bound names, in the order of their first binding. -/
def names (table : Table α) : List String :=
  table.entries.map Prod.fst

/-- Replace the value of a known name where it stands, or put a new name last. -/
def bind (name : String) (value : α) : List (String × α) → List (String × α)
  | [] => [(name, value)]
  | (known, old) :: rest =>
    if known = name then (known, value) :: rest else (known, old) :: bind name value rest

/-- Bind `name` to `value`. -/
def set (table : Table α) (name : String) (value : α) : Table α :=
  ⟨bind name value table.entries⟩

@[simp] theorem get?_empty (name : String) : ({} : Table α).get? name = none := rfl

@[simp] theorem names_empty : ({} : Table α).names = [] := rfl

theorem lookup_bind (name other : String) (value : α) (entries : List (String × α)) :
    (bind name value entries).lookup other
      = if other = name then some value else entries.lookup other := by
  induction entries with
  | nil =>
    by_cases h : other = name
    · simp [bind, h]
    · simp [bind, h, List.lookup_cons, beq_eq_false_iff_ne.mpr h]
  | cons entry rest ih =>
    obtain ⟨known, old⟩ := entry
    by_cases hk : known = name
    · subst hk
      by_cases h : other = known
      · simp [bind, h]
      · simp [bind, h, List.lookup_cons, beq_eq_false_iff_ne.mpr h]
    · by_cases h : other = known
      · subst h
        simp [bind, hk]
      · simp [bind, hk, List.lookup_cons, beq_eq_false_iff_ne.mpr h, ih]

/-- A name reads as it was last bound; binding it leaves every other name as it was. -/
theorem get?_set (table : Table α) (name other : String) (value : α) :
    (table.set name value).get? other = if other = name then some value else table.get? other :=
  lookup_bind name other value table.entries

theorem map_fst_bind (name : String) (value : α) (entries : List (String × α)) :
    (bind name value entries).map Prod.fst
      = if name ∈ entries.map Prod.fst then entries.map Prod.fst
        else entries.map Prod.fst ++ [name] := by
  induction entries with
  | nil => simp [bind]
  | cons entry rest ih =>
    obtain ⟨known, old⟩ := entry
    by_cases hk : known = name
    · simp [bind, hk]
    · have hk' : ¬ name = known := fun h => hk h.symm
      by_cases hm : name ∈ rest.map Prod.fst
      · simp only [bind, hk, if_false, List.map_cons, ih, hm, if_true, List.mem_cons, hk', false_or]
      · simp only [bind, hk, if_false, List.map_cons, ih, hm, List.mem_cons, hk', false_or,
          List.cons_append]

/-- Binding keeps the place of a known name and puts a new one last. -/
theorem names_set (table : Table α) (name : String) (value : α) :
    (table.set name value).names
      = if name ∈ table.names then table.names else table.names ++ [name] :=
  map_fst_bind name value table.entries

end Table

end ObjectTalk

import Mathlib.Data.List.Infix
import ObjectTalk.Hierarchy.Initial
/-!
# `Proofs.Ancestors` — superclass chains

Classes are made after their superclasses, with one exception: the metaclass is the first class and descends
from the root class, the second. `ClassId.level` exchanges these two, so that it falls along every superclass
link. A hierarchy in which it does, and in which only the root class has no superclass, is `Rooted`; making
and changing classes keeps that.

In a rooted hierarchy following superclass links comes to an end (`Hierarchy.Walk`), at the root class and
without meeting a class twice, and `Hierarchy.ancestors` is the whole way (`Hierarchy.Tree`). So `descends`
is a partial order with the root class on top, in which the ancestors of a class form a chain
(`Hierarchy.Ordered`).
-/

namespace ObjectTalk

/-- The place of a class, with `ClassId.metaclass` and `ClassId.root` exchanged. -/
def ClassId.level : ClassId → Nat
  | 0 => 1
  | 1 => 0
  | id + 2 => id + 2

namespace ClassId

theorem level_lt {id size : Nat} (hid : id < size) (hsize : 5 ≤ size) : level id < size := by
  unfold level
  split <;> omega

theorem lt_of_level_lt {id parent size : Nat} (hid : id < size) (hsize : 5 ≤ size)
    (h : level parent < level id) : parent < size := by
  unfold level at h
  split at h <;> split at h <;> omega

theorem level_of_two_le {id : Nat} (h : 2 ≤ id) : level id = id := by
  unfold level
  split <;> omega

end ClassId

namespace Hierarchy

/-- Superclass links lead down to `ClassId.root`: each goes to a class of a lower `ClassId.level`. -/
structure Rooted (hierarchy : Hierarchy) : Prop where
  /-- The classes that every machine starts with are there. -/
  initial : 5 ≤ hierarchy.size
  classId : ∀ id < hierarchy.size, (hierarchy.get id).classId = ClassId.metaclass
  root : ∀ id < hierarchy.size, (hierarchy.get id).superclass = none ↔ id = ClassId.root
  falls : ∀ id < hierarchy.size, ∀ parent, (hierarchy.get id).superclass = some parent →
    ClassId.level parent < ClassId.level id

/-- Following `ClassEntry.superclass` from a class, as long as there is one, one comes by these classes. -/
inductive Walk (hierarchy : Hierarchy) : ClassId → List ClassId → Prop where
  | last {id : ClassId} (hnone : (hierarchy.get id).superclass = none) : Walk hierarchy id [id]
  | next {id parent : ClassId} {path : List ClassId}
      (hsome : (hierarchy.get id).superclass = some parent) (hrest : Walk hierarchy parent path) :
      Walk hierarchy id (id :: path)

/-- Every class is an instance of `ClassId.metaclass`, and its superclass links lead to `ClassId.root`. -/
structure Tree (hierarchy : Hierarchy) : Prop where
  classId : ∀ id < hierarchy.size, (hierarchy.get id).classId = ClassId.metaclass
  metaclass : (hierarchy.get ClassId.metaclass).classId = ClassId.metaclass
  root : ∀ id < hierarchy.size, (hierarchy.get id).superclass = none ↔ id = ClassId.root
  walk : ∀ id < hierarchy.size, hierarchy.Walk id (hierarchy.ancestors id)
  inside : ∀ id < hierarchy.size, ∀ ancestor ∈ hierarchy.ancestors id, ancestor < hierarchy.size
  nodup : ∀ id < hierarchy.size, (hierarchy.ancestors id).Nodup
  last : ∀ id < hierarchy.size, (hierarchy.ancestors id).getLast? = some ClassId.root

/-- The classes are partially ordered by `descends`, with the root class on top, and the ancestors of a class are a
    chain. -/
structure Ordered (hierarchy : Hierarchy) : Prop where
  refl : ∀ id < hierarchy.size, hierarchy.descends id id
  antisymm : ∀ id < hierarchy.size, ∀ other < hierarchy.size, hierarchy.descends id other →
    hierarchy.descends other id → id = other
  trans : ∀ id < hierarchy.size, ∀ middle above, hierarchy.descends id middle →
    hierarchy.descends middle above → hierarchy.descends id above
  greatest : ∀ id < hierarchy.size, hierarchy.descends id ClassId.root
  linear : ∀ id < hierarchy.size, ∀ above ∈ hierarchy.ancestors id, ∀ other ∈ hierarchy.ancestors id,
    hierarchy.descends above other ∨ hierarchy.descends other above

variable {hierarchy : Hierarchy}

/-- To descend from a class is to have it among the `ancestors`. -/
theorem descends_iff {id ancestor : ClassId} :
    hierarchy.descends id ancestor ↔ ancestor ∈ hierarchy.ancestors id := by
  rw [descends, List.contains_iff_mem]

/-! ## Walks -/

/-- A `Walk` can be made in one way only. -/
theorem Walk.unique {id : ClassId} {path other : List ClassId} (h : hierarchy.Walk id path)
    (h' : hierarchy.Walk id other) : path = other := by
  induction h generalizing other with
  | last hnone =>
      cases h' with
      | last _ => rfl
      | next hsome _ => exact absurd (hnone.symm.trans hsome) (by simp)
  | next hsome _ ih =>
      cases h' with
      | last hnone => exact absurd (hnone.symm.trans hsome) (by simp)
      | next hsome' hrest' =>
          obtain rfl := Option.some.inj (hsome.symm.trans hsome')
          rw [ih hrest']

/-- The `Walk` from a class that one comes by is the rest of the walk. -/
theorem Walk.suffix_of_mem {id ancestor : ClassId} {path : List ClassId} (h : hierarchy.Walk id path)
    (hmem : ancestor ∈ path) : ∃ rest, hierarchy.Walk ancestor rest ∧ rest <:+ path := by
  induction h with
  | last hnone =>
      obtain rfl := List.mem_singleton.mp hmem
      exact ⟨_, .last hnone, List.suffix_refl _⟩
  | next hsome hrest ih =>
      rcases List.mem_cons.mp hmem with rfl | hin
      · exact ⟨_, .next hsome hrest, List.suffix_refl _⟩
      · obtain ⟨rest, hwalk, hsuffix⟩ := ih hin
        exact ⟨rest, hwalk, hsuffix.trans (List.suffix_cons _ _)⟩

theorem Walk.head_mem {id : ClassId} {path : List ClassId} (h : hierarchy.Walk id path) : id ∈ path := by
  cases h <;> exact List.mem_cons_self

/-! ## Rooted hierarchies -/

namespace Rooted

theorem parent_lt (h : hierarchy.Rooted) {id parent : ClassId} (hid : id < hierarchy.size)
    (hsome : (hierarchy.get id).superclass = some parent) : parent < hierarchy.size :=
  ClassId.lt_of_level_lt hid h.initial (h.falls id hid parent hsome)

/-- A `Walk` takes at most as many steps as `ClassId.level` says, so `chain` is long enough. -/
theorem walk_chain (h : hierarchy.Rooted) {n : Nat} {id : ClassId} (hid : id < hierarchy.size)
    (hn : ClassId.level id < n) : hierarchy.Walk id (hierarchy.chain n id) := by
  induction n generalizing id with
  | zero => omega
  | succ n ih =>
      rw [chain]
      cases hsuper : (hierarchy.get id).superclass with
      | none => exact .last hsuper
      | some parent =>
          have hfalls := h.falls id hid parent hsuper
          exact .next hsuper (ih (h.parent_lt hid hsuper) (by omega))

/-- **The `ancestors` of a class are the whole `Walk` from it.** -/
theorem walk_ancestors (h : hierarchy.Rooted) {id : ClassId} (hid : id < hierarchy.size) :
    hierarchy.Walk id (hierarchy.ancestors id) :=
  h.walk_chain hid (ClassId.level_lt hid h.initial)

theorem lt_of_walk (h : hierarchy.Rooted) {id : ClassId} {path : List ClassId}
    (hwalk : hierarchy.Walk id path) (hid : id < hierarchy.size) :
    ∀ ancestor ∈ path, ancestor < hierarchy.size := by
  induction hwalk with
  | last _ =>
      intro ancestor hmem
      rwa [List.mem_singleton.mp hmem]
  | next hsome _ ih =>
      intro ancestor hmem
      rcases List.mem_cons.mp hmem with rfl | hin
      · exact hid
      · exact ih (h.parent_lt hid hsome) ancestor hin

/-- All that one comes by on a `Walk` is of a lower `ClassId.level`. -/
theorem level_of_walk (h : hierarchy.Rooted) {id : ClassId} {path : List ClassId}
    (hwalk : hierarchy.Walk id path) (hid : id < hierarchy.size) :
    ∀ ancestor ∈ path, ancestor = id ∨ ClassId.level ancestor < ClassId.level id := by
  induction hwalk with
  | last _ => exact fun ancestor hmem => .inl (List.mem_singleton.mp hmem)
  | next hsome _ ih =>
      intro ancestor hmem
      have hfalls := h.falls _ hid _ hsome
      rcases List.mem_cons.mp hmem with rfl | hin
      · exact .inl rfl
      · rcases ih (h.parent_lt hid hsome) ancestor hin with rfl | hlt
        · exact .inr hfalls
        · exact .inr (hlt.trans hfalls)

theorem nodup_of_walk (h : hierarchy.Rooted) {id : ClassId} {path : List ClassId}
    (hwalk : hierarchy.Walk id path) (hid : id < hierarchy.size) : path.Nodup := by
  induction hwalk with
  | last _ => exact List.pairwise_singleton _ _
  | @next id parent path hsome hrest ih =>
      have hparent := h.parent_lt hid hsome
      refine List.nodup_cons.mpr ⟨fun hmem => ?_, ih hparent⟩
      -- all that follows is at most as high as the parent, and that is lower than the class
      have hfalls := h.falls id hid parent hsome
      rcases h.level_of_walk hrest hparent id hmem with rfl | hlt
      · exact absurd hfalls (lt_irrefl _)
      · omega

theorem last_of_walk (h : hierarchy.Rooted) {id : ClassId} {path : List ClassId}
    (hwalk : hierarchy.Walk id path) (hid : id < hierarchy.size) :
    path.getLast? = some ClassId.root := by
  induction hwalk with
  | last hnone => rw [List.getLast?_singleton, (h.root _ hid).mp hnone]
  | @next id parent path hsome hrest ih =>
      rw [List.getLast?_cons_of_ne_nil (List.ne_nil_of_mem hrest.head_mem)]
      exact ih (h.parent_lt hid hsome)

/-- What is `Rooted` is a `Tree`. -/
theorem tree (h : hierarchy.Rooted) : hierarchy.Tree where
  classId := h.classId
  metaclass := h.classId _ (Nat.lt_of_lt_of_le (by decide) h.initial)
  root := h.root
  walk _ hid := h.walk_ancestors hid
  inside _ hid := h.lt_of_walk (h.walk_ancestors hid) hid
  nodup _ hid := h.nodup_of_walk (h.walk_ancestors hid) hid
  last _ hid := h.last_of_walk (h.walk_ancestors hid) hid

/-- The `ancestors` of an ancestor are the last part of those of the class. -/
theorem ancestors_suffix (h : hierarchy.Rooted) {id ancestor : ClassId} (hid : id < hierarchy.size)
    (hmem : ancestor ∈ hierarchy.ancestors id) :
    hierarchy.ancestors ancestor <:+ hierarchy.ancestors id := by
  obtain ⟨rest, hwalk, hsuffix⟩ := (h.walk_ancestors hid).suffix_of_mem hmem
  have hin := h.lt_of_walk (h.walk_ancestors hid) hid ancestor hmem
  rwa [(h.walk_ancestors hin).unique hwalk]

/-- What is `Rooted` is `Ordered` by descent. -/
theorem ordered (h : hierarchy.Rooted) : hierarchy.Ordered where
  refl id hid := descends_iff.mpr (h.walk_ancestors hid).head_mem
  antisymm id hid other hother hdown hup := by
    rw [descends_iff] at hdown hup
    -- of two different classes, neither can be lower than the other
    rcases h.level_of_walk (h.walk_ancestors hid) hid other hdown with rfl | hlt
    · rfl
    · rcases h.level_of_walk (h.walk_ancestors hother) hother id hup with rfl | hlt'
      · rfl
      · omega
  trans id hid middle above hmiddle habove := by
    rw [descends_iff] at hmiddle habove ⊢
    exact (h.ancestors_suffix hid hmiddle).subset habove
  greatest id hid := descends_iff.mpr (List.mem_of_getLast? (h.tree.last id hid))
  linear id hid above habove other hother := by
    have hhead : ∀ ancestor ∈ hierarchy.ancestors id, ancestor ∈ hierarchy.ancestors ancestor :=
      fun ancestor hmem => (h.walk_ancestors (h.tree.inside id hid ancestor hmem)).head_mem
    simp only [descends_iff]
    -- both are suffixes of one list, so one is a suffix of the other
    rcases List.suffix_or_suffix_of_suffix (h.ancestors_suffix hid habove) (h.ancestors_suffix hid hother)
      with hsuffix | hsuffix
    · exact .inr (hsuffix.subset (hhead above habove))
    · exact .inl (hsuffix.subset (hhead other hother))

/-! ## Making and changing classes -/

/-- `Rooted` is kept by a change that leaves class and superclass alone. -/
theorem modify (h : hierarchy.Rooted) (id : ClassId) {change : ClassEntry → ClassEntry}
    (hclass : ∀ entry, (change entry).classId = entry.classId)
    (hsuper : ∀ entry, (change entry).superclass = entry.superclass) :
    (hierarchy.modify id change).Rooted := by
  have hclass' : ∀ other, ((hierarchy.modify id change).get other).classId
      = (hierarchy.get other).classId := by
    intro other
    rw [get_modify]
    split
    · exact hclass _
    · rfl
  have hsuper' : ∀ other, ((hierarchy.modify id change).get other).superclass
      = (hierarchy.get other).superclass := by
    intro other
    rw [get_modify]
    split
    · exact hsuper _
    · rfl
  constructor
  · simpa using h.initial
  · simpa [hclass'] using h.classId
  · simpa [hsuper'] using h.root
  · simpa [hsuper'] using h.falls

/-- `Rooted` is kept by a new class: it is higher than its superclass, whichever that is. -/
theorem push (h : hierarchy.Rooted) {entry : ClassEntry} {parent : ClassId}
    (hclass : entry.classId = ClassId.metaclass) (hsuper : entry.superclass = some parent)
    (hparent : parent < hierarchy.size) : (hierarchy.push entry).Rooted := by
  have hinitial := h.initial
  have hcases : ∀ id < (hierarchy.push entry).size, id = hierarchy.size ∨ id < hierarchy.size := by
    intro id hid
    rw [size_push] at hid
    exact Nat.eq_or_lt_of_le (Nat.le_of_lt_succ hid)
  constructor
  · rw [size_push]
    omega
  · intro id hid
    rw [get_push]
    split
    · exact hclass
    · exact h.classId id ((hcases id hid).resolve_left ‹_›)
  · intro id hid
    rw [get_push]
    split
    · rename_i hnew
      rw [hsuper, hnew]
      constructor
      · exact fun hnone => absurd hnone (by simp)
      · intro hroot
        exact absurd hroot (Nat.ne_of_gt (Nat.lt_of_lt_of_le (by decide) hinitial))
    · exact h.root id ((hcases id hid).resolve_left ‹_›)
  · intro id hid other
    rw [get_push]
    split
    · rename_i hnew
      rw [hsuper, hnew, ClassId.level_of_two_le (Nat.le_trans (by decide) hinitial)]
      rintro ⟨⟩
      exact ClassId.level_lt hparent hinitial
    · exact h.falls id ((hcases id hid).resolve_left ‹_›) other

theorem create (h : hierarchy.Rooted) (scope : ClassId) (name : String) {parent : ClassId}
    (hparent : parent < hierarchy.size) : (hierarchy.create scope name parent).Rooted :=
  (h.push rfl rfl hparent).modify scope (fun _ => rfl) fun _ => rfl

theorem define (h : hierarchy.Rooted) (id : ClassId) (name : String) (method : Method) :
    (hierarchy.define id name method).Rooted :=
  h.modify id (fun _ => rfl) fun _ => rfl

end Rooted

theorem rooted_bare : bare.Rooted where
  initial := by decide
  classId := by decide
  root := by decide
  falls := by decide

theorem rooted_initial : initial.Rooted :=
  List.foldlRecOn builtins _ rooted_bare fun _ h entry _ => h.define entry.owner entry.name entry.method

end Hierarchy

end ObjectTalk

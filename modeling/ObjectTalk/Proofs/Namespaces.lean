import ObjectTalk.Proofs.Growth
/-!
# `Proofs.Namespaces` — constants form a tree of namespaces

A program makes a constant only by making a class, and then under a name that is free. So every class stands under
one name in one namespace, which for all but the initial classes is a class that was made before, and its qualified
name is put together from the two (`Hierarchy.Namespaced`). Three things follow. Every class is reached from the
root class through constants; `Hierarchy.reachable`, which goes through the constants level by level, finds them
all; and qualified names tell classes apart, provided that no name contains what they are joined with.
-/

namespace ObjectTalk

namespace Hierarchy

variable {hierarchy : Hierarchy} {scope other id : ClassId} {name called : String}

/-- The class stands under the name in the namespace: it is a constant there, by `constant?`. -/
def Binds (hierarchy : Hierarchy) (scope : ClassId) (name : String) (id : ClassId) : Prop :=
  hierarchy.constant? scope name = some (.classRef id)

/-- Every class stands under one name in one namespace (`Binds`), and has its qualified name from there. -/
structure Namespaced (hierarchy : Hierarchy) : Prop where
  lt_size : ∀ {scope name id}, hierarchy.Binds scope name id → id < hierarchy.size
  bound : ∀ id < hierarchy.size, ∃ scope name, hierarchy.Binds scope name id
  unique : ∀ {scope name other called id}, hierarchy.Binds scope name id → hierarchy.Binds other called id →
    scope = other ∧ name = called
  initial : ∀ {scope name id}, hierarchy.Binds scope name id → id < 5 → scope = ClassId.root
  older : ∀ {scope name id}, hierarchy.Binds scope name id → 5 ≤ id → scope < id
  name_eq : ∀ {scope name id}, hierarchy.Binds scope name id → hierarchy.name id = hierarchy.qualify scope name

/-- A name `Binds` one class only. -/
theorem Binds.functional {id' : ClassId} (h : hierarchy.Binds scope name id)
    (h' : hierarchy.Binds scope name id') : id = id' := by
  rw [Binds, h, Option.some.injEq, Value.classRef.injEq] at h'
  exact h'

theorem Binds.mem_entries (h : hierarchy.Binds scope name id) :
    (name, .classRef id) ∈ (hierarchy.get scope).constants.entries := by
  obtain ⟨before, after, hentries, _⟩ := List.lookup_eq_some_iff.mp h
  rw [hentries]
  simp

/-! ## Changes that make no class -/

/-- Classes that have the same names and constants are `Namespaced` alike. -/
theorem Namespaced.of_same {after : Hierarchy} (h : hierarchy.Namespaced) (hsize : after.size = hierarchy.size)
    (hname : ∀ id, (after.get id).name = (hierarchy.get id).name)
    (hconstants : ∀ id, (after.get id).constants = (hierarchy.get id).constants) : after.Namespaced := by
  have hbinds : after.Binds = hierarchy.Binds := by
    funext scope name id
    rw [Binds, Binds, constant?, constant?, hconstants]
  have hnames : after.name = hierarchy.name := funext hname
  refine ⟨?_, ?_, ?_, ?_, ?_, ?_⟩
  · rw [hbinds, hsize]
    exact h.lt_size
  · rw [hbinds, hsize]
    exact h.bound
  · rw [hbinds]
    exact h.unique
  · rw [hbinds]
    exact h.initial
  · rw [hbinds]
    exact h.older
  · intro scope name id hid
    rw [hbinds] at hid
    rw [hnames, h.name_eq hid, qualify, qualify, hnames]

theorem Namespaced.modify (h : hierarchy.Namespaced) (id : ClassId) {change : ClassEntry → ClassEntry}
    (hname : ∀ entry, (change entry).name = entry.name)
    (hconstants : ∀ entry, (change entry).constants = entry.constants) :
    (hierarchy.modify id change).Namespaced := by
  refine h.of_same (hierarchy.size_modify id change) ?_ ?_
  · intro other
    rw [get_modify]
    split
    · exact hname _
    · rfl
  · intro other
    rw [get_modify]
    split
    · exact hconstants _
    · rfl

/-! ## A new class -/

/-- The class that `create` makes is called what `qualify` says; the others keep their names. -/
theorem name_create (scope : ClassId) (name : String) (superclass id : ClassId) :
    (hierarchy.create scope name superclass).name id
      = if id = hierarchy.size then hierarchy.qualify scope name else hierarchy.name id := by
  rw [create, bindConstant, Hierarchy.name, get_modify]
  have hkept : ∀ {entry : ClassEntry} {constants : Table Value},
      ({ entry with constants } : ClassEntry).name = entry.name := rfl
  split
  · rw [hkept, get_push]
    split <;> rfl
  · rw [get_push]
    split <;> rfl

/-- `create` binds the new class where its name was free, and nothing else. -/
theorem binds_create_iff (hscope : scope < hierarchy.size) (hfree : hierarchy.constant? scope name = none)
    (superclass : ClassId) :
    (hierarchy.create scope name superclass).Binds other called id
      ↔ (other = scope ∧ called = name ∧ id = hierarchy.size) ∨ hierarchy.Binds other called id := by
  rw [Binds, Binds, constant?, create, bindConstant, get_modify, size_push]
  by_cases hother : scope = other
  · subst hother
    have hget : ∀ entry, (hierarchy.push entry).get scope = hierarchy.get scope := fun entry => by
      rw [get_push, if_neg (Nat.ne_of_lt hscope)]
    rw [if_pos ⟨rfl, Nat.lt_succ_of_lt hscope⟩, hget]
    show (Table.set _ name _).get? called = _ ↔ _
    rw [Table.get?_set]
    by_cases hcalled : called = name
    · subst hcalled
      rw [constant?] at hfree
      simp [constant?, hfree, eq_comm]
    · simp [constant?, hcalled]
  · rw [if_neg fun hboth => hother hboth.1, get_push]
    by_cases hnew : other = hierarchy.size
    · -- the new class has no constants, and no more had what was not yet there
      subst hnew
      rw [if_pos rfl, constant?, get_of_size_le (Nat.le_refl _)]
      constructor
      · intro hnone
        cases hnone
      · rintro (⟨heq, _⟩ | hnone)
        · exact absurd heq.symm hother
        · cases hnone
    · rw [if_neg hnew, constant?]
      constructor
      · exact .inr
      · rintro (⟨heq, _⟩ | hbinds)
        · exact absurd heq.symm hother
        · exact hbinds

/-- **Making a class by `create` keeps the tree.** -/
theorem Namespaced.create (h : hierarchy.Namespaced) (hinitial : 5 ≤ hierarchy.size)
    (hscope : scope < hierarchy.size) (hfree : hierarchy.constant? scope name = none) (superclass : ClassId) :
    (hierarchy.create scope name superclass).Namespaced := by
  have hsize : (hierarchy.create scope name superclass).size = hierarchy.size + 1 := by
    simp [Hierarchy.create, bindConstant]
  have hqualify : ∀ {other : ClassId} (called : String), other < hierarchy.size →
      (hierarchy.create scope name superclass).qualify other called = hierarchy.qualify other called := by
    intro other called hother
    rw [qualify, qualify, name_create, if_neg (Nat.ne_of_lt hother)]
  constructor
  · intro other called id hbinds
    rw [hsize]
    rcases (binds_create_iff hscope hfree superclass).mp hbinds with ⟨_, _, rfl⟩ | hold
    · exact Nat.lt_succ_self _
    · exact Nat.lt_succ_of_lt (h.lt_size hold)
  · intro id hid
    rw [hsize] at hid
    rcases Nat.lt_succ_iff_lt_or_eq.mp hid with hold | rfl
    · obtain ⟨other, called, hbinds⟩ := h.bound id hold
      exact ⟨other, called, (binds_create_iff hscope hfree superclass).mpr (.inr hbinds)⟩
    · exact ⟨scope, name, (binds_create_iff hscope hfree superclass).mpr (.inl ⟨rfl, rfl, rfl⟩)⟩
  · intro first firstName second secondName id hfirst hsecond
    rcases (binds_create_iff hscope hfree superclass).mp hfirst with ⟨rfl, rfl, rfl⟩ | hfirst
    · rcases (binds_create_iff hscope hfree superclass).mp hsecond with ⟨rfl, rfl, _⟩ | hsecond
      · exact ⟨rfl, rfl⟩
      · exact absurd (h.lt_size hsecond) (Nat.lt_irrefl _)
    · rcases (binds_create_iff hscope hfree superclass).mp hsecond with ⟨_, _, rfl⟩ | hsecond
      · exact absurd (h.lt_size hfirst) (Nat.lt_irrefl _)
      · exact h.unique hfirst hsecond
  · intro other called id hbinds hid
    rcases (binds_create_iff hscope hfree superclass).mp hbinds with ⟨_, _, rfl⟩ | hold
    · exact absurd hid (Nat.not_lt.mpr hinitial)
    · exact h.initial hold hid
  · intro other called id hbinds hid
    rcases (binds_create_iff hscope hfree superclass).mp hbinds with ⟨rfl, _, rfl⟩ | hold
    · exact hscope
    · exact h.older hold hid
  · intro other called id hbinds
    rcases (binds_create_iff hscope hfree superclass).mp hbinds with ⟨rfl, rfl, rfl⟩ | hold
    · rw [name_create, if_pos rfl, hqualify called hscope]
    · rw [name_create, if_neg (Nat.ne_of_lt (h.lt_size hold)), hqualify called (lt_size_of_constant? hold)]
      exact h.name_eq hold

/-! ## The initial classes -/

theorem constants_of_bare : ∀ scope < bare.size, ∀ entry ∈ (bare.get scope).constants.entries,
    scope = ClassId.root ∧ ∃ id < 5, entry = (bare.name id, .classRef id) := by
  decide

theorem binds_bare (h : bare.Binds scope name id) : scope = ClassId.root ∧ id < 5 ∧ name = bare.name id := by
  obtain ⟨hscope, member, hmember, heq⟩ := constants_of_bare scope (lt_size_of_constant? h) _ h.mem_entries
  cases heq
  exact ⟨hscope, hmember, rfl⟩

theorem namespaced_bare : bare.Namespaced where
  lt_size h := (binds_bare h).2.1
  bound := by
    have hbound : ∀ id < 5, bare.constant? ClassId.root (bare.name id) = some (.classRef id) := by decide
    exact fun id hid => ⟨ClassId.root, bare.name id, hbound id hid⟩
  unique h h' :=
    ⟨(binds_bare h).1.trans (binds_bare h').1.symm, (binds_bare h).2.2.trans (binds_bare h').2.2.symm⟩
  initial h _ := (binds_bare h).1
  older h hid := absurd (binds_bare h).2.1 (Nat.not_lt.mpr hid)
  name_eq h := by rw [qualify, if_pos (binds_bare h).1, (binds_bare h).2.2]

theorem namespaced_initial : Hierarchy.initial.Namespaced := by
  refine List.foldlRecOn (motive := Namespaced) builtins _ namespaced_bare ?_
  intro hierarchy h entry _
  exact h.modify entry.owner (fun _ => rfl) fun _ => rfl

/-! ## The classes that are reached -/

/-- The class is reached from the root class through `n` constants. -/
inductive ReachedIn (hierarchy : Hierarchy) : Nat → ClassId → Prop where
  | root : ReachedIn hierarchy 0 ClassId.root
  | member {n : Nat} {scope : ClassId} {name : String} {id : ClassId} (hscope : ReachedIn hierarchy n scope)
      (hbinds : hierarchy.Binds scope name id) : ReachedIn hierarchy (n + 1) id

/-- Every class is `ReachedIn` no more constants than there are classes: its namespace is older. -/
theorem Namespaced.reachedIn (h : hierarchy.Namespaced) (id : ClassId) (hid : id < hierarchy.size) :
    ∃ n ≤ id + 1, hierarchy.ReachedIn n id := by
  induction id using Nat.strong_induction_on with
  | h id ih =>
      obtain ⟨scope, name, hbinds⟩ := h.bound id hid
      rcases Nat.lt_or_ge id 5 with hinitial | hmade
      · rw [h.initial hbinds hinitial] at hbinds
        exact ⟨1, Nat.le_add_left 1 id, .member .root hbinds⟩
      · have holder := h.older hbinds hmade
        obtain ⟨n, hn, hreached⟩ := ih scope holder (lt_size_of_constant? hbinds)
        exact ⟨n + 1, Nat.succ_le_succ (Nat.le_trans hn holder), .member hreached hbinds⟩

theorem Binds.mem_members (h : hierarchy.Binds scope name id) : id ∈ hierarchy.members scope :=
  List.mem_filterMap.mpr ⟨(name, .classRef id), h.mem_entries, rfl⟩

/-- By induction on the rounds that are left. After `k` rounds all that is reached through `k` constants has been
    seen; what has been seen and is not on the frontier has had its turn. -/
theorem mem_reach (n : Nat) : ∀ {k : Nat} {seen frontier : List ClassId},
    (∀ j ≤ k, ∀ id, hierarchy.ReachedIn j id → id ∈ seen) →
    (∀ id ∈ seen, id ∉ frontier → ∀ member ∈ hierarchy.members id, member ∈ seen) →
    ∀ j ≤ k + n, ∀ id, hierarchy.ReachedIn j id → id ∈ hierarchy.reach n seen frontier := by
  induction n with
  | zero =>
      intro k seen frontier hseen _
      exact hseen
  | succ n ih =>
      intro k seen frontier hseen hdone j hj id hreached
      rw [reach]
      generalize hfresh : ((frontier.flatMap hierarchy.members).eraseDups.filter fun id => !seen.contains id)
        = fresh
      have hmembers : ∀ id ∈ seen, ∀ member ∈ hierarchy.members id, member ∈ seen ++ fresh := by
        intro id hid member hmember
        by_cases hknown : member ∈ seen
        · exact List.mem_append_left _ hknown
        · have hfrontier : id ∈ frontier := by
            by_contra hturn
            exact hknown (hdone id hid hturn member hmember)
          refine List.mem_append_right _ ?_
          rw [← hfresh]
          simp only [List.mem_filter, List.mem_eraseDups, List.mem_flatMap]
          exact ⟨⟨id, hfrontier, hmember⟩, by simpa using hknown⟩
      have hroot : ClassId.root ∈ seen := hseen 0 (Nat.zero_le k) _ .root
      by_cases hempty : fresh.isEmpty
      · -- nothing new: what has been seen is closed
        rw [if_pos hempty]
        rw [List.isEmpty_iff.mp hempty, List.append_nil] at hmembers
        clear hj
        induction hreached with
        | root => exact hroot
        | member _ hbinds ihr => exact hmembers _ ihr _ hbinds.mem_members
      · rw [if_neg hempty]
        refine @ih (k + 1) (seen ++ fresh) fresh ?_ ?_ j (by omega) id hreached
        · intro i hi id hid
          cases hid with
          | root => exact List.mem_append_left _ hroot
          | member hscope hbinds =>
              exact hmembers _ (hseen _ (by omega) _ hscope) _ hbinds.mem_members
        · intro id hid hturn
          rcases List.mem_append.mp hid with hold | hnew
          · exact hmembers id hold
          · exact absurd hnew hturn

/-- **All classes are found through constants**, by `Hierarchy.reachable`. -/
theorem Namespaced.reachable_eq (h : hierarchy.Namespaced) :
    hierarchy.reachable = List.range hierarchy.size := by
  rw [reachable, List.filter_eq_self]
  intro id hid
  have hlt := List.mem_range.mp hid
  obtain ⟨n, hn, hreached⟩ := h.reachedIn id hlt
  have hrounds : n ≤ 0 + hierarchy.size := by
    rw [Nat.zero_add]
    exact Nat.le_trans hn hlt
  refine List.contains_iff_mem.mpr (mem_reach hierarchy.size ?_ ?_ n hrounds id hreached)
  · intro j hj id hid
    obtain rfl := Nat.le_zero.mp hj
    cases hid
    exact List.mem_singleton_self _
  · intro id hid hturn
    exact absurd hid hturn

/-! ## Qualified names -/

/-- A separator after which there is no other one is the last: nothing stands between it and the last. -/
theorem eq_nil_of_cons_eq_append {separator : Char} {between name called : List Char} (hname : separator ∉ name)
    (h : separator :: name = between ++ separator :: called) : between = [] := by
  cases between with
  | nil => rfl
  | cons first rest =>
      rw [List.cons_append, List.cons.injEq] at h
      refine absurd ?_ hname
      rw [h.2]
      simp

/-- What stands after the last separator can be told from what stands before it. -/
theorem eq_of_qualified_eq {first second : String} (hname : ':' ∉ name.toList) (hcalled : ':' ∉ called.toList)
    (h : first ++ "::" ++ name = second ++ "::" ++ called) : first = second ∧ name = called := by
  have hlists : (first.toList ++ [':']) ++ ':' :: name.toList
      = (second.toList ++ [':']) ++ ':' :: called.toList := by
    have hchars := congrArg String.toList h
    simpa using hchars
  have hbefore : first.toList ++ [':'] = second.toList ++ [':'] := by
    rcases List.append_eq_append_iff.mp hlists with ⟨between, hbefore, hafter⟩ | ⟨between, hbefore, hafter⟩
    · rw [hbefore, eq_nil_of_cons_eq_append hname hafter, List.append_nil]
    · rw [hbefore, eq_nil_of_cons_eq_append hcalled hafter, List.append_nil]
  rw [hbefore] at hlists
  have hafter := (List.cons.inj (List.append_cancel_left hlists)).2
  exact ⟨String.toList_inj.mp (List.append_cancel_right hbefore), String.toList_inj.mp hafter⟩

/-- **Qualified names tell classes apart** in classes that are `Namespaced`, if no name contains what they are joined
    with. By induction on the classes: equal names come from equal names of older namespaces. -/
theorem Namespaced.eq_of_name_eq (h : hierarchy.Namespaced)
    (hplain : ∀ scope name id, hierarchy.Binds scope name id → ':' ∉ name.toList) (id : ClassId) :
    id < hierarchy.size → ∀ id' < hierarchy.size, hierarchy.name id = hierarchy.name id' → id = id' := by
  induction id using Nat.strong_induction_on with
  | h id ih =>
      intro hid id' hid' heq
      obtain ⟨scope, name, hbinds⟩ := h.bound id hid
      obtain ⟨other, called, hbinds'⟩ := h.bound id' hid'
      have hname := hplain scope name id hbinds
      have hcalled := hplain other called id' hbinds'
      rw [h.name_eq hbinds, h.name_eq hbinds', qualify, qualify] at heq
      have hjoined : ∀ {first rest : String}, ':' ∈ (first ++ "::" ++ rest).toList := by simp
      by_cases hroot : scope = ClassId.root
      · by_cases hroot' : other = ClassId.root
        · rw [if_pos hroot, if_pos hroot'] at heq
          rw [hroot, heq] at hbinds
          rw [hroot'] at hbinds'
          exact hbinds.functional hbinds'
        · rw [if_pos hroot, if_neg hroot'] at heq
          rw [heq] at hname
          exact absurd hjoined hname
      · by_cases hroot' : other = ClassId.root
        · rw [if_neg hroot, if_pos hroot'] at heq
          rw [← heq] at hcalled
          exact absurd hjoined hcalled
        · rw [if_neg hroot, if_neg hroot'] at heq
          obtain ⟨hscopes, rfl⟩ := eq_of_qualified_eq hname hcalled heq
          have hmade : 5 ≤ id := Nat.le_of_not_lt fun hlt => hroot (h.initial hbinds hlt)
          obtain rfl := ih scope (h.older hbinds hmade) (lt_size_of_constant? hbinds) other
            (lt_size_of_constant? hbinds') hscopes
          exact hbinds.functional hbinds'

end Hierarchy

/-! ## Programs -/

namespace Machine

theorem namespaced_step {machine last : Machine} (h : machine.classes.Namespaced) (hformed : machine.WellFormed)
    (hstep : machine.Step machine.Owns last) : last.classes.Namespaced := by
  cases hstep with
  | bindClassIvar id name value _ _ => exact h.modify id (fun _ => rfl) fun _ => rfl
  | define id name method _ => exact h.modify id (fun _ => rfl) fun _ => rfl
  | create scope name superclass hscope _ hfree =>
      exact h.create hformed.rooted.initial hscope hfree superclass
  | _ => exact h

/-- **Evaluation keeps the tree of namespaces**: that classes are `Namespaced` is an `Invariant`. -/
def namespaced : Invariant :=
  wellFormed.strengthen (fun machine => machine.classes.Namespaced) (fun _ => True) (fun _ _ => trivial)
    (fun _ _ => trivial) (fun hformed _ h hstep => namespaced_step h hformed hstep) (fun h _ => h) (fun h => h)

/-- **Constants form a tree of namespaces that has all classes.** In any machine that `Occurs` on a new one, every
    class is `ReachedIn` some constants from the root, stands under exactly one name in one namespace, which is older
    unless the class is initial, and is named by both. If no name has a colon, no two classes have the same name. -/
theorem constants_form_namespace_tree {settings : Settings} {output : Output} {machine : Machine}
    (h : (boot settings output).Occurs machine) :
    (∀ id < machine.classes.size, ∃! place : ClassId × String,
      machine.classes.constant? place.1 place.2 = some (.classRef id)) ∧
    (∀ id < machine.classes.size, ∃ n, machine.classes.ReachedIn n id) ∧
    machine.classes.reachable = List.range machine.classes.size ∧
    (∀ scope name id, machine.classes.constant? scope name = some (.classRef id) →
      (5 ≤ id → scope < id) ∧
      machine.classes.name id
        = if scope = ClassId.root then name else machine.classes.name scope ++ "::" ++ name) ∧
    ((∀ scope name id, machine.classes.constant? scope name = some (.classRef id) → ':' ∉ name.toList) →
      ∀ id < machine.classes.size, ∀ other < machine.classes.size,
        machine.classes.name id = machine.classes.name other → id = other) := by
  have hinitial : namespaced.holds (boot settings output) :=
    ⟨wellFormed_boot settings output, Hierarchy.namespaced_initial⟩
  have htree : machine.classes.Namespaced := (Invariant.holds_of_occurs h hinitial).2
  refine ⟨?_, ?_, htree.reachable_eq, ?_, htree.eq_of_name_eq⟩
  · intro id hid
    obtain ⟨scope, name, hbinds⟩ := htree.bound id hid
    refine ⟨(scope, name), hbinds, ?_⟩
    rintro ⟨other, called⟩ hother
    obtain ⟨rfl, rfl⟩ := htree.unique hbinds hother
    rfl
  · intro id hid
    obtain ⟨n, _, hreached⟩ := htree.reachedIn id hid
    exact ⟨n, hreached⟩
  · exact fun scope name id hbinds => ⟨htree.older hbinds, htree.name_eq hbinds⟩

/-- A new machine after a program that makes a class in a class in a class, opens the middle one once more to make
    another one there, and then fails. -/
def nestedNamespaces : Machine :=
  (run (.sequence [.classDef none "A" none (.sequence []),
    .classDef (some (.constRef none "A")) "B" none
      (.classDef (some (.constRef (some (.constRef none "A")) "B")) "A" none (.sequence [])),
    .classDef (some (.constRef none "A")) "B" none
      (.classDef (some (.constRef (some (.constRef none "A")) "B")) "C" none (.sequence [])),
    .constRef none "Missing"])).after (boot {} (.kept ""))

theorem constants_form_namespace_tree_nested :
    ((boot {} (.kept "")).Occurs nestedNamespaces
      ∧ nestedNamespaces.classes.constant? 6 "C" = some (.classRef 8)
      ∧ (∀ scope name id, nestedNamespaces.classes.constant? scope name = some (.classRef id) →
          ':' ∉ name.toList))
    ∧ 6 < 8 ∧ nestedNamespaces.classes.name 8 = nestedNamespaces.classes.name 6 ++ "::" ++ "C"
    ∧ nestedNamespaces.classes.name 6 = "A::B"
    ∧ nestedNamespaces.classes.name 5 ≠ nestedNamespaces.classes.name 7 := by
  have hoccurs : (boot {} (.kept "")).Occurs nestedNamespaces := (RunsTo.refl.run _).occurs
  have hbinds : nestedNamespaces.classes.constant? 6 "C" = some (.classRef 8) := by decide +kernel
  have hentries : ∀ scope < nestedNamespaces.classes.size,
      ∀ entry ∈ (nestedNamespaces.classes.get scope).constants.entries, ':' ∉ entry.1.toList := by decide +kernel
  have hplain : ∀ scope name id, nestedNamespaces.classes.constant? scope name = some (.classRef id) →
      ':' ∉ name.toList := fun scope name id hname =>
    hentries scope (Hierarchy.lt_size_of_constant? hname) _ (Hierarchy.Binds.mem_entries hname)
  obtain ⟨_, _, _, hplaces, hnames⟩ := constants_form_namespace_tree hoccurs
  obtain ⟨holder, hname⟩ := hplaces 6 "C" 8 hbinds
  refine ⟨⟨hoccurs, hbinds, hplain⟩, holder (by decide), hname, by decide +kernel, fun hsame => ?_⟩
  exact absurd (hnames hplain 5 (by decide +kernel) 7 (by decide +kernel) hsame) (by decide)

end Machine

end ObjectTalk

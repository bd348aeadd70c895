import ObjectTalk.Proofs.Orderly
/-!
# `Proofs.Dispatch` — the method that a message calls

A message goes to the first class that has a method of its name, on the way from the class of the receiver along
superclass links to the root class. `Hierarchy.Exposes` says that of a way, not of a search: one comes to the class
and by no other before it that has such a method. In a rooted hierarchy the search finds exactly that class
(`Hierarchy.Rooted.lookup_eq_some_iff`).

Defining a method leaves all ways as they are. It is found by those classes only to which its owner is exposed;
whatever another class or another name finds is what it found before.
-/

namespace ObjectTalk

namespace Hierarchy

/-- The `Method` that a class itself has under a name. -/
def own? (hierarchy : Hierarchy) (id : ClassId) (name : String) : Option Method :=
  (hierarchy.get id).methods.get? name

/-- Following superclass links from `id` one comes to `owner`, and by no class before it that has a method of this
    name. -/
def Exposes (hierarchy : Hierarchy) (name : String) (id owner : ClassId) : Prop :=
  ∃ before after, hierarchy.Walk id (before ++ owner :: after)
    ∧ ∀ other ∈ before, hierarchy.own? other name = none

variable {hierarchy : Hierarchy}

/-! ## Looking up a method -/

theorem lookup_eq_findSome? (hierarchy : Hierarchy) (id : ClassId) (name : String) :
    hierarchy.lookup id name
      = (hierarchy.ancestors id).findSome? fun owner => (hierarchy.own? owner name).map (owner, ·) := rfl

namespace Rooted

/-- **What `lookup` finds is the method of the first class that has one**: the class `Exposes` its owner. -/
theorem lookup_eq_some_iff (h : hierarchy.Rooted) {id : ClassId} (hid : id < hierarchy.size) {name : String}
    {owner : ClassId} {method : Method} :
    hierarchy.lookup id name = some (owner, method)
      ↔ hierarchy.Exposes name id owner ∧ hierarchy.own? owner name = some method := by
  have hwalk := h.walk_ancestors hid
  rw [lookup_eq_findSome?, List.findSome?_eq_some_iff]
  constructor
  · rintro ⟨before, found, after, hpath, hfound, hbefore⟩
    obtain ⟨_, hown, heq⟩ := Option.map_eq_some_iff.mp hfound
    cases heq
    refine ⟨⟨before, after, hpath ▸ hwalk, ?_⟩, hown⟩
    intro other hother
    exact Option.map_eq_none_iff.mp (hbefore other hother)
  · rintro ⟨⟨before, after, hway, hbefore⟩, hown⟩
    refine ⟨before, owner, after, hwalk.unique hway, ?_, ?_⟩
    · rw [hown]
      rfl
    · intro other hother
      rw [hbefore other hother]
      rfl

/-- `lookup` finds nothing if no class on the `Walk` has a method of the name. -/
theorem lookup_eq_none_iff (h : hierarchy.Rooted) {id : ClassId} (hid : id < hierarchy.size) {name : String} :
    hierarchy.lookup id name = none
      ↔ ∃ path, hierarchy.Walk id path ∧ ∀ owner ∈ path, hierarchy.own? owner name = none := by
  have hwalk := h.walk_ancestors hid
  rw [lookup_eq_findSome?, List.findSome?_eq_none_iff]
  simp only [Option.map_eq_none_iff]
  constructor
  · intro hnone
    exact ⟨_, hwalk, hnone⟩
  · rintro ⟨path, hway, hnone⟩
    rw [hwalk.unique hway]
    exact hnone

end Rooted

/-! ## Defining a method -/

theorem size_define (hierarchy : Hierarchy) (id : ClassId) (name : String) (method : Method) :
    (hierarchy.define id name method).size = hierarchy.size := by
  simp [define]

/-- After `define`, only what the class itself has under the name is another method. -/
theorem own?_define {id : ClassId} (hid : id < hierarchy.size) (name : String) (method : Method)
    (other : ClassId) (name' : String) :
    (hierarchy.define id name method).own? other name'
      = if other = id ∧ name' = name then some method else hierarchy.own? other name' := by
  unfold own? define
  rw [get_modify]
  by_cases hother : id = other
  · subst hother
    by_cases hname : name' = name
    · simp [hid, hname, Table.get?_set]
    · simp [hid, hname, Table.get?_set]
  · have hne : ¬ other = id := fun heq => hother heq.symm
    simp [hother, hne]

/-- `define` changes no superclass link. -/
theorem walk_define_iff (hierarchy : Hierarchy) (owner : ClassId) (name : String) (method : Method)
    {id : ClassId} {path : List ClassId} :
    (hierarchy.define owner name method).Walk id path ↔ hierarchy.Walk id path := by
  have hsuper : ∀ other, ((hierarchy.define owner name method).get other).superclass
      = (hierarchy.get other).superclass := by
    intro other
    unfold define
    rw [get_modify]
    split <;> rfl
  constructor
  · intro hwalk
    induction hwalk with
    | last hnone => exact .last ((hsuper _).symm.trans hnone)
    | next hsome _ ih => exact .next ((hsuper _).symm.trans hsome) ih
  · intro hwalk
    induction hwalk with
    | last hnone => exact .last ((hsuper _).trans hnone)
    | next hsome _ ih => exact .next ((hsuper _).trans hsome) ih

namespace Rooted

variable {owner id : ClassId} {name name' : String}

/-- **A method is found by the classes that its owner `Exposes`.** -/
theorem lookup_define_of_exposes (h : hierarchy.Rooted) (howner : owner < hierarchy.size)
    (hid : id < hierarchy.size) (method : Method) (hexposes : hierarchy.Exposes name id owner) :
    (hierarchy.define owner name method).lookup id name = some (owner, method) := by
  have hid' : id < (hierarchy.define owner name method).size := by rwa [size_define]
  rw [(h.define owner name method).lookup_eq_some_iff hid']
  obtain ⟨before, after, hwalk, hbefore⟩ := hexposes
  refine ⟨⟨before, after, (walk_define_iff ..).mpr hwalk, ?_⟩, ?_⟩
  · intro other hother
    -- one does not come by a class twice, so that those before are others
    have hne : other ≠ owner := by
      have hnodup := h.nodup_of_walk hwalk hid
      rw [List.nodup_append] at hnodup
      exact hnodup.2.2 other hother owner List.mem_cons_self
    rw [own?_define howner, if_neg (fun heq => hne heq.1)]
    exact hbefore other hother
  · rw [own?_define howner, if_pos ⟨rfl, rfl⟩]

/-- A class that does not have the owner exposed (`Exposes`) comes by the owner, if at all, after a class that has a
    method of the name already. -/
theorem own?_define_of_not_exposes (howner : owner < hierarchy.size) (method : Method)
    (hnot : ¬ (name' = name ∧ hierarchy.Exposes name id owner)) {before after : List ClassId} {other : ClassId}
    (hwalk : hierarchy.Walk id (before ++ other :: after))
    (hbefore : ∀ earlier ∈ before, hierarchy.own? earlier name' = none) :
    (hierarchy.define owner name method).own? other name' = hierarchy.own? other name' := by
  rw [own?_define howner, if_neg]
  rintro ⟨rfl, rfl⟩
  exact hnot ⟨rfl, before, after, hwalk, hbefore⟩

/-- **Whatever else is looked up after `define` is what it was before.** -/
theorem lookup_define_of_not_exposes (h : hierarchy.Rooted) (howner : owner < hierarchy.size)
    (hid : id < hierarchy.size) (method : Method)
    (hnot : ¬ (name' = name ∧ hierarchy.Exposes name id owner)) :
    (hierarchy.define owner name method).lookup id name' = hierarchy.lookup id name' := by
  have hdefined := h.define owner name method
  have hid' : id < (hierarchy.define owner name method).size := by rwa [size_define]
  -- classes that have no method of the name, up to some point of the way, still have none
  have hfront : ∀ {front back : List ClassId}, hierarchy.Walk id (front ++ back) →
      (∀ other ∈ front, hierarchy.own? other name' = none) →
      ∀ other ∈ front, (hierarchy.define owner name method).own? other name' = none := by
    intro front back hwalk hnone other hother
    obtain ⟨first, second, rfl⟩ := List.append_of_mem hother
    have hwalk' : hierarchy.Walk id (first ++ other :: (second ++ back)) := by simpa using hwalk
    have hfirst : ∀ earlier ∈ first, hierarchy.own? earlier name' = none :=
      fun earlier hearlier => hnone earlier (List.mem_append_left _ hearlier)
    rw [own?_define_of_not_exposes howner method hnot hwalk' hfirst]
    exact hnone other hother
  cases hfound : hierarchy.lookup id name' with
  | some found =>
      obtain ⟨found, method'⟩ := found
      obtain ⟨⟨before, after, hwalk, hbefore⟩, hown⟩ := (h.lookup_eq_some_iff hid).mp hfound
      refine (hdefined.lookup_eq_some_iff hid').mpr ⟨⟨before, after, (walk_define_iff ..).mpr hwalk, ?_⟩, ?_⟩
      · exact hfront hwalk hbefore
      · rw [own?_define_of_not_exposes howner method hnot hwalk hbefore]
        exact hown
  | none =>
      obtain ⟨path, hwalk, hnone⟩ := (h.lookup_eq_none_iff hid).mp hfound
      refine (hdefined.lookup_eq_none_iff hid').mpr ⟨path, (walk_define_iff ..).mpr hwalk, ?_⟩
      have hwhole : hierarchy.Walk id (path ++ []) := by simpa using hwalk
      exact hfront hwhole hnone

end Rooted

end Hierarchy

/-! ## Messages -/

namespace Machine

variable {machine : Machine} {value : Value} {name : String}

theorem methodFor_of_classOf? {id : ClassId} (hclass : machine.classOf? value = some id) (name : String) :
    machine.methodFor value name
      = match machine.classes.lookup id name with
        | some (_, method) => .ok method
        | none => .error (.notUnderstood name (machine.describe value)) := by
  unfold methodFor
  rw [hclass]
  rfl

/-- **A message calls the method of the first class that has one**: `methodFor` finds what the class `Exposes`. -/
theorem WellFormed.methodFor_eq_ok_iff (h : machine.WellFormed) (hvalue : machine.Owns value) {method : Method} :
    machine.methodFor value name = .ok method
      ↔ ∃ id owner, machine.classOf? value = some id ∧ machine.classes.Exposes name id owner
          ∧ machine.classes.own? owner name = some method := by
  constructor
  · intro hok
    obtain ⟨id, hclass, hfound⟩ := methodFor_ok_iff.mp ⟨method, hok⟩
    have hid : id < machine.classes.size := h.contained.owns_classOf hvalue hclass
    obtain ⟨⟨owner, found⟩, hlookup⟩ := Option.isSome_iff_exists.mp hfound
    rw [methodFor_of_classOf? hclass, hlookup] at hok
    cases hok
    exact ⟨id, owner, hclass, (h.rooted.lookup_eq_some_iff hid).mp hlookup⟩
  · rintro ⟨id, owner, hclass, hfirst⟩
    have hid : id < machine.classes.size := h.contained.owns_classOf hvalue hclass
    rw [methodFor_of_classOf? hclass, (h.rooted.lookup_eq_some_iff hid).mpr hfirst]

/-- **A message is not understood by `nil`, nor where no class on the way has a method of its name.** -/
theorem WellFormed.methodFor_eq_error_iff (h : machine.WellFormed) (hvalue : machine.Owns value) {fault : Fault} :
    machine.methodFor value name = .error fault
      ↔ fault = .notUnderstood name (machine.describe value)
        ∧ (value = .nil ∨ ∃ id path, machine.classOf? value = some id ∧ machine.classes.Walk id path
            ∧ ∀ owner ∈ path, machine.classes.own? owner name = none) := by
  by_cases hnil : value = .nil
  · subst hnil
    have hfails : machine.methodFor .nil name = .error (.notUnderstood name (machine.describe .nil)) := rfl
    rw [hfails, Except.error.injEq, eq_comm]
    simp
  · obtain ⟨id, hclass⟩ := machine.classOf?_of_ne_nil hnil
    have hid : id < machine.classes.size := h.contained.owns_classOf hvalue hclass
    have hnothing : machine.classes.lookup id name = none
        ↔ value = .nil ∨ ∃ id path, machine.classOf? value = some id ∧ machine.classes.Walk id path
            ∧ ∀ owner ∈ path, machine.classes.own? owner name = none := by
      rw [h.rooted.lookup_eq_none_iff hid]
      simp [hnil, hclass]
    rw [← hnothing, methodFor_of_classOf? hclass]
    cases hlookup : machine.classes.lookup id name with
    | none => simp [eq_comm]
    | some found => simp

/-- **Dispatch is most specific first, and redefinition is local.** `methodFor` finds the method of the first class
    that has one, from the class of the receiver on; it fails exactly for `nil` or where there is none. `Run.define`
    changes what is found under that name by the classes that `Exposes` relates to its owner, and nothing else. -/
theorem dispatch_most_specific_and_redefinition_local {machine : Machine} (h : machine.Reachable) :
    (∀ value name, machine.Owns value →
      (∀ method, machine.methodFor value name = .ok method
        ↔ ∃ id owner, machine.classOf? value = some id ∧ machine.classes.Exposes name id owner
            ∧ machine.classes.own? owner name = some method) ∧
      (∀ fault, machine.methodFor value name = .error fault
        ↔ fault = .notUnderstood name (machine.describe value)
          ∧ (value = .nil ∨ ∃ id path, machine.classOf? value = some id ∧ machine.classes.Walk id path
              ∧ ∀ owner ∈ path, machine.classes.own? owner name = none))) ∧
    (∀ owner id name name' method, machine.Owns (.classRef owner) → machine.Owns (.classRef id) →
      (name' = name ∧ machine.classes.Exposes name id owner →
        ((Run.define owner name method).after machine).classes.lookup id name' = some (owner, method)) ∧
      (¬ (name' = name ∧ machine.classes.Exposes name id owner) →
        ((Run.define owner name method).after machine).classes.lookup id name'
          = machine.classes.lookup id name')) := by
  have hwell := h.wellFormed
  refine ⟨?_, ?_⟩
  · intro value name hvalue
    exact ⟨fun method => hwell.methodFor_eq_ok_iff hvalue, fun fault => hwell.methodFor_eq_error_iff hvalue⟩
  · intro owner id name name' method howner hid
    constructor
    · rintro ⟨rfl, hexposes⟩
      exact hwell.rooted.lookup_define_of_exposes howner hid method hexposes
    · intro hnot
      exact hwell.rooted.lookup_define_of_not_exposes howner hid method hnot

/-- A new machine with three classes, each of which descends from the one before it, and an instance of the second.
    The first and the third have a method `m`. -/
def overridden : Machine :=
  (run (.sequence [.classDef none "A" none (.methodDef "m" {} (.stringLit "a")),
    .classDef none "B" (some (.constRef none "A")) (.sequence []),
    .classDef none "C" (some (.constRef none "B")) (.methodDef "m" {} (.stringLit "c")),
    .send (some (.constRef none "B")) "new" []])).after (boot {} (.kept ""))

theorem dispatch_most_specific_and_redefinition_local_overridden :
    (overridden.Reachable ∧ overridden.Owns (.object 3) ∧ overridden.Owns (.classRef 6)
      ∧ overridden.Owns (.classRef 7) ∧ overridden.classOf? (.object 3) = some 6
      ∧ overridden.classes.Exposes "m" 6 5 ∧ overridden.classes.Exposes "m" 6 6
      ∧ ¬ overridden.classes.Exposes "m" 7 6)
    ∧ (∃ method, overridden.classes.own? 5 "m" = some method ∧ overridden.methodFor (.object 3) "m" = .ok method)
    ∧ overridden.methodFor .nil "m" = .error (.notUnderstood "m" "nil")
    ∧ ∀ method, ((Run.define 6 "m" method).after overridden).classes.lookup 6 "m" = some (6, method)
      ∧ ((Run.define 6 "m" method).after overridden).classes.lookup 7 "m"
        = overridden.classes.lookup 7 "m" := by
  have hreach : overridden.Reachable := .step (.boot {} (.kept "")) (.run _)
  have hobject : overridden.Owns (.object 3) := by
    show 3 < overridden.heap.size
    decide +kernel
  have hclasses : ∀ id < 8, overridden.Owns (.classRef id) := by
    show ∀ id < 8, id < overridden.classes.size
    decide +kernel
  have hclass : overridden.classOf? (.object 3) = some 6 := by decide +kernel
  have hwalk : overridden.classes.Walk 6 [6, 5, 1] :=
    .next (by decide +kernel) (.next (by decide +kernel) (.last (by decide +kernel)))
  have hwalk' : overridden.classes.Walk 7 [7, 6, 5, 1] := .next (by decide +kernel) hwalk
  have hinherits : (overridden.classes.own? 6 "m").isNone := by decide +kernel
  have howns : (overridden.classes.own? 5 "m").isSome ∧ (overridden.classes.own? 7 "m").isSome := by
    decide +kernel
  have hfirst : overridden.classes.Exposes "m" 6 5 := by
    refine ⟨[6], [1], hwalk, ?_⟩
    intro other hother
    rw [List.mem_singleton.mp hother]
    exact Option.isNone_iff_eq_none.mp hinherits
  have hitself : overridden.classes.Exposes "m" 6 6 := ⟨[], [5, 1], hwalk, by simp⟩
  have hhidden : ¬ overridden.classes.Exposes "m" 7 6 := by
    rintro ⟨before, after, hway, hnone⟩
    have hpath := hwalk'.unique hway
    cases before with
    | nil => simp at hpath
    | cons other before =>
        -- the way starts at the class itself, which has the method
        obtain rfl : 7 = other := (List.cons.inj hpath).1
        rw [hnone 7 List.mem_cons_self] at howns
        exact absurd howns.2 Bool.false_ne_true
  obtain ⟨hmessages, hdefine⟩ := dispatch_most_specific_and_redefinition_local hreach
  refine ⟨⟨hreach, hobject, hclasses 6 (by decide), hclasses 7 (by decide), hclass, hfirst, hitself, hhidden⟩,
    ?_, ?_, ?_⟩
  · obtain ⟨method, hown⟩ := Option.isSome_iff_exists.mp howns.1
    exact ⟨method, hown, ((hmessages (.object 3) "m" hobject).1 method).mpr ⟨6, 5, hclass, hfirst, hown⟩⟩
  · exact ((hmessages .nil "m" trivial).2 _).mpr ⟨rfl, .inl rfl⟩
  · intro method
    constructor
    · exact (hdefine 6 6 "m" "m" method (hclasses 6 (by decide)) (hclasses 6 (by decide))).1 ⟨rfl, hitself⟩
    · exact (hdefine 6 7 "m" "m" method (hclasses 6 (by decide)) (hclasses 7 (by decide))).2
        fun hboth => hhidden hboth.2

end Machine

end ObjectTalk

import ObjectTalk.Proofs.Occurrence
/-!
# `Proofs.Growth` — programs only add to the classes

A class that is there keeps its name, its class and its superclass whatever a host does
(`ClassEntry.SameLinks`), and an object keeps its class and what it holds (`Heap.Grown`). Programs do even less:
they add constants at the end of a namespace and methods to a class, but take none away (`ClassEntry.Adds`). Both
are relations between entries, which `Hierarchy.Grown` lifts to all classes: new ones come after the old ones.

So the ancestors of a class stay what they are (`Hierarchy.Grown.ancestors_eq`), a name that denotes a class goes
on denoting it, and a message that is understood stays understood.
-/

namespace ObjectTalk

/-! ## Tables -/

namespace Table

variable {α : Type} {before after table : Table α}

theorem bind_of_free {name : String} (value : α) {entries : List (String × α)}
    (h : entries.lookup name = none) : bind name value entries = entries ++ [(name, value)] := by
  induction entries with
  | nil => rfl
  | cons entry rest ih =>
      obtain ⟨known, old⟩ := entry
      by_cases hk : known = name
      · subst hk
        simp at h
      · have hne : ¬ name = known := fun heq => hk heq.symm
        rw [List.lookup_cons, beq_eq_false_iff_ne.mpr hne] at h
        rw [bind, if_neg hk, ih h]
        rfl

/-- `Table.set` binds a name that is free after all others. -/
theorem entries_set_of_free {name : String} (value : α) (h : table.get? name = none) :
    (table.set name value).entries = table.entries ++ [(name, value)] :=
  bind_of_free value h

theorem contains_set {known : String} (h : table.contains known) (name : String) (value : α) :
    (table.set name value).contains known := by
  unfold contains at h ⊢
  rw [get?_set]
  by_cases heq : known = name
  · rw [if_pos heq]
    rfl
  · rw [if_neg heq]
    exact h

/-- A name reads the same, by `Table.get?`, when others have been bound after it. -/
theorem get?_of_prefix (h : before.entries <+: after.entries) {name : String} {value : α}
    (hget : before.get? name = some value) : after.get? name = some value := by
  obtain ⟨rest, heq⟩ := h
  unfold get? at hget ⊢
  rw [← heq, List.lookup_append, hget]
  rfl

end Table

/-! ## Classes and objects that are there -/

/-- The `ClassEntry` keeps its name, its class and its superclass. -/
structure ClassEntry.SameLinks (before after : ClassEntry) : Prop where
  name : after.name = before.name
  classId : after.classId = before.classId
  superclass : after.superclass = before.superclass

/-- Besides `SameLinks`, the class keeps its constants, with their values and in their order, and a method under
    every name under which it had one. -/
structure ClassEntry.Adds (before after : ClassEntry) : Prop extends ClassEntry.SameLinks before after where
  constants : before.constants.entries <+: after.constants.entries
  methods : ∀ name, before.methods.contains name → after.methods.contains name

/-- The classes that were there are kept in the sense given, `SameLinks` or `Adds`, and others have been added after
    them. -/
structure Hierarchy.Grown (kept : ClassEntry → ClassEntry → Prop) (before after : Hierarchy) : Prop where
  size : before.size ≤ after.size
  entries : ∀ id < before.size, kept (before.get id) (after.get id)

/-- The objects that were there keep their class and their `Payload`, and others have been added after them. -/
structure Heap.Grown (before after : Heap) : Prop where
  size : before.size ≤ after.size
  classId : ∀ id < before.size, (after.get id).classId = (before.get id).classId
  payload : ∀ id < before.size, (after.get id).payload = (before.get id).payload

/-- The classes (`Hierarchy.Grown`) and the objects (`Heap.Grown`) that were there are kept. -/
structure Machine.Grown (kept : ClassEntry → ClassEntry → Prop) (before after : Machine) : Prop where
  classes : before.classes.Grown kept after.classes
  heap : before.heap.Grown after.heap

theorem ClassEntry.Adds.refl (entry : ClassEntry) : entry.Adds entry :=
  ⟨⟨rfl, rfl, rfl⟩, List.prefix_refl _, fun _ hname => hname⟩

theorem ClassEntry.SameLinks.refl (entry : ClassEntry) : entry.SameLinks entry :=
  ⟨rfl, rfl, rfl⟩

theorem ClassEntry.SameLinks.trans {first second third : ClassEntry} (h : first.SameLinks second)
    (h' : second.SameLinks third) : first.SameLinks third :=
  ⟨h'.name.trans h.name, h'.classId.trans h.classId, h'.superclass.trans h.superclass⟩

theorem ClassEntry.Adds.trans {first second third : ClassEntry} (h : first.Adds second)
    (h' : second.Adds third) : first.Adds third :=
  ⟨h.toSameLinks.trans h'.toSameLinks, h.constants.trans h'.constants,
    fun name hname => h'.methods name (h.methods name hname)⟩

namespace Hierarchy

variable {kept : ClassEntry → ClassEntry → Prop} {hierarchy before after : Hierarchy}

theorem Grown.refl (hrefl : ∀ entry, kept entry entry) (hierarchy : Hierarchy) :
    hierarchy.Grown kept hierarchy :=
  ⟨le_refl _, fun id _ => hrefl (hierarchy.get id)⟩

theorem Grown.trans {middle : Hierarchy}
    (htrans : ∀ {first second third}, kept first second → kept second third → kept first third)
    (h : before.Grown kept middle) (h' : middle.Grown kept after) : before.Grown kept after := by
  refine ⟨h.size.trans h'.size, ?_⟩
  intro id hid
  exact htrans (h.entries id hid) (h'.entries id (Nat.lt_of_lt_of_le hid h.size))

theorem Grown.mono {weaker : ClassEntry → ClassEntry → Prop} (h : before.Grown kept after)
    (hle : ∀ {first second}, kept first second → weaker first second) : before.Grown weaker after :=
  ⟨h.size, fun id hid => hle (h.entries id hid)⟩

/-- `Hierarchy.modify` keeps all classes, if it keeps the one that it changes. -/
theorem grown_modify (hrefl : ∀ entry, kept entry entry) (id : ClassId) {change : ClassEntry → ClassEntry}
    (hchange : kept (hierarchy.get id) (change (hierarchy.get id))) :
    hierarchy.Grown kept (hierarchy.modify id change) := by
  refine ⟨by simp, ?_⟩
  intro other _
  rw [get_modify]
  by_cases hother : id = other ∧ other < hierarchy.size
  · rw [if_pos hother]
    obtain ⟨rfl, _⟩ := hother
    exact hchange
  · rw [if_neg hother]
    exact hrefl _

theorem grown_push (hrefl : ∀ entry, kept entry entry) (entry : ClassEntry) :
    hierarchy.Grown kept (hierarchy.push entry) := by
  refine ⟨by simp, ?_⟩
  intro id hid
  rw [get_push, if_neg (Nat.ne_of_lt hid)]
  exact hrefl _

/-- A namespace that has a constant, by `constant?`, is there. -/
theorem lt_size_of_constant? {scope : ClassId} {name : String} {value : Value}
    (h : hierarchy.constant? scope name = some value) : scope < hierarchy.size := by
  by_contra hout
  rw [constant?, get_of_size_le (Nat.le_of_not_lt hout)] at h
  cases h

/-- A class that `create` makes gets a place after the others, and its name a place after the other constants. -/
theorem grown_create {scope : ClassId} {name : String} (superclass : ClassId)
    (hfree : hierarchy.constant? scope name = none) :
    hierarchy.Grown ClassEntry.Adds (hierarchy.create scope name superclass) := by
  unfold create bindConstant
  generalize hentry : ({ name := hierarchy.qualify scope name, superclass := some superclass } : ClassEntry)
    = entry
  refine (grown_push ClassEntry.Adds.refl entry).trans ClassEntry.Adds.trans
    (grown_modify ClassEntry.Adds.refl scope ?_)
  have hfree' : ((hierarchy.push entry).get scope).constants.get? name = none := by
    rw [get_push]
    by_cases hnew : scope = hierarchy.size
    · rw [if_pos hnew, ← hentry]
      rfl
    · rw [if_neg hnew]
      exact hfree
  refine ⟨⟨rfl, rfl, rfl⟩, ?_, fun _ hname => hname⟩
  show _ <+: (Table.set _ name _).entries
  rw [Table.entries_set_of_free _ hfree']
  exact List.prefix_append _ _

end Hierarchy

namespace Heap

theorem Grown.refl (heap : Heap) : heap.Grown heap :=
  ⟨le_refl _, fun _ _ => rfl, fun _ _ => rfl⟩

theorem Grown.trans {first second third : Heap} (h : first.Grown second) (h' : second.Grown third) :
    first.Grown third := by
  have hlt : ∀ id < first.size, id < second.size := fun id hid => Nat.lt_of_lt_of_le hid h.size
  refine ⟨h.size.trans h'.size, fun id hid => ?_, fun id hid => ?_⟩
  · rw [h'.classId id (hlt id hid), h.classId id hid]
  · rw [h'.payload id (hlt id hid), h.payload id hid]

theorem grown_push (heap : Heap) (object : Object) : heap.Grown (heap.push object) := by
  have hget : ∀ id < heap.size, (heap.push object).get id = heap.get id := by
    intro id hid
    rw [get_push, if_neg (Nat.ne_of_lt hid)]
  refine ⟨by simp, fun id hid => ?_, fun id hid => ?_⟩
  · rw [hget id hid]
  · rw [hget id hid]

theorem grown_bindIvar (heap : Heap) (id : ObjectId) (name : String) (value : Value) :
    heap.Grown (heap.bindIvar id name value) := by
  refine ⟨by simp, fun other _ => ?_, fun other _ => ?_⟩
  · rw [get_bindIvar]
    split <;> rfl
  · rw [get_bindIvar]
    split <;> rfl

end Heap

/-! ## Steps -/

namespace Machine

variable {machine later : Machine}

theorem Grown.sameLinks (h : machine.Grown ClassEntry.Adds later) :
    machine.Grown ClassEntry.SameLinks later :=
  ⟨h.classes.mono ClassEntry.Adds.toSameLinks, h.heap⟩

/-- **Each `Step` adds only.** -/
theorem adds_of_step (hstep : machine.Step Set.univ later) : machine.Grown ClassEntry.Adds later := by
  have hclasses := Hierarchy.Grown.refl ClassEntry.Adds.refl machine.classes
  have hheap := Heap.Grown.refl machine.heap
  cases hstep with
  | alloc new _ => exact ⟨hclasses, Heap.grown_push _ _⟩
  | bindIvar id name value _ _ => exact ⟨hclasses, Heap.grown_bindIvar _ id name value⟩
  | bindClassIvar id name value _ _ =>
      refine ⟨Hierarchy.grown_modify ClassEntry.Adds.refl id ?_, hheap⟩
      exact ⟨⟨rfl, rfl, rfl⟩, List.prefix_refl _, fun _ hname => hname⟩
  | define id name method _ =>
      refine ⟨Hierarchy.grown_modify ClassEntry.Adds.refl id ?_, hheap⟩
      exact ⟨⟨rfl, rfl, rfl⟩, List.prefix_refl _, fun _ hname => Table.contains_set hname name method⟩
  | create scope name superclass _ _ hfree => exact ⟨Hierarchy.grown_create superclass hfree, hheap⟩
  | _ => exact ⟨hclasses, hheap⟩

theorem adds_progress : Progress (Machine.Grown ClassEntry.Adds) where
  refl machine := ⟨Hierarchy.Grown.refl ClassEntry.Adds.refl machine.classes, .refl machine.heap⟩
  trans h h' := ⟨h.classes.trans ClassEntry.Adds.trans h'.classes, h.heap.trans h'.heap⟩
  step := adds_of_step
  frame h := ⟨h.classes, h.heap⟩

theorem adds_pushed (machine : Machine) (self : Value) :
    machine.Grown ClassEntry.Adds (machine.pushed self) := by
  have hsame := adds_progress.refl machine
  exact ⟨hsame.classes, hsame.heap⟩

/-- Whatever `Occurs` when programs are run, it comes about by adding. -/
theorem Occurs.adds (h : machine.Occurs later) : machine.Grown ClassEntry.Adds later :=
  adds_progress.reaches_of_occurs adds_pushed h

end Machine

/-! ## What follows for names and messages -/

namespace Hierarchy

variable {before after : Hierarchy}

/-- The `Walk` along superclass links is the same in a hierarchy that has kept the links. -/
theorem Walk.of_grown (h : before.Grown ClassEntry.SameLinks after) (hrooted : before.Rooted) {id : ClassId}
    {path : List ClassId} (hwalk : before.Walk id path) (hid : id < before.size) : after.Walk id path := by
  induction hwalk with
  | last hnone =>
      have hsame := (h.entries _ hid).superclass
      exact .last (hsame.trans hnone)
  | next hsome _ ih =>
      have hsame := (h.entries _ hid).superclass
      exact .next (hsame.trans hsome) (ih (hrooted.parent_lt hid hsome))

/-- **A class keeps its `ancestors`.** -/
theorem Grown.ancestors_eq (h : before.Grown ClassEntry.SameLinks after) (hbefore : before.Rooted)
    (hafter : after.Rooted) {id : ClassId} (hid : id < before.size) :
    after.ancestors id = before.ancestors id := by
  have hwalk : after.Walk id (before.ancestors id) := (hbefore.walk_ancestors hid).of_grown h hbefore hid
  exact (hafter.walk_ancestors (Nat.lt_of_lt_of_le hid h.size)).unique hwalk

/-- `lookup` finds a method in the class itself or in one from which it descends. -/
theorem descends_of_lookup {hierarchy : Hierarchy} {id owner : ClassId} {name : String} {method : Method}
    (h : hierarchy.lookup id name = some (owner, method)) : hierarchy.descends id owner := by
  obtain ⟨found, hmem, hfound⟩ := List.exists_of_findSome?_eq_some h
  obtain ⟨_, _, heq⟩ := Option.map_eq_some_iff.mp hfound
  cases heq
  exact descends_iff.mpr hmem

/-- What `lookup` finds is found ever after, though perhaps another method under the same name. -/
theorem Grown.lookup_isSome (h : before.Grown ClassEntry.Adds after) (hbefore : before.Rooted)
    (hafter : after.Rooted) {id : ClassId} (hid : id < before.size) {name : String}
    (hfound : (before.lookup id name).isSome) : (after.lookup id name).isSome := by
  unfold lookup at hfound ⊢
  rw [(h.mono ClassEntry.Adds.toSameLinks).ancestors_eq hbefore hafter hid]
  rw [List.findSome?_isSome_iff] at hfound ⊢
  obtain ⟨owner, hmem, howner⟩ := hfound
  have hlt : owner < before.size := hbefore.lt_of_walk (hbefore.walk_ancestors hid) hid owner hmem
  refine ⟨owner, hmem, ?_⟩
  rw [Option.isSome_map] at howner ⊢
  exact (h.entries owner hlt).methods name howner

end Hierarchy

namespace Machine

variable {machine later : Machine}

theorem Grown.classOf?_eq (h : machine.Grown ClassEntry.SameLinks later) {value : Value}
    (hvalue : machine.Owns value) : later.classOf? value = machine.classOf? value := by
  cases value with
  | nil => rfl
  | object id =>
      have hsame := h.heap.classId id hvalue
      simp only [classOf?, hsame]
  | classRef id =>
      have hsame := (h.classes.entries id hvalue).classId
      simp only [classOf?, hsame]

/-- A message is understood, by `methodFor`, if a method is found from the class of the receiver. -/
theorem methodFor_ok_iff {receiver : Value} {name : String} :
    (∃ method, machine.methodFor receiver name = .ok method)
      ↔ ∃ id, machine.classOf? receiver = some id ∧ (machine.classes.lookup id name).isSome := by
  unfold methodFor
  cases hclass : machine.classOf? receiver with
  | none => simp
  | some id =>
      cases hlookup : machine.classes.lookup id name with
      | none => simp [hlookup]
      | some found => simp [hlookup]

/-- `Run.declare` opens the class that a name denotes, and nothing but the journal changes. -/
theorem declare_of_known {scope : ClassId} {name : String} {id : ClassId} (superclass : Option ClassId)
    (h : machine.classes.constant? scope name = some (.classRef id)) :
    Run.declare scope name superclass machine
      = .ok id (machine.log (.classReopened (machine.classes.name id))) := by
  rw [Run.declare_apply, h]

/-- **Programs only add to the classes, and names stay put.** Whatever comes of evaluating a node, the classes have
    `Grown` by `ClassEntry.Adds`; so they have in every machine that `Occurs` when programs are run. There
    `Run.declare` opens a name that denoted a class as that class, and a message that a value understood it still
    understands. -/
theorem programs_only_add_to_classes {machine : Machine} (h : machine.Reachable) :
    (∀ node, machine.classes.Grown ClassEntry.Adds ((eval node).after machine).classes) ∧
    ∀ later, machine.Occurs later →
      machine.classes.Grown ClassEntry.Adds later.classes ∧
      (∀ scope name id superclass, machine.classes.constant? scope name = some (.classRef id) →
        Run.declare scope name superclass later
          = .ok id (later.log (.classReopened (later.classes.name id)))) ∧
      (∀ value name method, machine.Owns value → machine.methodFor value name = .ok method →
        ∃ other, later.methodFor value name = .ok other) := by
  refine ⟨fun node => (adds_progress.reaches_eval node machine).classes, fun later hoccurs => ?_⟩
  have hgrown := hoccurs.adds
  have hbefore := h.wellFormed
  have hafter : wellFormed.holds later := Invariant.holds_of_occurs hoccurs hbefore
  refine ⟨hgrown.classes, ?_, ?_⟩
  · intro scope name id superclass hconstant
    have hscope := Hierarchy.lt_size_of_constant? hconstant
    exact declare_of_known superclass
      (Table.get?_of_prefix (hgrown.classes.entries scope hscope).constants hconstant)
  · intro value name method hvalue hmethod
    obtain ⟨id, hclass, hfound⟩ := methodFor_ok_iff.mp ⟨method, hmethod⟩
    have hid : id < machine.classes.size := hbefore.contained.owns_classOf hvalue hclass
    refine methodFor_ok_iff.mpr ⟨id, ?_, ?_⟩
    · rw [hgrown.sameLinks.classOf?_eq hvalue, hclass]
    · exact hgrown.classes.lookup_isSome hbefore.rooted hafter.rooted hid hfound

/-- A new machine after a program that opens the class of strings with another superclass, redefines a method in
    it, makes a class, and then fails. -/
def reopenedString : Machine :=
  (run (.sequence [.classDef none "String" (some (.constRef none "Integer"))
      (.methodDef "length" {} (.stringLit "")),
    .classDef none "A" (some (.constRef none "String")) (.sequence []),
    .constRef none "Missing"])).after (boot {} (.kept ""))

theorem programs_only_add_to_classes_reopened :
    ((boot {} (.kept "")).Reachable ∧ (boot {} (.kept "")).Occurs reopenedString
      ∧ (boot {} (.kept "")).classes.constant? ClassId.root "String" = some (.classRef ClassId.string)
      ∧ (boot {} (.kept "")).Owns (.classRef ClassId.string)
      ∧ ∃ method, (boot {} (.kept "")).methodFor (.classRef ClassId.string) "new" = .ok method)
    ∧ reopenedString.classes.size = 6
    ∧ (boot {} (.kept "")).classes.Grown ClassEntry.Adds reopenedString.classes
    ∧ Run.declare ClassId.root "String" (some ClassId.array) reopenedString
      = .ok ClassId.string (reopenedString.log (.classReopened "String"))
    ∧ ∃ other, reopenedString.methodFor (.classRef ClassId.string) "new" = .ok other := by
  have hreach : (boot {} (.kept "")).Reachable := .boot {} (.kept "")
  have hoccurs : (boot {} (.kept "")).Occurs reopenedString := (RunsTo.refl.run _).occurs
  have hconstant : (boot {} (.kept "")).classes.constant? ClassId.root "String"
      = some (.classRef ClassId.string) := by decide
  have howns : (boot {} (.kept "")).Owns (.classRef ClassId.string) := by
    show ClassId.string < _
    decide
  have hmethod : ∃ method, (boot {} (.kept "")).methodFor (.classRef ClassId.string) "new" = .ok method :=
    ⟨_, rfl⟩
  obtain ⟨hgrown, hdeclare, hunderstood⟩ := (programs_only_add_to_classes hreach).2 _ hoccurs
  refine ⟨⟨hreach, hoccurs, hconstant, howns, hmethod⟩, by decide, hgrown, ?_, ?_⟩
  · exact hdeclare ClassId.root "String" ClassId.string (some ClassId.array) hconstant
  · obtain ⟨method, hmethod⟩ := hmethod
    exact hunderstood _ "new" method howns hmethod

end Machine

end ObjectTalk

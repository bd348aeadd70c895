import ObjectTalk.Proofs.Growth
/-!
# `Proofs.Confinement` — evaluation touches only the objects it can come to

An object is visible if one comes to it from the current frame, from constants or from instance variables of
classes, by way of instance variables and items of arrays (`Machine.Visible`). Other objects may be there: those
that only frames below know, and those that nothing knows any more.

Evaluation leaves the instance variables of these as they are, and it never comes to them. Seen from a machine,
a value is `Touchable` later if it is no object, an object that was visible, or one that is new. Touchable objects
hold touchable values only, and so do the current frame and the classes: that is an invariant of evaluation
(`Machine.confinement`), with the touchable values as the known ones.
-/

namespace ObjectTalk

/-! ## What can be seen -/

/-- From the values in `start` one comes to this one, by way of instance variables and items of arrays. -/
inductive Heap.LeadsTo (heap : Heap) (start : Set Value) : Value → Prop where
  | start {value : Value} (h : value ∈ start) : LeadsTo heap start value
  | ivar {id : ObjectId} {entry : String × Value} (h : LeadsTo heap start (.object id))
      (hentry : entry ∈ (heap.get id).ivars.entries) : LeadsTo heap start entry.2
  | item {id : ObjectId} {items : List Value} {item : Value} (h : LeadsTo heap start (.object id))
      (hitems : (heap.get id).payload = some (.items items)) (hitem : item ∈ items) : LeadsTo heap start item

namespace Machine

/-- The value stands in `CallStack.current`, or in a constant or an instance variable of a class. -/
inductive Root (machine : Machine) : Value → Prop where
  | self : Root machine machine.stack.current.self
  | bound {entry : String × Value} (hentry : entry ∈ machine.stack.current.locals.entries) : Root machine entry.2
  | constant {id : ClassId} {entry : String × Value} (hid : id < machine.classes.size)
      (hentry : entry ∈ (machine.classes.get id).constants.entries) : Root machine entry.2
  | ivar {id : ClassId} {entry : String × Value} (hid : id < machine.classes.size)
      (hentry : entry ∈ (machine.classes.get id).ivars.entries) : Root machine entry.2

/-- One comes to the value (`Heap.LeadsTo`) from a `Root`: from the current frame or from the classes. -/
def Visible (machine : Machine) (value : Value) : Prop := machine.heap.LeadsTo machine.Root value

/-- The value is no object, or it is an object that the machine does not have yet or that is `Visible`. -/
def Touchable (machine : Machine) : Value → Prop
  | .object id => machine.heap.size ≤ id ∨ machine.Visible (.object id)
  | _ => True

/-- What has become of the machine `before`: the objects that it did not see have the instance variables they had,
    and nothing leads to them. -/
structure Confined (before machine : Machine) : Prop where
  size : before.heap.size ≤ machine.heap.size
  kept : ∀ id < before.heap.size, ¬ before.Visible (.object id) →
    (machine.heap.get id).ivars = (before.heap.get id).ivars
  current : machine.stack.current.Holds before.Touchable
  classes : ∀ id, (machine.classes.get id).Holds before.Touchable
  objects : ∀ id, before.Touchable (.object id) → (machine.heap.get id).Holds before.Touchable

end Machine

/-! ## Sets of values that are not left -/

/-- `Heap.LeadsTo` does not leave a set of values that holds what stands in the objects it has. -/
theorem Heap.LeadsTo.mem_of_closed {heap : Heap} {start : Set Value} {fit : Value → Prop} {value : Value}
    (h : heap.LeadsTo start value) (hstart : ∀ value ∈ start, fit value)
    (hobjects : ∀ id, fit (.object id) → (heap.get id).Holds fit) : fit value := by
  induction h with
  | start h => exact hstart _ h
  | ivar _ hentry ih => exact (hobjects _ ih).ivars _ hentry
  | item _ hitems hitem ih => exact (hobjects _ ih).items _ hitems _ hitem

/-- What holds of all classes, also of what `Hierarchy.get` reads beyond the last one, holds when one is changed. -/
theorem Hierarchy.forall_get_modify {hierarchy : Hierarchy} {P : ClassEntry → Prop}
    (h : ∀ id, P (hierarchy.get id)) (id : ClassId) {change : ClassEntry → ClassEntry}
    (hchange : ∀ entry, P entry → P (change entry)) (other : ClassId) :
    P ((hierarchy.modify id change).get other) := by
  rw [get_modify]
  split
  · exact hchange _ (h other)
  · exact h other

namespace Machine

variable {before machine last : Machine}

theorem touchable_of_visible {value : Value} (h : machine.Visible value) : machine.Touchable value := by
  cases value with
  | nil => trivial
  | object id => exact .inr h
  | classRef id => trivial

/-- At first a machine is `Confined`: what can be seen holds what can be seen. -/
theorem Confined.refl (machine : Machine) : machine.Confined machine where
  size := le_refl _
  kept _ _ _ := rfl
  current := ⟨touchable_of_visible (.start .self), fun _ hentry => touchable_of_visible (.start (.bound hentry))⟩
  classes id := by
    by_cases hid : id < machine.classes.size
    · exact ⟨trivial, fun _ _ => trivial, fun _ hentry => touchable_of_visible (.start (.constant hid hentry)),
        fun _ hentry => touchable_of_visible (.start (.ivar hid hentry))⟩
    · rw [Hierarchy.get_of_size_le (Nat.le_of_not_lt hid)]
      exact ⟨trivial, fun _ _ => trivial, Table.all_empty, Table.all_empty⟩
  objects id h := by
    rcases h with hnew | hvisible
    · rw [Heap.get_of_size_le hnew]
      exact ⟨trivial, by rintro items ⟨⟩, Table.all_empty⟩
    · exact ⟨trivial, fun _ hitems _ hitem => touchable_of_visible (.item hvisible hitems hitem),
        fun _ hentry => touchable_of_visible (.ivar hvisible hentry)⟩

/-! ## Steps -/

theorem Confined.alloc (h : before.Confined machine) {new : NewObject} (hnew : new.Within before.Touchable) :
    before.Confined { machine with heap := machine.heap.push (new.object machine) } where
  size := by
    show before.heap.size ≤ (machine.heap.push (new.object machine)).size
    rw [Heap.size_push]
    exact Nat.le_succ_of_le h.size
  kept id hid hunseen := by
    have hold : id ≠ machine.heap.size := Nat.ne_of_lt (Nat.lt_of_lt_of_le hid h.size)
    show ((machine.heap.push (new.object machine)).get id).ivars = _
    rw [Heap.get_push, if_neg hold]
    exact h.kept id hid hunseen
  current := h.current
  classes := h.classes
  objects id htouch := by
    show ((machine.heap.push (new.object machine)).get id).Holds _
    rw [Heap.get_push]
    split
    · exact holds_object hnew fun _ _ => trivial
    · exact h.objects id htouch

/-- Only objects that are `Touchable` have their instance variables bound, and only to such values. -/
theorem Confined.bindIvar (h : before.Confined machine) {id : ObjectId} (name : String) {value : Value}
    (hid : before.Touchable (.object id)) (hvalue : before.Touchable value) :
    before.Confined { machine with heap := machine.heap.bindIvar id name value } where
  size := by
    show before.heap.size ≤ (machine.heap.bindIvar id name value).size
    rw [Heap.size_bindIvar]
    exact h.size
  kept other hother hunseen := by
    have hne : id ≠ other := by
      rintro rfl
      exact hid.elim (Nat.not_le_of_lt hother) hunseen
    show ((machine.heap.bindIvar id name value).get other).ivars = _
    rw [Heap.get_bindIvar, if_neg fun hsame => hne hsame.1]
    exact h.kept other hother hunseen
  current := h.current
  classes := h.classes
  objects other htouch := by
    have hobject := h.objects other htouch
    show ((machine.heap.bindIvar id name value).get other).Holds _
    rw [Heap.get_bindIvar]
    split
    · exact ⟨hobject.classId, hobject.items, hobject.ivars.set name hvalue⟩
    · exact hobject

/-- The classes may change in any way in which they go on holding `Touchable` values. -/
theorem Confined.withClasses (h : before.Confined machine) {classes : Hierarchy}
    (hclasses : ∀ id, (classes.get id).Holds before.Touchable) :
    before.Confined { machine with classes } :=
  ⟨h.size, h.kept, h.current, hclasses, h.objects⟩

theorem Confined.withCurrent (h : before.Confined machine) {stack : CallStack}
    (hcurrent : stack.current.Holds before.Touchable) : before.Confined { machine with stack } :=
  ⟨h.size, h.kept, hcurrent, h.classes, h.objects⟩

theorem Confined.create (h : before.Confined machine) (scope : ClassId) (name : String) (superclass : ClassId) :
    before.Confined { machine with classes := machine.classes.create scope name superclass } := by
  refine h.withClasses (Hierarchy.forall_get_modify (fun id => ?_) scope fun entry hentry => ?_)
  · rw [Hierarchy.get_push]
    split
    · exact ⟨trivial, fun _ _ => trivial, Table.all_empty, Table.all_empty⟩
    · exact h.classes id
  · exact ⟨hentry.classId, hentry.superclass, hentry.constants.set name trivial, hentry.ivars⟩

/-- **Each `Step` that takes `Touchable` values keeps the others out of reach.** -/
theorem Confined.step (h : before.Confined machine) (hstep : machine.Step before.Touchable last) :
    before.Confined last := by
  cases hstep with
  | log event => exact ⟨h.size, h.kept, h.current, h.classes, h.objects⟩
  | write text => exact ⟨h.size, h.kept, h.current, h.classes, h.objects⟩
  | alloc new hnew => exact h.alloc hnew
  | bindIvar id name value hid hvalue => exact h.bindIvar name hid hvalue
  | bindClassIvar id name value _ hvalue =>
      refine h.withClasses (Hierarchy.forall_get_modify h.classes id fun entry hentry => ?_)
      exact ⟨hentry.classId, hentry.superclass, hentry.constants, hentry.ivars.set name hvalue⟩
  | bindLocal name value hvalue =>
      refine h.withCurrent ?_
      rw [CallStack.current_bindLocal]
      exact ⟨h.current.self, h.current.locals.set name hvalue⟩
  | define id name method _ =>
      refine h.withClasses (Hierarchy.forall_get_modify h.classes id fun entry hentry => ?_)
      exact ⟨hentry.classId, hentry.superclass, hentry.constants, hentry.ivars⟩
  | create scope name superclass _ _ _ => exact h.create scope name superclass

/-- What is found by way of `Touchable` values is touchable. -/
theorem Confined.closedUnder (h : before.Confined machine) : machine.ClosedUnder before.Touchable where
  nil := trivial
  current := h.current
  items {value _} hvalue hitems := by
    cases value with
    | nil => cases hitems
    | object id => exact (h.objects id hvalue).items _ hitems
    | classRef id => cases hitems
  ivar {target} name htarget := by
    cases target with
    | nil => trivial
    | object id => exact fit_getD trivial fun _ hget => (h.objects id htarget).ivars.get? hget
    | classRef id => exact fit_getD trivial fun _ hget => (h.classes id).ivars.get? hget
  constant _ hget := (h.classes _).constants.get? hget
  classOf _ _ := trivial
  superclass _ _ := trivial

/-- **Evaluation that is given `Touchable` values stays among them.** A frame that is taken away makes the one below
    current, which held touchable values when the other was put on it. -/
def confinement (before : Machine) : Invariant where
  holds := before.Confined
  known _ := before.Touchable
  selves _ := True
  basic _ := ⟨trivial, trivial, fun _ _ => trivial⟩
  step h hstep := ⟨h.step hstep, subset_rfl⟩
  push h hself _ := ⟨h.withCurrent ⟨hself, Table.all_empty⟩, subset_rfl⟩
  pop h hlast hstack := by
    refine ⟨hlast.withCurrent ?_, subset_rfl⟩
    have hcurrent := h.current
    rw [← hstack] at hcurrent
    exact hcurrent
  gives := by
    intro machine α question answer h htakes hask
    exact h.closedUnder.gives question htakes hask
  alloc h _ := .inl h.size
  create _ _ _ _ _ := trivial

/-! ## Names of instance variables -/

/-- The objects that were there have the `ivars` they had, in the order they had, and perhaps more. -/
structure KeepsIvarNames (before after : Machine) : Prop where
  size : before.heap.size ≤ after.heap.size
  names : ∀ id < before.heap.size, (before.heap.get id).ivars.names <+: (after.heap.get id).ivars.names

theorem KeepsIvarNames.of_heap_eq (h : last.heap = machine.heap) : machine.KeepsIvarNames last := by
  refine ⟨by rw [h], fun id _ => ?_⟩
  rw [h]

theorem keepsIvarNames_progress : Progress KeepsIvarNames where
  refl _ := .of_heap_eq rfl
  trans h h' := ⟨h.size.trans h'.size, fun id hid =>
    (h.names id hid).trans (h'.names id (Nat.lt_of_lt_of_le hid h.size))⟩
  step {machine last} hstep := by
    refine ⟨hstep.grows.1, fun id hid => ?_⟩
    cases hstep with
    | alloc new _ =>
        show _ <+: ((machine.heap.push _).get id).ivars.names
        rw [Heap.get_push, if_neg (Nat.ne_of_lt hid)]
    | bindIvar target name value _ _ =>
        show _ <+: ((machine.heap.bindIvar target name value).get id).ivars.names
        rw [Heap.get_bindIvar]
        split
        · exact Table.names_kept_by_set _ name value
        · exact List.prefix_refl _
    | _ => exact List.prefix_refl _
  frame h := ⟨h.size, h.names⟩

/-! ## Evaluation -/

/-- The values from which a program can go on after an `Outcome`: each `Root`, and the one that was answered. -/
def Left (outcome : Outcome Value) (value : Value) : Prop :=
  outcome.machine.Root value ∨ outcome.result = .ok value

/-- If what is known by an `Invariant` is not left by way of the objects, then after evaluation one comes to known
    values only. -/
theorem known_of_leadsTo {invariant : Invariant} {outcome : Outcome Value}
    (h : invariant.Kept machine KnownValue outcome)
    (hroot : ∀ {last : Machine} {value : Value}, invariant.holds last → last.Root value →
      value ∈ invariant.known last)
    (hobjects : ∀ {last : Machine} {id : ObjectId}, invariant.holds last → .object id ∈ invariant.known last →
      (last.heap.get id).Holds (invariant.known last))
    {value : Value} (hleads : outcome.machine.heap.LeadsTo (Left outcome) value) :
    value ∈ invariant.known outcome.machine := by
  cases outcome with
  | ok answer last =>
      refine hleads.mem_of_closed (fun value hleft => ?_) fun _ => hobjects h.1
      rcases hleft with hvalue | hvalue
      · exact hroot h.1 hvalue
      · cases hvalue
        exact h.2.2
  | error fault last =>
      refine hleads.mem_of_closed (fun value hleft => ?_) fun _ => hobjects h.1
      rcases hleft with hvalue | hvalue
      · exact hroot h.1 hvalue
      · cases hvalue

theorem Confined.touchable_of_root (h : before.Confined machine) {value : Value} (hroot : machine.Root value) :
    before.Touchable value := by
  cases hroot with
  | self => exact h.current.self
  | bound hentry => exact h.current.locals _ hentry
  | constant _ hentry => exact (h.classes _).constants _ hentry
  | ivar _ hentry => exact (h.classes _).ivars _ hentry

theorem Contained.owns_of_root (h : machine.Contained) {value : Value} (hroot : machine.Root value) :
    machine.Owns value := by
  have hcurrent := h.holds.frames _ machine.stack.current_mem
  cases hroot with
  | self => exact hcurrent.self
  | bound hentry => exact hcurrent.locals _ hentry
  | constant hid hentry => exact (h.holds.classes _ hid).constants _ hentry
  | ivar hid hentry => exact (h.holds.classes _ hid).ivars _ hentry

/-- **Evaluation is confined to the objects that can be seen.** Whatever comes of it, an object that was not
    `Visible` has the instance variables it had. From the answer, the current frame and the classes (`Left`) one
    comes afterwards only to new objects and to those visible before; and each keeps the names of its instance
    variables. -/
theorem evaluation_confined_to_visible_objects {machine : Machine} (h : machine.Reachable) (node : Node) :
    (∀ id < machine.heap.size, ¬ machine.Visible (.object id) →
      (((eval node).after machine).heap.get id).ivars = (machine.heap.get id).ivars) ∧
    (∀ id, ((eval node).after machine).heap.LeadsTo (Left (eval node machine)) (.object id) →
      (machine.heap.size ≤ id ∧ id < ((eval node).after machine).heap.size) ∨ machine.Visible (.object id)) ∧
    ∀ id < machine.heap.size,
      (machine.heap.get id).ivars.names <+: (((eval node).after machine).heap.get id).ivars.names := by
  have hconfined : (confinement machine).Kept machine KnownValue (eval node machine) :=
    Invariant.kept_eval node (Confined.refl machine)
  have howned : wellFormed.Kept machine KnownValue (eval node machine) :=
    Invariant.kept_eval node h.wellFormed
  refine ⟨hconfined.after.kept, fun id hleads => ?_, (keepsIvarNames_progress.reaches_eval node machine).names⟩
  have htouch : machine.Touchable (.object id) :=
    known_of_leadsTo hconfined (fun h => h.touchable_of_root) (fun h => h.objects _) hleads
  have hlt : id < ((eval node).after machine).heap.size :=
    known_of_leadsTo howned (fun h => h.contained.owns_of_root) (fun h => h.contained.holds.objects _) hleads
  exact htouch.imp_left fun hnew => ⟨hnew, hlt⟩

/-- `main` has an object in an instance variable, and then the class of strings has a frame of its own. -/
def hiddenMain : Machine :=
  (Run.push (.classRef ClassId.string)).after
    ((run (.ivarAssign "@secret" (.stringLit "a"))).after (boot {} (.kept "")))

/-- The class makes two objects, and keeps one of them in an instance variable. -/
def makeObjects : Node :=
  .sequence [.ivarAssign "@kept" (.send (some (.constRef none "Object")) "new" []), .stringLit "b"]

/-- Of `hiddenMain`, the constants and instance variables of classes are classes, and so is the current self. -/
theorem not_visible_main : ¬ hiddenMain.Visible main := by
  intro hvisible
  have hrank : main.rank = 0 := by
    refine @Heap.LeadsTo.mem_of_closed _ _ (fun value => value.rank = 0) main hvisible (fun value hroot => ?_)
      fun id hid => absurd hid (Nat.succ_ne_zero id)
    have hclasses : ∀ id < hiddenMain.classes.size,
        (∀ entry ∈ (hiddenMain.classes.get id).constants.entries, entry.2.rank = 0)
          ∧ ∀ entry ∈ (hiddenMain.classes.get id).ivars.entries, entry.2.rank = 0 := by
      decide +kernel
    cases hroot with
    | self => rfl
    | bound hentry => exact absurd hentry List.not_mem_nil
    | constant hid hentry => exact (hclasses _ hid).1 _ hentry
    | ivar hid hentry => exact (hclasses _ hid).2 _ hentry
  exact absurd hrank (by decide)

theorem evaluation_confined_to_visible_objects_hidden :
    (hiddenMain.Reachable ∧ 0 < hiddenMain.heap.size ∧ ¬ hiddenMain.Visible main
      ∧ (hiddenMain.heap.get 0).ivars.names = ["@secret"]
      ∧ ((eval makeObjects).after hiddenMain).heap.LeadsTo (Left (eval makeObjects hiddenMain)) (.object 3))
    ∧ (((eval makeObjects).after hiddenMain).heap.get 0).ivars = (hiddenMain.heap.get 0).ivars
    ∧ ((hiddenMain.heap.size ≤ 3 ∧ 3 < ((eval makeObjects).after hiddenMain).heap.size)
      ∨ hiddenMain.Visible (.object 3))
    ∧ (hiddenMain.heap.get 0).ivars.names
      <+: (((eval makeObjects).after hiddenMain).heap.get 0).ivars.names := by
  have hreach : hiddenMain.Reachable := by
    refine .step (.step (.boot {} (.kept "")) (.run _)) (.push _ ?_)
    show ClassId.string < _
    decide +kernel
  have hmain : 0 < hiddenMain.heap.size := by decide +kernel
  have hleads : ((eval makeObjects).after hiddenMain).heap.LeadsTo (Left (eval makeObjects hiddenMain))
      (.object 3) := .start (.inr rfl)
  obtain ⟨hkept, hseen, hnames⟩ := evaluation_confined_to_visible_objects hreach makeObjects
  exact ⟨⟨hreach, hmain, not_visible_main, by decide +kernel, hleads⟩, hkept 0 hmain not_visible_main,
    hseen 3 hleads, hnames 0 hmain⟩

end Machine

end ObjectTalk

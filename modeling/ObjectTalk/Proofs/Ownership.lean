import ObjectTalk.Proofs.Ancestors
import ObjectTalk.Proofs.Plan.Invariant
/-!
# `Proofs.Ownership` — everything a machine stores is its own

Objects and classes are known by their places, so a value makes sense only in a machine that has something
at that place (`Machine.Owns`). A machine is `Contained` if all values and classes that it stores, in
classes, objects and frames, are its own. With rooted superclass chains, and arrays whose items are older
than they are, it is `WellFormed`. That is an invariant of evaluation (`Machine.wellFormed`), as long as
evaluation is given values that the machine owns.
-/

namespace ObjectTalk

/-! ## Where values stand -/

/-- All values in the `Table` are fit. -/
def Table.All {α : Type} (fit : α → Prop) (table : Table α) : Prop :=
  ∀ entry ∈ table.entries, fit entry.2

/-- The `ClassEntry` stores fit values only. -/
structure ClassEntry.Holds (fit : Value → Prop) (entry : ClassEntry) : Prop where
  classId : fit (.classRef entry.classId)
  superclass : ∀ parent, entry.superclass = some parent → fit (.classRef parent)
  constants : entry.constants.All fit
  ivars : entry.ivars.All fit

/-- The `Object` stores fit values only. -/
structure Object.Holds (fit : Value → Prop) (object : Object) : Prop where
  classId : fit (.classRef object.classId)
  items : ∀ items, object.payload = some (.items items) → ∀ item ∈ items, fit item
  ivars : object.ivars.All fit

/-- The `Frame` stores fit values only. -/
structure Frame.Holds (fit : Value → Prop) (frame : Frame) : Prop where
  self : fit frame.self
  locals : frame.locals.All fit

/-- The `Machine` stores fit values only: in its classes, objects and frames. -/
structure Machine.Holds (fit : Value → Prop) (machine : Machine) : Prop where
  classes : ∀ id < machine.classes.size, (machine.classes.get id).Holds fit
  objects : ∀ id < machine.heap.size, (machine.heap.get id).Holds fit
  frames : ∀ frame ∈ machine.stack.frames, frame.Holds fit

/-- The value is `nil`, or there is something at its place. -/
def Machine.Owns (machine : Machine) : Value → Prop
  | .nil => True
  | .object id => id < machine.heap.size
  | .classRef id => id < machine.classes.size

/-- Everything that the machine stores it `Owns`, and so it does the self of the top level. -/
structure Machine.Contained (machine : Machine) : Prop where
  holds : machine.Holds machine.Owns
  main : machine.Owns Machine.main

/-- If the object is an array, its items are older than what stands at the place, by `Value.rank`. -/
def Object.ItemsBelow (id : ObjectId) (object : Object) : Prop :=
  ∀ items, object.payload = some (.items items) → ∀ item ∈ items, item.rank ≤ id

/-- The items of every array are older than the array (`Object.ItemsBelow`). -/
def Heap.Layered (heap : Heap) : Prop :=
  ∀ id < heap.size, (heap.get id).ItemsBelow id

/-- The machine stores only what is its own (`Contained`); superclass chains (`Hierarchy.Rooted`) and arrays
    (`Heap.Layered`) have an end. -/
structure Machine.WellFormed (machine : Machine) : Prop where
  contained : machine.Contained
  rooted : machine.classes.Rooted
  layered : machine.heap.Layered

/-! ## Tables -/

namespace Table

variable {α : Type} {fit more : α → Prop} {table : Table α}

theorem All.mono (h : table.All fit) (hle : ∀ value, fit value → more value) : table.All more :=
  fun entry hentry => hle _ (h entry hentry)

theorem all_empty : ({} : Table α).All fit := by simp [All]

/-- An entry after `bind` is the new one or was there before. -/
theorem mem_bind {name : String} {value : α} {entries : List (String × α)} {entry : String × α}
    (h : entry ∈ bind name value entries) : entry.2 = value ∨ entry ∈ entries := by
  induction entries with
  | nil => exact .inl (by rw [List.mem_singleton.mp h])
  | cons first rest ih =>
      obtain ⟨known, old⟩ := first
      by_cases hk : known = name
      · rw [bind, if_pos hk] at h
        rcases List.mem_cons.mp h with rfl | hin
        · exact .inl rfl
        · exact .inr (List.mem_cons_of_mem _ hin)
      · rw [bind, if_neg hk] at h
        rcases List.mem_cons.mp h with rfl | hin
        · exact .inr List.mem_cons_self
        · exact (ih hin).imp id (List.mem_cons_of_mem _)

/-- `All` is kept by `Table.set` with a fit value. -/
theorem All.set (h : table.All fit) (name : String) {value : α} (hvalue : fit value) :
    (table.set name value).All fit := by
  intro entry hentry
  rcases mem_bind hentry with heq | hin
  · rwa [heq]
  · exact h entry hin

theorem All.get? (h : table.All fit) {name : String} {value : α} (hget : table.get? name = some value) :
    fit value := by
  obtain ⟨before, after, heq, _⟩ := List.lookup_eq_some_iff.mp hget
  exact h (name, value) (by rw [heq]; simp)

end Table

/-! ## Classes, objects and frames -/

section

variable {fit more : Value → Prop}

theorem ClassEntry.Holds.mono {entry : ClassEntry} (h : entry.Holds fit)
    (hle : ∀ value, fit value → more value) : entry.Holds more :=
  ⟨hle _ h.classId, fun parent hparent => hle _ (h.superclass parent hparent), h.constants.mono hle,
    h.ivars.mono hle⟩

theorem Object.Holds.mono {object : Object} (h : object.Holds fit)
    (hle : ∀ value, fit value → more value) : object.Holds more :=
  ⟨hle _ h.classId, fun items hitems item hitem => hle _ (h.items items hitems item hitem),
    h.ivars.mono hle⟩

theorem Frame.Holds.mono {frame : Frame} (h : frame.Holds fit)
    (hle : ∀ value, fit value → more value) : frame.Holds more :=
  ⟨hle _ h.self, h.locals.mono hle⟩

theorem Machine.Holds.mono {machine : Machine} (h : machine.Holds fit)
    (hle : ∀ value, fit value → more value) : machine.Holds more :=
  ⟨fun id hid => (h.classes id hid).mono hle, fun id hid => (h.objects id hid).mono hle,
    fun frame hframe => (h.frames frame hframe).mono hle⟩

end

namespace Hierarchy

variable {hierarchy : Hierarchy} {P : ClassEntry → Prop}

/-- What holds of all classes, and is kept by the change, holds after `Hierarchy.modify`. -/
theorem forall_modify (h : ∀ id < hierarchy.size, P (hierarchy.get id)) (id : ClassId)
    {change : ClassEntry → ClassEntry} (hchange : ∀ entry, P entry → P (change entry)) :
    ∀ other < (hierarchy.modify id change).size, P ((hierarchy.modify id change).get other) := by
  intro other hother
  rw [size_modify] at hother
  rw [get_modify]
  split
  · exact hchange _ (h other hother)
  · exact h other hother

theorem forall_push (h : ∀ id < hierarchy.size, P (hierarchy.get id)) {entry : ClassEntry}
    (hentry : P entry) :
    ∀ id < (hierarchy.push entry).size, P ((hierarchy.push entry).get id) := by
  intro id hid
  rw [size_push] at hid
  rw [get_push]
  split
  · exact hentry
  · exact h id (Nat.lt_of_le_of_ne (Nat.le_of_lt_succ hid) ‹_›)

end Hierarchy

namespace Heap

variable {heap : Heap} {P : ObjectId → Object → Prop}

theorem forall_push (h : ∀ id < heap.size, P id (heap.get id)) {object : Object}
    (hobject : P heap.size object) :
    ∀ id < (heap.push object).size, P id ((heap.push object).get id) := by
  intro id hid
  rw [size_push] at hid
  rw [get_push]
  split
  · rename_i hnew
    rwa [hnew]
  · exact h id (Nat.lt_of_le_of_ne (Nat.le_of_lt_succ hid) ‹_›)

theorem forall_bindIvar (h : ∀ id < heap.size, P id (heap.get id)) (id : ObjectId) (name : String)
    (value : Value)
    (hset : ∀ id object, P id object → P id { object with ivars := object.ivars.set name value }) :
    ∀ other < (heap.bindIvar id name value).size, P other ((heap.bindIvar id name value).get other) := by
  intro other hother
  rw [size_bindIvar] at hother
  rw [get_bindIvar]
  split
  · exact hset other _ (h other hother)
  · exact h other hother

end Heap

namespace CallStack

variable {fit : Value → Prop} {stack : CallStack}

theorem current_mem (stack : CallStack) : stack.current ∈ stack.frames := by
  rw [current, frames]
  cases stack.above <;> simp

theorem frames_pop_subset (stack : CallStack) : stack.pop.frames ⊆ stack.frames := by
  rw [frames, frames, above_pop, bottom_pop]
  intro frame hframe
  rcases List.mem_append.mp hframe with habove | hbottom
  · exact List.mem_append_left _ (List.mem_of_mem_tail habove)
  · exact List.mem_append_right _ hbottom

/-- What holds of all frames, whatever their local variables are, holds after `CallStack.bindLocal`. -/
theorem forall_bindLocal {P : Frame → Prop} (h : ∀ frame ∈ stack.frames, P frame) {name : String}
    {value : Value} (hset : ∀ frame, P frame → P { frame with locals := frame.locals.set name value }) :
    ∀ frame ∈ (stack.bindLocal name value).frames, P frame := by
  obtain ⟨bottom, above, depth, depth_eq⟩ := stack
  cases above with
  | nil =>
      intro frame hframe
      rw [List.mem_singleton.mp hframe]
      exact hset bottom (h bottom List.mem_cons_self)
  | cons top below =>
      intro frame hframe
      rcases List.mem_cons.mp hframe with rfl | hin
      · exact hset top (h top List.mem_cons_self)
      · exact h frame (List.mem_cons_of_mem _ hin)

theorem holds_bindLocal (h : ∀ frame ∈ stack.frames, frame.Holds fit) (name : String) {value : Value}
    (hvalue : fit value) : ∀ frame ∈ (stack.bindLocal name value).frames, frame.Holds fit :=
  forall_bindLocal h fun _ hframe => ⟨hframe.self, hframe.locals.set name hvalue⟩

end CallStack

/-! ## Steps -/

namespace Machine

variable {machine last : Machine}

/-- A machine `Owns` what a smaller one owns. -/
theorem Owns.mono {value : Value} (h : machine.Owns value) (hheap : machine.heap.size ≤ last.heap.size)
    (hclasses : machine.classes.size ≤ last.classes.size) : last.Owns value := by
  cases value with
  | nil => trivial
  | object id => exact Nat.lt_of_lt_of_le h hheap
  | classRef id => exact Nat.lt_of_lt_of_le h hclasses

/-- No `Step` takes anything away. -/
theorem Step.grows {known : Set Value} (hstep : machine.Step known last) :
    machine.heap.size ≤ last.heap.size ∧ machine.classes.size ≤ last.classes.size := by
  cases hstep with
  | alloc new _ => exact ⟨by simp, le_refl _⟩
  | bindIvar id name value _ _ => exact ⟨by simp, le_refl _⟩
  | bindClassIvar id name value _ _ => exact ⟨le_refl _, by simp [Hierarchy.bindIvar]⟩
  | define id name method _ => exact ⟨le_refl _, by simp [Hierarchy.define]⟩
  | create scope name superclass _ _ _ =>
      exact ⟨le_refl _, by simp [Hierarchy.create, Hierarchy.bindConstant]⟩
  | _ => exact ⟨le_refl _, le_refl _⟩

/-- The `emptyPayload` of a class holds no values. -/
theorem items_of_emptyPayload {id : ClassId} {items : List Value}
    (h : machine.emptyPayload id = some (.items items)) : items = [] := by
  unfold emptyPayload at h
  repeat' split at h
  all_goals simp_all

/-- A `NewObject` stores what it was given, and its class. -/
theorem holds_object {fit : Value → Prop} {new : NewObject} (hnew : new.Within fit)
    (hinitial : ∀ id < 5, fit (.classRef id)) : (new.object machine).Holds fit := by
  cases new with
  | string text => exact ⟨hinitial ClassId.string (by decide), by rintro items ⟨⟩, Table.all_empty⟩
  | integer number => exact ⟨hinitial ClassId.integer (by decide), by rintro items ⟨⟩, Table.all_empty⟩
  | array items =>
      refine ⟨hinitial ClassId.array (by decide), ?_, Table.all_empty⟩
      rintro other ⟨⟩
      exact hnew
  | ofClass id =>
      refine ⟨hnew, fun items hitems => ?_, Table.all_empty⟩
      rw [items_of_emptyPayload hitems]
      simp

/-- What a `Step` stores is known, or one of the classes. -/
theorem Holds.step {fit : Value → Prop} (h : machine.Holds fit) (hstep : machine.Step fit last)
    (hsize : 5 ≤ last.classes.size) (hclasses : ∀ id < last.classes.size, fit (.classRef id)) :
    last.Holds fit := by
  have hinitial : ∀ id < 5, fit (.classRef id) := fun id hid => hclasses id (Nat.lt_of_lt_of_le hid hsize)
  cases hstep with
  | log event => exact ⟨h.classes, h.objects, h.frames⟩
  | write text => exact ⟨h.classes, h.objects, h.frames⟩
  | alloc new hnew =>
      exact ⟨h.classes, Heap.forall_push h.objects (holds_object hnew hinitial), h.frames⟩
  | bindIvar id name value _ hvalue =>
      refine ⟨h.classes, Heap.forall_bindIvar h.objects id name value ?_, h.frames⟩
      exact fun _ object hobject => ⟨hobject.classId, hobject.items, hobject.ivars.set name hvalue⟩
  | bindClassIvar id name value _ hvalue =>
      refine ⟨Hierarchy.forall_modify h.classes id fun entry hentry => ?_, h.objects, h.frames⟩
      exact ⟨hentry.classId, hentry.superclass, hentry.constants, hentry.ivars.set name hvalue⟩
  | bindLocal name value hvalue =>
      exact ⟨h.classes, h.objects, CallStack.holds_bindLocal h.frames name hvalue⟩
  | define id name method _ =>
      refine ⟨Hierarchy.forall_modify h.classes id fun entry hentry => ?_, h.objects, h.frames⟩
      exact ⟨hentry.classId, hentry.superclass, hentry.constants, hentry.ivars⟩
  | create scope name superclass _ hsuper _ =>
      have hnew : fit (.classRef machine.classes.size) := by
        refine hclasses _ ?_
        simp [Hierarchy.create, Hierarchy.bindConstant]
      have hentry : ClassEntry.Holds fit
          { name := machine.classes.qualify scope name, superclass := some superclass } := by
        refine ⟨hinitial ClassId.metaclass (by decide), ?_, Table.all_empty, Table.all_empty⟩
        rintro parent ⟨⟩
        exact hsuper
      -- the class is added first, then the namespace gets the constant
      have hpush := Hierarchy.forall_push h.classes hentry
      refine ⟨Hierarchy.forall_modify hpush scope fun entry hentry => ?_, h.objects, h.frames⟩
      exact ⟨hentry.classId, hentry.superclass, hentry.constants.set name hnew, hentry.ivars⟩

/-- A `Step` puts only older values into an array. -/
theorem layered_step (h : machine.heap.Layered) (hstep : machine.Step machine.Owns last) :
    last.heap.Layered := by
  cases hstep with
  | alloc new hnew =>
      refine Heap.forall_push h fun items hitems item hitem => ?_
      have howns : machine.Owns item := by
        cases new with
        | string text => cases hitems
        | integer number => cases hitems
        | array values =>
            cases hitems
            exact hnew item hitem
        | ofClass id =>
            rw [items_of_emptyPayload hitems] at hitem
            exact absurd hitem (by simp)
      -- the place of the new object is the size of the heap, and its items stand below it
      cases item with
      | nil => exact Nat.zero_le _
      | object id => exact howns
      | classRef id => exact Nat.zero_le _
  | bindIvar id name value _ _ => exact Heap.forall_bindIvar h id name value fun _ _ hobject => hobject
  | _ => exact h

theorem rooted_step (h : machine.classes.Rooted) (hstep : machine.Step machine.Owns last) :
    last.classes.Rooted := by
  cases hstep with
  | bindClassIvar id name value _ _ => exact h.modify id (fun _ => rfl) fun _ => rfl
  | define id name method _ => exact h.define id name method
  | create scope name superclass _ hsuper _ => exact h.create scope name hsuper
  | _ => exact h

/-- **Each `Step` keeps a machine `WellFormed`.** -/
theorem WellFormed.step (h : machine.WellFormed) (hstep : machine.Step machine.Owns last) :
    last.WellFormed := by
  obtain ⟨hheap, hclasses⟩ := hstep.grows
  have howns : ∀ value, machine.Owns value → last.Owns value := fun _ hvalue => hvalue.mono hheap hclasses
  have hrooted := rooted_step h.rooted hstep
  have hholds : last.Holds last.Owns :=
    (h.contained.holds.mono howns).step (hstep.mono howns) hrooted.initial fun _ hid => hid
  exact ⟨⟨hholds, howns _ h.contained.main⟩, hrooted, layered_step h.layered hstep⟩

theorem WellFormed.pushed (h : machine.WellFormed) {self : Value} (hself : machine.Owns self) :
    (machine.pushed self).WellFormed := by
  have hframe : Frame.Holds machine.Owns { self } := ⟨hself, Table.all_empty⟩
  have hholds := h.contained.holds
  refine ⟨⟨⟨hholds.classes, hholds.objects, ?_⟩, h.contained.main⟩, h.rooted, h.layered⟩
  exact List.forall_mem_cons.mpr ⟨hframe, hholds.frames⟩

theorem WellFormed.popped (h : machine.WellFormed) : machine.popped.WellFormed := by
  have hholds := h.contained.holds
  refine ⟨⟨⟨hholds.classes, hholds.objects, ?_⟩, h.contained.main⟩, h.rooted, h.layered⟩
  exact fun frame hframe => hholds.frames frame (CallStack.frames_pop_subset _ hframe)

/-! ## Questions -/

/-- What the machine has for fit values is fit as well, and so is what it has in `CallStack.current`. -/
structure ClosedUnder (fit : Value → Prop) (machine : Machine) : Prop where
  nil : fit .nil
  current : machine.stack.current.Holds fit
  items : ∀ {value : Value} {items : List Value}, fit value →
    machine.heap.payload? value = some (.items items) → ∀ item ∈ items, fit item
  ivar : ∀ {target : Value} (name : String), fit target → fit (machine.ivar target name)
  constant : ∀ {scope : ClassId} {name : String} {value : Value}, fit (.classRef scope) →
    machine.classes.constant? scope name = some value → fit value
  classOf : ∀ {value : Value} {id : ClassId}, fit value → machine.classOf? value = some id →
    fit (.classRef id)
  superclass : ∀ {id parent : ClassId}, fit (.classRef id) →
    (machine.classes.get id).superclass = some parent → fit (.classRef parent)

/-- What is not there reads as `nil`. -/
theorem fit_getD {fit : Value → Prop} (hnil : fit .nil) {found : Option Value}
    (h : ∀ value, found = some value → fit value) : fit (found.getD .nil) := by
  cases found with
  | none => exact hnil
  | some value => exact h value rfl

/-- **The answers to questions about fit values are fit**: `Query.Takes` before, `Query.Gives` after. -/
theorem ClosedUnder.gives {fit : Value → Prop} (h : machine.ClosedUnder fit) {α : Type} (question : Query α)
    {answer : α} (htakes : question.Takes fit) (hask : question.ask machine = .ok answer) :
    question.Gives fit answer := by
  cases question with
  | methodFor receiver name =>
      rintro rfl
      cases hask
  | asClass value =>
      cases value with
      | nil => cases hask
      | object id => cases hask
      | classRef id =>
          cases hask
          exact htakes
  | itemsOf value =>
      have hitems := Query.eq_some_of_orMismatch hask
      unfold Heap.items? at hitems
      split at hitems
      · rename_i values hpayload
        cases hitems
        exact h.items htakes hpayload
      · cases hitems
  | payload value =>
      cases hask
      exact fun items hitems => h.items htakes hitems
  | self =>
      cases hask
      exact h.current.self
  | readLocal name =>
      cases hask
      exact fit_getD h.nil fun _ hget => h.current.locals.get? hget
  | readIvar target name =>
      cases hask
      exact h.ivar name htakes
  | constant scope name =>
      cases hget : machine.classes.constant? scope name with
      | none =>
          rw [Query.ask, hget] at hask
          cases hask
      | some value =>
          rw [Query.ask, hget] at hask
          cases hask
          exact h.constant htakes hget
  | classOfReceiver receiver => exact h.classOf htakes (Query.eq_some_of_orMismatch hask)
  | methodTarget =>
      have htarget := Query.eq_some_of_orMismatch hask
      have hself := h.current.self
      cases hvalue : machine.stack.current.self with
      | nil =>
          rw [hvalue] at htarget
          cases htarget
      | object id =>
          rw [hvalue] at htarget hself
          exact h.classOf hself htarget
      | classRef id =>
          rw [hvalue] at htarget hself
          cases htarget
          exact hself
  | superclass id =>
      cases hask
      cases hsuper : (machine.classes.get id).superclass with
      | none => exact h.nil
      | some parent => exact h.superclass htakes hsuper
  | onlyArg operation args =>
      rcases args with _ | ⟨arg, _ | ⟨other, rest⟩⟩
      · cases hask
      · cases hask
        exact htakes _ List.mem_cons_self
      · cases hask
  | _ => trivial

theorem Contained.owns_items (h : machine.Contained) {value : Value} {items : List Value}
    (hvalue : machine.Owns value) (hitems : machine.heap.payload? value = some (.items items)) :
    ∀ item ∈ items, machine.Owns item := by
  cases value with
  | nil => cases hitems
  | object id => exact (h.holds.objects id hvalue).items items hitems
  | classRef id => cases hitems

theorem Contained.owns_ivar (h : machine.Contained) {target : Value} (htarget : machine.Owns target)
    (name : String) : machine.Owns (machine.ivar target name) := by
  cases target with
  | nil => trivial
  | object id => exact fit_getD trivial fun _ hget => (h.holds.objects id htarget).ivars.get? hget
  | classRef id => exact fit_getD trivial fun _ hget => (h.holds.classes id htarget).ivars.get? hget

theorem Contained.owns_classOf (h : machine.Contained) {value : Value} {id : ClassId}
    (hvalue : machine.Owns value) (hclass : machine.classOf? value = some id) :
    machine.Owns (.classRef id) := by
  cases value with
  | nil => cases hclass
  | object place =>
      cases hclass
      exact (h.holds.objects place hvalue).classId
  | classRef place =>
      cases hclass
      exact (h.holds.classes place hvalue).classId

/-- A machine that is `Contained` finds only what is its own. -/
theorem Contained.closedUnder (h : machine.Contained) : machine.ClosedUnder machine.Owns where
  nil := trivial
  current := h.holds.frames _ machine.stack.current_mem
  items := h.owns_items
  ivar name htarget := h.owns_ivar htarget name
  constant hscope hget := (h.holds.classes _ hscope).constants.get? hget
  classOf := h.owns_classOf
  superclass hid hsuper := (h.holds.classes _ hid).superclass _ hsuper

/-- **`WellFormed` machines stay well-formed**, and go on owning what they own. -/
def wellFormed : Invariant where
  holds := WellFormed
  known machine := machine.Owns
  selves _ := True
  basic h := ⟨trivial, Nat.lt_of_lt_of_le (by decide) h.rooted.initial, fun _ _ => trivial⟩
  step h hstep := by
    obtain ⟨hheap, hclasses⟩ := hstep.grows
    exact ⟨h.step hstep, fun _ hvalue => Owns.mono hvalue hheap hclasses⟩
  push h hself _ := ⟨h.pushed hself, fun _ hvalue => hvalue⟩
  pop _ h _ := ⟨h.popped, fun _ hvalue => hvalue⟩
  gives := by
    intro machine α question answer h htakes hask
    exact h.contained.closedUnder.gives question htakes hask
  alloc {machine new} _ _ := by
    show machine.heap.size < (machine.heap.push (new.object machine)).size
    rw [Heap.size_push]
    exact Nat.lt_succ_self _
  create {machine scope} name {superclass} _ _ _ := by
    show machine.classes.size < (machine.classes.create scope name superclass).size
    simp [Hierarchy.create, Hierarchy.bindConstant]

end Machine

end ObjectTalk

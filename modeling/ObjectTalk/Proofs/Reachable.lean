import ObjectTalk.Proofs.Ownership
/-!
# `Proofs.Reachable` — the machines a host can come to

A host makes a machine and then, in any order, runs programs on it, sends messages, calls methods, shows
values, and changes classes, constants, methods, objects and frames, always with values of that machine
(`Machine.HostStep`). Programs and messages may succeed or fail. All machines that come about are well-formed
(`Machine.Reachable.wellFormed`), so the class hierarchy of each is a tree that hangs on the root class.
-/

namespace ObjectTalk.Machine

/-- What a host may do, with values that the machine `Owns`. -/
inductive HostStep (machine : Machine) : Machine → Prop where
  | run (program : Node) : HostStep machine ((run program).after machine)
  | eval (node : Node) : HostStep machine ((eval node).after machine)
  | send (receiver : Value) (name : String) (args : List Value) (hreceiver : machine.Owns receiver)
      (hargs : ∀ arg ∈ args, machine.Owns arg) : HostStep machine ((send receiver name args).after machine)
  | call (receiver : Value) (name : String) (method : Method) (args : List Value)
      (hreceiver : machine.Owns receiver) (hargs : ∀ arg ∈ args, machine.Owns arg) :
      HostStep machine ((call receiver name method args).after machine)
  | display (value : Value) (hvalue : machine.Owns value) : HostStep machine ((display value).after machine)
  /-- Open a class, or make it. -/
  | declare (scope : ClassId) (name : String) (superclass : Option ClassId)
      (hscope : machine.Owns (.classRef scope))
      (hsuper : ∀ id, superclass = some id → machine.Owns (.classRef id)) :
      HostStep machine ((Run.declare scope name superclass).after machine)
  | bindConstant (scope : ClassId) (name : String) (value : Value) (hscope : machine.Owns (.classRef scope))
      (hvalue : machine.Owns value) : HostStep machine ((Run.bindConstant scope name value).after machine)
  /-- Define a method, written or built in, under any name. -/
  | define (id : ClassId) (name : String) (method : Method) (hid : machine.Owns (.classRef id)) :
      HostStep machine ((Run.define id name method).after machine)
  /-- Allocate a string, an integer, an array or an instance of a class. -/
  | alloc (new : NewObject) (hnew : new.Within machine.Owns) :
      HostStep machine ((Change.alloc new).run.after machine)
  | bindIvar (target : Value) (name : String) (value : Value) (htarget : machine.Owns target)
      (hvalue : machine.Owns value) : HostStep machine ((Run.bindIvar target name value).after machine)
  | push (self : Value) (hself : machine.Owns self) : HostStep machine ((Run.push self).after machine)
  | pop : HostStep machine (Run.pop.after machine)
  | bindLocal (name : String) (value : Value) (hvalue : machine.Owns value) :
      HostStep machine ((Run.bindLocal name value).after machine)
  | write (text : String) : HostStep machine ((Run.write text).after machine)
  | drain : HostStep machine (Run.drain.after machine)

/-- The machines that a host comes to, one `HostStep` after another, starting from a new one. -/
inductive Reachable : Machine → Prop where
  | boot (settings : Settings) (output : Output) : Reachable (boot settings output)
  | step {machine last : Machine} (hreach : Reachable machine) (hstep : machine.HostStep last) :
      Reachable last

/-! ## New machines -/

/-- The constants of `Hierarchy.bare` are its classes. -/
theorem classes_of_bare : ∀ id < Hierarchy.bare.size,
    (∀ entry ∈ (Hierarchy.bare.get id).constants.entries, ∃ member < 5, entry.2 = .classRef member)
      ∧ (Hierarchy.bare.get id).ivars.entries = [] := by
  decide

theorem holds_initial {fit : Value → Prop} (hinitial : ∀ id < 5, fit (.classRef id)) :
    ∀ id < Hierarchy.initial.size, (Hierarchy.initial.get id).Holds fit := by
  have hbare : ∀ id < Hierarchy.bare.size, (Hierarchy.bare.get id).Holds fit := by
    intro id hid
    obtain ⟨hconstants, hivars⟩ := classes_of_bare id hid
    refine ⟨?_, fun parent hsome => hinitial parent (Hierarchy.rooted_bare.parent_lt hid hsome), ?_, ?_⟩
    · rw [Hierarchy.rooted_bare.classId id hid]
      exact hinitial ClassId.metaclass (by decide)
    · intro entry hentry
      obtain ⟨member, hmember, heq⟩ := hconstants entry hentry
      rw [heq]
      exact hinitial member hmember
    · intro entry hentry
      rw [hivars] at hentry
      exact absurd hentry (by simp)
  -- defining a method changes nothing that is looked at here
  refine List.foldlRecOn (motive := fun hierarchy : Hierarchy =>
    ∀ id < hierarchy.size, (hierarchy.get id).Holds fit) Hierarchy.builtins _ hbare ?_
  intro hierarchy h entry _
  refine Hierarchy.forall_modify h entry.owner fun owner howner => ?_
  exact ⟨howner.classId, howner.superclass, howner.constants, howner.ivars⟩

theorem wellFormed_boot (settings : Settings) (output : Output) : (boot settings output).WellFormed := by
  have hmain : (boot settings output).Owns main := Nat.zero_lt_one
  have hinitial : ∀ id < 5, (boot settings output).Owns (.classRef id) := fun id hid =>
    Nat.lt_of_lt_of_le hid Hierarchy.rooted_initial.initial
  have hobject : Object.Holds (boot settings output).Owns { classId := ClassId.root } :=
    ⟨hinitial ClassId.root (by decide), by rintro items ⟨⟩, Table.all_empty⟩
  have hempty : ∀ {P : ObjectId → Object → Prop}, ∀ id < Heap.size {}, P id (Heap.get {} id) :=
    fun id hid => absurd hid (Nat.not_lt_zero id)
  refine ⟨⟨⟨holds_initial hinitial, Heap.forall_push hempty hobject, ?_⟩, hmain⟩,
    Hierarchy.rooted_initial, Heap.forall_push hempty (by rintro items ⟨⟩)⟩
  intro frame hframe
  rw [List.mem_singleton.mp hframe]
  exact ⟨hmain, Table.all_empty⟩

/-! ## Steps of a host -/

theorem WellFormed.bindConstant {machine : Machine} (h : machine.WellFormed) (scope : ClassId)
    (name : String) {value : Value} (hvalue : machine.Owns value) :
    WellFormed { machine with classes := machine.classes.bindConstant scope name value } := by
  have hsize : machine.classes.size ≤ (machine.classes.bindConstant scope name value).size := by
    simp [Hierarchy.bindConstant]
  have howns : ∀ other, machine.Owns other →
      Owns { machine with classes := machine.classes.bindConstant scope name value } other :=
    fun _ hother => hother.mono (le_refl _) hsize
  have hholds := h.contained.holds.mono howns
  refine ⟨⟨⟨?_, hholds.objects, hholds.frames⟩, howns _ h.contained.main⟩, ?_, h.layered⟩
  · refine Hierarchy.forall_modify hholds.classes scope fun entry hentry => ?_
    exact ⟨hentry.classId, hentry.superclass, hentry.constants.set name (howns value hvalue), hentry.ivars⟩
  · exact h.rooted.modify scope (fun _ => rfl) fun _ => rfl

/-- The `Invariant` holds of new machines; it lets evaluation work with all that a machine `Owns`; and what a host
    does besides evaluation keeps it. -/
structure Hosted (invariant : Invariant) : Prop where
  boot : ∀ (settings : Settings) (output : Output), invariant.holds (boot settings output)
  owns : ∀ {machine : Machine} {value : Value}, invariant.holds machine → machine.Owns value →
    value ∈ invariant.known machine
  selves : ∀ value, invariant.selves value
  bindConstant : ∀ {machine : Machine} (scope : ClassId) (name : String) {value : Value},
    invariant.holds machine → machine.Owns value →
    invariant.holds { machine with classes := machine.classes.bindConstant scope name value }
  popped : ∀ {machine : Machine}, invariant.holds machine → invariant.holds machine.popped
  rewritten : ∀ {machine : Machine} (output : Output), invariant.holds machine →
    invariant.holds { machine with output }

/-- **Each `HostStep` keeps an invariant that is `Hosted`**, whether it succeeds or fails. -/
theorem Hosted.hostStep {invariant : Invariant} (hosted : Hosted invariant) {machine last : Machine}
    (h : invariant.holds machine) (hstep : machine.HostStep last) : invariant.holds last := by
  have hknown : ∀ value, machine.Owns value → value ∈ invariant.known machine :=
    fun _ hvalue => hosted.owns h hvalue
  have hargs : ∀ {args : List Value}, (∀ arg ∈ args, machine.Owns arg) →
      KnownValues (invariant.known machine) args := fun hargs arg harg => hknown arg (hargs arg harg)
  have hchange : ∀ {α : Type} (change : Change α), change.Takes (invariant.known machine) →
      invariant.holds (change.run.after machine) := fun change htakes =>
    (Invariant.kept_change change h htakes).after
  cases hstep with
  | run program => exact (Invariant.kept_run program h).after
  | eval node => exact (Invariant.kept_eval node h).after
  | send receiver name args hreceiver howned =>
      exact (Invariant.kept_send name h (hknown _ hreceiver) (hargs howned)).after
  | call receiver name method args hreceiver howned =>
      have hself := hosted.selves receiver
      exact (Invariant.kept_call name method h (hknown _ hreceiver) hself (hargs howned)).after
  | display value hvalue => exact (Invariant.kept_display h (hknown _ hvalue)).after
  | declare scope name superclass hscope hsuper =>
      refine hchange (.declare scope name superclass) ⟨hknown _ hscope, ?_⟩
      cases superclass with
      | none => exact (invariant.basic h).root
      | some id => exact hknown _ (hsuper id rfl)
  | bindConstant scope name value _ hvalue => exact hosted.bindConstant scope name h hvalue
  | define id name method hid => exact hchange (.define id name method) (hknown _ hid)
  | alloc new hnew => exact hchange (.alloc new) (hnew.mono hknown)
  | bindIvar target name value htarget hvalue =>
      exact hchange (.bindIvar target name value) ⟨hknown _ htarget, hknown _ hvalue⟩
  | push self hself =>
      rw [Run.after, Run.push_apply]
      split
      · exact (invariant.push h (hknown _ hself) (hosted.selves self)).1
      · exact h
  | pop => exact hosted.popped h
  | bindLocal name value hvalue => exact hchange (.bindLocal name value) (hknown _ hvalue)
  | write text => exact hchange (.write text) trivial
  | drain => exact hosted.rewritten _ h

theorem Hosted.holds_of_reachable {invariant : Invariant} (hosted : Hosted invariant) {machine : Machine}
    (hreach : machine.Reachable) : invariant.holds machine := by
  induction hreach with
  | boot settings output => exact hosted.boot settings output
  | step _ hstep ih => exact hosted.hostStep ih hstep

/-- **A host keeps its machine `WellFormed`.** -/
theorem wellFormed_hosted : Hosted wellFormed where
  boot := wellFormed_boot
  owns _ hvalue := hvalue
  selves _ := trivial
  bindConstant {_} scope name {_} h hvalue := WellFormed.bindConstant h scope name hvalue
  popped h := WellFormed.popped h
  rewritten _ h := by
    have hstored := h.contained.holds
    exact ⟨⟨⟨hstored.classes, hstored.objects, hstored.frames⟩, h.contained.main⟩, h.rooted, h.layered⟩

theorem Reachable.wellFormed {machine : Machine} (h : machine.Reachable) : machine.WellFormed :=
  wellFormed_hosted.holds_of_reachable h

/-- **The class graph of every machine that a host can come to is well-formed.** What a `Reachable` machine stores,
    it has (`Contained`). The classes are a `Tree`, of which each is an instance of the metaclass: superclass links
    lead from each to the root, by way of its `ancestors`. And they are `Ordered`: descent is a partial order in
    which ancestors form a chain. -/
theorem class_graph_well_formed {machine : Machine} (h : machine.Reachable) :
    machine.Contained ∧ machine.classes.Tree ∧ machine.classes.Ordered :=
  ⟨h.wellFormed.contained, h.wellFormed.rooted.tree, h.wellFormed.rooted.ordered⟩

/-- A new machine after a program that makes a class which descends from the metaclass, in it a class which
    descends from that one, and then fails. -/
def nestedClasses : Machine :=
  (run (.sequence [.classDef none "A" (some (.constRef none "Class"))
      (.classDef (some (.constRef none "A")) "B" (some (.constRef none "A")) (.sequence [])),
    .constRef none "Missing"])).after (boot {} (.kept ""))

theorem class_graph_well_formed_nested :
    (nestedClasses.Reachable ∧ nestedClasses.classes.size = 7)
      ∧ nestedClasses.Contained ∧ nestedClasses.classes.Tree ∧ nestedClasses.classes.Ordered :=
  have hreach : nestedClasses.Reachable := .step (.boot {} (.kept "")) (.run _)
  ⟨⟨hreach, by decide⟩, class_graph_well_formed hreach⟩

end ObjectTalk.Machine

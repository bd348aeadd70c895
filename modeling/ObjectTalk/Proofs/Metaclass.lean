import ObjectTalk.Proofs.Orderly
/-!
# `Proofs.Metaclass` — what is an instance of the metaclass

The methods of the metaclass are made for classes: they ask that their receiver be one. No message makes an
instance of the metaclass itself, since its method `new` compares the class with it first, and so programs never
come to have one (`Machine.uninstantiated_of_occurs`). The comparison is with the metaclass alone, though. A
program may define a class that descends from it and make instances of that, and these understand the methods of
the metaclass without being classes.

As long as no class has been given the metaclass for its superclass, everything whose class descends from the
metaclass is a class.
-/

namespace ObjectTalk

open Plan

/-- On a `Walk`, a class other than the first one is the superclass of one before it. -/
theorem Hierarchy.Walk.eq_or_superclass {hierarchy : Hierarchy} {id ancestor : ClassId} {path : List ClassId}
    (h : hierarchy.Walk id path) (hmem : ancestor ∈ path) :
    ancestor = id ∨ ∃ below ∈ path, (hierarchy.get below).superclass = some ancestor := by
  induction h with
  | last _ => exact .inl (List.mem_singleton.mp hmem)
  | @next id parent _ hsome _ ih =>
      rcases List.mem_cons.mp hmem with heq | hin
      · exact .inl heq
      · right
        rcases ih hin with heq | ⟨below, hbelow, hsuper⟩
        · rw [heq]
          exact ⟨id, List.mem_cons_self, hsome⟩
        · exact ⟨below, List.mem_cons_of_mem _ hbelow, hsuper⟩

namespace Machine

/-- No object is an instance of `ClassId.metaclass` itself. -/
def Uninstantiated (machine : Machine) : Prop :=
  ∀ id < machine.heap.size, (machine.heap.get id).classId ≠ ClassId.metaclass

variable {machine last : Machine}

/-! ## Changes -/

theorem uninstantiated_frameless : Frameless Uninstantiated :=
  ⟨fun _ h => h, fun _ h => h, fun h => h⟩

/-- A `Change` that is `Guarded` makes no instance of the metaclass. -/
theorem Uninstantiated.change (h : machine.Uninstantiated) {α : Type} {change : Change α}
    (hguarded : change.Guarded (· ≠ .nil)) : (change.run.after machine).Uninstantiated := by
  cases change with
  | alloc new =>
      have hnew : (new.object machine).classId ≠ ClassId.metaclass := by
        cases new with
        | ofClass id => exact hguarded
        | string | integer | array => exact Nat.succ_ne_zero _
      rw [Run.after, Change.run_alloc]
      exact Heap.forall_push (P := fun _ object => object.classId ≠ ClassId.metaclass) h hnew
  | bindIvar target name value =>
      cases target with
      | nil => exact h
      | object id =>
          exact Heap.forall_bindIvar (P := fun _ object => object.classId ≠ ClassId.metaclass) h id name value
            fun _ _ hobject => hobject
      | classRef id => exact h
  | declare scope name superclass =>
      show Uninstantiated (Outcome.machine (Run.declare scope name superclass machine))
      rw [Run.declare_apply]
      cases machine.classes.constant? scope name with
      | none => exact h
      | some value => cases value <;> exact h
  | trace kind =>
      rw [Run.after, Change.run_trace]
      show Uninstantiated (if machine.settings.trace then _ else machine)
      split
      · exact h
      · exact h
  | bindLocal | write | define => exact h

/-! ## Programs -/

/-- Evaluating a program `Spares` what is `Uninstantiated`: its changes make no instance of the metaclass. -/
theorem spares_uninstantiated (h : orderly.holds machine) (program : Node) :
    (ofNode program).Spares Uninstantiated machine := by
  intro β step there hleads hthere
  have hplan := Invariant.within_program h program
  exact hthere.change (guarded_of_leads hleads h hplan (guarded_evaluates.ofNode program grounded_univ))

theorem Uninstantiated.run (h : machine.Uninstantiated) (horderly : orderly.holds machine) (program : Node) :
    ((run program).after machine).Uninstantiated := by
  have hends := horderly.1.ends_eval program
  have heval := hends.keeps uninstantiated_frameless (spares_uninstantiated horderly program) h
  rw [Run.after, Machine.run]
  cases houtcome : eval program machine with
  | ok value last =>
      rw [houtcome] at heval
      exact heval
  | error fault last =>
      rw [houtcome] at heval
      exact heval

theorem uninstantiated_boot (settings : Settings) (output : Output) :
    (boot settings output).Uninstantiated := by
  have hempty : ∀ id < Heap.size {}, (Heap.get {} id).classId ≠ ClassId.metaclass :=
    fun id hid => absurd hid (Nat.not_lt_zero id)
  have hmain : ClassId.root ≠ ClassId.metaclass := by decide
  exact Heap.forall_push (P := fun _ object => object.classId ≠ ClassId.metaclass) hempty hmain

/-- **Programs never make an instance of the metaclass itself**: what `Occurs` is `Uninstantiated`. -/
theorem uninstantiated_of_occurs {settings : Settings} {output : Output}
    (h : (boot settings output).Occurs machine) : machine.Uninstantiated := by
  obtain ⟨hruns, program, hmeets⟩ := h
  have hlater : ∀ {later : Machine}, (boot settings output).RunsTo later →
      orderly.holds later ∧ later.Uninstantiated := by
    intro later hruns
    induction hruns with
    | refl => exact ⟨orderly_boot settings output, uninstantiated_boot settings output⟩
    | run _ program ih => exact ⟨(Invariant.kept_run program ih.1).after, ih.2.run ih.1 program⟩
  obtain ⟨horderly, huninstantiated⟩ := hlater hruns
  exact hmeets.keeps uninstantiated_frameless (spares_uninstantiated horderly program) huninstantiated

/-! ## Receivers -/

/-- If no class has `ClassId.metaclass` for its superclass, none but itself descends from it. -/
theorem eq_metaclass_of_descends (h : machine.classes.Rooted)
    (hheirs : ∀ id < machine.classes.size, (machine.classes.get id).superclass ≠ some ClassId.metaclass)
    {id : ClassId} (hid : id < machine.classes.size)
    (hdescends : machine.classes.descends id ClassId.metaclass) : id = ClassId.metaclass := by
  have hwalk := h.walk_ancestors hid
  rcases hwalk.eq_or_superclass (Hierarchy.descends_iff.mp hdescends) with heq | ⟨below, hbelow, hsuper⟩
  · exact heq.symm
  · exact absurd hsuper (hheirs below (h.lt_of_walk hwalk hid below hbelow))

/-- **Only classes are instances of the metaclass, as long as it has no heirs.** Any machine that `Occurs` on a new
    one is `Uninstantiated`, and programs answer values that it `Owns`. If no superclass is the metaclass, no object
    is of a class that descends from it; whoever is sent a method of the metaclass is a class, and `Run.asClass`
    takes it for one. -/
theorem only_classes_are_instances_of_metaclass {settings : Settings} {output : Output} {machine : Machine}
    (h : (boot settings output).Occurs machine) :
    machine.Uninstantiated ∧
    (∀ program value last, run program machine = .ok value last → last.Owns value) ∧
    ((∀ id < machine.classes.size, (machine.classes.get id).superclass ≠ some ClassId.metaclass) →
      (∀ id < machine.heap.size, ¬ machine.classes.descends (machine.heap.get id).classId ClassId.metaclass) ∧
      ∀ receiver id name method, machine.Owns receiver → machine.classOf? receiver = some id →
        machine.classes.lookup id name = some (ClassId.metaclass, method) →
        ∃ member, receiver = .classRef member ∧ ∀ inside, Run.asClass receiver inside = .ok member inside) := by
  have huninstantiated := uninstantiated_of_occurs h
  obtain ⟨hwellFormed, _⟩ : orderly.holds machine :=
    Invariant.holds_of_occurs h (orderly_boot settings output)
  have hresult : ∀ program value last, run program machine = .ok value last → last.Owns value := by
    intro program value last hrun
    have hkept : wellFormed.Kept machine KnownValue (run program machine) :=
      Invariant.kept_run program hwellFormed
    rw [hrun] at hkept
    exact hkept.2.2
  refine ⟨huninstantiated, hresult, fun hheirs => ?_⟩
  have hobjects : ∀ id < machine.heap.size,
      ¬ machine.classes.descends (machine.heap.get id).classId ClassId.metaclass := by
    intro id hid hdescends
    have hclass := (hwellFormed.contained.holds.objects id hid).classId
    exact huninstantiated id hid (eq_metaclass_of_descends hwellFormed.rooted hheirs hclass hdescends)
  refine ⟨hobjects, ?_⟩
  intro receiver id name method hreceiver hclass hlookup
  have hdescends := Hierarchy.descends_of_lookup hlookup
  cases receiver with
  | nil => cases hclass
  | object place =>
      cases hclass
      exact absurd hdescends (hobjects place hreceiver)
  | classRef member => exact ⟨member, rfl, fun _ => rfl⟩

/-- A new machine after a program that makes a class and an instance of it. -/
def instanceMade : Machine :=
  (run (.sequence [.classDef none "A" none (.sequence []),
    .send (some (.constRef none "A")) "new" []])).after (boot {} (.kept ""))

theorem only_classes_are_instances_of_metaclass_made :
    ((boot {} (.kept "")).Occurs instanceMade ∧ instanceMade.heap.size = 2
      ∧ (∀ id < instanceMade.classes.size,
        (instanceMade.classes.get id).superclass ≠ some ClassId.metaclass)
      ∧ instanceMade.Owns (.classRef 5) ∧ instanceMade.classOf? (.classRef 5) = some ClassId.metaclass
      ∧ instanceMade.classes.lookup ClassId.metaclass "name"
        = some (ClassId.metaclass, .builtin "name" (.exactly 0) .className))
    ∧ ¬ instanceMade.classes.descends (instanceMade.heap.get 1).classId ClassId.metaclass
    ∧ ∃ member, .classRef 5 = Value.classRef member
      ∧ ∀ inside, Run.asClass (.classRef 5) inside = .ok member inside := by
  have hoccurs : (boot {} (.kept "")).Occurs instanceMade := (RunsTo.refl.run _).occurs
  have hsize : instanceMade.heap.size = 2 := by decide
  have hheirs : ∀ id < instanceMade.classes.size,
      (instanceMade.classes.get id).superclass ≠ some ClassId.metaclass := by decide
  have howns : instanceMade.Owns (.classRef 5) := by
    show 5 < instanceMade.classes.size
    decide
  have hclass : instanceMade.classOf? (.classRef 5) = some ClassId.metaclass := by decide
  have hlookup : instanceMade.classes.lookup ClassId.metaclass "name"
      = some (ClassId.metaclass, .builtin "name" (.exactly 0) .className) := by rfl
  obtain ⟨_, _, hunless⟩ := only_classes_are_instances_of_metaclass hoccurs
  obtain ⟨hobjects, hreceivers⟩ := hunless hheirs
  have hobject := hobjects 1 (by decide)
  exact ⟨⟨hoccurs, hsize, hheirs, howns, hclass, hlookup⟩, hobject,
    hreceivers _ _ "name" _ howns hclass hlookup⟩

/-- With an heir of `ClassId.metaclass` it is otherwise: the heir has instances, which find the methods of the
    metaclass, and these refuse them because they are no classes. -/
theorem heir_of_metaclass_has_instances :
    ∃ last, run (.sequence [.classDef none "Meta" (some (.constRef none "Class")) (.sequence []),
        .send (some (.constRef none "Meta")) "new" []]) (boot {} (.kept "")) = .ok (.object 1) last
      ∧ last.classes.descends (last.heap.get 1).classId ClassId.metaclass
      ∧ last.classes.lookup (last.heap.get 1).classId "name"
        = some (ClassId.metaclass, .builtin "name" (.exactly 0) .className)
      ∧ Run.asClass (.object 1) last = .error (.wrongKind .aClass "an instance of Meta") last :=
  ⟨_, rfl, by decide, rfl, rfl⟩

end Machine

end ObjectTalk

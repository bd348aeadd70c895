import ObjectTalk.Proofs.Growth
import ObjectTalk.Proofs.Plan.Guards
/-!
# `Proofs.Orderly` — faults that programs cannot bring about

Four kinds of faults are there for the host only. A machine on which nothing but programs have been run is
`Orderly`: no frame has `nil` for its self, because no message to `nil` finds a method, and all constants are
classes, because only class definitions bind constants. On an orderly machine what is guarded raises none of the
four (`Machine.Orderly.not_absurd`), and all that comes up in evaluation is guarded (`Machine.guarded_of_leads`).
-/

namespace ObjectTalk

open Plan

/-- Every constant of the `ClassEntry` is a class. -/
def ClassEntry.NamesClasses (entry : ClassEntry) : Prop :=
  entry.constants.All fun value => ∃ id, value = .classRef id

namespace Machine

/-- The self of every frame is not `nil`, and every constant of every class is a class. -/
structure Orderly (machine : Machine) : Prop where
  selves : ∀ frame ∈ machine.stack.frames, frame.self ≠ .nil
  constants : ∀ id < machine.classes.size, (machine.classes.get id).NamesClasses

variable {machine last : Machine}

/-! ## Steps -/

theorem Orderly.step {known : Set Value} (h : machine.Orderly) (hstep : machine.Step known last) :
    last.Orderly := by
  have hkept : ∀ (id : ClassId) {change : ClassEntry → ClassEntry},
      (∀ entry, (change entry).constants = entry.constants) →
      ∀ other < (machine.classes.modify id change).size,
        ((machine.classes.modify id change).get other).NamesClasses := by
    intro id change hsame
    refine Hierarchy.forall_modify h.constants id fun entry hentry => ?_
    unfold ClassEntry.NamesClasses
    rw [hsame]
    exact hentry
  cases hstep with
  | bindClassIvar id name value _ _ => exact ⟨h.selves, hkept id fun _ => rfl⟩
  | bindLocal name value _ =>
      exact ⟨CallStack.forall_bindLocal h.selves fun _ hframe => hframe, h.constants⟩
  | define id name method _ => exact ⟨h.selves, hkept id fun _ => rfl⟩
  | create scope name superclass _ _ _ =>
      -- the only constant that is bound is the class that has been made
      have hempty : ClassEntry.NamesClasses
          { name := machine.classes.qualify scope name, superclass := some superclass } := Table.all_empty
      refine ⟨h.selves, ?_⟩
      refine Hierarchy.forall_modify (Hierarchy.forall_push h.constants hempty) scope fun entry hentry => ?_
      exact Table.All.set hentry name ⟨machine.classes.size, rfl⟩
  | _ => exact ⟨h.selves, h.constants⟩

theorem Orderly.pushed (h : machine.Orderly) {self : Value} (hself : self ≠ .nil) :
    (machine.pushed self).Orderly := by
  refine ⟨?_, h.constants⟩
  intro frame hframe
  rcases List.mem_cons.mp hframe with rfl | hin
  · exact hself
  · exact h.selves frame hin

theorem Orderly.popped (h : machine.Orderly) : machine.popped.Orderly :=
  ⟨fun frame hframe => h.selves frame (CallStack.frames_pop_subset _ hframe), h.constants⟩

/-- **Evaluation keeps machines orderly**, since it makes no frame for `nil`. -/
def orderly : Invariant :=
  wellFormed.strengthen Orderly (· ≠ .nil) (fun _ _ => trivial) (fun _ hvalue => hvalue)
    (fun _ _ h hstep => h.step hstep) (fun h hself => h.pushed hself) (fun h => h.popped)

theorem orderly_boot (settings : Settings) (output : Output) : orderly.holds (boot settings output) := by
  refine ⟨wellFormed_boot settings output, ?_, ?_⟩
  · intro frame hframe
    rw [List.mem_singleton.mp hframe]
    exact Value.noConfusion
  · intro id hid
    exact (holds_initial (fun id _ => ⟨id, rfl⟩) id hid).constants

/-! ## Faults -/

theorem Orderly.current (h : machine.Orderly) : machine.stack.current.self ≠ .nil :=
  h.selves _ (CallStack.current_mem machine.stack)

theorem classOf?_of_ne_nil {value : Value} (h : value ≠ .nil) : ∃ id, machine.classOf? value = some id := by
  cases value with
  | nil => exact absurd rfl h
  | object id => exact ⟨_, rfl⟩
  | classRef id => exact ⟨_, rfl⟩

/-- A `Query` that is `Guarded` is not answered by an `Absurd` fault. -/
theorem Orderly.not_absurd_of_ask (h : machine.Orderly) {α : Type} {question : Query α} {fault : Fault}
    (hguarded : question.Guarded (· ≠ .nil)) (hask : question.ask machine = .error fault) : ¬ fault.Absurd := by
  cases question with
  | asClass | textOf | numberOf | itemsOf | answerText =>
      obtain ⟨_, rfl⟩ := Query.eq_none_of_orMismatch hask
      exact fun hassured => hassured
  | methodFor | constant | checkArity | onlyArg | fitInteger =>
      -- these have an answer or a fault that is not about kinds of values
      simp only [Query.ask, methodFor] at hask
      split at hask
      · cases hask
      · cases hask
        exact fun habsurd => habsurd
  | classOfReceiver receiver =>
      obtain ⟨id, hclass⟩ := machine.classOf?_of_ne_nil hguarded
      rw [Query.ask, hclass] at hask
      cases hask
  | methodTarget =>
      -- self is a class or has one
      have hself := h.current
      simp only [Query.ask] at hask
      cases hcurrent : machine.stack.current.self with
      | nil => exact absurd hcurrent hself
      | object | classRef =>
          rw [hcurrent] at hask
          cases hask
  | payload | self | readLocal | readIvar | className | superclass => cases hask

/-- A `Change` that is `Guarded` raises no fault at all. -/
theorem Orderly.run_ne_error (h : machine.Orderly) {α : Type} {change : Change α} {fault : Fault}
    (hguarded : change.Guarded (· ≠ .nil)) : change.run machine ≠ .error fault last := by
  intro hrun
  cases change with
  | alloc new =>
      rw [Change.run_alloc] at hrun
      cases hrun
  | bindIvar target name value =>
      cases target with
      | nil => exact absurd rfl hguarded
      | object id => cases hrun
      | classRef id => cases hrun
  | declare scope name superclass =>
      -- a name that is taken denotes a class
      change Run.declare scope name superclass machine = _ at hrun
      rw [Run.declare_apply] at hrun
      cases hc : machine.classes.constant? scope name with
      | none =>
          rw [hc] at hrun
          cases hrun
      | some value =>
          have hscope : scope < machine.classes.size := Hierarchy.lt_size_of_constant? hc
          obtain ⟨id, rfl⟩ := (h.constants scope hscope).get? hc
          rw [hc] at hrun
          cases hrun
  | trace kind =>
      rw [Change.run_trace] at hrun
      cases hrun
  | _ => cases hrun

/-- **On a machine that is `Orderly`, what is `Guarded` raises no `Absurd` fault.** -/
theorem Orderly.not_absurd (h : machine.Orderly) {α : Type} {piece : Plan α} {fault : Fault}
    (hguarded : piece.Guarded) (hraises : piece.Raises machine fault) : ¬ fault.Absurd := by
  cases hraises with
  | stop fault => exact hguarded
  | query hask => exact h.not_absurd_of_ask hguarded hask
  | change hrun => exact absurd hrun (h.run_ne_error hguarded)
  | refused hfull => exact fun habsurd => habsurd
  | overflow => exact fun habsurd => habsurd

/-! ## Evaluation -/

/-- What a plan counts on, by `Plan.Answers`, is so. -/
theorem Orderly.answers (h : machine.Orderly) {α : Type} {plan : Plan α} {outcome : Outcome α}
    (hends : plan.Ends machine outcome) {result : α} (hok : outcome = .ok result last) :
    plan.Answers result := by
  cases hends with
  | @query _ _ question =>
      cases question with
      | self =>
          cases hok
          exact h.current
      | _ => trivial
  | _ => trivial

/-- **All to which evaluation `Leads` is `Guarded`.** -/
theorem guarded_of_leads {α β : Type} {plan : Plan α} {piece : Plan β} {there : Machine}
    (hleads : plan.Leads machine piece there) :
    ∀ {post : Set Value → α → Prop}, orderly.holds machine →
      plan.Within orderly.selves (orderly.known machine) post → plan.Guarded → piece.Guarded := by
  induction hleads with
  | here =>
      intro post _ _ hguarded
      exact hguarded
  | first _ ih =>
      intro post h hplan hguarded
      exact ih h hplan hguarded.1
  | next hfirst _ ih =>
      intro post h hplan hguarded
      obtain ⟨hmiddle, _, hnext⟩ := Invariant.kept_of_ends hfirst h hplan
      exact ih hmiddle hnext (hguarded.2 _ (h.2.answers hfirst rfl))
  | inFrame _ _ ih =>
      intro post h hplan hguarded
      obtain ⟨hself, hadmitted, hwithin⟩ := hplan
      obtain ⟨hpushed, hle⟩ := orderly.push h hself hadmitted
      exact ih hpushed (hwithin _ hle) hguarded
  | @inCall _ _ _ _ method _ _ _ ih =>
      intro post h hplan hguarded
      obtain ⟨hentered, hle⟩ := orderly.step h (.log (.entered method))
      exact ih hentered (hplan _ hle) hguarded
  | @call _ _ _ _ name method args _ _ ih =>
      intro post h hplan _
      -- a method is called on a value that may be a self
      obtain ⟨hreceiver, hself, hargs, _⟩ := hplan
      have hwithin := within_called (orderly.basic h) name method hreceiver hself hargs
        fun _ _ _ hvalue => hvalue
      exact ih h hwithin (guarded_called hself name method args)
  | @display _ _ _ value _ _ ih =>
      intro post h hplan _
      have hwithin := within_displayed (orderly.basic h) hplan.1 fun _ _ _ htext => htext
      exact ih h hwithin (guarded_evaluates.displayed (Set.mem_univ value))

/-- A program that is run on a machine that is `Orderly` does not end with an `Absurd` fault. -/
theorem not_absurd_of_run (h : orderly.holds machine) {program : Node} {fault : Fault}
    (hrun : run program machine = .error fault last) : ¬ fault.Absurd := by
  have heval : ∃ middle, eval program machine = .error fault middle := by
    unfold run at hrun
    split at hrun
    · cases hrun
    · rename_i found middle heval
      cases hrun
      exact ⟨middle, heval⟩
  obtain ⟨middle, heval⟩ := heval
  have hplan := Invariant.within_program h program
  obtain ⟨β, piece, there, hleads, hraises⟩ := (h.1.ends_eval program).raised heval
  have hguarded := guarded_of_leads hleads h hplan (guarded_evaluates.ofNode program grounded_univ)
  have hthere := (Invariant.within_of_leads hleads h hplan).1
  exact hthere.2.not_absurd hguarded hraises

end Machine

/-- An `Expectation` that is not `Assured` is worded otherwise than those that are. -/
theorem Expectation.text_of_not_assured {expected : Expectation} (h : ¬ expected.Assured) :
    expected.text ≠ "a receiver that can hold methods" ∧ expected.text ≠ "an object with instance variables"
      ∧ expected.text ≠ "an object" ∧ ∀ name, expected.text ≠ "`" ++ name ++ "` to name a class" := by
  have hhead : ∀ name : String, ("`" ++ name ++ "` to name a class").toList.head? = some '`' := by
    intro name
    simp
  have hlast : ∀ name : String, ("`" ++ name ++ "` to name a class").toList.getLast? = some 's' := by
    intro name
    have hend : "` to name a class".toList.getLast? = some 's' := by decide
    rw [String.toList_append, List.getLast?_append, hend]
    rfl
  cases expected with
  | anObject | methodHolder | ivarHolder | classNamed => exact absurd trivial h
  | aClass | string | integer | array | instantiable =>
      refine ⟨by decide, by decide, by decide, fun name heq => ?_⟩
      have hfirst := hhead name
      rw [← heq] at hfirst
      exact absurd hfirst (by decide)
  | stringAnswer =>
      refine ⟨by decide, by decide, by decide, fun name heq => ?_⟩
      have hend := hlast name
      rw [← heq] at hend
      exact absurd hend (by decide)

namespace Machine

/-- **Faults that programs cannot bring about.** A program that is run after others on a new machine `Meets` only
    machines that are `Orderly`: no self is `nil`, and constants are classes. So none ends with the fault that a
    receiver that can hold methods, an object, one with instance variables, or a class under some name was expected. -/
theorem programs_never_raise_absurd_faults {settings : Settings} {output : Output} {machine : Machine}
    (h : (boot settings output).RunsTo machine) (program : Node) :
    (∀ met, (ofNode program).Meets machine met → met.Orderly) ∧
    ∀ expected found last, run program machine = .error (.wrongKind expected found) last →
      expected.text ≠ "a receiver that can hold methods" ∧
      expected.text ≠ "an object with instance variables" ∧
      expected.text ≠ "an object" ∧
      ∀ name, expected.text ≠ "`" ++ name ++ "` to name a class" := by
  have hmachine : orderly.holds machine := Invariant.holds_of_runsTo h (orderly_boot settings output)
  refine ⟨?_, ?_⟩
  · intro met hmeets
    exact (Invariant.holds_of_meets hmeets hmachine (Invariant.within_program hmachine program)).2
  · intro expected found last hrun
    exact Expectation.text_of_not_assured (not_absurd_of_run hmachine hrun)

/-- A new machine after a program that sends a message to `nil` in the body of a class. -/
def messageToNil : Machine :=
  (run (.classDef none "A" none (.send (some (.localRead "x")) "to_s" []))).after (boot {} (.kept ""))

theorem programs_never_raise_absurd_faults_sum :
    ((boot {} (.kept "")).RunsTo messageToNil ∧ messageToNil.classes.size = 6)
    ∧ messageToNil.Orderly
    ∧ ∃ last, run (.send (some (.integerLit 1)) "+" [.stringLit "a"]) messageToNil
        = .error (.wrongKind .integer "an instance of String") last
      ∧ ∀ name, Expectation.integer.text ≠ "`" ++ name ++ "` to name a class" := by
  have hruns : (boot {} (.kept "")).RunsTo messageToNil := RunsTo.refl.run _
  have hsum : ∃ last, run (.send (some (.integerLit 1)) "+" [.stringLit "a"]) messageToNil
      = .error (.wrongKind .integer "an instance of String") last := ⟨_, rfl⟩
  obtain ⟨hmet, hfault⟩ :=
    programs_never_raise_absurd_faults hruns (.send (some (.integerLit 1)) "+" [.stringLit "a"])
  obtain ⟨last, hrun⟩ := hsum
  exact ⟨⟨hruns, by decide⟩, hmet _ (meets_self _ _), last, hrun, (hfault _ _ last hrun).2.2.2⟩

end Machine

end ObjectTalk

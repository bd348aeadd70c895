import ObjectTalk.Proofs.Termination
import ObjectTalk.Proofs.Watching
/-!
# `Proofs.Sequencing` — a sequence is its statements, run one after another

A run leaves the stack as deep as it was, so that the statements of a sequence are evaluated with the same room
whether they are run in one program or each for itself. A fault stops a sequence where it stops the programs, and
is recorded at the same point. So `Machine.run_sequence` is an equation between outcomes, up to the one trace of
the sequence itself.

To get rid of that trace, runs are compared on machines whose journals may differ (`Run.SameEffect`): as no run looks
at the journal, every run has the same effect as itself, and the laws of sequences follow from those of binding.
-/

namespace ObjectTalk

namespace Outcome

variable {α : Type}

/-- The `Outcome`, with the fault recorded if there is one. -/
def reported : Outcome α → Outcome α
  | .ok result machine => .ok result machine
  | .error fault machine => .error fault (machine.log (.aborted fault))

end Outcome

namespace Run

variable {α : Type} {work : Run α} {machine : Machine}

/-- Work that gives a result ends with the machine `after` it. -/
theorem eq_ok_after {result : α} (h : Outcome.result (work machine) = .ok result) :
    work machine = .ok result (work.after machine) := by
  rw [after]
  cases hwork : work machine with
  | ok found last =>
      rw [hwork] at h
      cases h
      rfl
  | error fault last =>
      rw [hwork] at h
      cases h

theorem eq_error_after {fault : Fault} (h : Outcome.result (work machine) = .error fault) :
    work machine = .error fault (work.after machine) := by
  rw [after]
  cases hwork : work machine with
  | ok found last =>
      rw [hwork] at h
      cases h
  | error found last =>
      rw [hwork] at h
      cases h
      rfl

end Run

namespace Machine

/-- Run programs, one after another, until one fails. Gives the value of the last program, `nil` if there is none. -/
def runAll (programs : List Node) : Run Value :=
  programs.foldlM (fun _ program => run program) .nil

/-- The `Machine` without its journal. -/
def unrecorded (machine : Machine) : Machine := { machine with journal := #[] }

/-- The machine after `traceNode` has recorded a node of the given kind, if it traces. -/
def traced (kind : String) (machine : Machine) : Machine :=
  if machine.settings.trace then machine.log (.evaluating kind machine.stack.depth) else machine

theorem unrecorded_traced (kind : String) (machine : Machine) :
    (machine.traced kind).unrecorded = machine.unrecorded := by
  unfold traced
  split <;> rfl

theorem run_eq_reported (program : Node) (machine : Machine) :
    run program machine = Outcome.reported (eval program machine) := by
  unfold run
  cases eval program machine <;> rfl

/-! ## Statements -/

/-- **`evalStatements` evaluates each statement as if it were run for itself.** By induction on the statements; the
    room is the same for all of them. -/
theorem reported_evalStatements (last : Value) (statements : List Node) (machine : Machine) :
    Outcome.reported (evalStatements (callWithin machine.room) last statements machine)
      = statements.foldlM (fun _ program => run program) last machine := by
  induction statements generalizing last machine with
  | nil =>
      rw [evalStatements]
      rfl
  | cons statement statements ih =>
      have heval : evalWith (callWithin machine.room) statement machine = eval statement machine := rfl
      have hcontinues := continues_eval statement machine
      rw [Run.after] at hcontinues
      rw [evalStatements, List.foldlM_cons, Run.bind_apply, Run.bind_apply, heval, run_eq_reported]
      cases hstatement : eval statement machine with
      | ok value middle =>
          rw [hstatement] at hcontinues
          have hroom : machine.room = middle.room := hcontinues.room_eq.symm
          simp only [Outcome.reported, hroom]
          exact ih value middle
      | error fault last => rfl

theorem traceNode_apply (node : Node) (machine : Machine) :
    traceNode node machine = .ok () (machine.traced node.kind) :=
  Change.run_trace node.kind machine

/-- **A sequence does what `runAll` does with its statements**, after it has been recorded. -/
theorem run_sequence (programs : List Node) (machine : Machine) :
    run (.sequence programs) machine = runAll programs (machine.traced "sequence") := by
  have hroom : machine.room = (machine.traced "sequence").room := by
    unfold traced
    split <;> rfl
  have hkind : (Node.sequence programs).kind = "sequence" := rfl
  rw [run_eq_reported, eval, evalWith, Run.bind_apply, traceNode_apply, hkind]
  simp only
  rw [hroom, reported_evalStatements]
  rfl

theorem runAll_append (front back : List Node) :
    runAll (front ++ back)
      = runAll front >>= fun value => back.foldlM (fun _ program => run program) value := by
  simp [runAll]

/-- The value before counts only if there is no program in `runAll` to give another one. -/
theorem foldlM_run_of_ne_nil {programs : List Node} (h : programs ≠ []) (value : Value) :
    programs.foldlM (fun _ program => run program) value = runAll programs := by
  cases programs with
  | nil => exact absurd rfl h
  | cons program programs => simp [runAll]

/-- After a program that fails `runAll` runs no other. -/
theorem runAll_append_of_error {front : List Node} {machine last : Machine} {fault : Fault}
    (h : runAll front machine = .error fault last) (back : List Node) :
    runAll (front ++ back) machine = .error fault last := by
  rw [runAll_append, Run.bind_apply, h]

end Machine

/-! ## Runs on machines with other journals -/

/-- On machines that are the same when `unrecorded`, both runs end with the same result or fault, and with machines
    that are the same when `unrecorded`. -/
def Run.SameEffect {α : Type} (work work' : Run α) : Prop :=
  ∀ {machine machine' : Machine}, machine.unrecorded = machine'.unrecorded →
    Outcome.through Machine.unrecorded (work machine) = Outcome.through Machine.unrecorded (work' machine')

namespace Run

variable {α β : Type}

theorem sameEffect_bind {first first' : Run α} {next next' : α → Run β} (hfirst : Run.SameEffect first first')
    (hnext : ∀ result, Run.SameEffect (next result) (next' result)) :
    Run.SameEffect (first >>= next) (first' >>= next') := by
  intro machine machine' hsame
  have hmiddle := hfirst hsame
  rw [bind_apply, bind_apply]
  generalize first machine = outcome, first' machine' = outcome' at hmiddle
  cases outcome with
  | ok result middle =>
      cases outcome' with
      | ok result' middle' =>
          simp only [Outcome.through, EStateM.Result.ok.injEq] at hmiddle
          obtain ⟨rfl, hmiddle⟩ := hmiddle
          exact hnext result hmiddle
      | error fault' last' => simp [Outcome.through] at hmiddle
  | error fault last =>
      cases outcome' with
      | ok result' middle' => simp [Outcome.through] at hmiddle
      | error fault' last' =>
          simp only [Outcome.through, EStateM.Result.error.injEq] at hmiddle ⊢
          exact hmiddle

end Run

namespace Watch

/-- A `Watch` that sees all that there is, and remembers something else from before. -/
def remembering (past : Array Event) : Watch := ⟨.kept "", true, past⟩

theorem view_remembering (past : Array Event) (machine : Machine) :
    (remembering past).view machine = { machine with journal := past ++ machine.journal } := by
  have houtput : (Output.kept "").onto machine.output = machine.output := by
    cases machine.output with
    | kept text => simp [Output.onto, Output.write]
    | dropped => rfl
  simp [view, houtput, events, remembering]

end Watch

namespace Machine

/-- A program does the same on the machine `unrecorded`: whatever has been recorded before. -/
theorem through_unrecorded_run (program : Node) (machine : Machine) :
    Outcome.through unrecorded (run program machine)
      = Outcome.through unrecorded (run program machine.unrecorded) := by
  have hview : (Watch.remembering machine.journal).view machine.unrecorded = machine := by
    rw [Watch.view_remembering]
    simp [unrecorded]
  have hseen := seen_run (Watch.remembering machine.journal) program machine.unrecorded
  rw [hview] at hseen
  have hforget : ∀ other : Machine,
      ((Watch.remembering machine.journal).view other).unrecorded = other.unrecorded := by
    intro other
    rw [Watch.view_remembering]
    rfl
  rw [hseen]
  cases run program machine.unrecorded <;> simp [Outcome.through, hforget]

theorem sameEffect_run (program : Node) : Run.SameEffect (run program) (run program) := by
  intro machine machine' hsame
  rw [through_unrecorded_run, hsame, ← through_unrecorded_run]

theorem sameEffect_foldlM (programs : List Node) (value : Value) :
    Run.SameEffect (programs.foldlM (fun _ program => run program) value)
      (programs.foldlM (fun _ program => run program) value) := by
  induction programs generalizing value with
  | nil =>
      intro machine machine' hsame
      exact congrArg (EStateM.Result.ok value) hsame
  | cons program programs ih =>
      rw [List.foldlM_cons]
      exact Run.sameEffect_bind (sameEffect_run program) ih

/-- **A sequence has the `SameEffect` as its statements, run one after another.** -/
theorem sameEffect_sequence (programs : List Node) :
    Run.SameEffect (run (.sequence programs)) (runAll programs) := by
  intro machine machine' hsame
  rw [run_sequence]
  refine sameEffect_foldlM programs .nil ?_
  rw [unrecorded_traced, hsame]

theorem runAll_pair (first second : Node) :
    runAll [first, second] = run first >>= fun _ => run second := by
  simp [runAll]

/-- **Running a sequence is running its programs one after another** up to the first that fails, by `runAll`: they
    end alike when `unrecorded`, and entirely alike if the machine does not trace. So statements that are added to a
    sequence that fails change nothing, and a sequence may be split in two, the second part not being empty. -/
theorem sequence_runs_programs_in_turn (machine : Machine) (programs : List Node) :
    Outcome.through unrecorded (run (.sequence programs) machine)
      = Outcome.through unrecorded (runAll programs machine) ∧
    (machine.settings.trace = false → run (.sequence programs) machine = runAll programs machine) ∧
    (∀ fault last, run (.sequence programs) machine = .error fault last →
      ∀ later, run (.sequence (programs ++ later)) machine = .error fault last) ∧
    (∀ others, others ≠ [] →
      Outcome.through unrecorded (run (.sequence (programs ++ others)) machine)
        = Outcome.through unrecorded (run (.sequence [.sequence programs, .sequence others]) machine)) := by
  refine ⟨sameEffect_sequence programs rfl, ?_, ?_, ?_⟩
  · intro htrace
    rw [run_sequence]
    simp [traced, htrace]
  · intro fault last herror later
    rw [run_sequence] at herror ⊢
    exact runAll_append_of_error herror later
  · intro others hothers
    have hsplit : runAll (programs ++ others) = runAll programs >>= fun _ => runAll others := by
      simp only [runAll_append, foldlM_run_of_ne_nil hothers]
    calc Outcome.through unrecorded (run (.sequence (programs ++ others)) machine)
        = Outcome.through unrecorded ((runAll programs >>= fun _ => runAll others) machine) := by
          rw [← hsplit]
          exact sameEffect_sequence (programs ++ others) rfl
      _ = Outcome.through unrecorded
            ((run (.sequence programs) >>= fun _ => run (.sequence others)) machine) := by
          refine (Run.sameEffect_bind (sameEffect_sequence programs) (fun _ => ?_) rfl).symm
          exact sameEffect_sequence others
      _ = Outcome.through unrecorded (run (.sequence [.sequence programs, .sequence others]) machine) := by
          rw [← runAll_pair]
          exact (sameEffect_sequence [.sequence programs, .sequence others] rfl).symm

/-- A line is written, and then a constant is missing. -/
def failingStatements : List Node :=
  [.send none "puts" [.stringLit "a"], .constRef none "Missing"]

theorem sequence_runs_programs_in_turn_failing :
    ((boot {} (.kept "")).settings.trace = false
      ∧ run (.sequence failingStatements) (boot {} (.kept "")) = runAll failingStatements (boot {} (.kept "")))
    ∧ (∃ last, run (.sequence failingStatements) (boot {} (.kept ""))
        = .error (.unboundConstant "Missing" "Object") last
      ∧ last.output = .kept "a\n"
      ∧ run (.sequence (failingStatements ++ [.send none "puts" [.stringLit "b"]])) (boot {} (.kept ""))
        = .error (.unboundConstant "Missing" "Object") last)
    ∧ [Node.send none "puts" []] ≠ []
    ∧ Outcome.through unrecorded
        (run (.sequence (failingStatements ++ [.send none "puts" []])) (boot {} (.kept "")))
      = Outcome.through unrecorded
          (run (.sequence [.sequence failingStatements, .sequence [.send none "puts" []]])
            (boot {} (.kept ""))) := by
  obtain ⟨_, huntraced, hfails, hsplit⟩ :=
    sequence_runs_programs_in_turn (boot {} (.kept "")) failingStatements
  have hnonempty : [Node.send none "puts" []] ≠ [] := List.cons_ne_nil _ _
  refine ⟨⟨rfl, huntraced rfl⟩, ⟨_, rfl, by decide +kernel, ?_⟩, hnonempty, hsplit _ hnonempty⟩
  exact hfails _ _ rfl _

end Machine

end ObjectTalk

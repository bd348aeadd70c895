import ObjectTalk.Proofs.Frames
/-!
# `Proofs.DepthLimit` — a higher limit only removes overflows

Evaluation looks at the limit of the stack only where a frame is put on it. So two machines that differ in
nothing but the limit do the same, step by step, until the one with the lower limit refuses a frame; from then
on it does nothing more, as no fault is ever caught (`Outcome.Lockstep`). What the other one goes on to do can
only add to the output (`Machine.Appends`).
-/

namespace ObjectTalk

open Plan
open Progress (Respects)

/-! ## Output only grows -/

namespace Output

/-- What is kept after `write` is what was kept before, followed by the text. -/
theorem text?_write (output : Output) (text : String) :
    (output.write text).text? = output.text?.map (· ++ text) := by
  cases output <;> rfl

/-- An output of which `text?` is known keeps that text. -/
theorem eq_kept_of_text? {output : Output} {text : String} (h : output.text? = some text) : output = .kept text := by
  cases output with
  | kept kept =>
      cases h
      rfl
  | dropped => cases h

end Output

/-- Some text has been added after the text that was kept, by `Output.text?`; where none was kept, none is. -/
def Machine.Appends (before after : Machine) : Prop :=
  ∃ text, after.output.text? = before.output.text?.map (· ++ text)

namespace Machine

/-- Where the output is the same, `Appends` holds with no text. -/
theorem Appends.of_eq {before after : Machine} (h : after.output = before.output) :
    before.Appends after := by
  refine ⟨"", ?_⟩
  rw [h]
  cases before.output.text? with
  | none => rfl
  | some kept => simp

/-- `Appends` holds over two stretches if it holds over each. -/
theorem Appends.trans {first second third : Machine} (h : first.Appends second)
    (h' : second.Appends third) : first.Appends third := by
  obtain ⟨text, htext⟩ := h
  obtain ⟨more, hmore⟩ := h'
  refine ⟨text ++ more, ?_⟩
  rw [hmore, htext]
  cases first.output.text? with
  | none => rfl
  | some kept => simp [String.append_assoc]

/-- Evaluation only ever `Appends` to the output. -/
theorem appends_progress : Progress Machine.Appends where
  refl _ := .of_eq rfl
  trans h h' := h.trans h'
  step hstep := by
    cases hstep with
    | write text => exact ⟨text, Output.text?_write _ text⟩
    | _ => exact .of_eq rfl
  frame h := h

/-- The machine with another `Settings.maxDepth`. -/
def withLimit (limit : Nat) (machine : Machine) : Machine :=
  { machine with settings := { machine.settings with maxDepth := limit } }

end Machine

/-! ## Two runs in step -/

namespace Outcome

variable {α β : Type}

/-- Whether the `Outcome` is the fault `Fault.tooDeep`: a frame was refused. -/
def overflows : Outcome α → Bool
  | .error (.tooDeep _ _) _ => true
  | _ => false

/-- The right outcome is the left one under the higher limit (`Machine.withLimit`), unless the left one `overflows`.
    Then the right one has at least the output of the left one. -/
inductive Lockstep (limit : Nat) : Outcome α → Outcome α → Prop where
  | same {outcome : Outcome α} (hlimit : outcome.machine.settings.maxDepth ≤ limit) :
      Lockstep limit outcome (outcome.through (Machine.withLimit limit))
  | overflow {left right : Outcome α} (hleft : left.overflows)
      (happends : left.machine.Appends right.machine) : Lockstep limit left right

theorem overflows_through {outcome : Outcome α} (h : outcome.overflows) (change : Machine → Machine) :
    (outcome.through change).overflows := by
  cases outcome with
  | ok result machine => exact h
  | error fault machine => cases fault <;> exact h

/-- `Lockstep` is kept by what is done at the end of a frame or a call, which has nothing to do with limits. -/
theorem Lockstep.through {limit : Nat} {left right : Outcome α} (h : Lockstep limit left right)
    {change : Machine → Machine}
    (hcomm : ∀ machine : Machine, change (machine.withLimit limit) = (change machine).withLimit limit)
    (hsettings : ∀ machine, (change machine).settings = machine.settings)
    (houtput : ∀ machine, (change machine).output = machine.output) :
    Lockstep limit (left.through change) (right.through change) := by
  cases h with
  | same hlimit =>
      have heq : (left.through (Machine.withLimit limit)).through change
          = (left.through change).through (Machine.withLimit limit) := by
        cases left <;> simp [Outcome.through, hcomm]
      rw [heq]
      refine .same ?_
      rw [machine_through, hsettings]
      exact hlimit
  | overflow hleft happends =>
      refine .overflow (overflows_through hleft change) ?_
      obtain ⟨text, htext⟩ := happends
      refine ⟨text, ?_⟩
      rw [machine_through, machine_through, houtput, houtput, htext]

end Outcome

/-- In machines that differ in the limit only, both runs go in `Outcome.Lockstep`, and the right one only adds to the
    output. -/
structure Run.Lockstep (limit : Nat) {α : Type} (left right : Run α) : Prop where
  outcome : ∀ machine : Machine, machine.settings.maxDepth ≤ limit →
    Outcome.Lockstep limit (left machine) (right (machine.withLimit limit))
  appends : Respects Machine.Appends right right

/-- `Run.Lockstep` is closed under `>>=`: after an overflow the left run does nothing more. -/
theorem Run.lockstep_bind {limit : Nat} {α β : Type} {left right : Run α} {next next' : α → Run β}
    (hfirst : Run.Lockstep limit left right)
    (hnext : ∀ result, Run.Lockstep limit (next result) (next' result)) :
    Run.Lockstep limit (left >>= next) (right >>= next') := by
  refine ⟨fun machine hlimit => ?_, ?_⟩
  · have hm := hfirst.outcome machine hlimit
    rw [Run.bind_apply, Run.bind_apply]
    generalize left machine = before, right (machine.withLimit limit) = after at hm
    cases hm with
    | same hlimit' =>
        cases before with
        | ok result middle => exact (hnext result).outcome middle hlimit'
        | error fault last => exact .same hlimit'
    | overflow hleft happends =>
        -- the left run has stopped; the right one may go on
        cases before with
        | ok result middle => exact absurd hleft Bool.false_ne_true
        | error fault last =>
            have hstopped : Outcome.overflows (.error fault last : Outcome β) := by
              cases fault <;> exact hleft
            cases after with
            | ok result middle => exact .overflow hstopped (happends.trans ((hnext result).appends middle))
            | error fault' last' => exact .overflow hstopped happends
  · exact Progress.respects_bind Machine.Appends.trans hfirst.appends fun result => (hnext result).appends

/-- Where the left run is `Run.overflow`, it is enough that the right one only adds to the output. -/
theorem Run.lockstep_overflow {limit : Nat} {α : Type} {right : Run α}
    (happends : Respects Machine.Appends right right) : Run.Lockstep limit Run.overflow right :=
  ⟨fun machine _ => .overflow rfl (happends (machine.withLimit limit)), happends⟩

theorem Run.lockstep_inCall {limit : Nat} {α : Type} {left right : Run α} (method : String)
    (h : Run.Lockstep limit left right) :
    Run.Lockstep limit (Run.inCall method left) (Run.inCall method right) := by
  refine ⟨fun machine hlimit => ?_, fun machine => ?_⟩
  · exact (h.outcome (machine.log (.entered method)) hlimit).through (fun _ => rfl) (fun _ => rfl)
      fun _ => rfl
  · rw [Run.after, Run.inCall_apply, Outcome.machine_through]
    exact h.appends (machine.log (.entered method))

/-! ## Questions and changes -/

/-- No `Query` is about the limit. -/
theorem Query.ask_withLimit {α : Type} (query : Query α) (limit : Nat) (machine : Machine) :
    query.ask (machine.withLimit limit) = query.ask machine := by
  cases query <;> rfl

theorem Query.run_withLimit {α : Type} (query : Query α) (limit : Nat) (machine : Machine) :
    query.run (machine.withLimit limit)
      = Outcome.through (Machine.withLimit limit) (query.run machine) := by
  rw [Query.run_eq_outcome, Query.run_eq_outcome, Query.ask_withLimit]
  cases query.ask machine <;> rfl

theorem Change.run_withLimit {α : Type} (change : Change α) (limit : Nat) (machine : Machine) :
    change.run (machine.withLimit limit)
      = Outcome.through (Machine.withLimit limit) (change.run machine) := by
  cases change with
  | alloc new => cases new <;> rfl
  | bindIvar target name value => cases target <;> rfl
  | bindLocal name value => rfl
  | write text => rfl
  | define id name method => rfl
  | declare scope name superclass =>
      show Run.declare scope name superclass (machine.withLimit limit)
        = Outcome.through _ (Run.declare scope name superclass machine)
      rw [Run.declare_apply, Run.declare_apply]
      have hsame : (machine.withLimit limit).classes = machine.classes := rfl
      rw [hsame]
      cases machine.classes.constant? scope name with
      | none => rfl
      | some value => cases value <;> rfl
  | trace kind =>
      show (if machine.settings.trace then _ else _ : Run Unit) (machine.withLimit limit)
        = Outcome.through _ ((if machine.settings.trace then _ else _ : Run Unit) machine)
      split <;> rfl

/-! ## Evaluation -/

variable {limit : Nat}

/-- Following a plan goes in `Run.Lockstep` if calls and texts do. -/
theorem Plan.lockstep_follow {left right : Services} (hs : left.Alike (Run.Lockstep limit) right)
    {α : Type} (plan : Plan α) : Run.Lockstep limit (plan.follow left) (plan.follow right) := by
  have hright : right.Alike (Respects Machine.Appends) right :=
    ⟨fun receiver name method args => (hs.call receiver name method args).appends,
      fun value => (hs.display value).appends⟩
  have happends : ∀ {α : Type} (plan : Plan α),
      Respects Machine.Appends (plan.follow right) (plan.follow right) :=
    fun plan => Machine.appends_progress.respects_follow plan hright
  induction plan with
  | done result => exact ⟨fun machine hlimit => .same hlimit, happends (.done result)⟩
  | stop fault => exact ⟨fun machine hlimit => .same hlimit, happends (.stop fault)⟩
  | query question =>
      refine ⟨fun machine hlimit => ?_, happends (.query question)⟩
      show Outcome.Lockstep limit (question.run machine) (question.run (machine.withLimit limit))
      rw [Query.run_withLimit]
      refine .same ?_
      have hafter := question.after_run machine
      rw [Run.after] at hafter
      rw [hafter]
      exact hlimit
  | change step =>
      refine ⟨fun machine hlimit => ?_, happends (.change step)⟩
      show Outcome.Lockstep limit (step.run machine) (step.run (machine.withLimit limit))
      rw [Change.run_withLimit]
      refine .same ?_
      have hafter := Machine.continues_progress.steps (step.steps_run step.takes_all machine)
      rw [Run.after] at hafter
      rw [hafter.settings]
      exact hlimit
  | andThen first next ihf ihn => exact Run.lockstep_bind ihf ihn
  | inFrame self body ih =>
      refine ⟨fun machine hlimit => ?_, happends (.inFrame self body)⟩
      show Outcome.Lockstep limit (Run.inFrame self (body.follow left) machine)
        (Run.inFrame self (body.follow right) (machine.withLimit limit))
      rw [Run.inFrame_apply]
      by_cases hroom : machine.stack.depth < machine.settings.maxDepth
      · have hroom' : (machine.withLimit limit).stack.depth
            < (machine.withLimit limit).settings.maxDepth := hroom.trans_le hlimit
        rw [Run.inFrame_apply, if_pos hroom, if_pos hroom']
        exact (ih.outcome (machine.pushed self) hlimit).through (fun _ => rfl) (fun _ => rfl) fun _ => rfl
      · rw [if_neg hroom]
        -- the left run ends here; the right one may or may not have room
        exact .overflow rfl (happends (.inFrame self body) (machine.withLimit limit))
  | inCall method body ih => exact Run.lockstep_inCall method ih
  | call receiver name method args => exact hs.call receiver name method args
  | display value => exact hs.display value
  | overflow => exact Run.lockstep_overflow (happends .overflow)

theorem Plan.respected_lockstep : Plan.Respected (Run.Lockstep limit) where
  done _ := ⟨fun _ hlimit => .same hlimit, fun _ => .of_eq rfl⟩
  flat hs _ := lockstep_follow hs _
  displayed hs _ := lockstep_follow hs _
  refused hs _ _ _ := lockstep_follow hs _
  called hs _ _ _ _ := lockstep_follow hs _

/-- **Evaluation with less room goes in `Run.Lockstep` with evaluation with more.** By induction on the smaller room:
    where there is none, the call overflows as soon as its arguments are counted. -/
theorem Services.within_lockstep {room more : Nat} (h : room ≤ more) :
    (Services.within room).Alike (Run.Lockstep limit) (.within more) := by
  induction room generalizing more with
  | zero =>
      refine ofCaller_alike respected_lockstep fun receiver name method args => ?_
      have hcheck : Run.Lockstep limit (Query.checkArity name method.arity args.length).run
          (Query.checkArity name method.arity args.length).run :=
        lockstep_follow (idle_alike respected_lockstep) (.query (.checkArity name method.arity args.length))
      have happends : ∀ {α : Type} (plan : Plan α) (room : Nat),
          Respects Machine.Appends (plan.follow (.within room)) (plan.follow (.within room)) :=
        fun plan room machine => Machine.appends_progress.follow_within plan room machine
      rw [callWithin_zero .idle]
      cases more with
      | zero =>
          exact Run.lockstep_inCall name
            (Run.lockstep_bind hcheck fun _ => Run.lockstep_overflow (happends .overflow 0))
      | succ more =>
          rw [callWithin_succ]
          exact Run.lockstep_inCall name
            (Run.lockstep_bind hcheck fun _ => Run.lockstep_overflow (happends (.inFrame receiver _) more))
  | succ room ih =>
      refine ofCaller_alike respected_lockstep fun receiver name method args => ?_
      cases more with
      | zero => exact absurd h (Nat.not_succ_le_zero room)
      | succ more =>
          rw [callWithin_succ, callWithin_succ]
          exact lockstep_follow (ih (Nat.le_of_succ_le_succ h)) (called receiver name method args)

namespace Machine

theorem lockstep_eval (node : Node) (machine : Machine) (hlimit : machine.settings.maxDepth ≤ limit) :
    Outcome.Lockstep limit (eval node machine) (eval node (machine.withLimit limit)) := by
  have hroom : machine.room ≤ (machine.withLimit limit).room := Nat.sub_le_sub_right hlimit _
  rw [eval_eq_follow, eval_eq_follow]
  exact (lockstep_follow (Services.within_lockstep hroom) (ofNode node)).outcome machine hlimit

/-- A run adds at most an event to `Machine.eval`, so it goes in step as well. -/
theorem lockstep_run (program : Node) (machine : Machine) (hlimit : machine.settings.maxDepth ≤ limit) :
    Outcome.Lockstep limit (run program machine) (run program (machine.withLimit limit)) := by
  have heval := lockstep_eval program machine hlimit
  rw [run, run]
  generalize eval program machine = left, eval program (machine.withLimit limit) = right at heval
  cases heval with
  | same hlimit' => cases left <;> exact .same hlimit'
  | overflow hleft happends =>
      cases left with
      | ok value last => exact absurd hleft Bool.false_ne_true
      | error fault last =>
          have hstopped : Outcome.overflows (.error fault (last.log (.aborted fault)) : Outcome Value) := by
            cases fault <;> exact hleft
          cases right <;> exact .overflow hstopped happends

/-- **A higher limit only removes overflows.** Let a program run on two new machines of which the second has a limit
    at least as high. If the first run does not overflow, the second is the same but for `withLimit`: result or
    fault, classes, objects, stack, output and journal. If it does, the second `Appends` to its output. -/
theorem higher_limit_only_removes_overflows {low high : Nat} (h : low ≤ high) (trace : Bool)
    (output : Output) (program : Node) :
    (¬ Outcome.overflows (run program (boot ⟨low, trace⟩ output)) →
      run program (boot ⟨high, trace⟩ output)
        = Outcome.through (withLimit high) (run program (boot ⟨low, trace⟩ output))) ∧
    (Outcome.overflows (run program (boot ⟨low, trace⟩ output)) →
      Appends ((run program).after (boot ⟨low, trace⟩ output))
        ((run program).after (boot ⟨high, trace⟩ output))) := by
  have hstep : Outcome.Lockstep high (run program (boot ⟨low, trace⟩ output))
      (run program (boot ⟨high, trace⟩ output)) := lockstep_run program (boot ⟨low, trace⟩ output) h
  rw [Run.after, Run.after]
  generalize run program (boot ⟨low, trace⟩ output) = left,
    run program (boot ⟨high, trace⟩ output) = right at hstep
  cases hstep with
  | same hlimit =>
      refine ⟨fun _ => rfl, fun _ => .of_eq ?_⟩
      rw [Outcome.machine_through]
      rfl
  | overflow hleft happends => exact ⟨fun hnot => absurd hleft hnot, fun _ => happends⟩

/-- A line is written by `puts`, and then another one three calls deep. -/
def linesAtDepths : Node :=
  .sequence [.methodDef "f" {} (.send none "g" []),
    .methodDef "g" {} (.send none "puts" [.stringLit "b"]),
    .send none "puts" [.stringLit "a"], .send none "f" []]

theorem higher_limit_only_removes_overflows_lines :
    (3 ≤ 4 ∧ Outcome.overflows (run linesAtDepths (boot ⟨3, false⟩ (.kept "")))
      ∧ ((run linesAtDepths).after (boot ⟨3, false⟩ (.kept ""))).output = .kept "a\n"
      ∧ Appends ((run linesAtDepths).after (boot ⟨3, false⟩ (.kept "")))
          ((run linesAtDepths).after (boot ⟨4, false⟩ (.kept "")))
      ∧ ((run linesAtDepths).after (boot ⟨4, false⟩ (.kept ""))).output = .kept "a\nb\n")
    ∧ 4 ≤ 5 ∧ ¬ Outcome.overflows (run linesAtDepths (boot ⟨4, false⟩ (.kept "")))
      ∧ run linesAtDepths (boot ⟨5, false⟩ (.kept ""))
        = Outcome.through (withLimit 5) (run linesAtDepths (boot ⟨4, false⟩ (.kept ""))) := by
  have hlow : Outcome.overflows (run linesAtDepths (boot ⟨3, false⟩ (.kept ""))) := by
    decide +kernel
  have hhigh : ¬ Outcome.overflows (run linesAtDepths (boot ⟨4, false⟩ (.kept ""))) := by
    decide +kernel
  refine ⟨⟨by decide, hlow, by decide +kernel, ?_, by decide +kernel⟩, by decide, hhigh, ?_⟩
  · exact (higher_limit_only_removes_overflows (by decide) false (.kept "") linesAtDepths).2 hlow
  · exact (higher_limit_only_removes_overflows (by decide) false (.kept "") linesAtDepths).1 hhigh

end Machine

end ObjectTalk

import ObjectTalk.Proofs.Plan.Course
import ObjectTalk.Proofs.Termination
/-!
# `Proofs.Occurrence` — machines between evaluations and during them

Programs that are run one after another, whether they succeed or fail, lead from one machine to the next
(`Machine.RunsTo`). A machine `Occurs` on that way if it is one of these, or is met while one of the programs is
evaluated. With a host, which may do more than run programs, a machine `Arises` if the host comes to it or if it
is met during something that the host has asked for (`Machine.Task`).

What each step respects holds between a machine and all that occurs after it (`Progress.reaches_of_occurs`), and
invariants hold of all that occurs (`Invariant.holds_of_occurs`) and of all that arises
(`Machine.Hosted.holds_of_arises`).
-/

namespace ObjectTalk

open Plan

namespace Machine

/-- Programs that are `run` one after another, and that may fail, lead from the machine to another one. -/
inductive RunsTo (machine : Machine) : Machine → Prop where
  | refl : RunsTo machine machine
  | run {middle : Machine} (hruns : RunsTo machine middle) (program : Node) :
      RunsTo machine ((run program).after middle)

/-- Programs are run one after another on the machine (`RunsTo`), and one of them `Meets` the other machine. -/
inductive Occurs (machine : Machine) : Machine → Prop where
  | during {later met : Machine} (hruns : machine.RunsTo later) (program : Node)
      (hmeets : (ofNode program).Meets later met) : Occurs machine met

/-- What a host may have evaluated, as a `Plan`, with values that the machine `Owns`. -/
inductive Task (machine : Machine) : {α : Type} → Plan α → Prop where
  | eval (node : Node) : Task machine (ofNode node)
  | send (receiver : Value) (name : String) (args : List Value) (hreceiver : machine.Owns receiver)
      (hargs : ∀ arg ∈ args, machine.Owns arg) : Task machine (Plan.send receiver name args)
  | call (receiver : Value) (name : String) (method : Method) (args : List Value)
      (hreceiver : machine.Owns receiver) (hargs : ∀ arg ∈ args, machine.Owns arg) :
      Task machine (Plan.call receiver name method args)
  | display (value : Value) (hvalue : machine.Owns value) : Task machine (Plan.display value)

/-- A host comes to a machine that is `Reachable`, and a `Task` that it has there `Meets` this one. -/
inductive Arises : Machine → Prop where
  | during {machine met : Machine} {α : Type} {plan : Plan α} (hreach : machine.Reachable)
      (htask : machine.Task plan) (hmeets : plan.Meets machine met) : Arises met

variable {machine later met : Machine}

theorem RunsTo.occurs (h : machine.RunsTo later) : machine.Occurs later :=
  .during h (.sequence []) (meets_self _ _)

theorem RunsTo.reachable (h : machine.RunsTo later) (hreach : machine.Reachable) : later.Reachable := by
  induction h with
  | refl => exact hreach
  | run _ program ih => exact .step ih (.run program)

theorem Occurs.arises (h : machine.Occurs met) (hreach : machine.Reachable) : met.Arises := by
  obtain ⟨hruns, program, hmeets⟩ := h
  exact .during (hruns.reachable hreach) (.eval program) hmeets

theorem WellFormed.ends_eval (h : machine.WellFormed) (node : Node) :
    (ofNode node).Ends machine (eval node machine) :=
  (ends_iff_eval h node _).mpr rfl

end Machine

/-! ## Programs -/

namespace Progress

variable {Reaches : Machine → Machine → Prop} {machine later met : Machine}

theorem reaches_of_runsTo (h : Progress Reaches) (hruns : machine.RunsTo later) : Reaches machine later := by
  induction hruns with
  | refl => exact h.refl machine
  | run _ program ih => exact h.trans ih (h.reaches_run program _)

/-- **What a `Progress` and each new frame respects holds between a machine and all that `Occurs` after it.** -/
theorem reaches_of_occurs (h : Progress Reaches)
    (hpush : ∀ (machine : Machine) (self : Value), Reaches machine (machine.pushed self))
    (hoccurs : machine.Occurs met) : Reaches machine met := by
  obtain ⟨hruns, program, hmeets⟩ := hoccurs
  exact h.trans (h.reaches_of_runsTo hruns) (h.reaches_of_meets hpush hmeets)

end Progress

namespace Invariant

variable {invariant : Invariant} {machine later met : Machine}

theorem holds_of_runsTo (hruns : machine.RunsTo later) (h : invariant.holds machine) :
    invariant.holds later := by
  induction hruns with
  | refl => exact h
  | run _ program ih => exact (kept_run program ih).after

/-- The plan of a program is `Within` what an `Invariant` knows. -/
theorem within_program (h : invariant.holds machine) (program : Node) :
    (ofNode program).Within invariant.selves (invariant.known machine) KnownValue :=
  within_ofNode program (invariant.basic h) fun _ _ _ hvalue => hvalue

/-- **An `Invariant` holds of all that `Occurs` when programs are run.** -/
theorem holds_of_occurs (hoccurs : machine.Occurs met) (h : invariant.holds machine) :
    invariant.holds met := by
  obtain ⟨hruns, program, hmeets⟩ := hoccurs
  have hlater := holds_of_runsTo hruns h
  exact holds_of_meets hmeets hlater (within_program hlater program)

end Invariant

/-! ## Hosts -/

namespace Machine

/-- A `Task` is `Within` what an `Invariant` that is `Hosted` knows. -/
theorem Hosted.within_task {invariant : Invariant} (hosted : Hosted invariant) {machine : Machine}
    (h : invariant.holds machine) {α : Type} {plan : Plan α} (htask : machine.Task plan) :
    ∃ post, plan.Within invariant.selves (invariant.known machine) post := by
  have hbasic := invariant.basic h
  have hargs : ∀ {args : List Value}, (∀ arg ∈ args, machine.Owns arg) →
      KnownValues (invariant.known machine) args := fun hargs arg harg => hosted.owns h (hargs arg harg)
  cases htask with
  | eval node => exact ⟨KnownValue, Invariant.within_program h node⟩
  | send receiver name args hreceiver howned =>
      have hknown := hosted.owns h hreceiver
      exact ⟨KnownValue, within_send hbasic name hknown (hargs howned) fun _ _ _ hvalue => hvalue⟩
  | call receiver name method args hreceiver howned =>
      have hknown := hosted.owns h hreceiver
      exact ⟨KnownValue, hknown, hosted.selves receiver, hargs howned, fun _ _ _ hvalue => hvalue⟩
  | display value hvalue => exact ⟨Plain, hosted.owns h hvalue, fun _ _ _ htext => htext⟩

/-- **An `Invariant` that is `Hosted` holds of all that `Arises`.** -/
theorem Hosted.holds_of_arises {invariant : Invariant} (hosted : Hosted invariant) {machine : Machine}
    (harises : machine.Arises) : invariant.holds machine := by
  obtain ⟨hreach, htask, hmeets⟩ := harises
  have h := hosted.holds_of_reachable hreach
  obtain ⟨post, hplan⟩ := hosted.within_task h htask
  exact Invariant.holds_of_meets hmeets h hplan

end Machine

end ObjectTalk

import Mathlib.Logic.Relation
import ObjectTalk.Proofs.Occurrence
import ObjectTalk.Proofs.Plan.Regular
/-!
# `Proofs.DepthBound` — how deep the stack gets, and what an overflow reports

The frame of the top level is always there, and a frame is put on the stack only while the stack is less deep than
the limit. So the depth is at most the limit, or one if the limit is zero (`Machine.Upright`). An evaluation that
stops because the stack is too deep was refused a frame, which happens only where the depth has come to that bound:
the report says what the bound is.
-/

namespace ObjectTalk

open Plan

/-! ## The frame of the top level -/

/-- `CallStack.bottom`, the frame of the top level, is still there, with the self and at least the local variables
    that it had. -/
structure CallStack.KeepsBottom (before after : CallStack) : Prop where
  self : after.bottom.self = before.bottom.self
  names : before.bottom.locals.names <+: after.bottom.locals.names

namespace CallStack

theorem KeepsBottom.refl (stack : CallStack) : stack.KeepsBottom stack := ⟨rfl, List.prefix_refl _⟩

theorem KeepsBottom.trans {first second third : CallStack} (h : first.KeepsBottom second)
    (h' : second.KeepsBottom third) : first.KeepsBottom third :=
  ⟨h'.self.trans h.self, h.names.trans h'.names⟩

/-- A stack that `Continues` keeps the frame of the top level: it is the current one, or one of those that stay as
    they are. -/
theorem Continues.keepsBottom {before after : CallStack} (h : before.Continues after) :
    before.KeepsBottom after := by
  obtain ⟨bottom, above, depth, rfl⟩ := before
  obtain ⟨bottom', above', depth', rfl⟩ := after
  have hlength : above'.length = above.length := Nat.succ.inj h.depth
  cases above with
  | nil =>
      obtain rfl := List.length_eq_zero_iff.mp hlength
      exact ⟨h.self, h.names⟩
  | cons frame rest =>
      obtain ⟨frame', rest', rfl⟩ := List.exists_cons_of_length_eq_add_one hlength
      have hbelow : rest' ++ [bottom'] = rest ++ [bottom] := h.below
      obtain ⟨_, hbottom⟩ := List.append_inj' hbelow rfl
      obtain rfl := List.singleton_inj.mp hbottom
      exact ⟨rfl, List.prefix_refl _⟩

theorem keepsBottom_push (stack : CallStack) (self : Value) : stack.KeepsBottom (stack.push self) :=
  ⟨rfl, List.prefix_refl _⟩

theorem one_le_depth (stack : CallStack) : 1 ≤ stack.depth := by
  rw [stack.depth_eq]
  exact Nat.le_add_left 1 _

theorem depth_pop_le (stack : CallStack) : stack.pop.depth ≤ stack.depth := by
  rw [stack.depth_eq, stack.pop.depth_eq, above_pop, List.length_tail]
  omega

end CallStack

namespace Machine

/-- Evaluation `KeepsBottom`. -/
theorem keepsBottom_progress : Progress fun before after => before.stack.KeepsBottom after.stack where
  refl machine := .refl machine.stack
  trans := CallStack.KeepsBottom.trans
  step hstep := (continues_progress.step hstep).stack.keepsBottom
  frame {machine self last} h := by
    show CallStack.KeepsBottom _ last.stack.pop
    exact ⟨last.stack.bottom_pop ▸ h.self, last.stack.bottom_pop ▸ h.names⟩

/-! ## The bound -/

/-- The machine has the settings, it stands on the frame of the top level, and its stack is no deeper than
    `Settings.maxDepth` allows: the frame of the top level needs no permission. -/
structure Upright (settings : Settings) (machine : Machine) : Prop where
  settings_eq : machine.settings = settings
  one_le_depth : 1 ≤ machine.stack.depth
  depth_le : machine.stack.depth ≤ max 1 settings.maxDepth
  self : machine.stack.bottom.self = main

variable {settings : Settings} {machine last : Machine}

/-- A new machine is `Upright`. -/
theorem upright_boot (settings : Settings) (output : Output) : (boot settings output).Upright settings :=
  ⟨rfl, Nat.le_refl 1, Nat.le_max_left 1 _, rfl⟩

theorem Upright.continues (h : machine.Upright settings) (hlast : machine.Continues last) :
    last.Upright settings :=
  ⟨hlast.settings.trans h.settings_eq, last.stack.one_le_depth, hlast.stack.depth ▸ h.depth_le,
    hlast.stack.keepsBottom.self.trans h.self⟩

theorem Upright.pushed (h : machine.Upright settings)
    (hroom : machine.stack.depth < machine.settings.maxDepth) (self : Value) :
    (machine.pushed self).Upright settings := by
  have hdepth : machine.stack.depth + 1 ≤ max 1 settings.maxDepth := by
    rw [← h.settings_eq]
    exact Nat.le_trans hroom (Nat.le_max_right 1 _)
  exact ⟨h.settings_eq, CallStack.one_le_depth _, hdepth, h.self⟩

theorem Upright.popped (h : machine.Upright settings) : machine.popped.Upright settings :=
  ⟨h.settings_eq, CallStack.one_le_depth _, Nat.le_trans machine.stack.depth_pop_le h.depth_le,
    (congrArg Frame.self machine.stack.bottom_pop).trans h.self⟩

/-- Where an `Upright` machine can take no frame, its stack is as deep as it ever gets. -/
theorem Upright.depth_eq (h : machine.Upright settings)
    (hfull : ¬ machine.stack.depth < machine.settings.maxDepth) :
    machine.stack.depth = max 1 settings.maxDepth := by
  have hpos := h.one_le_depth
  have hle := h.depth_le
  rw [h.settings_eq] at hfull
  omega

end Machine

/-! ## During an evaluation -/

namespace Plan

variable {α : Type} {plan : Plan α} {settings : Settings} {machine : Machine}

theorem Ends.upright {outcome : Outcome α} (h : plan.Ends machine outcome) (hupright : machine.Upright settings) :
    outcome.machine.Upright settings :=
  hupright.continues (Machine.continues_progress.reaches_of_ends h)

theorem Leads.upright {β : Type} {piece : Plan β} {there : Machine} (h : plan.Leads machine piece there)
    (hupright : machine.Upright settings) : there.Upright settings := by
  induction h with
  | here => exact hupright
  | first _ ih => exact ih hupright
  | next hfirst _ ih => exact ih (hfirst.upright hupright)
  | inFrame hroom _ ih => exact ih (hupright.pushed hroom _)
  | inCall _ ih => exact ih (hupright.continues (Machine.continues_progress.step (.log _)))
  | call _ ih => exact ih hupright
  | display _ ih => exact ih hupright

/-- **No evaluation ever goes beyond the bound**: all that a plan `Meets` is `Upright`. -/
theorem Meets.upright {met : Machine} (h : plan.Meets machine met) (hupright : machine.Upright settings) :
    met.Upright settings := by
  cases h with
  | atStart hleads => exact hleads.upright hupright
  | atEnd hleads hends => exact hends.upright (hleads.upright hupright)

/-! ## What an overflow reports -/

/-- The plan does not raise `Fault.tooDeep` by itself: it leaves that to the frames that are refused. -/
def Candid : {α : Type} → Plan α → Prop
  | _, .stop fault => fault.isOverflow = false
  | _, .andThen first next => first.Candid ∧ ∀ result, (next result).Candid
  | _, .inFrame _ body => body.Candid
  | _, .inCall _ body => body.Candid
  | _, .overflow => False
  | _, _ => True

/-- A plan that is `Regular` is `Candid`. -/
theorem Regular.candid {inside : Bool} (h : plan.Regular inside) : plan.Candid := by
  induction h with
  | stop hfault => exact hfault
  | andThen _ _ ihf ihn => exact ⟨ihf, ihn⟩
  | classDef _ ih => exact ⟨trivial, fun _ => ih⟩
  | classBody _ ih => exact ih
  | _ => trivial

theorem candid_called (receiver : Value) (name : String) (method : Method) (args : List Value) :
    (called receiver name method args).Candid :=
  ⟨trivial, fun _ => (regular_invoke receiver name args method).candid⟩

/-- That to which a `Candid` plan `Leads` is candid. -/
theorem Leads.candid {β : Type} {piece : Plan β} {there : Machine} (h : plan.Leads machine piece there)
    (hcandid : plan.Candid) : piece.Candid := by
  induction h with
  | here => exact hcandid
  | first _ ih => exact ih hcandid.1
  | next _ _ ih => exact ih (hcandid.2 _)
  | inFrame _ _ ih => exact ih hcandid
  | inCall _ ih => exact ih hcandid
  | call _ ih => exact ih (candid_called _ _ _ _)
  | display _ ih => exact ih (regular_evaluates.displayed (Set.mem_univ _)).candid

theorem isOverflow_of_ask {question : Query α} {fault : Fault} (h : question.ask machine = .error fault) :
    fault.isOverflow = false := by
  cases question with
  | asClass | textOf | numberOf | itemsOf | answerText | classOfReceiver | methodTarget =>
      obtain ⟨_, rfl⟩ := Query.eq_none_of_orMismatch h
      rfl
  | methodFor | constant | checkArity | onlyArg | fitInteger =>
      simp only [Query.ask, Machine.methodFor] at h
      split at h
      · cases h
      · cases h
        rfl
  | payload | self | readLocal | readIvar | className | superclass => cases h

theorem isOverflow_of_change {step : Change α} {fault : Fault} {last : Machine}
    (h : step.run machine = .error fault last) : fault.isOverflow = false := by
  cases step with
  | alloc new =>
      rw [Change.run_alloc] at h
      cases h
  | bindIvar target name value =>
      cases target with
      | nil =>
          cases h
          rfl
      | object id => cases h
      | classRef id => cases h
  | declare scope name superclass =>
      have hdeclare : Run.declare scope name superclass machine = .error fault last := h
      rw [Run.declare_apply] at hdeclare
      split at hdeclare
      · cases hdeclare
      · cases hdeclare
        rfl
      · cases hdeclare
  | trace kind =>
      rw [Change.run_trace] at h
      cases h
  | _ => cases h

/-- Only a frame that is refused makes a `Candid` plan report an overflow, and it reports what it finds. -/
theorem Raises.of_isOverflow {fault : Fault} (h : plan.Raises machine fault) (hcandid : plan.Candid)
    (hfault : fault.isOverflow = true) :
    fault = .tooDeep machine.stack.depth machine.settings.maxDepth
      ∧ ¬ machine.stack.depth < machine.settings.maxDepth := by
  cases h with
  | stop fault => exact absurd (hfault.symm.trans hcandid) (by decide)
  | query hask => exact absurd (hfault.symm.trans (isOverflow_of_ask hask)) (by decide)
  | change hrun => exact absurd (hfault.symm.trans (isOverflow_of_change hrun)) (by decide)
  | refused hfull => exact ⟨rfl, hfull⟩
  | overflow => exact absurd hcandid id

/-- **A `Fault.tooDeep` reports the limit and the greatest depth that it allows.** -/
theorem Ends.report {depth limit : Nat} {last : Machine} (h : plan.Ends machine (.error (.tooDeep depth limit) last))
    (hcandid : plan.Candid) (hupright : machine.Upright settings) :
    limit = settings.maxDepth ∧ depth = max 1 settings.maxDepth := by
  obtain ⟨β, piece, there, hleads, hraises⟩ := h.raised rfl
  have hthere := hleads.upright hupright
  obtain ⟨hreport, hfull⟩ := hraises.of_isOverflow (hleads.candid hcandid) rfl
  rw [Fault.tooDeep.injEq, hthere.depth_eq hfull, hthere.settings_eq] at hreport
  exact ⟨hreport.2, hreport.1⟩

end Plan

/-! ## Hosts -/

namespace Machine

variable {settings : Settings} {machine middle last : Machine}

/-- What a host does, one `HostStep` after another. -/
abbrev HostSteps : Machine → Machine → Prop := Relation.ReflTransGen HostStep

theorem HostSteps.reachable (h : machine.HostSteps last) (hreach : machine.Reachable) : last.Reachable := by
  induction h with
  | refl => exact hreach
  | tail _ hstep ih => exact .step ih hstep

/-- **What a `HostStep` can do to the stack.** -/
theorem HostStep.stack_cases (h : machine.HostStep last) :
    machine.Continues last
      ∨ (∃ self, machine.stack.depth < machine.settings.maxDepth ∧ last = machine.pushed self)
      ∨ last = machine.popped := by
  have hchange : ∀ {α : Type} (step : Change α), machine.Continues (step.run.after machine) :=
    fun step => continues_progress.steps (step.steps_run step.takes_all machine)
  cases h with
  | run program => exact .inl (continues_run program machine)
  | eval node => exact .inl (continues_eval node machine)
  | send receiver name args _ _ => exact .inl (sameStack_send receiver name args machine).continues
  | call receiver name method args _ _ => exact .inl (sameStack_call receiver name method args machine).continues
  | display value _ => exact .inl (sameStack_display value machine).continues
  | declare scope name superclass _ _ => exact .inl (hchange (.declare scope name superclass))
  | bindConstant scope name value _ _ => exact .inl ⟨.refl _, rfl⟩
  | define id name method _ => exact .inl (hchange (.define id name method))
  | alloc new _ => exact .inl (hchange (.alloc new))
  | bindIvar target name value _ _ => exact .inl (hchange (.bindIvar target name value))
  | push self _ =>
      rw [Run.after, Run.push_apply]
      split
      · rename_i hroom
        exact .inr (.inl ⟨self, hroom, rfl⟩)
      · exact .inl (continues_progress.refl machine)
  | pop => exact .inr (.inr rfl)
  | bindLocal name value _ => exact .inl (hchange (.bindLocal name value))
  | write text => exact .inl (hchange (.write text))
  | drain => exact .inl ⟨.refl _, rfl⟩

theorem HostStep.upright (h : machine.HostStep last) (hupright : machine.Upright settings) :
    last.Upright settings := by
  obtain hcontinues | ⟨self, hroom, rfl⟩ | rfl := h.stack_cases
  · exact hupright.continues hcontinues
  · exact hupright.pushed hroom self
  · exact hupright.popped

theorem HostStep.keepsBottom (h : machine.HostStep last) : machine.stack.KeepsBottom last.stack := by
  obtain hcontinues | ⟨self, _, rfl⟩ | rfl := h.stack_cases
  · exact hcontinues.stack.keepsBottom
  · exact machine.stack.keepsBottom_push self
  · have hbottom : machine.popped.stack.bottom = machine.stack.bottom := machine.stack.bottom_pop
    exact ⟨congrArg Frame.self hbottom, by rw [hbottom]⟩

theorem HostSteps.upright (h : machine.HostSteps last) (hupright : machine.Upright settings) :
    last.Upright settings := by
  induction h with
  | refl => exact hupright
  | tail _ hstep ih => exact hstep.upright ih

theorem HostSteps.keepsBottom (h : machine.HostSteps last) : machine.stack.KeepsBottom last.stack := by
  induction h with
  | refl => exact .refl machine.stack
  | tail _ hstep ih => exact ih.trans hstep.keepsBottom

/-- A `Reachable` machine is `Upright` by its own settings. -/
theorem Reachable.upright (h : machine.Reachable) : machine.Upright machine.settings := by
  obtain ⟨settings, hupright⟩ : ∃ settings, machine.Upright settings := by
    induction h with
    | boot settings output => exact ⟨settings, upright_boot settings output⟩
    | step _ hstep ih =>
        obtain ⟨settings, hupright⟩ := ih
        exact ⟨settings, hstep.upright hupright⟩
  rw [hupright.settings_eq]
  exact hupright

/-- What a host may ask a machine to do, with values that the machine `Owns`. -/
inductive Operation (machine : Machine) : {α : Type} → Run α → Prop where
  | run (program : Node) : Operation machine (run program)
  | eval (node : Node) : Operation machine (eval node)
  | send (receiver : Value) (name : String) (args : List Value) (hreceiver : machine.Owns receiver)
      (hargs : ∀ arg ∈ args, machine.Owns arg) : Operation machine (send receiver name args)
  | call (receiver : Value) (name : String) (method : Method) (args : List Value)
      (hreceiver : machine.Owns receiver) (hargs : ∀ arg ∈ args, machine.Owns arg) :
      Operation machine (call receiver name method args)
  | display (value : Value) (hvalue : machine.Owns value) : Operation machine (display value)
  | push (self : Value) : Operation machine (Run.push self)
  | pop : Operation machine Run.pop
  | change {α : Type} (step : Change α) : Operation machine step.run
  | bindConstant (scope : ClassId) (name : String) (value : Value) :
      Operation machine (Run.bindConstant scope name value)
  | drain : Operation machine Run.drain

/-- Whatever `Operation` a host asks for, an overflow reports the limit and the greatest depth that it allows. -/
theorem Operation.report {α : Type} {work : Run α} (h : machine.Operation work) (hformed : machine.WellFormed)
    (hupright : machine.Upright settings) {depth limit : Nat}
    (hfault : work machine = .error (.tooDeep depth limit) last) :
    limit = settings.maxDepth ∧ depth = max 1 settings.maxDepth := by
  have heval : ∀ {node : Node} {last : Machine}, Machine.eval node machine = .error (.tooDeep depth limit) last →
      limit = settings.maxDepth ∧ depth = max 1 settings.maxDepth := by
    intro node last heq
    have hends := hformed.ends_eval node
    rw [heq] at hends
    exact hends.report (regular_ofNode node).candid hupright
  cases h with
  | run program =>
      rw [Machine.run] at hfault
      cases houtcome : Machine.eval program machine with
      | ok value middle =>
          rw [houtcome] at hfault
          cases hfault
      | error fault middle =>
          rw [houtcome] at hfault
          cases hfault
          exact heval houtcome
  | eval node => exact heval hfault
  | send receiver name args hreceiver hargs =>
      have hends := (ends_iff_send hformed name hreceiver hargs _).mpr hfault.symm
      exact hends.report (regular_send receiver name args).candid hupright
  | call receiver name method args hreceiver hargs =>
      have hends := (ends_iff_call hformed name method hreceiver hargs _).mpr hfault.symm
      exact hends.report trivial hupright
  | display value hvalue =>
      have hends := (ends_iff_display hformed hvalue _).mpr hfault.symm
      exact hends.report trivial hupright
  | push self =>
      rw [Run.push_apply] at hfault
      split at hfault
      · cases hfault
      · rename_i hfull
        cases hfault
        exact ⟨congrArg Settings.maxDepth hupright.settings_eq, hupright.depth_eq hfull⟩
  | pop => cases hfault
  | change step => cases isOverflow_of_change hfault
  | bindConstant scope name value => cases hfault
  | drain => cases hfault

/-- **The stack is never deeper than the limit allows, and an overflow reports exactly that depth.** A machine to
    which `HostSteps` lead from a new one is `Upright`, and so is all that an evaluation `Meets`; the frame of the
    top level stays. A `Fault.tooDeep` has the limit that was set and the greatest depth possible. -/
theorem depth_bounded_and_overflow_exact {output : Output} (h : (boot settings output).HostSteps machine) :
    machine.Upright settings ∧
    (∀ later, machine.HostSteps later → machine.stack.KeepsBottom later.stack) ∧
    (∀ {α : Type} (plan : Plan α) (met : Machine), plan.Meets machine met →
      met.Upright settings ∧ machine.stack.KeepsBottom met.stack) ∧
    (∀ {α : Type} (work : Run α) (depth limit : Nat) (last : Machine), machine.Operation work →
      work machine = .error (.tooDeep depth limit) last →
      limit = settings.maxDepth ∧ depth = max 1 settings.maxDepth) := by
  have hupright := h.upright (upright_boot settings output)
  have hformed := (h.reachable (.boot settings output)).wellFormed
  refine ⟨hupright, fun _ hlater => hlater.keepsBottom, ?_, ?_⟩
  · intro α plan met hmeets
    have hbottom := keepsBottom_progress.reaches_of_meets (fun machine => machine.stack.keepsBottom_push) hmeets
    exact ⟨hmeets.upright hupright, hbottom⟩
  · intro α work depth limit last hoperation hfault
    exact hoperation.report hformed hupright hfault

/-- A machine on which there is no room for a single frame, which its host has tried to put there by `Run.push`. -/
def cramped : Machine := (Run.push main).after (boot ⟨0, false⟩ (.kept ""))

theorem depth_bounded_and_overflow_exact_cramped :
    ((boot ⟨0, false⟩ (.kept "")).HostSteps cramped
      ∧ ∃ last, run (.send none "puts" []) cramped = .error (.tooDeep 1 0) last)
    ∧ cramped.Upright ⟨0, false⟩
    ∧ 0 = (Settings.mk 0 false).maxDepth ∧ 1 = max 1 (Settings.mk 0 false).maxDepth := by
  have hsteps : (boot ⟨0, false⟩ (.kept "")).HostSteps cramped :=
    .single (.push main Nat.zero_lt_one)
  have hfault : ∃ last, run (.send none "puts" []) cramped = .error (.tooDeep 1 0) last := ⟨_, rfl⟩
  obtain ⟨hupright, _, _, hreport⟩ := depth_bounded_and_overflow_exact hsteps
  exact ⟨⟨hsteps, hfault⟩, hupright, hfault.elim fun last => hreport _ 1 0 last (.run _)⟩

end Machine

end ObjectTalk

import ObjectTalk.Proofs.Plan.Ending
import ObjectTalk.Proofs.Plan.Invariant
/-!
# `Proofs.Plan.Course` — the machines that are met on the way

`Plan.Ends` relates the machine before a plan to its outcome; here is what lies in between. `Plan.Leads` gives
the pieces of a plan, those of the methods it calls included, each with the machine in which it comes up, and
`Plan.Meets` the machines with which such a piece begins or ends.

* What each step respects holds between the first machine and every machine that is met
  (`Progress.reaches_of_meets`), provided that putting a frame on the stack respects it as well.
* An invariant holds of every machine that is met (`Invariant.holds_of_meets`).
* A fault with which a plan ends was raised by one of the pieces (`Plan.Ends.raised`).
* A property that has nothing to do with frames is kept if the changes that come up keep it
  (`Plan.Meets.keeps`).
-/

namespace ObjectTalk

namespace Plan

/-- While the plan is carried out, begun in the machine, `piece` comes up when the machine is `there`. -/
inductive Leads : {α β : Type} → Plan α → Machine → Plan β → Machine → Prop where
  | here {α : Type} {plan : Plan α} {machine : Machine} : Leads plan machine plan machine
  | first {α β γ : Type} {machine there : Machine} {first : Plan α} {next : α → Plan β} {piece : Plan γ}
      (hfirst : Leads first machine piece there) : Leads (.andThen first next) machine piece there
  | next {α β γ : Type} {machine middle there : Machine} {first : Plan α} {next : α → Plan β}
      {piece : Plan γ} {result : α} (hfirst : first.Ends machine (.ok result middle))
      (hnext : Leads (next result) middle piece there) : Leads (.andThen first next) machine piece there
  | inFrame {α γ : Type} {machine there : Machine} {self : Value} {body : Plan α} {piece : Plan γ}
      (hroom : machine.stack.depth < machine.settings.maxDepth)
      (hbody : Leads body (machine.pushed self) piece there) :
      Leads (.inFrame self body) machine piece there
  | inCall {α γ : Type} {machine there : Machine} {method : String} {body : Plan α} {piece : Plan γ}
      (hbody : Leads body (machine.log (.entered method)) piece there) :
      Leads (.inCall method body) machine piece there
  | call {γ : Type} {machine there : Machine} {receiver : Value} {name : String} {method : Method}
      {args : List Value} {piece : Plan γ}
      (hcalled : Leads (called receiver name method args) machine piece there) :
      Leads (.call receiver name method args) machine piece there
  | display {γ : Type} {machine there : Machine} {value : Value} {piece : Plan γ}
      (hdisplayed : Leads (displayed value) machine piece there) :
      Leads (.display value) machine piece there

/-- While the plan is carried out, begun in the machine, a piece of it begins or ends with the machine `met`. -/
inductive Meets {α : Type} (plan : Plan α) (machine : Machine) : Machine → Prop where
  | atStart {β : Type} {piece : Plan β} {there : Machine} (hleads : plan.Leads machine piece there) :
      Meets plan machine there
  | atEnd {β : Type} {piece : Plan β} {there : Machine} {outcome : Outcome β}
      (hleads : plan.Leads machine piece there) (hends : piece.Ends there outcome) :
      Meets plan machine outcome.machine

/-- The `Plan` stops with the fault by itself, and not because a piece of it does. -/
inductive Raises : {α : Type} → Plan α → Machine → Fault → Prop where
  | stop {α : Type} {machine : Machine} (fault : Fault) : Raises (.stop fault : Plan α) machine fault
  | query {α : Type} {machine : Machine} {question : Query α} {fault : Fault}
      (hask : question.ask machine = .error fault) : Raises (.query question) machine fault
  | change {α : Type} {machine last : Machine} {step : Change α} {fault : Fault}
      (hrun : step.run machine = .error fault last) : Raises (.change step) machine fault
  | refused {α : Type} {machine : Machine} {self : Value} {body : Plan α}
      (hfull : ¬ machine.stack.depth < machine.settings.maxDepth) :
      Raises (.inFrame self body) machine (.tooDeep machine.stack.depth machine.settings.maxDepth)
  | overflow {α : Type} {machine : Machine} :
      Raises (.overflow : Plan α) machine (.tooDeep machine.stack.depth machine.settings.maxDepth)

variable {α : Type} {plan : Plan α} {machine : Machine}

/-- A plan `Meets` the machine in which it is begun. -/
theorem meets_self (plan : Plan α) (machine : Machine) : plan.Meets machine machine :=
  .atStart .here

/-- **A fault has a piece that `Raises` it.** By induction on how the plan `Ends`: what is done at the end of a frame
    or a call raises nothing. -/
theorem Ends.raised {outcome : Outcome α} (h : plan.Ends machine outcome) :
    ∀ {fault : Fault} {last : Machine}, outcome = .error fault last →
      ∃ (β : Type) (piece : Plan β) (there : Machine), plan.Leads machine piece there
        ∧ piece.Raises there fault := by
  induction h with
  | done result =>
      intro fault last heq
      cases heq
  | stop fault =>
      intro _ _ heq
      cases heq
      exact ⟨_, _, _, .here, .stop fault⟩
  | @query _ machine question _ =>
      intro fault last heq
      rw [Query.run_eq_outcome] at heq
      cases hask : question.ask machine with
      | ok answer =>
          rw [hask] at heq
          cases heq
      | error found =>
          rw [hask] at heq
          cases heq
          exact ⟨_, _, _, .here, .query hask⟩
  | change _ =>
      intro fault last heq
      exact ⟨_, _, _, .here, .change heq⟩
  | andThen hfirst _ _ ihn =>
      intro fault last heq
      obtain ⟨β, piece, there, hleads, hraises⟩ := ihn heq
      exact ⟨β, piece, there, .next hfirst hleads, hraises⟩
  | failed _ ihf =>
      intro fault last heq
      cases heq
      obtain ⟨β, piece, there, hleads, hraises⟩ := ihf rfl
      exact ⟨β, piece, there, .first hleads, hraises⟩
  | @inFrame _ _ _ _ outcome hroom _ ih =>
      intro fault last heq
      cases outcome with
      | ok result middle => cases heq
      | error found middle =>
          cases heq
          obtain ⟨β, piece, there, hleads, hraises⟩ := ih rfl
          exact ⟨β, piece, there, .inFrame hroom hleads, hraises⟩
  | refused hfull =>
      intro _ _ heq
      cases heq
      exact ⟨_, _, _, .here, .refused hfull⟩
  | @inCall _ _ _ _ outcome _ ih =>
      intro fault last heq
      cases outcome with
      | ok result middle => cases heq
      | error found middle =>
          cases heq
          obtain ⟨β, piece, there, hleads, hraises⟩ := ih rfl
          exact ⟨β, piece, there, .inCall hleads, hraises⟩
  | call _ ih =>
      intro fault last heq
      obtain ⟨β, piece, there, hleads, hraises⟩ := ih heq
      exact ⟨β, piece, there, .call hleads, hraises⟩
  | display _ ih =>
      intro fault last heq
      obtain ⟨β, piece, there, hleads, hraises⟩ := ih heq
      exact ⟨β, piece, there, .display hleads, hraises⟩
  | overflow =>
      intro _ _ heq
      cases heq
      exact ⟨_, _, _, .here, .overflow⟩

/-! ## What the changes on the way keep -/

/-- The property is kept by `Machine.pushed`, `Machine.popped` and `Machine.log`: it has nothing to do with frames
    and with the journal. -/
structure Frameless (holds : Machine → Prop) : Prop where
  log : ∀ {machine : Machine} (event : Event), holds machine → holds (machine.log event)
  pushed : ∀ {machine : Machine} (self : Value), holds machine → holds (machine.pushed self)
  popped : ∀ {machine : Machine}, holds machine → holds machine.popped

/-- The changes to which the plan `Leads` keep the property. -/
def Spares (holds : Machine → Prop) (plan : Plan α) (machine : Machine) : Prop :=
  ∀ {β : Type} {step : Change β} {there : Machine}, plan.Leads machine (.change step) there → holds there →
    holds (step.run.after there)

/-- What a plan `Spares` holds when it `Ends`. -/
theorem Ends.keeps {holds : Machine → Prop} (hframeless : Frameless holds) {outcome : Outcome α}
    (h : plan.Ends machine outcome) (hspares : plan.Spares holds machine) (hholds : holds machine) :
    holds outcome.machine := by
  induction h with
  | done result => exact hholds
  | stop fault => exact hholds
  | @query _ machine question _ =>
      have hafter := question.after_run machine
      rw [Run.after] at hafter
      rwa [hafter]
  | change _ => exact hspares .here hholds
  | andThen hfirst _ ihf ihn =>
      have hmiddle := ihf (fun hleads => hspares (.first hleads)) hholds
      exact ihn (fun hleads => hspares (.next hfirst hleads)) hmiddle
  | failed _ ihf => exact ihf (fun hleads => hspares (.first hleads)) hholds
  | inFrame hroom _ ih =>
      rw [Outcome.machine_through]
      have hbody := ih (fun hleads => hspares (.inFrame hroom hleads)) (hframeless.pushed _ hholds)
      exact hframeless.popped hbody
  | refused _ => exact hholds
  | inCall _ ih =>
      rw [Outcome.machine_through]
      have hbody := ih (fun hleads => hspares (.inCall hleads)) (hframeless.log _ hholds)
      exact hframeless.log _ hbody
  | call _ ih => exact ih (fun hleads => hspares (.call hleads)) hholds
  | display _ ih => exact ih (fun hleads => hspares (.display hleads)) hholds
  | overflow => exact hholds

/-- That to which a piece `Leads`, the plan `Leads` to. -/
theorem Leads.trans {β γ : Type} {piece : Plan β} {inner : Plan γ} {there last : Machine}
    (h : plan.Leads machine piece there) (h' : piece.Leads there inner last) :
    plan.Leads machine inner last := by
  induction h with
  | here => exact h'
  | first _ ih => exact .first (ih h')
  | next hfirst _ ih => exact .next hfirst (ih h')
  | inFrame hroom _ ih => exact .inFrame hroom (ih h')
  | inCall _ ih => exact .inCall (ih h')
  | call _ ih => exact .call (ih h')
  | display _ ih => exact .display (ih h')

/-- What a plan `Spares` holds where it `Leads`. -/
theorem Leads.keeps {holds : Machine → Prop} (hframeless : Frameless holds) {β : Type} {piece : Plan β}
    {there : Machine} (h : plan.Leads machine piece there) (hspares : plan.Spares holds machine)
    (hholds : holds machine) : holds there := by
  induction h with
  | here => exact hholds
  | first _ ih => exact ih (fun hleads => hspares (.first hleads)) hholds
  | next hfirst _ ih =>
      have hmiddle := hfirst.keeps hframeless (fun hleads => hspares (.first hleads)) hholds
      exact ih (fun hleads => hspares (.next hfirst hleads)) hmiddle
  | inFrame hroom _ ih =>
      exact ih (fun hleads => hspares (.inFrame hroom hleads)) (hframeless.pushed _ hholds)
  | inCall _ ih => exact ih (fun hleads => hspares (.inCall hleads)) (hframeless.log _ hholds)
  | call _ ih => exact ih (fun hleads => hspares (.call hleads)) hholds
  | display _ ih => exact ih (fun hleads => hspares (.display hleads)) hholds

/-- **What a plan `Spares` holds of every machine that it `Meets`.** -/
theorem Meets.keeps {holds : Machine → Prop} (hframeless : Frameless holds) {met : Machine}
    (h : plan.Meets machine met) (hspares : plan.Spares holds machine) (hholds : holds machine) :
    holds met := by
  cases h with
  | atStart hleads => exact hleads.keeps hframeless hspares hholds
  | atEnd hleads hends =>
      have hthere := hleads.keeps hframeless hspares hholds
      exact hends.keeps hframeless (fun hinner => hspares (hleads.trans hinner)) hthere

end Plan

open Plan

/-! ## What each step respects -/

namespace Progress

variable {Reaches : Machine → Machine → Prop} {α : Type} {plan : Plan α} {machine : Machine}

/-- What is `Progress` holds between the machines at the beginning and at the end of a plan. -/
theorem reaches_of_ends (h : Progress Reaches) {outcome : Outcome α} (hends : plan.Ends machine outcome) :
    Reaches machine outcome.machine := by
  induction hends with
  | @query _ machine question _ =>
      have hafter := question.after_run machine
      rw [Run.after] at hafter
      rw [hafter]
      exact h.refl machine
  | @change _ machine step _ => exact h.steps (step.steps_run step.takes_all machine)
  | andThen _ _ ihf ihn => exact h.trans ihf ihn
  | failed _ ihf => exact ihf
  | inFrame _ _ ih =>
      rw [Outcome.machine_through]
      exact h.frame ih
  | inCall _ ih =>
      rw [Outcome.machine_through]
      exact h.trans (h.trans (h.step (.log _)) ih) (h.step (.log _))
  | call _ ih => exact ih
  | display _ ih => exact ih
  | _ => exact h.refl _

/-- What is `Progress`, and holds of `Machine.pushed`, holds up to wherever a plan `Leads`. -/
theorem reaches_of_leads (h : Progress Reaches)
    (hpush : ∀ (machine : Machine) (self : Value), Reaches machine (machine.pushed self))
    {β : Type} {piece : Plan β} {there : Machine} (hleads : plan.Leads machine piece there) :
    Reaches machine there := by
  induction hleads with
  | here => exact h.refl _
  | first _ ih => exact ih
  | next hfirst _ ih => exact h.trans (h.reaches_of_ends hfirst) ih
  | inFrame _ _ ih => exact h.trans (hpush _ _) ih
  | inCall _ ih => exact h.trans (h.step (.log _)) ih
  | call _ ih => exact ih
  | display _ ih => exact ih

/-- **What is `Progress`, and holds of `Machine.pushed`, holds between a machine and all that a plan `Meets` after
    it.** -/
theorem reaches_of_meets (h : Progress Reaches)
    (hpush : ∀ (machine : Machine) (self : Value), Reaches machine (machine.pushed self)) {met : Machine}
    (hmeets : plan.Meets machine met) : Reaches machine met := by
  cases hmeets with
  | atStart hleads => exact h.reaches_of_leads hpush hleads
  | atEnd hleads hends => exact h.trans (h.reaches_of_leads hpush hleads) (h.reaches_of_ends hends)

theorem reaches_eval (h : Progress Reaches) (node : Node) (machine : Machine) :
    Reaches machine ((Machine.eval node).after machine) := by
  rw [Run.after, Machine.eval_eq_follow]
  exact h.follow_within (ofNode node) machine.room machine

/-- What is `Progress` holds over a run, which adds at most an event to `Machine.eval`. -/
theorem reaches_run (h : Progress Reaches) (program : Node) (machine : Machine) :
    Reaches machine ((Machine.run program).after machine) := by
  have heval := h.reaches_eval program machine
  rw [Run.after] at heval ⊢
  rw [Machine.run]
  cases houtcome : Machine.eval program machine with
  | ok value last =>
      rw [houtcome] at heval
      exact heval
  | error fault last =>
      rw [houtcome] at heval
      exact h.trans heval (h.step (.log (.aborted fault)))

end Progress

/-! ## Invariants -/

namespace Invariant

variable {invariant : Invariant} {α : Type} {plan : Plan α} {machine : Machine}

/-- A plan `Within` the known values keeps the `Invariant`, however it `Ends`. -/
theorem kept_of_ends {outcome : Outcome α} (hends : plan.Ends machine outcome) :
    ∀ {post : Set Value → α → Prop}, invariant.holds machine →
      plan.Within invariant.selves (invariant.known machine) post → invariant.Kept machine post outcome := by
  induction hends with
  | done result =>
      intro post h hplan
      exact ⟨h, subset_rfl, hplan⟩
  | stop fault =>
      intro post h _
      exact ⟨h, subset_rfl⟩
  | @query _ _ question _ =>
      intro post h hplan
      exact (kept_query question h hplan.1).imp fun known answer hle => hplan.2 known hle answer
  | @change _ _ step _ =>
      intro post h hplan
      exact (kept_change step h hplan.1).imp fun known result hle => hplan.2 known hle result
  | @andThen _ _ _ _ _ _ _ outcome _ _ ihf ihn =>
      intro post h hplan
      obtain ⟨hmiddle, hle, hnext⟩ := ihf h hplan
      have hrest := ihn hmiddle hnext
      cases outcome with
      | ok result last => exact ⟨hrest.1, hle.trans hrest.2.1, hrest.2.2⟩
      | error fault last => exact ⟨hrest.1, hle.trans hrest.2⟩
  | failed _ ihf =>
      intro post h hplan
      exact ihf h hplan
  | @inFrame _ machine self body outcome hroom hbody ih =>
      intro post h hplan
      obtain ⟨hself, hadmitted, hwithin⟩ := hplan
      obtain ⟨hpushed, hle⟩ := invariant.push h hself hadmitted
      have hcontinues := Machine.continues_progress.reaches_of_ends hbody
      exact (ih hpushed (hwithin _ hle)).through hle fun hlast =>
        invariant.pop h hlast (CallStack.pop_of_continues_push hcontinues.stack)
  | refused _ =>
      intro post h _
      exact ⟨h, subset_rfl⟩
  | @inCall _ _ method _ _ _ ih =>
      intro post h hplan
      obtain ⟨hentered, hle⟩ := invariant.step h (.log (.entered method))
      exact (ih hentered (hplan _ hle)).through hle fun hlast => invariant.step hlast (.log (.left method))
  | @call _ _ name method _ _ _ ih =>
      intro post h hplan
      obtain ⟨hreceiver, hself, hargs, hpost⟩ := hplan
      have hcalled := ih h (within_called (invariant.basic h) name method hreceiver hself hargs
        fun _ _ _ hvalue => hvalue)
      exact hcalled.imp fun known value hle => hpost known hle value
  | display _ ih =>
      intro post h hplan
      have hdisplayed := ih h (within_displayed (invariant.basic h) hplan.1 fun _ _ _ htext => htext)
      exact hdisplayed.imp fun known text hle => hplan.2 known hle text
  | overflow =>
      intro post h _
      exact ⟨h, subset_rfl⟩

/-- Where a plan `Leads`, the `Invariant` holds and the piece is `Within` the known values. -/
theorem within_of_leads {β : Type} {piece : Plan β} {there : Machine}
    (hleads : plan.Leads machine piece there) :
    ∀ {post : Set Value → α → Prop}, invariant.holds machine →
      plan.Within invariant.selves (invariant.known machine) post →
      invariant.holds there ∧ ∃ post', piece.Within invariant.selves (invariant.known there) post' := by
  induction hleads with
  | here =>
      intro post h hplan
      exact ⟨h, post, hplan⟩
  | first _ ih =>
      intro post h hplan
      exact ih h hplan
  | next hfirst _ ih =>
      intro post h hplan
      obtain ⟨hmiddle, _, hnext⟩ := kept_of_ends hfirst h hplan
      exact ih hmiddle hnext
  | inFrame _ _ ih =>
      intro post h hplan
      obtain ⟨hself, hadmitted, hwithin⟩ := hplan
      obtain ⟨hpushed, hle⟩ := invariant.push h hself hadmitted
      exact ih hpushed (hwithin _ hle)
  | @inCall _ _ _ _ method _ _ _ ih =>
      intro post h hplan
      obtain ⟨hentered, hle⟩ := invariant.step h (.log (.entered method))
      exact ih hentered (hplan _ hle)
  | @call _ _ _ _ name method _ _ _ ih =>
      intro post h hplan
      obtain ⟨hreceiver, hself, hargs, _⟩ := hplan
      exact ih h (within_called (invariant.basic h) name method hreceiver hself hargs
        fun _ _ _ hvalue => hvalue)
  | display _ ih =>
      intro post h hplan
      exact ih h (within_displayed (invariant.basic h) hplan.1 fun _ _ _ htext => htext)

/-- **An `Invariant` holds of every machine that a plan `Meets`.** -/
theorem holds_of_meets {met : Machine} {post : Set Value → α → Prop} (hmeets : plan.Meets machine met)
    (h : invariant.holds machine) (hplan : plan.Within invariant.selves (invariant.known machine) post) :
    invariant.holds met := by
  cases hmeets with
  | atStart hleads => exact (within_of_leads hleads h hplan).1
  | @atEnd _ piece there outcome hleads hends =>
      obtain ⟨hthere, post', hpiece⟩ := within_of_leads hleads h hplan
      have hkept := kept_of_ends hends hthere hpiece
      cases outcome with
      | ok result last => exact hkept.1
      | error fault last => exact hkept.1

end Invariant

end ObjectTalk

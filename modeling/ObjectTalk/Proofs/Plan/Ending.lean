import ObjectTalk.Proofs.Ancestors
import ObjectTalk.Proofs.Plan.Evaluation
/-!
# `Proofs.Plan.Ending` — how a plan comes to an end

`Plan.Ends` gives the outcome of a plan by rules. A call is carried out by the body of the method, and a
value is shown by showing its parts, however deep that goes: unlike the evaluator the rules count neither the
frames for which there is room nor the arrays that stand in one another. The only limit is the one the
machine itself has, where a frame that would be too deep is refused. A search along superclass links has an
outcome only if the links come to an end. So a plan that would go on for ever has no outcome, and any plan
has at most one (`Plan.Ends.unique`).
-/

namespace ObjectTalk

/-- Where the `Query` makes a search along superclass links, the links come to an end (`Hierarchy.Walk`), and the
    ancestors are all of them. -/
def Query.Settled (machine : Machine) : {α : Type} → Query α → Prop
  | _, .methodFor receiver _ =>
    ∀ id, machine.classOf? receiver = some id → machine.classes.Walk id (machine.classes.ancestors id)
  | _, _ => True

/-- Where the `Change` makes a search along superclass links, the links come to an end (`Hierarchy.Walk`), and the
    ancestors are all of them. -/
def Change.Settled (machine : Machine) : {α : Type} → Change α → Prop
  | _, .alloc (.ofClass id) => machine.classes.Walk id (machine.classes.ancestors id)
  | _, _ => True

namespace Plan

/-- The `Plan`, begun in the machine, comes to an end with the `Outcome`. -/
inductive Ends : {α : Type} → Plan α → Machine → Outcome α → Prop where
  | done {α : Type} {machine : Machine} (result : α) : Ends (.done result) machine (.ok result machine)
  | stop {α : Type} {machine : Machine} (fault : Fault) :
      Ends (.stop fault : Plan α) machine (.error fault machine)
  | query {α : Type} {machine : Machine} {question : Query α} (hsettled : question.Settled machine) :
      Ends (.query question) machine (question.run machine)
  | change {α : Type} {machine : Machine} {step : Change α} (hsettled : step.Settled machine) :
      Ends (.change step) machine (step.run machine)
  | andThen {α β : Type} {machine middle : Machine} {first : Plan α} {next : α → Plan β} {result : α}
      {outcome : Outcome β} (hfirst : Ends first machine (.ok result middle))
      (hnext : Ends (next result) middle outcome) : Ends (.andThen first next) machine outcome
  | failed {α β : Type} {machine last : Machine} {first : Plan α} {next : α → Plan β} {fault : Fault}
      (hfirst : Ends first machine (.error fault last)) :
      Ends (.andThen first next) machine (.error fault last)
  | inFrame {α : Type} {machine : Machine} {self : Value} {body : Plan α} {outcome : Outcome α}
      (hroom : machine.stack.depth < machine.settings.maxDepth)
      (hbody : Ends body (machine.pushed self) outcome) :
      Ends (.inFrame self body) machine (outcome.through Machine.popped)
  | refused {α : Type} {machine : Machine} {self : Value} {body : Plan α}
      (hfull : ¬ machine.stack.depth < machine.settings.maxDepth) :
      Ends (.inFrame self body) machine
        (.error (.tooDeep machine.stack.depth machine.settings.maxDepth) machine)
  | inCall {α : Type} {machine : Machine} {method : String} {body : Plan α} {outcome : Outcome α}
      (hbody : Ends body (machine.log (.entered method)) outcome) :
      Ends (.inCall method body) machine (outcome.through fun last => last.log (.left method))
  /-- A call is what the method's plan says. -/
  | call {machine : Machine} {receiver : Value} {name : String} {method : Method} {args : List Value}
      {outcome : Outcome Value} (hcalled : Ends (called receiver name method args) machine outcome) :
      Ends (.call receiver name method args) machine outcome
  /-- A value is shown as its plan says. -/
  | display {machine : Machine} {value : Value} {outcome : Outcome String}
      (hdisplayed : Ends (displayed value) machine outcome) : Ends (.display value) machine outcome
  | overflow {α : Type} {machine : Machine} :
      Ends (.overflow : Plan α) machine
        (.error (.tooDeep machine.stack.depth machine.settings.maxDepth) machine)

/-- The plan by which a call is made (`Plan.called`) or a value shown (`Plan.displayed`) has ended as well. -/
def CarriedOut : {α : Type} → Plan α → Machine → Outcome α → Prop
  | _, .call receiver name method args, machine, outcome =>
    (called receiver name method args).Ends machine outcome
  | _, .display value, machine, outcome => (displayed value).Ends machine outcome
  | _, _, _, _ => True

/-- A plan that `Ends` has been `CarriedOut`. -/
theorem Ends.carriedOut {α : Type} {plan : Plan α} {machine : Machine} {outcome : Outcome α}
    (h : plan.Ends machine outcome) : plan.CarriedOut machine outcome := by
  cases h with
  | call hcalled => exact hcalled
  | display hdisplayed => exact hdisplayed
  | _ => trivial

/-- **A plan `Ends` in one way at most.** -/
theorem Ends.unique {α : Type} {plan : Plan α} {machine : Machine} {outcome other : Outcome α}
    (h : plan.Ends machine outcome) (h' : plan.Ends machine other) : outcome = other := by
  induction h with
  | done result =>
      cases h'
      rfl
  | stop fault =>
      cases h'
      rfl
  | query _ =>
      cases h'
      rfl
  | change _ =>
      cases h'
      rfl
  | andThen _ _ ihf ihn =>
      cases h' with
      | andThen hfirst hnext =>
          cases ihf hfirst
          exact ihn hnext
      | failed hfirst => exact absurd (ihf hfirst) (by simp)
  | failed _ ihf =>
      cases h' with
      | andThen hfirst hnext => exact absurd (ihf hfirst) (by simp)
      | failed hfirst =>
          cases ihf hfirst
          rfl
  | inFrame hroom _ ih =>
      cases h' with
      | inFrame _ hbody => rw [ih hbody]
      | refused hfull => exact absurd hroom hfull
  | refused hfull =>
      cases h' with
      | inFrame hroom _ => exact absurd hroom hfull
      | refused _ => rfl
  | inCall _ ih =>
      cases h' with
      | inCall hbody => rw [ih hbody]
  | call _ ih => exact ih h'.carriedOut
  | display _ ih => exact ih h'.carriedOut
  | overflow =>
      cases h'
      rfl

/-- One plan after another. What follows the first plan is carried out like `other`. -/
theorem ends_andThen {services : Services} {α β : Type} {first : Plan α} {next other : α → Plan β}
    {machine : Machine} (hfirst : first.Ends machine (first.follow services machine))
    (hnext : ∀ result middle, first.follow services machine = .ok result middle →
      (next result).Ends middle ((other result).follow services middle)) :
    (andThen first next).Ends machine ((andThen first other).follow services machine) := by
  show Ends _ machine ((first.follow services >>= fun result => (other result).follow services) machine)
  rw [Run.bind_apply]
  cases hf : first.follow services machine with
  | ok result middle =>
      rw [hf] at hfirst
      exact .andThen hfirst (hnext result middle hf)
  | error fault last =>
      rw [hf] at hfirst
      exact .failed hfirst

/-- `Plan.inFrame` ends if its body does, where there is room for it. -/
theorem ends_inFrame {services : Services} {α : Type} {self : Value} {body : Plan α} {machine : Machine}
    (hbody : machine.stack.depth < machine.settings.maxDepth →
      body.Ends (machine.pushed self) (body.follow services (machine.pushed self))) :
    (inFrame self body).Ends machine ((inFrame self body).follow services machine) := by
  show Ends _ machine (Run.inFrame self (body.follow services) machine)
  rw [Run.inFrame_apply]
  by_cases hroom : machine.stack.depth < machine.settings.maxDepth
  · rw [if_pos hroom]
    exact .inFrame hroom (hbody hroom)
  · rw [if_neg hroom]
    exact .refused hroom

end Plan

end ObjectTalk

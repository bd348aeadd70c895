import ObjectTalk.Proofs.Plan.Step
/-!
# `Proofs.Plan.Progress` — from single steps to whole evaluations

What holds of the plans of calls and texts holds of calls with any room left: `Services.within_alike`
packages the two inductions that are not on plans, on the room left and on the depth of arrays, for any
relation between runs. Its main use is `Progress`: a relation between the machine before and the machine after
that each step and each finished frame respects is respected by every evaluation, whether it ends with a
result or with a fault.
-/

namespace ObjectTalk

open Plan

/-! ## Relations between runs -/

/-- Both `Services` answer each request in related ways. -/
structure Services.Alike (Related : {α : Type} → Run α → Run α → Prop) (left right : Services) :
    Prop where
  call : ∀ receiver name method args,
    Related (left.call receiver name method args) (right.call receiver name method args)
  display : ∀ value, Related (left.display value) (right.display value)

/-- `Services` that do nothing. -/
def Services.idle : Services := ⟨fun _ _ _ _ => pure .nil, fun _ => pure ""⟩

/-- The plans by which methods are called and values are shown, `Plan.called` and its like, respect a relation
    between runs. -/
structure Plan.Respected (Related : {α : Type} → Run α → Run α → Prop) : Prop where
  done : ∀ {α : Type} (result : α), Related (pure result) (pure result)
  flat : ∀ {left right : Services}, left.Alike Related right → ∀ value,
    Related ((displayedFlat value).follow left) ((displayedFlat value).follow right)
  displayed : ∀ {left right : Services}, left.Alike Related right → ∀ value,
    Related ((displayed value).follow left) ((displayed value).follow right)
  refused : ∀ {left right : Services}, left.Alike Related right → ∀ name method args,
    Related ((refused name method args).follow left) ((refused name method args).follow right)
  called : ∀ {left right : Services}, left.Alike Related right → ∀ receiver name method args,
    Related ((called receiver name method args).follow left)
      ((called receiver name method args).follow right)

namespace Services

variable {Related : {α : Type} → Run α → Run α → Prop}

/-- `Services.idle` is alike with itself. -/
theorem idle_alike (h : Plan.Respected Related) : Services.idle.Alike Related .idle :=
  ⟨fun _ _ _ _ => h.done Value.nil, fun _ => h.done ""⟩

/-- `displayUpTo` shows values in related ways if methods are called in related ways. -/
theorem displayUpTo_alike (h : Plan.Respected Related) {left right : Caller}
    (hcall : ∀ receiver name method args,
      Related (left receiver name method args) (right receiver name method args)) (levels : Nat) :
    Alike Related ⟨left, displayUpTo left levels⟩ ⟨right, displayUpTo right levels⟩ := by
  refine ⟨hcall, ?_⟩
  induction levels with
  | zero =>
      intro value
      -- at level zero no further value is shown, so that any way to show values will do
      have hs : Alike Related ⟨left, idle.display⟩ ⟨right, idle.display⟩ :=
        ⟨hcall, (idle_alike h).display⟩
      show Related (displayUpTo left 0 value) (displayUpTo right 0 value)
      rw [displayUpTo_zero ⟨left, idle.display⟩, displayUpTo_zero ⟨right, idle.display⟩]
      exact h.flat hs value
  | succ levels ih =>
      intro value
      have hs : Alike Related ⟨left, displayUpTo left levels⟩ ⟨right, displayUpTo right levels⟩ :=
        ⟨hcall, ih⟩
      show Related (displayUpTo left (levels + 1) value) (displayUpTo right (levels + 1) value)
      rw [displayUpTo_succ, displayUpTo_succ]
      exact h.displayed hs value

/-- `Services.ofCaller` is as alike as the callers. -/
theorem ofCaller_alike (h : Plan.Respected Related) {left right : Caller}
    (hcall : ∀ receiver name method args,
      Related (left receiver name method args) (right receiver name method args)) :
    (Services.ofCaller left).Alike Related (.ofCaller right) :=
  ⟨hcall, fun value => (displayUpTo_alike h hcall value.rank).display value⟩

/-- **A relation that calls and texts respect relates evaluation with itself**: `Services.within`, whatever room is
    left. -/
theorem within_alike (h : Plan.Respected Related) (room : Nat) :
    (Services.within room).Alike Related (.within room) := by
  induction room with
  | zero =>
      refine ofCaller_alike h fun receiver name method args => ?_
      -- a call for which there is no room calls nothing itself
      rw [callWithin_zero .idle]
      exact h.refused (idle_alike h) name method args
  | succ room ih =>
      refine ofCaller_alike h fun receiver name method args => ?_
      rw [callWithin_succ]
      exact h.called ih receiver name method args

end Services

/-! ## Relations between the machine before and the machine after -/

/-- A `Query` leaves the machine as it is. -/
theorem Query.after_run {α : Type} (query : Query α) (machine : Machine) :
    query.run.after machine = machine := by
  rw [Run.after, run_eq_outcome]
  cases query.ask machine <;> rfl

/-- A relation between machines that each `Machine.Step` of evaluation respects. -/
structure Progress (Reaches : Machine → Machine → Prop) : Prop where
  refl : ∀ machine, Reaches machine machine
  trans : ∀ {first second third}, Reaches first second → Reaches second third → Reaches first third
  step : ∀ {machine last : Machine}, machine.Step Set.univ last → Reaches machine last
  /-- What is done in a frame is respected once the frame is gone. -/
  frame : ∀ {machine : Machine} {self : Value} {last : Machine},
    Reaches (machine.pushed self) last → Reaches machine last.popped

namespace Progress

variable {Reaches : Machine → Machine → Prop}

/-- `Reaches` as a relation between runs, which ignores the second. -/
def Respects (Reaches : Machine → Machine → Prop) {α : Type} (work _ : Run α) : Prop :=
  ∀ machine, Reaches machine (work.after machine)

/-- What two pieces of work respect, they respect one after the other: `Respects` is closed under `>>=`. -/
theorem respects_bind {α β : Type} {first : Run α} {next : α → Run β}
    (htrans : ∀ {first second third}, Reaches first second → Reaches second third → Reaches first third)
    (hfirst : Respects Reaches first first)
    (hnext : ∀ result, Respects Reaches (next result) (next result)) :
    Respects Reaches (first >>= next) (first >>= next) := by
  intro machine
  have hm := hfirst machine
  rw [Run.after] at hm ⊢
  rw [Run.bind_apply]
  cases hf : first machine with
  | ok result last =>
      rw [hf] at hm
      exact htrans hm (hnext result last)
  | error fault last =>
      rw [hf] at hm
      exact hm

/-- What each `Machine.Step` respects, `Machine.Steps` respect. -/
theorem steps (h : Progress Reaches) {machine last : Machine}
    (hsteps : machine.Steps Set.univ last) : Reaches machine last := by
  induction hsteps with
  | refl => exact h.refl machine
  | tail _ hstep ih => exact h.trans ih (h.step hstep)

/-- Following a plan respects what the `Services` respect. By induction on the plan. -/
theorem respects_follow (h : Progress Reaches) {α : Type} (plan : Plan α) {services : Services}
    (hs : services.Alike (Respects Reaches) services) :
    Respects Reaches (plan.follow services) (plan.follow services) := by
  induction plan with
  | done result => exact h.refl
  | stop fault => exact h.refl
  | query question =>
      intro machine
      show Reaches machine (question.run.after machine)
      rw [Query.after_run]
      exact h.refl machine
  | change step => exact fun machine => h.steps (step.steps_run step.takes_all machine)
  | andThen first next ihf ihn => exact respects_bind h.trans ihf ihn
  | inFrame self body ih =>
      intro machine
      show Reaches machine (Outcome.machine (Run.inFrame self (body.follow services) machine))
      rw [Run.inFrame_apply]
      by_cases hroom : machine.stack.depth < machine.settings.maxDepth
      · rw [if_pos hroom, Outcome.machine_through]
        exact h.frame (ih (machine.pushed self))
      · rw [if_neg hroom]
        exact h.refl machine
  | inCall method body ih =>
      intro machine
      show Reaches machine (Outcome.machine (Run.inCall method (body.follow services) machine))
      rw [Run.inCall_apply, Outcome.machine_through]
      exact h.trans (h.trans (h.step (.log _)) (ih _)) (h.step (.log _))
  | call receiver name method args => exact hs.call receiver name method args
  | display value => exact hs.display value
  | overflow => exact h.refl

/-- A `Progress` is `Plan.Respected`. -/
theorem respected (h : Progress Reaches) : Plan.Respected (Respects Reaches) where
  done _ := h.refl
  flat hs _ := h.respects_follow _ ⟨hs.call, hs.display⟩
  displayed hs _ := h.respects_follow _ ⟨hs.call, hs.display⟩
  refused hs _ _ _ := h.respects_follow _ ⟨hs.call, hs.display⟩
  called hs _ _ _ _ := h.respects_follow _ ⟨hs.call, hs.display⟩

/-- **Whatever each step respects, every evaluation respects**: by `Progress`, each plan, with any room left, leads
    to a machine that is reached from the one before. -/
theorem follow_within (h : Progress Reaches) {α : Type} (plan : Plan α) (room : Nat) (machine : Machine) :
    Reaches machine ((plan.follow (.within room)).after machine) :=
  h.respects_follow plan (Services.within_alike h.respected room) machine

end Progress

end ObjectTalk

import ObjectTalk.Proofs.Occurrence
/-!
# `Proofs.Precedence` — which machine comes before which

`Plan.Meets` gives the machines that are met while a plan is carried out, but not their order. Of two of them one is
met first if a piece of the plan begins with it and meets the other, if a piece meets it and ends with the other, or if
the two are met in pieces that are carried out one after the other (`Plan.Passes`). With programs that are run one
after another, this is `Machine.Precedes`.

What each step respects holds between such machines (`Progress.reaches_of_precedes`), provided that frames that come
and go respect it as well.
-/

namespace ObjectTalk

/-- While the plan is carried out, begun in the machine, it `Meets` first the one and then the other machine. -/
inductive Plan.Passes {α : Type} (plan : Plan α) (machine : Machine) : Machine → Machine → Prop where
  | atStart {β : Type} {piece : Plan β} {there later : Machine} (hleads : plan.Leads machine piece there)
      (hmeets : piece.Meets there later) : Passes plan machine there later
  | atEnd {β : Type} {piece : Plan β} {there met : Machine} {outcome : Outcome β}
      (hleads : plan.Leads machine piece there) (hmeets : piece.Meets there met)
      (hends : piece.Ends there outcome) : Passes plan machine met outcome.machine
  | between {β γ : Type} {first : Plan β} {next : β → Plan γ} {there met middle later : Machine} {result : β}
      (hleads : plan.Leads machine (.andThen first next) there) (hmeets : first.Meets there met)
      (hfirst : first.Ends there (.ok result middle)) (hlater : (next result).Meets middle later) :
      Passes plan machine met later

open Plan

/-- The one machine is met while a program is evaluated, and the other one later on: in the same program
    (`Plan.Passes`), or in those that are run after it. -/
inductive Machine.Precedes (earlier later : Machine) : Prop where
  | during {start : Machine} (program : Node) (hpasses : (ofNode program).Passes start earlier later)
  | afterwards {start : Machine} (program : Node) (hreach : start.Reachable)
      (hmeets : (ofNode program).Meets start earlier) (hoccurs : ((run program).after start).Occurs later)

namespace Progress

variable {Reaches : Machine → Machine → Prop} {α : Type} {plan : Plan α} {machine earlier later : Machine}
  (h : Progress Reaches)

include h

/-- **A piece to which a plan `Leads` ends before the plan ends.** By induction on how the piece comes up. -/
theorem ends_of_leads (hpop : ∀ machine : Machine, Reaches machine machine.popped) {β : Type} {piece : Plan β}
    {there : Machine} (hleads : plan.Leads machine piece there) :
    ∀ {outcome : Outcome α}, plan.Ends machine outcome →
      ∃ inner : Outcome β, piece.Ends there inner ∧ Reaches inner.machine outcome.machine := by
  induction hleads with
  | here =>
      intro outcome hends
      exact ⟨outcome, hends, h.refl _⟩
  | first _ ih =>
      intro outcome hends
      cases hends with
      | andThen hfirst hnext =>
          obtain ⟨inner, hinner, hreaches⟩ := ih hfirst
          exact ⟨inner, hinner, h.trans hreaches (h.reaches_of_ends hnext)⟩
      | failed hfirst => exact ih hfirst
  | next hfirst _ ih =>
      intro outcome hends
      cases hends with
      | andThen hfirst' hnext =>
          cases hfirst.unique hfirst'
          exact ih hnext
      | failed hfirst' => cases hfirst.unique hfirst'
  | inFrame hroom _ ih =>
      intro outcome hends
      cases hends with
      | inFrame _ hbody =>
          obtain ⟨inner, hinner, hreaches⟩ := ih hbody
          rw [Outcome.machine_through]
          exact ⟨inner, hinner, h.trans hreaches (hpop _)⟩
      | refused hfull => exact absurd hroom hfull
  | inCall _ ih =>
      intro outcome hends
      cases hends with
      | inCall hbody =>
          obtain ⟨inner, hinner, hreaches⟩ := ih hbody
          rw [Outcome.machine_through]
          exact ⟨inner, hinner, h.trans hreaches (h.step (.log _))⟩
  | call _ ih =>
      intro outcome hends
      exact ih hends.carriedOut
  | display _ ih =>
      intro outcome hends
      exact ih hends.carriedOut

/-- What a plan `Meets` comes before that with which it `Ends`. -/
theorem reaches_end (hpop : ∀ machine : Machine, Reaches machine machine.popped)
    (hmeets : plan.Meets machine earlier) {outcome : Outcome α} (hends : plan.Ends machine outcome) :
    Reaches earlier outcome.machine := by
  cases hmeets with
  | atStart hleads =>
      obtain ⟨inner, hinner, hreaches⟩ := h.ends_of_leads hpop hleads hends
      exact h.trans (h.reaches_of_ends hinner) hreaches
  | atEnd hleads hpiece =>
      obtain ⟨inner, hinner, hreaches⟩ := h.ends_of_leads hpop hleads hends
      rw [hpiece.unique hinner]
      exact hreaches

variable (hpush : ∀ (machine : Machine) (self : Value), Reaches machine (machine.pushed self))
  (hpop : ∀ machine : Machine, Reaches machine machine.popped)

include hpush hpop

theorem reaches_of_passes (hpasses : plan.Passes machine earlier later) : Reaches earlier later := by
  cases hpasses with
  | atStart _ hmeets => exact h.reaches_of_meets hpush hmeets
  | atEnd _ hmeets hends => exact h.reaches_end hpop hmeets hends
  | between _ hmeets hfirst hlater =>
      exact h.trans (h.reaches_end hpop hmeets hfirst) (h.reaches_of_meets hpush hlater)

/-- **What a `Progress` and the frames respect holds between a machine and one that it `Precedes`.** -/
theorem reaches_of_precedes (hprecedes : earlier.Precedes later) : Reaches earlier later := by
  cases hprecedes with
  | during program hpasses => exact h.reaches_of_passes hpush hpop hpasses
  | @afterwards start program hreach hmeets hoccurs =>
      have hends := hreach.wellFormed.ends_eval program
      refine h.trans (h.trans (h.reaches_end hpop hmeets hends) ?_) (h.reaches_of_occurs hpush hoccurs)
      -- a run adds at most an event to the evaluation
      rw [Run.after, Machine.run]
      cases Machine.eval program start with
      | ok value last => exact h.refl last
      | error fault last => exact h.step (.log (.aborted fault))

end Progress

end ObjectTalk

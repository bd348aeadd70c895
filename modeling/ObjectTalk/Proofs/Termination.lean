import ObjectTalk.Proofs.Plan.Ending
import ObjectTalk.Proofs.Reachable
/-!
# `Proofs.Termination` — every evaluation ends

The evaluator is recursion on two numbers that the rules of `Plan.Ends` do not know: the room left on the
stack and the depth of arrays. Here both turn out to be no restriction. A method that is called where there
is no room stops, because its frame is refused; with room it goes on in a frame, where there is less. The
items of an array are older than the array, so that showing them goes down, and the rank of a value is
enough. In a well-formed machine every plan therefore ends, with the outcome that the evaluator gives.
-/

namespace ObjectTalk

open Plan

namespace Machine

/-- A machine that `Continues` another has the room that it had. -/
theorem Continues.room_eq {before after : Machine} (h : before.Continues after) :
    after.room = before.room := by
  rw [room, room, h.stack.depth, h.settings]

theorem room_pushed_lt {machine : Machine} (self : Value)
    (h : machine.stack.depth < machine.settings.maxDepth) : (machine.pushed self).room < machine.room := by
  show machine.settings.maxDepth - (machine.stack.depth + 1) < machine.settings.maxDepth - machine.stack.depth
  omega

/-- In a `WellFormed` machine superclass links come to an end, so that a `Query` is `Settled`. -/
theorem WellFormed.settled_query {machine : Machine} (h : machine.WellFormed) {α : Type}
    (question : Query α) (htakes : question.Takes machine.Owns) : question.Settled machine := by
  cases question with
  | methodFor receiver name =>
      intro id hclass
      exact h.rooted.walk_ancestors (h.contained.owns_classOf htakes hclass)
  | _ => trivial

theorem WellFormed.settled_change {machine : Machine} (h : machine.WellFormed) {α : Type}
    (change : Change α) (htakes : change.Takes machine.Owns) : change.Settled machine := by
  cases change with
  | alloc new =>
      cases new with
      | ofClass id => exact h.rooted.walk_ancestors htakes
      | _ => trivial
  | _ => trivial

end Machine

/-! ## Services that end as they say -/

/-- With room for at most `room` frames, calls end with the outcome that the caller gives. -/
def SoundCaller (room : Nat) (call : Caller) : Prop :=
  ∀ ⦃machine : Machine⦄ ⦃receiver : Value⦄ ⦃args : List Value⦄ (name : String) (method : Method),
    machine.WellFormed → machine.room ≤ room → machine.Owns receiver → KnownValues machine.Owns args →
    (called receiver name method args).Ends machine (call receiver name method args machine)

/-- With room for at most `room` frames, the values that are `shallow` are shown with the outcome given. -/
def SoundDisplay (room : Nat) (shallow : Value → Prop) (display : Value → Run String) : Prop :=
  ∀ ⦃machine : Machine⦄ ⦃value : Value⦄, machine.WellFormed → machine.room ≤ room → machine.Owns value →
    shallow value → (displayed value).Ends machine (display value machine)

section

variable {room : Nat} {services : Services} (hs : Machine.wellFormed.Served services)

include hs

/-- After a plan that has a result, by `follow`, the machine is `WellFormed` and has the room it had, and what was to
    hold of the result holds. -/
theorem ready_of_follow {α : Type} {plan : Plan α} {machine middle : Machine} {result : α}
    {post : Set Value → α → Prop} (h : machine.WellFormed) (hroom : machine.room ≤ room)
    (hok : plan.follow services machine = .ok result middle)
    (hplan : plan.Within (fun _ => True) machine.Owns post) :
    middle.WellFormed ∧ middle.room ≤ room ∧ post middle.Owns result := by
  have hkept := Invariant.kept_follow_of_served hs plan h hplan
  have hcontinues := Machine.continues_progress.respects_follow plan hs.continues machine
  rw [Run.after] at hcontinues
  rw [hok] at hkept hcontinues
  have hsame : middle.room = machine.room := hcontinues.room_eq
  exact ⟨hkept.1, hsame.trans_le hroom, hkept.2.2⟩

/-- **A plan `Ends` as `follow` says if the calls it makes and the values it shows do**: `SoundCaller` and
    `SoundDisplay`. -/
theorem ends_follow_of_sound (hcall : SoundCaller room services.call)
    (hdisplay : SoundDisplay room (fun _ => True) services.display) {α : Type} (plan : Plan α)
    {machine : Machine} {post : Set Value → α → Prop} (h : machine.WellFormed)
    (hroom : machine.room ≤ room) (hplan : plan.Within (fun _ => True) machine.Owns post) :
    plan.Ends machine (plan.follow services machine) := by
  induction plan generalizing machine with
  | done result => exact .done result
  | stop fault => exact .stop fault
  | query question => exact .query (h.settled_query question hplan.1)
  | change step => exact .change (h.settled_change step hplan.1)
  | andThen first next ihf ihn =>
      refine ends_andThen (ihf h hroom hplan) fun result middle hok => ?_
      obtain ⟨hmiddle, hroom', hnext⟩ := ready_of_follow hs h hroom hok hplan
      exact ihn result hmiddle hroom' hnext
  | inFrame self body ih =>
      obtain ⟨hself, _, hbody⟩ := hplan
      refine ends_inFrame fun hfits => ih (h.pushed hself) ?_ (hbody _ subset_rfl)
      have hless := Machine.room_pushed_lt self hfits
      omega
  | inCall method body ih => exact .inCall (ih (h.step (.log _)) hroom (hplan _ subset_rfl))
  | call receiver name method args =>
      obtain ⟨hreceiver, _, hargs, _⟩ := hplan
      exact .call (hcall name method h hroom hreceiver hargs)
  | display value => exact .display (hdisplay h hroom hplan.1 trivial)
  | overflow => exact .overflow

/-! ## Texts -/

theorem ends_askText (hcall : SoundCaller room services.call) {machine : Machine} {value : Value}
    (h : machine.WellFormed) (hroom : machine.room ≤ room) (hvalue : machine.Owns value) :
    (Plan.askText value).Ends machine ((Plan.askText value).follow services machine) := by
  refine ends_andThen (ends_andThen (.query (h.settled_query (.methodFor value "to_s") hvalue)) ?_)
    fun answer last _ => .query trivial
  intro method middle hok
  have hasked : (Plan.query (.methodFor value "to_s")).Within (fun _ => True) machine.Owns
      fun known _ => value ∈ known := ⟨hvalue, fun _ hle _ _ => hle hvalue⟩
  obtain ⟨hmiddle, hroom', hvalue'⟩ := ready_of_follow hs h hroom hok hasked
  exact .call (hcall "to_s" method hmiddle hroom' hvalue' (by simp [KnownValues]))

/-- `displayAll` shows the items one after another, and ends if each of them does. -/
theorem ends_displayAll {shallow : Value → Prop} (hdisplay : SoundDisplay room shallow services.display)
    {items : List Value} {machine : Machine} (h : machine.WellFormed) (hroom : machine.room ≤ room)
    (hitems : KnownValues machine.Owns items) (hshallow : ∀ item ∈ items, shallow item) :
    (displayAll items).Ends machine ((displayAll items).follow services machine) := by
  induction items generalizing machine with
  | nil => exact .done []
  | cons item items ih =>
      obtain ⟨hitem, hrest⟩ := List.forall_mem_cons.mp hitems
      obtain ⟨hflat, hshallow'⟩ := List.forall_mem_cons.mp hshallow
      refine ends_andThen (.display (hdisplay h hroom hitem hflat)) fun text middle hok => ?_
      have hshown : (Plan.display item).Within (fun _ => True) machine.Owns
          fun known _ => KnownValues known items := ⟨hitem, fun _ hle _ _ => KnownValues.mono hrest hle⟩
      obtain ⟨hmiddle, hroom', hrest'⟩ := ready_of_follow hs h hroom hok hshown
      exact ends_andThen (ih hmiddle hroom' hrest' hshallow') fun texts last _ => .done _

/-- How a value is shown `Ends` if showing its items does. -/
theorem ends_displayed (hcall : SoundCaller room services.call) {shallow : Value → Prop}
    (hdisplay : SoundDisplay room shallow services.display) {machine : Machine} {value : Value}
    (h : machine.WellFormed) (hroom : machine.room ≤ room) (hvalue : machine.Owns value)
    (hshallow : ∀ items, machine.heap.payload? value = some (.items items) → ∀ item ∈ items, shallow item) :
    (displayed value).Ends machine ((displayed value).follow services machine) := by
  have hholding : (displayHolding value (machine.heap.payload? value)).Ends machine
      ((displayHolding value (machine.heap.payload? value)).follow services machine) := by
    cases hpayload : machine.heap.payload? value with
    | none => exact ends_askText hs hcall h hroom hvalue
    | some payload =>
        cases payload with
        | text text => exact .done text
        | number number => exact .done _
        | items items =>
            have hitems := h.contained.owns_items hvalue hpayload
            exact ends_andThen (ends_displayAll hs hdisplay h hroom hitems (hshallow items hpayload))
              fun texts last _ => .done _
  cases value with
  | nil => exact .done ""
  | object id => exact .andThen (.query trivial) hholding
  | classRef id => exact .andThen (.query trivial) hholding

/-- **Values of rank at most `levels` can be shown with that many levels.** The items of an array are of a
    lower rank than the array. -/
theorem soundDisplay_displayUpTo (hcall : SoundCaller room services.call) (levels : Nat) :
    SoundDisplay room (fun value => value.rank ≤ levels) (displayUpTo services.call levels) := by
  induction levels with
  | zero =>
      intro machine value h hroom hvalue hrank
      -- of rank zero are only `nil` and the classes
      cases value with
      | nil => exact .done ""
      | object id => exact absurd hrank (Nat.not_succ_le_zero id)
      | classRef id =>
          rw [displayUpTo_zero services]
          exact .andThen (.query trivial) (ends_askText hs hcall h hroom hvalue)
  | succ levels ih =>
      intro machine value h hroom hvalue hrank
      rw [displayUpTo_succ]
      refine ends_displayed (Invariant.served_displayUpTo hs levels) hcall ih h hroom hvalue ?_
      intro items hitems item hitem
      cases value with
      | nil => cases hitems
      | object id =>
          have hbelow : item.rank ≤ id := h.layered id hvalue items hitems item hitem
          exact hbelow.trans (Nat.le_of_succ_le_succ hrank)
      | classRef id => cases hitems

end

/-! ## Calls -/

/-- Where there is no room, `callWithin` refuses the frame of a method. -/
theorem soundCaller_zero : SoundCaller 0 (callWithin 0) := by
  intro machine receiver args name method _ hroom _ _
  have hfull : ¬ machine.stack.depth < machine.settings.maxDepth := by
    rw [Machine.room] at hroom
    omega
  rw [callWithin_zero .idle]
  -- the evaluator stops without trying the frame, which would be refused
  refine .inCall (ends_andThen (.query trivial) fun _ middle hok => ?_)
  obtain rfl := Query.eq_of_run_ok hok
  exact .refused hfull

/-- Where there is room for a frame, there is less room in it: a `SoundCaller` for one more. -/
theorem soundCaller_succ {room : Nat} (hs : Machine.wellFormed.Served (.within room))
    (hcall : SoundCaller room (callWithin room))
    (hdisplay : SoundDisplay room (fun _ => True) (displayWith (callWithin room))) :
    SoundCaller (room + 1) (callWithin (room + 1)) := by
  intro machine receiver args name method h hroom hreceiver hargs
  rw [callWithin_succ]
  refine .inCall (ends_andThen (.query trivial) fun _ middle hok => ?_)
  obtain rfl := Query.eq_of_run_ok hok
  refine ends_inFrame fun hfits => ?_
  have hentered := h.step (.log (.entered name))
  have hbody := within_invoke (Machine.wellFormed.basic hentered) name method hreceiver hargs
    fun _ _ _ _ => trivial
  refine ends_follow_of_sound hs hcall hdisplay _ (hentered.pushed hreceiver) ?_ hbody
  have hless : (machine.pushed receiver).room < machine.room := Machine.room_pushed_lt receiver hfits
  exact Nat.le_of_lt_succ (hless.trans_le hroom)

/-- **Calls and texts end as `callWithin` and `displayWith` say**, by induction on the room left. -/
theorem sound_within (room : Nat) :
    SoundCaller room (callWithin room)
      ∧ SoundDisplay room (fun _ => True) (displayWith (callWithin room)) := by
  have hdisplay : ∀ room, SoundCaller room (callWithin room) →
      SoundDisplay room (fun _ => True) (displayWith (callWithin room)) := by
    intro room hcall machine value h hroom hvalue _
    exact soundDisplay_displayUpTo (Invariant.served_within room) hcall value.rank h hroom hvalue (le_refl _)
  induction room with
  | zero => exact ⟨soundCaller_zero, hdisplay 0 soundCaller_zero⟩
  | succ room ih =>
      have hcall := soundCaller_succ (Invariant.served_within room) ih.1 ih.2
      exact ⟨hcall, hdisplay (room + 1) hcall⟩

/-- In a `WellFormed` machine a plan `Ends` with one outcome, which is that of `follow`. -/
theorem ends_iff {α : Type} (plan : Plan α) {machine : Machine} {post : Set Value → α → Prop}
    (h : machine.WellFormed) (hplan : plan.Within (fun _ => True) machine.Owns post)
    (outcome : Outcome α) :
    plan.Ends machine outcome ↔ outcome = plan.follow (.within machine.room) machine := by
  obtain ⟨hcall, hdisplay⟩ := sound_within machine.room
  have hends := ends_follow_of_sound (Invariant.served_within machine.room) hcall hdisplay plan h
    (le_refl _) hplan
  constructor
  · exact fun hother => hother.unique hends
  · rintro rfl
    exact hends

namespace Machine

theorem ends_iff_eval {machine : Machine} (h : machine.WellFormed) (node : Node) (outcome : Outcome Value) :
    (ofNode node).Ends machine outcome ↔ outcome = eval node machine := by
  rw [eval_eq_follow]
  exact ends_iff _ h (within_ofNode node (wellFormed.basic h) fun _ _ _ hvalue => hvalue) outcome

theorem ends_iff_send {machine : Machine} (h : machine.WellFormed) {receiver : Value} (name : String)
    {args : List Value} (hreceiver : machine.Owns receiver) (hargs : ∀ arg ∈ args, machine.Owns arg)
    (outcome : Outcome Value) :
    (Plan.send receiver name args).Ends machine outcome ↔ outcome = send receiver name args machine := by
  rw [send_eq_follow]
  exact ends_iff _ h (within_send (wellFormed.basic h) name hreceiver hargs fun _ _ _ hvalue => hvalue)
    outcome

theorem ends_iff_call {machine : Machine} (h : machine.WellFormed) {receiver : Value} (name : String)
    (method : Method) {args : List Value} (hreceiver : machine.Owns receiver)
    (hargs : ∀ arg ∈ args, machine.Owns arg) (outcome : Outcome Value) :
    (Plan.call receiver name method args).Ends machine outcome
      ↔ outcome = call receiver name method args machine := by
  have hcall : (Plan.call receiver name method args).Within (fun _ => True) machine.Owns KnownValue :=
    ⟨hreceiver, trivial, hargs, fun _ _ _ hvalue => hvalue⟩
  rw [call_eq_follow]
  exact ends_iff _ h hcall outcome

theorem ends_iff_display {machine : Machine} (h : machine.WellFormed) {value : Value}
    (hvalue : machine.Owns value) (outcome : Outcome String) :
    (Plan.display value).Ends machine outcome ↔ outcome = display value machine := by
  have hdisplay : (Plan.display value).Within (fun _ => True) machine.Owns Plain :=
    ⟨hvalue, fun _ _ _ _ => trivial⟩
  rw [display_eq_follow]
  exact ends_iff _ h hdisplay outcome

/-- **Every evaluation ends.** In every machine that a host can come to, with whatever limit, the rules of
    evaluation lead to exactly one outcome, a result or a fault, for every node, every message, every call and
    every value to be shown; and that is the outcome of `eval`, `send`, `call` and `display`. -/
theorem evaluation_ends {machine : Machine} (h : machine.Reachable) :
    (∀ node outcome, (ofNode node).Ends machine outcome ↔ outcome = eval node machine) ∧
    (∀ receiver name args, machine.Owns receiver → (∀ arg ∈ args, machine.Owns arg) → ∀ outcome,
      (Plan.send receiver name args).Ends machine outcome ↔ outcome = send receiver name args machine) ∧
    (∀ receiver name method args, machine.Owns receiver → (∀ arg ∈ args, machine.Owns arg) → ∀ outcome,
      (Plan.call receiver name method args).Ends machine outcome
        ↔ outcome = call receiver name method args machine) ∧
    (∀ value, machine.Owns value → ∀ outcome,
      (Plan.display value).Ends machine outcome ↔ outcome = display value machine) :=
  ⟨fun node outcome => ends_iff_eval h.wellFormed node outcome,
    fun _ name _ hreceiver hargs outcome => ends_iff_send h.wellFormed name hreceiver hargs outcome,
    fun _ name method _ hreceiver hargs outcome =>
      ends_iff_call h.wellFormed name method hreceiver hargs outcome,
    fun _ hvalue outcome => ends_iff_display h.wellFormed hvalue outcome⟩

/-- A method that does nothing but call itself, and a call of it. -/
def endless : Node :=
  .sequence [.methodDef "f" {} (.send none "f" []), .send none "f" []]

theorem evaluation_ends_endless :
    (boot { maxDepth := 3 } (.kept "")).Reachable ∧ (boot { maxDepth := 3 } (.kept "")).Owns main
    ∧ (∃ last, (ofNode endless).Ends (boot { maxDepth := 3 } (.kept "")) (.error (.tooDeep 3 3) last))
    ∧ (∃ value last, (Plan.send main "class" []).Ends (boot { maxDepth := 3 } (.kept "")) (.ok value last))
    ∧ (∃ last, (Plan.display main).Ends (boot { maxDepth := 3 } (.kept "")) (.ok "#<Object>" last)) := by
  have hreach : (boot { maxDepth := 3 } (.kept "")).Reachable := .boot _ _
  have hmain : (boot { maxDepth := 3 } (.kept "")).Owns main := Nat.zero_lt_one
  obtain ⟨heval, hsend, _, hdisplay⟩ := evaluation_ends hreach
  refine ⟨hreach, hmain, ⟨_, (heval endless _).mpr rfl⟩, ⟨_, _, (hsend main "class" [] hmain ?_ _).mpr rfl⟩,
    ⟨_, (hdisplay main hmain _).mpr rfl⟩⟩
  exact fun arg harg => absurd harg (by simp)

end Machine

end ObjectTalk

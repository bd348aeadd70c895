import ObjectTalk.Proofs.Frames
import ObjectTalk.Proofs.Plan.Values
/-!
# `Proofs.Plan.Invariant` — what holds of machines all along

An `Invariant` is a property of machines together with the values that are known to a machine that has it.
It asks for one step at a time: each step that takes known values keeps the property, and so do putting a
frame on the stack and taking it away; what was known stays known. The answers to questions about known
values are known as well. Then evaluation that is given known values keeps the property and answers with
known values (`Invariant.kept_follow`), also when it stops with a fault.
-/

namespace ObjectTalk

open Plan Progress

/-- A property of machines that each `Machine.Step` of evaluation keeps. -/
structure Invariant where
  holds : Machine → Prop
  /-- The values with which a machine may be asked to work. -/
  known : Machine → Set Value
  /-- The values for which a frame may be made. -/
  selves : Value → Prop
  basic : ∀ {machine : Machine}, holds machine → Basic selves (known machine)
  step : ∀ {machine last : Machine}, holds machine → machine.Step (known machine) last →
    holds last ∧ known machine ⊆ known last
  push : ∀ {machine : Machine} {self : Value}, holds machine → self ∈ known machine → selves self →
    holds (machine.pushed self) ∧ known machine ⊆ known (machine.pushed self)
  /-- Only a frame that was put on the stack before is taken away. -/
  pop : ∀ {machine last : Machine}, holds machine → holds last → last.popped.stack = machine.stack →
    holds last.popped ∧ known last ⊆ known last.popped
  gives : ∀ {machine : Machine} {α : Type} (question : Query α) {answer : α}, holds machine →
    question.Takes (known machine) → question.ask machine = .ok answer →
    question.Gives (known machine) answer
  alloc : ∀ {machine : Machine} {new : NewObject}, holds machine → new.Within (known machine) →
    .object machine.heap.size
      ∈ known { machine with heap := machine.heap.push (new.object machine) }
  create : ∀ {machine : Machine} {scope : ClassId} (name : String) {superclass : ClassId},
    holds machine → .classRef scope ∈ known machine → .classRef superclass ∈ known machine →
    .classRef machine.classes.size
      ∈ known { machine with classes := machine.classes.create scope name superclass }

namespace Invariant

variable (invariant : Invariant)

/-- The work keeps the invariant and loses no known value; of a result, `post` holds. -/
def Kept {α : Type} (machine : Machine) (post : Set Value → α → Prop) : Outcome α → Prop
  | .ok result last =>
    invariant.holds last ∧ invariant.known machine ⊆ invariant.known last
      ∧ post (invariant.known last) result
  | .error _ last => invariant.holds last ∧ invariant.known machine ⊆ invariant.known last

/-- The `Services` call methods and show values in ways that keep the invariant. -/
structure Served (services : Services) : Prop where
  continues : services.Alike (Respects Machine.Continues) services
  call : ∀ {machine : Machine} {receiver : Value} {args : List Value} (name : String) (method : Method),
    invariant.holds machine → receiver ∈ invariant.known machine → invariant.selves receiver →
    KnownValues (invariant.known machine) args →
    invariant.Kept machine KnownValue (services.call receiver name method args machine)
  display : ∀ {machine : Machine} {value : Value}, invariant.holds machine →
    value ∈ invariant.known machine →
    invariant.Kept machine Plain (services.display value machine)

variable {invariant}

/-- An `Invariant` is kept by `Machine.Steps`, as by each step. -/
theorem steps {machine last : Machine} (h : invariant.holds machine)
    (hsteps : machine.Steps (invariant.known machine) last) :
    invariant.holds last ∧ invariant.known machine ⊆ invariant.known last := by
  induction hsteps with
  | refl => exact ⟨h, subset_rfl⟩
  | tail _ hstep ih =>
      obtain ⟨hmiddle, hle⟩ := ih
      obtain ⟨hlast, hle'⟩ := invariant.step hmiddle (hstep.mono hle)
      exact ⟨hlast, hle.trans hle'⟩

/-- For `Kept` the machine is looked at whatever the outcome is, the result only if there is one. -/
theorem kept_of_after {α : Type} {work : Run α} {machine : Machine} {post : Set Value → α → Prop}
    (hafter : invariant.holds (work.after machine)
      ∧ invariant.known machine ⊆ invariant.known (work.after machine))
    (hpost : ∀ result last, work machine = .ok result last → post (invariant.known last) result) :
    invariant.Kept machine post (work machine) := by
  rw [Run.after] at hafter
  cases hwork : work machine with
  | ok result last =>
      rw [hwork] at hafter
      exact ⟨hafter.1, hafter.2, hpost result last hwork⟩
  | error fault last =>
      rw [hwork] at hafter
      exact hafter

/-- A class that `Run.declare` gives is one that the namespace has, or a new one. -/
theorem known_of_declare {scope : ClassId} {name : String} {superclass : Option ClassId}
    {machine last : Machine} {id : ClassId} (h : invariant.holds machine)
    (hscope : .classRef scope ∈ invariant.known machine)
    (hsuper : .classRef (superclass.getD ClassId.root) ∈ invariant.known machine)
    (hrun : Run.declare scope name superclass machine = .ok id last) :
    .classRef id ∈ invariant.known last := by
  rw [Run.declare_apply] at hrun
  cases hc : machine.classes.constant? scope name with
  | none =>
      rw [hc] at hrun
      cases hrun
      -- the class is known once it is made, and stays known when the journal mentions it
      have hnew := invariant.create name h hscope hsuper
      have hcreated := (invariant.step h (.create scope name _ hscope hsuper hc)).1
      exact (invariant.step hcreated (.log _)).2 hnew
  | some value =>
      rw [hc] at hrun
      cases value with
      | nil => cases hrun
      | object id => cases hrun
      | classRef found =>
          cases hrun
          have hfound : (Query.constant scope name).ask machine = .ok (.classRef id) := by
            simp only [Query.ask, hc]
          exact (invariant.step h (.log _)).2 (invariant.gives (.constant scope name) h hscope hfound)

/-- A `Change` keeps the invariant, and what it gives is known. -/
theorem kept_change {α : Type} (change : Change α) {machine : Machine} (h : invariant.holds machine)
    (htakes : change.Takes (invariant.known machine)) :
    invariant.Kept machine (fun known => change.Gives known) (change.run machine) := by
  refine kept_of_after (steps h (change.steps_run htakes machine)) fun result last hrun => ?_
  cases change with
  | alloc new =>
      rw [Change.run_alloc] at hrun
      cases hrun
      exact invariant.alloc h htakes
  | declare scope name superclass => exact known_of_declare h htakes.1 htakes.2 hrun
  | _ => trivial

theorem kept_query {α : Type} (query : Query α) {machine : Machine} (h : invariant.holds machine)
    (htakes : query.Takes (invariant.known machine)) :
    invariant.Kept machine (fun known => query.Gives known) (query.run machine) := by
  rw [Query.run_eq_outcome]
  cases hask : query.ask machine with
  | ok answer => exact ⟨h, subset_rfl, invariant.gives query h htakes hask⟩
  | error fault => exact ⟨h, subset_rfl⟩

/-- Less may be claimed of a result than `Kept` says. -/
theorem Kept.imp {α : Type} {machine : Machine} {outcome : Outcome α} {post post' : Set Value → α → Prop}
    (h : invariant.Kept machine post outcome)
    (himp : ∀ known result, invariant.known machine ⊆ known → post known result → post' known result) :
    invariant.Kept machine post' outcome := by
  cases outcome with
  | ok result last => exact ⟨h.1, h.2.1, himp _ result h.2.1 h.2.2⟩
  | error fault last => exact h

theorem kept_bind {α β : Type} {first : Run α} {next : α → Run β} {machine : Machine}
    {post : Set Value → β → Prop} {between : Set Value → α → Prop}
    (hfirst : invariant.Kept machine between (first machine))
    (hnext : ∀ result last, invariant.holds last → between (invariant.known last) result →
      invariant.Kept last post (next result last)) :
    invariant.Kept machine post ((first >>= next) machine) := by
  rw [Run.bind_apply]
  cases hf : first machine with
  | error fault last =>
      rw [hf] at hfirst
      exact hfirst
  | ok result last =>
      rw [hf] at hfirst
      obtain ⟨hlast, hle, hbetween⟩ := hfirst
      have hrest := hnext result last hlast hbetween
      show invariant.Kept machine post (next result last)
      cases hn : next result last with
      | error fault end' =>
          rw [hn] at hrest
          exact ⟨hrest.1, hle.trans hrest.2⟩
      | ok result' end' =>
          rw [hn] at hrest
          exact ⟨hrest.1, hle.trans hrest.2.1, hrest.2.2⟩

/-- `Kept` for what is done to the machine at the end of a frame or a call, where the known values may only grow. -/
theorem Kept.through {α : Type} {machine first : Machine} {outcome : Outcome α}
    {change : Machine → Machine} {post : Set Value → α → Prop}
    (hle : invariant.known machine ⊆ invariant.known first)
    (h : invariant.Kept first (fun inside result => ∀ most, inside ⊆ most → post most result) outcome)
    (hchange : invariant.holds outcome.machine → invariant.holds (change outcome.machine)
      ∧ invariant.known outcome.machine ⊆ invariant.known (change outcome.machine)) :
    invariant.Kept machine post (Outcome.through change outcome) := by
  cases outcome with
  | ok result last =>
      obtain ⟨hlast, hle', hpost⟩ := h
      obtain ⟨hend, hle''⟩ := hchange hlast
      exact ⟨hend, (hle.trans hle').trans hle'', hpost _ hle''⟩
  | error fault last =>
      obtain ⟨hend, hle''⟩ := hchange h.1
      exact ⟨hend, (hle.trans h.2).trans hle''⟩

/-- Following a plan `Within` the known values keeps the invariant if the `Services` do. -/
theorem kept_follow_of_served {services : Services} (hs : invariant.Served services) {α : Type}
    (plan : Plan α) {machine : Machine} {post : Set Value → α → Prop} (h : invariant.holds machine)
    (hplan : plan.Within invariant.selves (invariant.known machine) post) :
    invariant.Kept machine post (plan.follow services machine) := by
  induction plan generalizing machine with
  | done result => exact ⟨h, subset_rfl, hplan⟩
  | stop fault => exact ⟨h, subset_rfl⟩
  | query question =>
      exact (kept_query question h hplan.1).imp fun known answer hle => hplan.2 known hle answer
  | change step =>
      exact (kept_change step h hplan.1).imp fun known result hle => hplan.2 known hle result
  | andThen first next ihf ihn =>
      exact kept_bind (ihf h hplan) fun result last hlast hnext => ihn result hlast hnext
  | inFrame self body ih =>
      show invariant.Kept machine post (Run.inFrame self (body.follow services) machine)
      rw [Run.inFrame_apply]
      by_cases hroom : machine.stack.depth < machine.settings.maxDepth
      · rw [if_pos hroom]
        obtain ⟨hself, hadmitted, hbody⟩ := hplan
        obtain ⟨hpushed, hle⟩ := invariant.push h hself hadmitted
        -- whatever the body did, the frame that is taken away is the one that was put there
        have hcontinues := Machine.continues_progress.respects_follow body hs.continues
          (machine.pushed self)
        exact (ih hpushed (hbody _ hle)).through hle fun hlast =>
          invariant.pop h hlast (CallStack.pop_of_continues_push hcontinues.stack)
      · rw [if_neg hroom]
        exact ⟨h, subset_rfl⟩
  | inCall method body ih =>
      show invariant.Kept machine post (Run.inCall method (body.follow services) machine)
      rw [Run.inCall_apply]
      obtain ⟨hentered, hle⟩ := invariant.step h (.log (.entered method))
      exact (ih hentered (hplan _ hle)).through hle fun hlast => invariant.step hlast (.log (.left method))
  | call receiver name method args =>
      obtain ⟨hreceiver, hself, hargs, hpost⟩ := hplan
      exact (hs.call name method h hreceiver hself hargs).imp fun known value hle => hpost known hle value
  | display value =>
      exact (hs.display h hplan.1).imp fun known text hle => hplan.2 known hle text
  | overflow => exact ⟨h, subset_rfl⟩

theorem served_idle : invariant.Served .idle where
  continues := Services.idle_alike Machine.continues_progress.respected
  call _ _ h _ _ _ := ⟨h, subset_rfl, (invariant.basic h).nil⟩
  display h _ := ⟨h, subset_rfl, trivial⟩

/-- If calls keep the invariant, so does `displayUpTo`, however deep arrays stand in one another. -/
theorem served_displayUpTo {services : Services} (hs : invariant.Served services) (levels : Nat) :
    invariant.Served ⟨services.call, displayUpTo services.call levels⟩ := by
  refine ⟨Services.displayUpTo_alike Machine.continues_progress.respected hs.continues.call levels,
    hs.call, ?_⟩
  induction levels with
  | zero =>
      intro machine value h hvalue
      show invariant.Kept machine Plain (displayUpTo services.call 0 value machine)
      rw [displayUpTo_zero services]
      exact kept_follow_of_served hs _ h
        (within_displayedFlat (invariant.basic h) hvalue fun _ _ _ _ => trivial)
  | succ levels ih =>
      intro machine value h hvalue
      have hcontinues :=
        Services.displayUpTo_alike Machine.continues_progress.respected hs.continues.call levels
      have hinner : invariant.Served ⟨services.call, displayUpTo services.call levels⟩ :=
        ⟨hcontinues, hs.call, ih⟩
      show invariant.Kept machine Plain (displayUpTo services.call (levels + 1) value machine)
      rw [displayUpTo_succ]
      exact kept_follow_of_served hinner _ h
        (within_displayed (invariant.basic h) hvalue fun _ _ _ _ => trivial)

theorem served_ofCaller {call : Caller}
    (hcontinues : ∀ receiver name method args,
      Respects Machine.Continues (call receiver name method args) (call receiver name method args))
    (hcall : ∀ {machine : Machine} {receiver : Value} {args : List Value} (name : String) (method : Method),
      invariant.holds machine → receiver ∈ invariant.known machine → invariant.selves receiver →
      KnownValues (invariant.known machine) args →
      invariant.Kept machine KnownValue (call receiver name method args machine)) :
    invariant.Served (.ofCaller call) := by
  have hidle : invariant.Served .idle := served_idle
  have hs : invariant.Served ⟨call, Services.idle.display⟩ :=
    ⟨⟨hcontinues, hidle.continues.display⟩, hcall, hidle.display⟩
  refine ⟨Services.ofCaller_alike Machine.continues_progress.respected hcontinues, hcall, ?_⟩
  intro machine value h hvalue
  exact (served_displayUpTo hs value.rank).display h hvalue

/-- `Services.within` keep the invariant. By induction on the room left: a call is made by its plan, with one frame
    less to go. -/
theorem served_within (room : Nat) : invariant.Served (.within room) := by
  have hcontinues := fun room => (Services.within_alike Machine.continues_progress.respected room).call
  induction room with
  | zero =>
      refine served_ofCaller (hcontinues 0) fun {machine receiver args} name method h _ _ _ => ?_
      rw [callWithin_zero .idle]
      exact kept_follow_of_served served_idle _ h (within_refused name method args)
  | succ room ih =>
      refine served_ofCaller (hcontinues (room + 1)) ?_
      intro machine receiver args name method h hreceiver hself hargs
      rw [callWithin_succ]
      exact kept_follow_of_served ih _ h
        (within_called (invariant.basic h) name method hreceiver hself hargs fun _ _ _ hvalue => hvalue)

/-- **Evaluation that is `Within` the known values keeps the invariant**, with any room left. -/
theorem kept_follow {α : Type} (plan : Plan α) (room : Nat) {machine : Machine}
    {post : Set Value → α → Prop} (h : invariant.holds machine)
    (hplan : plan.Within invariant.selves (invariant.known machine) post) :
    invariant.Kept machine post (plan.follow (.within room) machine) :=
  kept_follow_of_served (served_within room) plan h hplan

/-! ## The ways to evaluate -/

theorem kept_eval (node : Node) {machine : Machine} (h : invariant.holds machine) :
    invariant.Kept machine KnownValue (Machine.eval node machine) := by
  rw [Machine.eval_eq_follow]
  exact kept_follow _ _ h (within_ofNode node (invariant.basic h) fun _ _ _ hvalue => hvalue)

theorem kept_run (program : Node) {machine : Machine} (h : invariant.holds machine) :
    invariant.Kept machine KnownValue (Machine.run program machine) := by
  have heval := kept_eval program h
  rw [Machine.run]
  cases houtcome : Machine.eval program machine with
  | ok value last =>
      rw [houtcome] at heval
      exact heval
  | error fault last =>
      rw [houtcome] at heval
      obtain ⟨hlast, hle⟩ := invariant.step heval.1 (.log (.aborted fault))
      exact ⟨hlast, heval.2.trans hle⟩

theorem kept_send (name : String) {machine : Machine} {receiver : Value} {args : List Value}
    (h : invariant.holds machine) (hreceiver : receiver ∈ invariant.known machine)
    (hargs : KnownValues (invariant.known machine) args) :
    invariant.Kept machine KnownValue (Machine.send receiver name args machine) := by
  rw [Machine.send_eq_follow]
  exact kept_follow _ _ h
    (within_send (invariant.basic h) name hreceiver hargs fun _ _ _ hvalue => hvalue)

theorem kept_call (name : String) (method : Method) {machine : Machine} {receiver : Value}
    {args : List Value} (h : invariant.holds machine) (hreceiver : receiver ∈ invariant.known machine)
    (hself : invariant.selves receiver) (hargs : KnownValues (invariant.known machine) args) :
    invariant.Kept machine KnownValue (Machine.call receiver name method args machine) :=
  (served_within machine.room).call name method h hreceiver hself hargs

theorem kept_display {machine : Machine} {value : Value} (h : invariant.holds machine)
    (hvalue : value ∈ invariant.known machine) :
    invariant.Kept machine Plain (Machine.display value machine) :=
  (served_within machine.room).display h hvalue

/-- If the invariant is `Kept`, it holds of the machine whatever the outcome is. -/
theorem Kept.after {α : Type} {work : Run α} {machine : Machine} {post : Set Value → α → Prop}
    (h : invariant.Kept machine post (work machine)) : invariant.holds (work.after machine) := by
  rw [Run.after]
  cases hwork : work machine with
  | ok result last =>
      rw [hwork] at h
      exact h.1
  | error fault last =>
      rw [hwork] at h
      exact h.1

/-! ## Stronger invariants -/

/-- The `Invariant` with a further property, about the same values; fewer selves may be admitted, but all that
    evaluation makes frames for. -/
def strengthen (base : Invariant) (extra : Machine → Prop) (selves : Value → Prop)
    (hfewer : ∀ value, selves value → base.selves value) (hselves : ∀ value, value ≠ .nil → selves value)
    (hstep : ∀ {machine last : Machine}, base.holds machine → base.holds last → extra machine →
      machine.Step (base.known machine) last → extra last)
    (hpush : ∀ {machine : Machine} {self : Value}, extra machine → selves self →
      extra (machine.pushed self))
    (hpop : ∀ {machine : Machine}, extra machine → extra machine.popped) : Invariant where
  holds machine := base.holds machine ∧ extra machine
  known := base.known
  selves := selves
  basic h := ⟨(base.basic h.1).nil, (base.basic h.1).root, hselves⟩
  step h hmade := by
    obtain ⟨hlast, hle⟩ := base.step h.1 hmade
    exact ⟨⟨hlast, hstep h.1 hlast h.2 hmade⟩, hle⟩
  push h hself hadmitted := by
    obtain ⟨hpushed, hle⟩ := base.push h.1 hself (hfewer _ hadmitted)
    exact ⟨⟨hpushed, hpush h.2 hadmitted⟩, hle⟩
  pop h hlast hstack := by
    obtain ⟨hpopped, hle⟩ := base.pop h.1 hlast.1 hstack
    exact ⟨⟨hpopped, hpop hlast.2⟩, hle⟩
  gives question := by
    intro answer h htakes hask
    exact base.gives question h.1 htakes hask
  alloc h hnew := base.alloc h.1 hnew
  create {_ _} name {_} h hscope hsuper := base.create name h.1 hscope hsuper

end Invariant

end ObjectTalk

import ObjectTalk.Proofs.DepthBound
import ObjectTalk.Proofs.Watching
/-!
# `Proofs.Bracketing` — what the journal says about calls

A call is recorded where it begins and where it ends, and it ends however its body does. So the events of calls are
nested like brackets, each end with the name of the beginning to which it belongs (`openCalls`).

Between the two, the body is done in a frame of its own. Hence the depth at which a node is recorded is the depth
at which evaluation began, with one more for each call that is open there; class definitions, whose bodies have
frames of their own, may add to that (`Transcript`). How far the frames that are made have been accounted for by
events is what `Run.Recorded` keeps count of.
-/

namespace ObjectTalk

open Plan

/-! ## Open calls -/

namespace Event

/-- The calls that are open after the `Event`, the innermost first. The event may end the innermost call only. -/
def track (calls : List String) : Event → Option (List String)
  | entered method => some (method :: calls)
  | left method =>
    match calls with
    | [] => none
    | innermost :: outer => if innermost = method then some outer else none
  | _ => some calls

/-- The `Event` begins or ends a call. -/
def marksCall : Event → Bool
  | entered _ | left _ => true
  | _ => false

/-- The `Event` says that a class definition is about to be evaluated. -/
def isClassDef : Event → Bool
  | evaluating kind _ => kind == "class-def"
  | _ => false

/-- An event that does not `marksCall` leaves the open calls alone. -/
theorem track_of_unmarked {event : Event} (h : event.marksCall = false) (calls : List String) :
    event.track calls = some calls := by
  cases event with
  | entered method => cases h
  | left method => cases h
  | _ => rfl

/-- Calls further out do not matter to `track`. -/
theorem track_append {event : Event} {calls after : List String} (h : event.track calls = some after)
    (outer : List String) : event.track (calls ++ outer) = some (after ++ outer) := by
  cases event with
  | left method =>
      cases calls with
      | nil => cases h
      | cons innermost rest =>
          have hleft : (if innermost = method then some rest else none) = some after := h
          show (if innermost = method then some (rest ++ outer) else none) = _
          split at hleft
          · rename_i heq
            cases hleft
            rw [if_pos heq]
          · cases hleft
  | _ =>
      cases h
      rfl

end Event

/-- The calls that are open after the events, by `Event.track`; none if a call ends that is not the innermost of
    those that have begun. -/
def openCalls (events : List Event) : Option (List String) := events.foldlM Event.track []

section

variable {events before after : List Event} {calls : List String}

theorem foldlM_track_append (events : List Event) (outer : List String) : ∀ {calls after : List String},
    events.foldlM Event.track calls = some after →
      events.foldlM Event.track (calls ++ outer) = some (after ++ outer) := by
  induction events with
  | nil =>
      intro calls after h
      cases h
      rfl
  | cons event events ih =>
      intro calls after h
      rw [List.foldlM_cons] at h ⊢
      obtain ⟨middle, hevent, hrest⟩ := Option.bind_eq_some_iff.mp h
      rw [Event.track_append hevent outer]
      exact ih hrest

theorem openCalls_append (h : openCalls before = some []) (after : List Event) :
    openCalls (before ++ after) = openCalls after := by
  rw [openCalls] at h
  rw [openCalls, List.foldlM_append, h]
  rfl

/-- Within a call, that call is among the `openCalls` as well. -/
theorem openCalls_entered (method : String) (h : openCalls events = some calls) :
    openCalls (.entered method :: events) = some (calls ++ [method]) :=
  foldlM_track_append events [method] h

/-- A call is no longer among the `openCalls` when it has ended, with what it has recorded. -/
theorem openCalls_call (method : String) (h : openCalls events = some []) :
    openCalls (.entered method :: (events ++ [.left method])) = some [] := by
  have hbody : events.foldlM Event.track [method] = some [method] := foldlM_track_append events [method] h
  show (events ++ [Event.left method]).foldlM Event.track [method] = some []
  rw [List.foldlM_append, hbody]
  simp [Event.track]

end

/-! ## Transcripts -/

/-- Events of an evaluation that begins at the depth `start` where the depth is at most `limit`. Calls are nested
    (`openCalls`). Nodes are recorded at no less than the depth of the start and of the calls that are open; if the
    transcript is `exact`, at just that depth, until a class definition has been recorded. -/
structure Transcript (start limit : Nat) (exact : Bool) (events : List Event) : Prop where
  balanced : openCalls events = some []
  depths : ∀ {before kind depth after}, events = before ++ .evaluating kind depth :: after →
    ∃ calls, openCalls before = some calls ∧ start + calls.length ≤ depth ∧ depth ≤ limit
      ∧ (exact = true → (∀ event ∈ before, event.isClassDef = false) → depth = start + calls.length)

/-- An element of `first ++ second` stands in the first one, or in the second one after all of the first. -/
theorem append_eq_append_cons {α : Type} {first second before after : List α} {element : α}
    (h : first ++ second = before ++ element :: after) :
    (∃ rest, first = before ++ element :: rest)
      ∨ ∃ part, before = first ++ part ∧ second = part ++ element :: after := by
  rcases List.append_eq_append_iff.mp h with ⟨part, hbefore, hsecond⟩ | ⟨part, hfirst, hrest⟩
  · exact .inr ⟨part, hbefore, hsecond⟩
  · cases part with
    | nil => exact .inr ⟨[], by simpa using hfirst.symm, hrest.symm⟩
    | cons found rest =>
        obtain ⟨rfl, _⟩ := List.cons.inj hrest
        exact .inl ⟨rest, hfirst⟩

namespace Transcript

variable {start limit : Nat} {exact exact' : Bool} {events events' : List Event}

/-- Events that record no node are a `Transcript` if their calls are nested. -/
theorem of_untraced (hbalanced : openCalls events = some [])
    (huntraced : ∀ event ∈ events, event.isTrace = false) : Transcript start limit exact events := by
  refine ⟨hbalanced, ?_⟩
  intro before kind depth after hsplit
  have htrace := huntraced (.evaluating kind depth) (by rw [hsplit]; simp)
  cases htrace

theorem nil : Transcript start limit exact [] := of_untraced rfl (by simp)

/-- An event of no call is a `Transcript`; if it records a node, then at the depth of the start. -/
theorem single {event : Event} (hle : start ≤ limit) (hunmarked : event.marksCall = false)
    (hdepth : ∀ kind depth, event = .evaluating kind depth → depth = start) :
    Transcript start limit exact [event] := by
  have hbalanced : openCalls [event] = some [] := by
    rw [openCalls, List.foldlM_cons, Event.track_of_unmarked hunmarked]
    rfl
  refine ⟨hbalanced, ?_⟩
  intro before kind depth after hsplit
  rcases List.cons_eq_append_iff.mp hsplit with ⟨rfl, heq⟩ | ⟨rest, _, hrest⟩
  · obtain rfl := hdepth kind depth (List.cons.inj heq).1.symm
    exact ⟨[], rfl, Nat.le_refl _, hle, fun _ _ => rfl⟩
  · simp at hrest

/-- An exact `Transcript` is one that need not be exact. -/
theorem weaken (h : Transcript start limit true events) (exact : Bool) : Transcript start limit exact events := by
  refine ⟨h.balanced, ?_⟩
  intro before kind depth after hsplit
  obtain ⟨calls, hcalls, hle, hlimit, hexact⟩ := h.depths hsplit
  exact ⟨calls, hcalls, hle, hlimit, fun _ => hexact rfl⟩

/-- A `Transcript` that is deeper than it has to be is not exact. -/
theorem lower (h : Transcript (start + 1) limit exact events) : Transcript start limit false events := by
  refine ⟨h.balanced, ?_⟩
  intro before kind depth after hsplit
  obtain ⟨calls, hcalls, hle, hlimit, _⟩ := h.depths hsplit
  exact ⟨calls, hcalls, by omega, hlimit, fun hexact => absurd hexact (by decide)⟩

/-- One `Transcript` after another. The second one need not be exact after a class definition. -/
theorem append (h : Transcript start limit exact events) (h' : Transcript start limit exact' events')
    (hexact : exact = true → exact' = true ∨ ∃ event ∈ events, event.isClassDef = true) :
    Transcript start limit exact (events ++ events') := by
  refine ⟨(openCalls_append h.balanced events').trans h'.balanced, ?_⟩
  intro before kind depth after hsplit
  rcases append_eq_append_cons hsplit with ⟨rest, hfirst⟩ | ⟨part, rfl, hsecond⟩
  · exact h.depths hfirst
  · obtain ⟨calls, hcalls, hle, hlimit, hdepth⟩ := h'.depths hsecond
    refine ⟨calls, (openCalls_append h.balanced part).trans hcalls, hle, hlimit, fun hrequired hnone => ?_⟩
    rcases hexact hrequired with hexact' | ⟨event, hevent, hclass⟩
    · exact hdepth hexact' fun event hevent => hnone event (List.mem_append_right _ hevent)
    · have hfree := hnone event (List.mem_append_left _ hevent)
      rw [hclass] at hfree
      cases hfree

/-- A `Transcript` of a call, whose body is one deeper. -/
theorem call (method : String) (h : Transcript (start + 1) limit exact events) :
    Transcript start limit exact (.entered method :: (events ++ [.left method])) := by
  refine ⟨openCalls_call method h.balanced, ?_⟩
  intro before kind depth after hsplit
  rcases List.cons_eq_append_iff.mp hsplit with ⟨_, heq⟩ | ⟨inner, rfl, hinner⟩
  · cases heq
  · rcases append_eq_append_cons hinner with ⟨rest, hbody⟩ | ⟨part, _, hlast⟩
    · obtain ⟨calls, hcalls, hle, hlimit, hdepth⟩ := h.depths hbody
      have hlength : (calls ++ [method]).length = calls.length + 1 := by simp
      refine ⟨calls ++ [method], openCalls_entered method hcalls, by omega, hlimit, fun hexact hnone => ?_⟩
      have hinside := hdepth hexact fun event hevent => hnone event (List.mem_cons_of_mem _ hevent)
      omega
    · -- the end of the call records no node
      rcases List.cons_eq_append_iff.mp hlast with ⟨_, heq⟩ | ⟨_, _, heq⟩
      · cases heq
      · simp at heq

end Transcript

/-! ## Runs -/

/-- The machine after something has been done, with the events that this has recorded. Frames of which the events
    do not tell may have been made, `rise` of them below all nodes that are recorded. -/
structure Machine.Records (rise : Nat) (exact : Bool) (events : List Event) (machine last : Machine) : Prop where
  continues : machine.Continues last
  journal : last.journal.toList = machine.journal.toList ++ events
  transcript : Transcript (machine.stack.depth + rise) (max 1 machine.settings.maxDepth) exact events
  untraced : machine.settings.trace = false → ∀ event ∈ events, event.isTrace = false

/-- The stack is no deeper than `Settings.maxDepth` allows. -/
def Machine.Bounded (machine : Machine) : Prop := machine.stack.depth ≤ max 1 machine.settings.maxDepth

/-- Where the machine is `Machine.Bounded`, the work records a `Transcript`. -/
def Run.Recorded (rise : Nat) (exact : Bool) {α : Type} (work : Run α) : Prop :=
  ∀ machine : Machine, machine.Bounded → ∃ events, machine.Records rise exact events (work.after machine)

/-- The `Event` is of no call; if it says that a node is evaluated, the machine traces and has the depth it says. -/
structure Event.InPlace (machine : Machine) (event : Event) : Prop where
  unmarked : event.marksCall = false
  trace : ∀ kind depth, event = .evaluating kind depth →
    machine.settings.trace = true ∧ depth = machine.stack.depth

theorem Event.inPlace_trace {machine : Machine} (htrace : machine.settings.trace = true) (kind : String) :
    Event.InPlace machine (.evaluating kind machine.stack.depth) := by
  refine ⟨rfl, ?_⟩
  rintro _ _ ⟨⟩
  exact ⟨htrace, rfl⟩

namespace Machine

variable {rise : Nat} {exact exact' : Bool} {events events' : List Event} {machine middle last : Machine}

/-- A machine stays `Bounded` as long as it goes on with its stack. -/
theorem Bounded.continues (h : machine.Bounded) (hlast : machine.Continues last) : last.Bounded := by
  rw [Bounded, hlast.stack.depth, hlast.settings]
  exact h

theorem journal_log (machine : Machine) (event : Event) :
    (machine.log event).journal.toList = machine.journal.toList ++ [event] :=
  Array.toList_push

/-- What two stretches record, they record one after the other: `Transcript.append`. -/
theorem Records.trans (h : machine.Records rise exact events middle) (h' : middle.Records rise exact' events' last)
    (hexact : exact = true → exact' = true ∨ ∃ event ∈ events, event.isClassDef = true) :
    machine.Records rise exact (events ++ events') last where
  continues := continues_progress.trans h.continues h'.continues
  journal := by rw [h'.journal, h.journal, List.append_assoc]
  transcript := by
    have hrest := h'.transcript
    rw [h.continues.stack.depth, h.continues.settings] at hrest
    exact h.transcript.append hrest hexact
  untraced htrace event hevent := by
    rcases List.mem_append.mp hevent with hfirst | hsecond
    · exact h.untraced htrace event hfirst
    · exact h'.untraced (by rw [h.continues.settings, htrace]) event hsecond

theorem Records.of_journal_eq (hcontinues : machine.Continues last) (hjournal : last.journal = machine.journal) :
    machine.Records rise exact [] last where
  continues := hcontinues
  journal := by rw [hjournal, List.append_nil]
  transcript := .nil
  untraced := by simp

theorem Records.refl (machine : Machine) : machine.Records rise exact [] machine :=
  .of_journal_eq (continues_progress.refl machine) rfl

/-- What is recorded by one event that is `Event.InPlace`. -/
theorem Records.single {event : Event} (hbound : machine.Bounded) (hevent : event.InPlace machine)
    (hcontinues : machine.Continues last) (hjournal : last.journal = machine.journal.push event) :
    machine.Records 0 exact [event] last where
  continues := hcontinues
  journal := by rw [hjournal, Array.toList_push]
  transcript := .single hbound hevent.unmarked fun kind depth heq => (hevent.trace kind depth heq).2
  untraced hoff other hother := by
    rw [List.mem_singleton.mp hother]
    cases event with
    | evaluating kind depth =>
        have hon := (hevent.trace kind depth rfl).1
        rw [hoff] at hon
        cases hon
    | _ => rfl

theorem Records.log {event : Event} (hbound : machine.Bounded) (hevent : event.InPlace machine) :
    machine.Records 0 exact [event] (machine.log event) :=
  .single hbound hevent (continues_progress.step (.log event)) rfl

end Machine

namespace Run

variable {rise : Nat} {exact : Bool} {α β : Type}

theorem Recorded.weaken {work : Run α} (h : Recorded rise true work) (exact : Bool) :
    Recorded rise exact work := by
  intro machine hbound
  obtain ⟨events, hrecords⟩ := h machine hbound
  exact ⟨events, hrecords.continues, hrecords.journal, hrecords.transcript.weaken exact, hrecords.untraced⟩

/-- Work that changes nothing is `Recorded`, whether it ends with a result or with a fault. -/
theorem recorded_of_still {work : Run α} (h : ∀ machine, work.after machine = machine) :
    Recorded rise exact work := by
  intro machine _
  refine ⟨[], ?_⟩
  rw [h machine]
  exact .refl machine

/-- `Recorded` is closed under `>>=`. -/
theorem recorded_bind {first : Run α} {next : α → Run β} (hfirst : Recorded rise exact first)
    (hnext : ∀ result, Recorded rise exact (next result)) : Recorded rise exact (first >>= next) := by
  intro machine hbound
  obtain ⟨events, hrecords⟩ := hfirst machine hbound
  rw [Run.after] at hrecords ⊢
  rw [bind_apply]
  cases houtcome : first machine with
  | ok result middle =>
      rw [houtcome] at hrecords
      have hcontinues : machine.Continues middle := hrecords.continues
      obtain ⟨events', hrecords'⟩ := hnext result middle (hbound.continues hcontinues)
      exact ⟨events ++ events', hrecords.trans hrecords' .inl⟩
  | error fault last =>
      rw [houtcome] at hrecords
      exact ⟨events, hrecords⟩

/-- `Run.inFrame` makes a frame of which no event tells. -/
theorem recorded_inFrame (self : Value) {body : Run α} (h : Recorded 0 exact body) :
    Recorded 1 exact (Run.inFrame self body) := by
  intro machine _
  rw [Run.after, inFrame_apply]
  by_cases hroom : machine.stack.depth < machine.settings.maxDepth
  · rw [if_pos hroom, Outcome.machine_through]
    have hbound : (machine.pushed self).Bounded := Nat.le_trans hroom (Nat.le_max_right 1 _)
    obtain ⟨events, hrecords⟩ := h (machine.pushed self) hbound
    exact ⟨events, Machine.continues_progress.frame hrecords.continues, hrecords.journal, hrecords.transcript,
      hrecords.untraced⟩
  · rw [if_neg hroom]
    exact ⟨[], .refl machine⟩

/-- `Run.inCall`, whose body is done in a frame: the event tells of it. -/
theorem recorded_inCall (method : String) {body : Run α} (h : Recorded 1 exact body) :
    Recorded 0 exact (Run.inCall method body) := by
  intro machine hbound
  rw [Run.after, inCall_apply, Outcome.machine_through]
  obtain ⟨events, hrecords⟩ := h (machine.log (.entered method)) hbound
  rw [Run.after] at hrecords
  refine ⟨.entered method :: (events ++ [.left method]), ?_, ?_, ?_, ?_⟩
  · exact ⟨hrecords.continues.stack, hrecords.continues.settings⟩
  · rw [Machine.journal_log, hrecords.journal, Machine.journal_log]
    simp
  · exact hrecords.transcript.call method
  · intro htrace event hevent
    rcases List.mem_cons.mp hevent with rfl | hevent
    · rfl
    · rcases List.mem_append.mp hevent with hbody | hlast
      · exact hrecords.untraced htrace event hbody
      · rw [List.mem_singleton.mp hlast]
        rfl

/-- **What a `Change` can do to the journal**: nothing, or add an event that is `Event.InPlace`. -/
theorem journal_of_change (step : Change α) (machine : Machine) :
    (step.run.after machine).journal = machine.journal
      ∨ ∃ event : Event, event.InPlace machine
        ∧ (step.run.after machine).journal = machine.journal.push event := by
  cases step with
  | alloc new =>
      left
      rw [Run.after, Change.run_alloc]
      rfl
  | bindIvar target name value =>
      left
      cases target <;> rfl
  | bindLocal name value => exact .inl rfl
  | write text => exact .inl rfl
  | define id name method => exact .inr ⟨_, ⟨rfl, by simp⟩, rfl⟩
  | declare scope name superclass =>
      show (Outcome.machine (Run.declare scope name superclass machine)).journal = _
        ∨ ∃ event : Event, _ ∧ (Outcome.machine (Run.declare scope name superclass machine)).journal = _
      rw [Run.declare_apply]
      cases machine.classes.constant? scope name with
      | none => exact .inr ⟨_, ⟨rfl, by simp⟩, rfl⟩
      | some value =>
          cases value with
          | nil => exact .inl rfl
          | object id => exact .inl rfl
          | classRef id => exact .inr ⟨_, ⟨rfl, by simp⟩, rfl⟩
  | trace kind =>
      rw [Run.after, Change.run_trace]
      by_cases htrace : machine.settings.trace
      · rw [if_pos htrace]
        exact .inr ⟨_, Event.inPlace_trace htrace kind, rfl⟩
      · rw [if_neg htrace]
        exact .inl rfl

theorem recorded_change (step : Change α) : Recorded 0 exact step.run := by
  intro machine hbound
  have hcontinues := Machine.continues_progress.steps (step.steps_run step.takes_all machine)
  rcases journal_of_change step machine with hjournal | ⟨event, hevent, hjournal⟩
  · exact ⟨[], .of_journal_eq hcontinues hjournal⟩
  · exact ⟨[event], .single hbound hevent hcontinues hjournal⟩

/-- A class definition, whose body has a frame of which no event tells: what follows the `Change.trace` that records
    the definition need not be exact. Where nothing is traced, there is nothing to be exact about. -/
theorem recorded_classDef {next : Unit → Run α} (h : Recorded 0 false (next ())) :
    Recorded 0 exact ((Change.trace "class-def").run >>= next) := by
  intro machine hbound
  rw [Run.after, bind_apply, Change.run_trace]
  by_cases htrace : machine.settings.trace
  · rw [if_pos htrace]
    obtain ⟨events, hrecords⟩ := h (machine.log (.evaluating "class-def" machine.stack.depth)) hbound
    have hfirst : machine.Records 0 exact _ _ := .log hbound (Event.inPlace_trace htrace "class-def")
    exact ⟨_, hfirst.trans hrecords fun _ => .inr ⟨_, List.mem_singleton_self _, rfl⟩⟩
  · rw [if_neg htrace]
    obtain ⟨events, hrecords⟩ := h machine hbound
    have huntraced := hrecords.untraced (Bool.eq_false_iff.mpr htrace)
    exact ⟨events, hrecords.continues, hrecords.journal, .of_untraced hrecords.transcript.balanced huntraced,
      hrecords.untraced⟩

end Run

/-! ## Evaluation -/

namespace Plan

open Run

/-- **A `Regular` plan records a `Transcript`**, which is exact if the plan does not stand in a class definition. -/
theorem Regular.recorded {inside : Bool} {α : Type} {plan : Plan α} (h : plan.Regular inside) {services : Services}
    (hs : services.Alike (fun work _ => Recorded 0 true work) services) :
    Recorded 0 (!inside) (plan.follow services) := by
  induction h with
  | done => exact recorded_of_still fun _ => rfl
  | stop _ => exact recorded_of_still fun _ => rfl
  | query => exact recorded_of_still (Query.after_run _)
  | change => exact recorded_change _
  | andThen _ _ ihf ihn => exact recorded_bind ihf ihn
  | call => exact (hs.call _ _ _ _).weaken _
  | display => exact (hs.display _).weaken _
  | classDef _ ih => exact recorded_classDef ih
  | classBody _ ih =>
      intro machine hbound
      obtain ⟨events, hrecords⟩ := recorded_inFrame _ ih machine hbound
      exact ⟨events, hrecords.continues, hrecords.journal, hrecords.transcript.lower, hrecords.untraced⟩

/-- Calls and texts are `Recorded` exactly: a call makes its frame between its two events. -/
theorem respected_recorded : Plan.Respected fun work _ => Recorded 0 true work where
  done _ := recorded_of_still fun _ => rfl
  flat hs value := (regular_evaluates.displayedFlat (Set.mem_univ value)).recorded ⟨hs.call, hs.display⟩
  displayed hs value := (regular_evaluates.displayed (Set.mem_univ value)).recorded ⟨hs.call, hs.display⟩
  refused _ name _ _ := by
    refine recorded_inCall name (recorded_bind ?_ fun _ => ?_)
    · exact recorded_of_still (Query.after_run _)
    · exact recorded_of_still fun _ => rfl
  called hs receiver name method args := by
    refine recorded_inCall name (recorded_bind ?_ fun _ => ?_)
    · exact recorded_of_still (Query.after_run _)
    · exact recorded_inFrame receiver ((regular_invoke receiver name args method).recorded ⟨hs.call, hs.display⟩)

end Plan

namespace Machine

open Run

variable {machine last : Machine}

/-- `Services.within` are `Recorded` exactly. -/
theorem recorded_within (room : Nat) :
    (Services.within room).Alike (fun work _ => Recorded 0 true work) (.within room) :=
  Services.within_alike respected_recorded room

theorem recorded_eval (node : Node) : Recorded 0 true (eval node) := by
  intro machine hbound
  rw [Run.after, eval_eq_follow]
  exact (regular_ofNode node).recorded (recorded_within machine.room) machine hbound

/-- A run adds at most an event to `Machine.eval`, so it is `Recorded` as well. -/
theorem recorded_run (program : Node) : Recorded 0 true (run program) := by
  intro machine hbound
  obtain ⟨events, hrecords⟩ := recorded_eval program machine hbound
  rw [Run.after] at hrecords ⊢
  rw [run]
  cases houtcome : eval program machine with
  | ok value last =>
      rw [houtcome] at hrecords
      exact ⟨events, hrecords⟩
  | error fault last =>
      rw [houtcome] at hrecords
      have hcontinues : machine.Continues last := hrecords.continues
      have haborted : last.Records 0 true [.aborted fault] (last.log (.aborted fault)) :=
        .log (hbound.continues hcontinues) ⟨rfl, by simp⟩
      exact ⟨_, hrecords.trans haborted .inl⟩

/-- Over a `HostStep`, the calls that begin meanwhile end meanwhile. -/
theorem HostStep.balanced (h : machine.HostStep last) (hbound : machine.Bounded) :
    ∃ events, last.journal.toList = machine.journal.toList ++ events ∧ openCalls events = some [] := by
  have hrecorded : ∀ {α : Type} {work : Run α}, Recorded 0 true work →
      ∃ events, (work.after machine).journal.toList = machine.journal.toList ++ events
        ∧ openCalls events = some [] := by
    intro α work hwork
    obtain ⟨events, hrecords⟩ := hwork machine hbound
    exact ⟨events, hrecords.journal, hrecords.transcript.balanced⟩
  have hsame : last.journal = machine.journal →
      ∃ events, last.journal.toList = machine.journal.toList ++ events ∧ openCalls events = some [] :=
    fun hjournal => ⟨[], by rw [hjournal, List.append_nil], rfl⟩
  cases h with
  | run program => exact hrecorded (recorded_run program)
  | eval node => exact hrecorded (recorded_eval node)
  | send receiver name args _ _ =>
      exact hrecorded fun machine => (regular_send receiver name args).recorded (recorded_within machine.room) machine
  | call receiver name method args _ _ =>
      exact hrecorded fun machine => (recorded_within machine.room).call receiver name method args machine
  | display value _ => exact hrecorded fun machine => (recorded_within machine.room).display value machine
  | declare scope name superclass _ _ => exact hrecorded (recorded_change (.declare scope name superclass))
  | bindConstant scope name value _ _ => exact hsame rfl
  | define id name method _ => exact hrecorded (recorded_change (.define id name method))
  | alloc new _ => exact hrecorded (recorded_change (.alloc new))
  | bindIvar target name value _ _ => exact hrecorded (recorded_change (.bindIvar target name value))
  | push self _ =>
      refine hsame ?_
      rw [Run.after, Run.push_apply]
      split <;> rfl
  | pop => exact hsame rfl
  | bindLocal name value _ => exact hrecorded (recorded_change (.bindLocal name value))
  | write text => exact hrecorded (recorded_change (.write text))
  | drain => exact hsame rfl

/-- In a `Reachable` machine no call is open. -/
theorem Reachable.balanced (h : machine.Reachable) : openCalls machine.journal.toList = some [] := by
  induction h with
  | boot settings output => rfl
  | step hreach hstep ih =>
      have hupright := hreach.upright
      obtain ⟨events, hjournal, hevents⟩ := hstep.balanced hupright.depth_le
      rw [hjournal, openCalls_append ih, hevents]

/-- **The journal of calls is well bracketed**, in every `Reachable` machine and for what a run adds, whether it
    fails or not (`openCalls`). Where a run records a node, the depth is at least that at its start with one more for
    each open call, at most what the limit allows, and just that as long as no class definition has come up. -/
theorem call_journal_well_bracketed (h : machine.Reachable) :
    openCalls machine.journal.toList = some [] ∧
    ∀ program, ∃ events,
      ((run program).after machine).journal.toList = machine.journal.toList ++ events ∧
      openCalls events = some [] ∧
      ∀ before kind depth after, events = before ++ .evaluating kind depth :: after →
        ∃ calls, openCalls before = some calls ∧
          machine.stack.depth + calls.length ≤ depth ∧ depth ≤ max 1 machine.settings.maxDepth ∧
          ((∀ event ∈ before, event.isClassDef = false) → depth = machine.stack.depth + calls.length) := by
  refine ⟨h.balanced, fun program => ?_⟩
  have hupright := h.upright
  obtain ⟨events, hrecords⟩ := recorded_run program machine hupright.depth_le
  refine ⟨events, hrecords.journal, hrecords.transcript.balanced, ?_⟩
  intro before kind depth after hsplit
  obtain ⟨calls, hcalls, hle, hlimit, hexact⟩ := hrecords.transcript.depths hsplit
  exact ⟨calls, hcalls, hle, hlimit, hexact rfl⟩

/-- A new machine that traces, after a program in which a method calls `puts` and opens a class. -/
def tracedCalls : Machine :=
  (run (.sequence [.methodDef "f" {} (.sequence [.send none "puts" [], .classDef none "A" none (.sequence [])]),
    .send none "f" []])).after (boot ⟨3, true⟩ (.kept ""))

theorem call_journal_well_bracketed_traced :
    (tracedCalls.Reachable
      ∧ tracedCalls.journal.toList.filter Event.marksCall
        = [.entered "f", .entered "puts", .left "puts", .left "f"]
      ∧ .evaluating "sequence" 3 ∈ tracedCalls.journal.toList)
    ∧ openCalls tracedCalls.journal.toList = some []
    ∧ (∃ events, ((run endless).after tracedCalls).journal.toList = tracedCalls.journal.toList ++ events
      ∧ openCalls events = some [])
    ∧ ∃ before after,
      ((run (.send none "f" [])).after tracedCalls).journal.toList
        = tracedCalls.journal.toList ++ (before ++ .evaluating "send" 2 :: after)
      ∧ openCalls (before ++ .evaluating "send" 2 :: after) = some []
      ∧ openCalls before = some ["f"]
      ∧ 2 = tracedCalls.stack.depth + ["f"].length ∧ 2 ≤ max 1 tracedCalls.settings.maxDepth := by
  have hreach : tracedCalls.Reachable := .step (.boot ⟨3, true⟩ (.kept "")) (.run _)
  obtain ⟨hbalanced, hruns⟩ := call_journal_well_bracketed hreach
  obtain ⟨events, hjournal, hevents, _⟩ := hruns endless
  obtain ⟨added, hadded, hnested, hdepths⟩ := hruns (.send none "f" [])
  let before : List Event := [.evaluating "send" 1, .entered "f", .evaluating "sequence" 2]
  let after : List Event := [.entered "puts", .left "puts", .evaluating "class-def" 2, .classReopened "A",
    .evaluating "sequence" 3, .left "f"]
  have hrun : ((run (.send none "f" [])).after tracedCalls).journal.toList
      = tracedCalls.journal.toList ++ (before ++ .evaluating "send" 2 :: after) := by decide +kernel
  obtain rfl : added = before ++ .evaluating "send" 2 :: after :=
    List.append_cancel_left (hadded.symm.trans hrun)
  -- the node is evaluated in the call of the method, before the class is opened
  obtain ⟨calls, hcalls, _, hlimit, hexact⟩ := hdepths before "send" 2 after rfl
  have hopen : openCalls before = some ["f"] := rfl
  obtain rfl : calls = ["f"] := Option.some.inj (hcalls.symm.trans hopen)
  exact ⟨⟨hreach, by decide +kernel, by decide +kernel⟩, hbalanced, ⟨events, hjournal, hevents⟩, before, after, hrun,
    hnested, hopen, hexact (by decide), hlimit⟩

end Machine

end ObjectTalk

import ObjectTalk.Proofs.DepthLimit
import ObjectTalk.Proofs.Plan.Course
/-!
# `Proofs.Watching` — evaluation does not depend on who watches it

What a machine has written, what it has recorded and whether it traces is never asked for in evaluation. So
machines that differ in these alone do the same. The one that shows most is the machine that keeps its text and
traces every node; what any other one would show can be told from it. `Watch.view` does that, and every run that
is seen through a watch is the run that the watch sees (`Run.Seen`).

In particular text is only ever appended, and the journal of a machine that does not trace is the journal of one
that does, without the traces.
-/

namespace ObjectTalk

open Plan

/-! ## Traces -/

namespace Event

/-- The `Event` says that a node is about to be evaluated. -/
def isTrace : Event → Bool
  | evaluating .. => true
  | _ => false

/-- The line of a trace, which begins with `TRACE`. -/
def isTraceLine (line : String) : Bool := "TRACE".toList.isPrefixOf line.toList

theorem isTraceLine_eq_false (first : Char) {line : String} (h : line.toList.head? = some first)
    (hne : first ≠ 'T') : isTraceLine line = false := by
  have hword : "TRACE".toList = 'T' :: ['R', 'A', 'C', 'E'] := by decide
  rw [isTraceLine, hword]
  cases hline : line.toList with
  | nil => rfl
  | cons other rest =>
      rw [hline, List.head?_cons, Option.some.injEq] at h
      have hne' : ('T' == other) = false := by
        rw [h]
        exact beq_eq_false_iff_ne.mpr hne.symm
      rw [List.isPrefixOf_cons_cons, hne', Bool.false_and]

/-- **Traces are known by their lines**: `isTraceLine` of the line is `isTrace` of the event. -/
theorem isTraceLine_line (event : Event) : isTraceLine event.line = event.isTrace := by
  cases event with
  | classDefined name superclass =>
      refine isTraceLine_eq_false 'D' ?_ (by decide)
      show ("DEBUG defined class class=" ++ name ++ " superclass=" ++ superclass).toList.head? = some 'D'
      simp
  | classReopened name =>
      refine isTraceLine_eq_false 'D' ?_ (by decide)
      show ("DEBUG reopened class class=" ++ name).toList.head? = some 'D'
      simp
  | methodDefined owner method =>
      refine isTraceLine_eq_false 'D' ?_ (by decide)
      show ("DEBUG defined method class=" ++ owner ++ " method=" ++ method).toList.head? = some 'D'
      simp
  | evaluating kind depth =>
      have hword : "TRACE eval kind=".toList = "TRACE".toList ++ " eval kind=".toList := rfl
      refine List.isPrefixOf_iff_prefix.mpr ?_
      show "TRACE".toList <+: ("TRACE eval kind=" ++ kind ++ " depth=" ++ toString depth).toList
      simp only [String.toList_append, hword, List.append_assoc]
      exact List.prefix_append _ _
  | entered method =>
      refine isTraceLine_eq_false 'E' ?_ (by decide)
      show ("ENTER call_method method=" ++ method).toList.head? = some 'E'
      simp
  | left method =>
      refine isTraceLine_eq_false 'E' ?_ (by decide)
      show ("EXIT call_method method=" ++ method).toList.head? = some 'E'
      simp
  | aborted fault =>
      refine isTraceLine_eq_false 'D' ?_ (by decide)
      show ("DEBUG run aborted error=" ++ fault.message).toList.head? = some 'D'
      simp

end Event

/-! ## Watches -/

/-- What somebody sees of a `Machine` that keeps its text and traces. -/
structure Watch where
  /-- Where the text goes instead. -/
  output : Output
  /-- Whether traces are seen. -/
  trace : Bool
  /-- What had been recorded before. -/
  past : Array Event

/-- The text that has been kept, written to `output` instead. -/
def Output.onto (output : Output) : Output → Output
  | kept text => output.write text
  | dropped => dropped

theorem Output.onto_write (output held : Output) (text : String) :
    output.onto (held.write text) = (output.onto held).write text := by
  cases held with
  | dropped => rfl
  | kept before =>
      cases output with
      | dropped => rfl
      | kept first => simp [onto, write, String.append_assoc]

namespace Watch

variable (watch : Watch)

/-- The part of a journal that is seen. -/
def events (journal : Array Event) : Array Event :=
  watch.past ++ if watch.trace then journal else journal.filter fun event => !event.isTrace

/-- The `Machine` as it is seen. -/
def view (machine : Machine) : Machine :=
  { machine with
    output := watch.output.onto machine.output
    settings := { machine.settings with trace := machine.settings.trace && watch.trace }
    journal := watch.events machine.journal }

theorem events_push {event : Event} (h : event.isTrace = false) (journal : Array Event) :
    watch.events (journal.push event) = (watch.events journal).push event := by
  by_cases htrace : watch.trace
  · simp only [events, htrace, if_true, Array.append_push]
  · have hfilter : (journal.push event).filter (fun event => !event.isTrace)
        = (journal.filter fun event => !event.isTrace).push event := by
      simp [h]
    rw [events, events, if_neg htrace, if_neg htrace, hfilter, Array.append_push]

/-- In `Watch.events`, a trace is recorded for those only who see traces. -/
theorem events_push_trace (kind : String) (depth : Nat) (journal : Array Event) :
    watch.events (journal.push (.evaluating kind depth))
      = if watch.trace then (watch.events journal).push (.evaluating kind depth)
        else watch.events journal := by
  by_cases htrace : watch.trace
  · simp only [events, htrace, if_true, Array.append_push]
  · simp only [events, htrace, Array.filter_push, Event.isTrace, Bool.not_true]
    rfl

theorem view_log (event : Event) (h : event.isTrace = false) (machine : Machine) :
    watch.view (machine.log event) = (watch.view machine).log event := by
  simp only [view, Machine.log, watch.events_push h]

end Watch

/-- The second run, on the `view` of a machine, is what is seen of the first run. -/
def Run.Seen (watch : Watch) {α : Type} (work work' : Run α) : Prop :=
  ∀ machine, work' (watch.view machine) = Outcome.through watch.view (work machine)

section

variable {watch : Watch} {α β : Type}

theorem Run.seen_bind {first first' : Run α} {next next' : α → Run β} (hfirst : Run.Seen watch first first')
    (hnext : ∀ result, Run.Seen watch (next result) (next' result)) :
    Run.Seen watch (first >>= next) (first' >>= next') := by
  intro machine
  rw [Run.bind_apply, Run.bind_apply, hfirst machine]
  cases first machine with
  | ok result middle => exact hnext result middle
  | error fault last => rfl

theorem Query.run_view (query : Query α) (machine : Machine) :
    query.run (watch.view machine) = Outcome.through watch.view (query.run machine) := by
  have hask : query.ask (watch.view machine) = query.ask machine := by
    cases query <;> rfl
  rw [Query.run_eq_outcome, Query.run_eq_outcome, hask]
  cases query.ask machine <;> rfl

theorem Change.run_view (change : Change α) (machine : Machine) :
    change.run (watch.view machine) = Outcome.through watch.view (change.run machine) := by
  cases change with
  | alloc new => cases new <;> rfl
  | bindIvar target name value => cases target <;> rfl
  | bindLocal name value => rfl
  | write text =>
      show EStateM.Result.ok () { watch.view machine with output := (watch.view machine).output.write text }
        = .ok () (watch.view { machine with output := machine.output.write text })
      simp only [Watch.view, Output.onto_write]
  | define id name method =>
      have hlog := watch.view_log (.methodDefined (machine.classes.name id) name) rfl machine
      show EStateM.Result.ok ()
          { (watch.view machine).log (.methodDefined (machine.classes.name id) name) with
            classes := machine.classes.define id name method }
        = .ok () (watch.view { machine.log (.methodDefined (machine.classes.name id) name) with
            classes := machine.classes.define id name method })
      rw [← hlog]
      rfl
  | declare scope name superclass =>
      show Run.declare scope name superclass (watch.view machine)
        = Outcome.through watch.view (Run.declare scope name superclass machine)
      have hsame : (watch.view machine).classes = machine.classes := rfl
      rw [Run.declare_apply, Run.declare_apply, hsame]
      cases machine.classes.constant? scope name with
      | none =>
          let classes := machine.classes.create scope name (superclass.getD ClassId.root)
          have hlog := watch.view_log
            (.classDefined (classes.name machine.classes.size) (classes.name (superclass.getD ClassId.root))) rfl
            { machine with classes }
          exact congrArg _ hlog.symm
      | some value =>
          cases value with
          | nil => rfl
          | object id => rfl
          | classRef id => exact congrArg _ (watch.view_log _ rfl machine).symm
  | trace kind =>
      -- a machine that does not trace is not seen to trace
      have hsettings : (watch.view machine).settings.trace = (machine.settings.trace && watch.trace) := rfl
      rw [Change.run_trace, Change.run_trace, hsettings]
      by_cases hmachine : machine.settings.trace
      · have hevents := watch.events_push_trace kind machine.stack.depth machine.journal
        by_cases hwatch : watch.trace
        · simp only [hmachine, hwatch, if_true] at hevents ⊢
          simp only [Outcome.through, Watch.view, Machine.log, hevents, Bool.and_self, if_true]
        · simp only [hmachine, hwatch, if_true] at hevents ⊢
          simp only [Outcome.through, Watch.view, Machine.log, hevents]
          rfl
      · simp only [hmachine]
        rfl

/-! ## Evaluation -/

/-- To `follow` a plan is `Seen` as it is done, if calls and texts are. -/
theorem Plan.seen_follow {services services' : Services} (hs : services.Alike (Run.Seen watch) services')
    (plan : Plan α) : Run.Seen watch (plan.follow services) (plan.follow services') := by
  induction plan with
  | done result => exact fun _ => rfl
  | stop fault => exact fun _ => rfl
  | query question => exact question.run_view
  | change step => exact step.run_view
  | andThen first next ihf ihn => exact Run.seen_bind ihf ihn
  | inFrame self body ih =>
      intro machine
      show Run.inFrame self (body.follow services') (watch.view machine)
        = Outcome.through watch.view (Run.inFrame self (body.follow services) machine)
      have hroom : ((watch.view machine).stack.depth < (watch.view machine).settings.maxDepth)
          = (machine.stack.depth < machine.settings.maxDepth) := rfl
      rw [Run.inFrame_apply, Run.inFrame_apply]
      simp only [hroom]
      by_cases hfits : machine.stack.depth < machine.settings.maxDepth
      · have hbody : body.follow services' ((watch.view machine).pushed self)
            = Outcome.through watch.view (body.follow services (machine.pushed self)) :=
          ih (machine.pushed self)
        rw [if_pos hfits, if_pos hfits, hbody]
        cases body.follow services (machine.pushed self) <;> rfl
      · rw [if_neg hfits, if_neg hfits]
        rfl
  | inCall method body ih =>
      intro machine
      show Run.inCall method (body.follow services') (watch.view machine)
        = Outcome.through watch.view (Run.inCall method (body.follow services) machine)
      rw [Run.inCall_apply, Run.inCall_apply, ← watch.view_log _ rfl, ih]
      cases body.follow services (machine.log (.entered method)) with
      | ok result last => exact congrArg _ (watch.view_log _ rfl last).symm
      | error fault last => exact congrArg _ (watch.view_log _ rfl last).symm
  | call receiver name method args => exact hs.call receiver name method args
  | display value => exact hs.display value
  | overflow => exact fun _ => rfl

theorem Plan.respected_seen : Plan.Respected (Run.Seen watch) where
  done _ _ := rfl
  flat hs _ := seen_follow hs _
  displayed hs _ := seen_follow hs _
  refused hs _ _ _ := seen_follow hs _
  called hs _ _ _ _ := seen_follow hs _

end

namespace Machine

/-- **A program that is run on the `view` of a machine does what is seen of its run on the machine** (`Run.Seen`). -/
theorem seen_run (watch : Watch) (program : Node) : Run.Seen watch (run program) (run program) := by
  intro machine
  have heval : eval program (watch.view machine) = Outcome.through watch.view (eval program machine) := by
    rw [eval_eq_follow, eval_eq_follow]
    exact seen_follow (Services.within_alike Plan.respected_seen machine.room) (ofNode program) machine
  rw [run, run, heval]
  cases eval program machine with
  | ok value last => rfl
  | error fault last => exact congrArg _ (watch.view_log _ rfl last).symm

/-- The machine with the output and the journal of the `Watch`, told whether to trace. -/
def watched (machine : Machine) (watch : Watch) : Machine :=
  { machine with
    output := watch.output
    settings := { machine.settings with trace := watch.trace }
    journal := watch.past }

/-- The machine `watched` so that it keeps its text and traces, and has neither written nor recorded anything yet. -/
def attentive (machine : Machine) : Machine := machine.watched ⟨.kept "", true, #[]⟩

/-- However a machine is `watched`, it is the `view` of the one that is `attentive`. -/
theorem view_attentive (machine : Machine) (watch : Watch) :
    watch.view machine.attentive = machine.watched watch := by
  have houtput : watch.output.onto (.kept "") = watch.output := by
    cases watch.output with
    | kept text => simp [Output.onto, Output.write]
    | dropped => rfl
  have hjournal : watch.events #[] = watch.past := by
    simp [Watch.events]
  simp only [Watch.view, attentive, watched, houtput, hjournal, Bool.true_and]

/-- A machine that is `attentive` keeps all that a program writes, and keeps its settings. -/
theorem attentive_run (machine : Machine) (program : Node) :
    ∃ text, ((run program).after machine.attentive).output = .kept text
      ∧ ((run program).after machine.attentive).settings = { machine.settings with trace := true } := by
  obtain ⟨text, htext⟩ := appends_progress.reaches_run program machine.attentive
  exact ⟨"" ++ text, Output.eq_kept_of_text? htext, (continues_run program machine.attentive).settings⟩

/-- **Neither output nor tracing ever influences evaluation, and output is only appended.** However a machine is
    `watched`, a program ends with the same result or fault, classes, objects and stack, and adds the same text to
    the output. It adds the same to the journal, except that lines for which `isTraceLine` holds are there only if
    the machine traces. -/
theorem output_and_trace_never_influence_evaluation (machine : Machine) (program : Node) :
    ∃ (result : Except Fault Value) (classes : Hierarchy) (heap : Heap) (stack : CallStack) (text : String)
      (traced untraced : List Event),
      untraced.map Event.line = (traced.map Event.line).filter (fun line => !Event.isTraceLine line) ∧
      ∀ watch : Watch, ∃ output,
        output.text? = watch.output.text?.map (· ++ text) ∧
        Outcome.result (run program (machine.watched watch)) = result ∧
        (run program).after (machine.watched watch)
          = { classes, heap, stack, output
              settings := { machine.settings with trace := watch.trace }
              journal := watch.past ++ (if watch.trace then traced else untraced).toArray } := by
  obtain ⟨text, htext, hsettings⟩ := attentive_run machine program
  rw [Run.after] at htext hsettings
  generalize houtcome : run program machine.attentive = outcome at htext hsettings
  -- all that any of the machines shows is seen in this one outcome
  generalize hlast : Outcome.machine outcome = last at htext hsettings
  refine ⟨Outcome.result outcome, last.classes, last.heap, last.stack, text, last.journal.toList,
    last.journal.toList.filter fun event => !event.isTrace, ?_, fun watch => ?_⟩
  · simp only [List.filter_map, Function.comp_def, Event.isTraceLine_line]
  have hseen := seen_run watch program machine.attentive
  rw [view_attentive, houtcome] at hseen
  refine ⟨watch.output.write text, Output.text?_write watch.output text, ?_, ?_⟩
  · rw [hseen]
    cases outcome <;> rfl
  · have hevents : watch.events last.journal
        = watch.past ++ (if watch.trace then last.journal.toList
            else last.journal.toList.filter fun event => !event.isTrace).toArray := by
      rw [Watch.events]
      cases watch.trace with
      | true => simp only [if_true, Array.toArray_toList]
      | false => simp only [Bool.false_eq_true, if_false, ← Array.toList_filter, Array.toArray_toList]
    rw [Run.after, hseen, Outcome.machine_through, hlast, Watch.view, htext, hsettings, hevents, Bool.true_and]
    rfl

end Machine

end ObjectTalk

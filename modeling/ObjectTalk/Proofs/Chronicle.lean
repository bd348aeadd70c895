import ObjectTalk.Proofs.Bracketing
import ObjectTalk.Proofs.Dispatch
import ObjectTalk.Proofs.Namespaces
import ObjectTalk.Proofs.Sequencing
/-!
# `Proofs.Chronicle` — what the journal says about definitions

The class hierarchy and the journal are written at the same places of an evaluation, but not by the same hand: a class
is made and then recorded, a method is recorded and then stored. That the two agree is shown change by change
(`Plan.accounts_change`) and carried along the evaluation, through whatever is defined in scopes, superclasses,
arguments and the methods that are called, and also when it ends with a fault (`Plan.Ends.accounts`).

`Machine.Chronicles` compares the hierarchy before and after with the events in between. That a class is opened which
is there says something of the moment at which it is recorded. This is the machine that the plan meets when just the
events before have been recorded (`Plan.Finds`).
-/

namespace ObjectTalk

open Plan

/-! ## Definitions of classes -/

/-- The names of a class and of its superclass, if the `Event` says that the class was made. -/
def Event.classDefinition? : Event → Option (String × Option String)
  | classDefined name superclass => some (name, some superclass)
  | _ => none

/-- The `Event` says that a class was made or that a method was stored. -/
def Event.isDefinition : Event → Bool
  | classDefined .. | methodDefined .. => true
  | _ => false

namespace Hierarchy

/-- The names of a class and of its `ClassEntry.superclass`, if it has one. -/
def definition (hierarchy : Hierarchy) (id : ClassId) : String × Option String :=
  (hierarchy.name id, (hierarchy.get id).superclass.map hierarchy.name)

variable {hierarchy before after : Hierarchy} {id : ClassId} {name : String}

theorem Grown.name_eq (h : before.Grown ClassEntry.Adds after) (hid : id < before.size) :
    after.name id = before.name id :=
  (h.entries id hid).name

/-- A class keeps its `definition`: its name and the name of its superclass. -/
theorem Grown.definition_eq (h : before.Grown ClassEntry.Adds after) (hrooted : before.Rooted)
    (hid : id < before.size) : after.definition id = before.definition id := by
  unfold definition
  rw [h.name_eq hid, (h.entries id hid).superclass]
  cases hsuper : (before.get id).superclass with
  | none => rfl
  | some parent => simp only [Option.map_some, h.name_eq (hrooted.parent_lt hid hsuper)]

theorem lt_size_of_own? (h : (hierarchy.own? id name).isSome) : id < hierarchy.size := by
  by_contra hout
  rw [own?, get_of_size_le (Nat.le_of_not_lt hout)] at h
  cases h

/-- Where a class had a method, by `own?`, it goes on having one, perhaps another. -/
theorem Grown.own?_isSome (h : before.Grown ClassEntry.Adds after) (hown : (before.own? id name).isSome) :
    (after.own? id name).isSome :=
  (h.entries id (lt_size_of_own? hown)).methods name hown

/-- A class that `create` makes has no methods, and the others have those they had. -/
theorem own?_create (scope : ClassId) (called : String) (superclass id : ClassId) (name : String) :
    (hierarchy.create scope called superclass).own? id name = hierarchy.own? id name := by
  have hpush : ∀ {entry : ClassEntry}, entry.methods = {} →
      (hierarchy.push entry).own? id name = hierarchy.own? id name := by
    intro entry hentry
    rw [own?, own?, get_push]
    split
    · rename_i hnew
      rw [hentry, hnew, get_of_size_le (Nat.le_refl _)]
      rfl
    · rfl
  rw [create, bindConstant, own?, get_modify]
  split
  · exact hpush rfl
  · exact hpush rfl

theorem superclass_create (scope : ClassId) (called : String) (superclass : ClassId) :
    ((hierarchy.create scope called superclass).get hierarchy.size).superclass = some superclass := by
  rw [create, bindConstant, get_modify, get_push]
  split <;> simp

theorem size_create (scope : ClassId) (called : String) (superclass : ClassId) :
    (hierarchy.create scope called superclass).size = hierarchy.size + 1 := by
  simp [create, bindConstant]

/-- `bindIvar` on a class has nothing to do with its methods. -/
theorem own?_bindIvar (hierarchy : Hierarchy) (id : ClassId) (name : String) (value : Value) :
    (hierarchy.bindIvar id name value).own? = hierarchy.own? := by
  funext other called
  rw [bindIvar, own?, get_modify]
  split <;> rfl

end Hierarchy

/-! ## Chronicles -/

/-- The events have been recorded between the two machines, and they tell of all that has been defined: of each class
    that was made, in the order of their making, and of each method that a class has gained (`Hierarchy.own?`). A
    method of which they tell is there. -/
structure Machine.Chronicles (machine last : Machine) (events : List Event) : Prop where
  journal : last.journal.toList = machine.journal.toList ++ events
  grown : machine.classes.Grown ClassEntry.Adds last.classes
  made : ∃ count, last.classes.size = machine.classes.size + count
    ∧ events.filterMap Event.classDefinition?
      = (List.range' machine.classes.size count).map last.classes.definition
  gained : ∀ {id name}, (last.classes.own? id name).isSome → machine.classes.own? id name = none →
    .methodDefined (last.classes.name id) name ∈ events
  stored : ∀ {owner name}, .methodDefined owner name ∈ events →
    ∃ id < last.classes.size, last.classes.name id = owner ∧ (last.classes.own? id name).isSome

namespace Machine

variable {machine middle last : Machine} {events events' : List Event}

/-- No class has been made and no method gained, and no event `isDefinition` either. -/
theorem Chronicles.of_quiet (hjournal : last.journal.toList = machine.journal.toList ++ events)
    (hgrown : machine.classes.Grown ClassEntry.Adds last.classes) (hsize : last.classes.size = machine.classes.size)
    (hown : last.classes.own? = machine.classes.own?) (hevents : ∀ event ∈ events, event.isDefinition = false) :
    machine.Chronicles last events where
  journal := hjournal
  grown := hgrown
  made := by
    refine ⟨0, hsize, ?_⟩
    rw [List.range'_zero, List.map_nil, List.filterMap_eq_nil_iff]
    intro event hevent
    have hquiet := hevents event hevent
    cases event with
    | classDefined name superclass => cases hquiet
    | _ => rfl
  gained hsome hnone := by
    rw [hown, hnone] at hsome
    cases hsome
  stored hevent := by
    have hquiet := hevents _ hevent
    cases hquiet

theorem Chronicles.of_same (hjournal : last.journal = machine.journal) (hclasses : last.classes = machine.classes) :
    machine.Chronicles last [] := by
  refine .of_quiet ?_ ?_ ?_ ?_ (by simp)
  · rw [hjournal, List.append_nil]
  · rw [hclasses]
    exact (adds_progress.refl machine).classes
  · rw [hclasses]
  · rw [hclasses]

/-- An event that is no definition `Chronicles` nothing. -/
theorem chronicles_log {event : Event} (h : event.isDefinition = false) (machine : Machine) :
    machine.Chronicles (machine.log event) [event] :=
  .of_quiet (journal_log machine event) (adds_progress.refl machine).classes rfl rfl (by simpa using h)

/-- **One part of `Chronicles` after another.** What the first one tells of stays as it is told. -/
theorem Chronicles.trans (h : machine.Chronicles middle events) (hrooted : middle.classes.Rooted)
    (h' : middle.Chronicles last events') : machine.Chronicles last (events ++ events') where
  journal := by rw [h'.journal, h.journal, List.append_assoc]
  grown := h.grown.trans ClassEntry.Adds.trans h'.grown
  made := by
    obtain ⟨count, hsize, hmade⟩ := h.made
    obtain ⟨count', hsize', hmade'⟩ := h'.made
    refine ⟨count + count', by omega, ?_⟩
    have hkept : (List.range' machine.classes.size count).map last.classes.definition
        = (List.range' machine.classes.size count).map middle.classes.definition := by
      refine List.map_congr_left fun id hid => ?_
      rw [List.mem_range'_1, ← hsize] at hid
      exact h'.grown.definition_eq hrooted hid.2
    rw [List.filterMap_append, hmade, hmade', ← List.range'_append_1, List.map_append, hkept, hsize]
  gained {id name} hsome hnone := by
    rw [List.mem_append]
    cases hown : middle.classes.own? id name with
    | none => exact .inr (h'.gained hsome hown)
    | some method =>
        have hsome' : (middle.classes.own? id name).isSome := by simp [hown]
        rw [h'.grown.name_eq (Hierarchy.lt_size_of_own? hsome')]
        exact .inl (h.gained hsome' hnone)
  stored {owner name} hevent := by
    rcases List.mem_append.mp hevent with hfirst | hsecond
    · obtain ⟨id, hid, hname, hsome⟩ := h.stored hfirst
      exact ⟨id, Nat.lt_of_lt_of_le hid h'.grown.size, (h'.grown.name_eq hid).trans hname,
        h'.grown.own?_isSome hsome⟩
    · exact h'.stored hsecond

end Machine

/-! ## Changes -/

namespace Change

variable {machine : Machine}

theorem adds {α : Type} (step : Change α) (machine : Machine) :
    machine.classes.Grown ClassEntry.Adds (step.run.after machine).classes :=
  (Machine.adds_progress.steps (step.steps_run step.takes_all machine)).classes

/-- `Change.define` stores the method after it has recorded it, under the name of its class. -/
theorem chronicles_define {id : ClassId} (hid : id < machine.classes.size) (name : String) (method : Method) :
    machine.Chronicles ((define id name method).run.after machine)
      [.methodDefined (machine.classes.name id) name] := by
  have hgrown := (define id name method).adds machine
  have hclasses : ((define id name method).run.after machine).classes = machine.classes.define id name method := rfl
  rw [hclasses] at hgrown
  refine ⟨Machine.journal_log _ _, hgrown, ⟨0, ?_, rfl⟩, ?_, ?_⟩
  · rw [hclasses, Hierarchy.size_define]
    rfl
  · intro other called hsome hnone
    rw [hclasses, Hierarchy.own?_define hid] at hsome
    by_cases hdefined : other = id ∧ called = name
    · obtain ⟨rfl, rfl⟩ := hdefined
      rw [hclasses, hgrown.name_eq hid]
      exact List.mem_singleton_self _
    · rw [if_neg hdefined, hnone] at hsome
      cases hsome
  · intro owner called hevent
    obtain ⟨rfl, rfl⟩ : owner = machine.classes.name id ∧ called = name := by simpa using hevent
    refine ⟨id, Nat.lt_of_lt_of_le hid hgrown.size, hgrown.name_eq hid, ?_⟩
    rw [hclasses, Hierarchy.own?_define hid, if_pos ⟨rfl, rfl⟩]
    rfl

/-- `Change.declare` records the class when it has been made, with its name and that of its superclass. -/
theorem chronicles_create {scope superclass : ClassId} {name : String}
    (hfree : machine.classes.constant? scope name = none) {classes : Hierarchy}
    (hclasses : classes = machine.classes.create scope name superclass) :
    machine.Chronicles
      (Machine.log { machine with classes }
        (.classDefined (classes.name machine.classes.size) (classes.name superclass)))
      [.classDefined (classes.name machine.classes.size) (classes.name superclass)] := by
  have hown : classes.own? = machine.classes.own? := by
    rw [hclasses]
    funext id called
    exact Hierarchy.own?_create scope name superclass id called
  have hdefinition : classes.definition machine.classes.size
      = (classes.name machine.classes.size, some (classes.name superclass)) := by
    rw [Hierarchy.definition, hclasses, Hierarchy.superclass_create, Option.map_some]
  refine ⟨Machine.journal_log _ _, ?_, ⟨1, ?_, ?_⟩, ?_, ?_⟩
  · rw [hclasses]
    exact Hierarchy.grown_create superclass hfree
  · rw [hclasses]
    exact Hierarchy.size_create scope name superclass
  · show [(_, _)] = [classes.definition machine.classes.size]
    rw [hdefinition]
  · intro id called hsome hnone
    have hsome' : (classes.own? id called).isSome := hsome
    rw [hown, hnone] at hsome'
    cases hsome'
  · intro owner called hevent
    simp at hevent

end Change

/-! ## Moments -/

namespace Plan

/-- While the plan is carried out, it `Meets` a machine in which just these events have been recorded and a class of
    that name is there. -/
def Finds {α : Type} (plan : Plan α) (machine : Machine) (events : List Event) (name : String) : Prop :=
  ∃ met, plan.Meets machine met ∧ met.journal.toList = machine.journal.toList ++ events
    ∧ ∃ id < met.classes.size, met.classes.name id = name

/-- The plan leads from the one machine to the other, and records the events on the way: they are its `Chronicles`,
    and where one says that a class is opened, the plan `Finds` the class at that moment. -/
structure Accounts {α : Type} (plan : Plan α) (machine last : Machine) (events : List Event) : Prop
    extends machine.Chronicles last events where
  opened : ∀ {before name after}, events = before ++ .classReopened name :: after → plan.Finds machine before name

variable {α β : Type} {plan : Plan α} {piece : Plan β} {machine there last : Machine} {events recorded : List Event}
  {name : String}

/-- What a piece `Meets`, the plan that `Leads` to it meets. -/
theorem Leads.meets {met : Machine} (hleads : plan.Leads machine piece there) (h : piece.Meets there met) :
    plan.Meets machine met := by
  cases h with
  | atStart hinner => exact .atStart (hleads.trans hinner)
  | atEnd hinner hends => exact .atEnd (hleads.trans hinner) hends

/-- What a piece `Finds`, the plan finds, when the events before the piece have been recorded as well. -/
theorem Finds.of_leads (hleads : plan.Leads machine piece there)
    (hjournal : there.journal.toList = machine.journal.toList ++ events) (h : piece.Finds there recorded name) :
    plan.Finds machine (events ++ recorded) name := by
  obtain ⟨met, hmeets, hmet, hclass⟩ := h
  refine ⟨met, hleads.meets hmeets, ?_, hclass⟩
  rw [hmet, hjournal, List.append_assoc]

/-- `Chronicles` in which no class is opened are all the `Accounts` there are. -/
theorem Accounts.of_unopened (h : machine.Chronicles last events) (hnone : ∀ name, .classReopened name ∉ events) :
    plan.Accounts machine last events where
  toChronicles := h
  opened {before name after} hsplit := by
    refine absurd ?_ (hnone name)
    rw [hsplit]
    simp

/-- A plan that leaves everything as it was `Accounts` for nothing. -/
theorem Accounts.still (plan : Plan α) (machine : Machine) : plan.Accounts machine machine [] :=
  .of_unopened (.of_same rfl rfl) (by simp)

/-- **Each `Change` is accounted for.** -/
theorem accounts_change (step : Change α) (h : machine.WellFormed) (htakes : step.Takes machine.Owns) :
    ∃ events, (change step).Accounts machine (step.run.after machine) events := by
  cases step with
  | alloc new =>
      refine ⟨[], .of_unopened (.of_same ?_ ?_) (by simp)⟩
      · rw [Run.after, Change.run_alloc]
        rfl
      · rw [Run.after, Change.run_alloc]
        rfl
  | bindIvar target name value =>
      refine ⟨[], .of_unopened ?_ (by simp)⟩
      cases target with
      | nil => exact .of_same rfl rfl
      | object id => exact .of_same rfl rfl
      | classRef id =>
          refine .of_quiet (List.append_nil _).symm ((Change.bindIvar (.classRef id) name value).adds machine) ?_ ?_
            (by simp)
          · exact Hierarchy.size_modify _ _ _
          · exact Hierarchy.own?_bindIvar machine.classes id name value
  | bindLocal name value => exact ⟨[], .of_unopened (.of_same rfl rfl) (by simp)⟩
  | write text => exact ⟨[], .of_unopened (.of_same rfl rfl) (by simp)⟩
  | define id name method => exact ⟨_, .of_unopened (Change.chronicles_define htakes name method) (by simp)⟩
  | declare scope name superclass =>
      show ∃ events, Accounts _ machine (Outcome.machine (Run.declare scope name superclass machine)) events
      rw [Run.declare_apply]
      cases hconstant : machine.classes.constant? scope name with
      | none => exact ⟨_, .of_unopened (Change.chronicles_create hconstant rfl) (by simp)⟩
      | some value =>
          cases value with
          | nil => exact ⟨[], .still _ machine⟩
          | object id => exact ⟨[], .still _ machine⟩
          | classRef id =>
              have hid : id < machine.classes.size :=
                h.contained.closedUnder.constant htakes.1 hconstant
              refine ⟨_, Machine.chronicles_log rfl machine, ?_⟩
              intro before called after hsplit
              -- nothing has been recorded before the only event
              rcases List.cons_eq_append_iff.mp hsplit with ⟨rfl, heq⟩ | ⟨rest, _, hrest⟩
              · cases heq
                exact ⟨machine, meets_self _ _, (List.append_nil _).symm, id, hid, rfl⟩
              · simp at hrest
  | trace kind =>
      rw [Run.after, Change.run_trace]
      by_cases htrace : machine.settings.trace
      · rw [if_pos htrace]
        exact ⟨_, .of_unopened (Machine.chronicles_log rfl machine) (by simp)⟩
      · rw [if_neg htrace]
        exact ⟨[], .still _ machine⟩

/-! ## Evaluation -/

/-- `Accounts` of one plan after those of another. -/
theorem Accounts.andThen {first : Plan α} {next : α → Plan β} {middle : Machine} {result : α}
    (hends : first.Ends machine (.ok result middle)) (hrooted : middle.classes.Rooted)
    (hfirst : first.Accounts machine middle events) (hnext : (next result).Accounts middle last recorded) :
    (Plan.andThen first next).Accounts machine last (events ++ recorded) where
  toChronicles := hfirst.toChronicles.trans hrooted hnext.toChronicles
  opened {before name after} hsplit := by
    rcases append_eq_append_cons hsplit with ⟨rest, hearly⟩ | ⟨part, rfl, hlate⟩
    · exact (hfirst.opened hearly).of_leads (.first .here) (List.append_nil _).symm
    · exact (hnext.opened hlate).of_leads (.next hends .here) hfirst.journal

/-- The plan begins with the piece to which it `Leads`, before which nothing has been recorded, and does no more. -/
theorem Accounts.of_leads (hleads : plan.Leads machine piece there) (hjournal : there.journal = machine.journal)
    (hchronicles : machine.Chronicles last events) {done : Machine} (h : piece.Accounts there done events) :
    plan.Accounts machine last events where
  toChronicles := hchronicles
  opened hsplit := by
    have hnothing : there.journal.toList = machine.journal.toList ++ [] := by rw [hjournal, List.append_nil]
    exact (h.opened hsplit).of_leads hleads hnothing

/-- `Accounts` at whose end an event is recorded that tells neither of a definition nor of a class that is opened. -/
theorem Accounts.log (h : plan.Accounts machine last events) (hdone : last.classes.Rooted) {event : Event}
    (hquiet : event.isDefinition = false) (hother : ∀ name, event ≠ .classReopened name) :
    plan.Accounts machine (last.log event) (events ++ [event]) where
  toChronicles := h.toChronicles.trans hdone (Machine.chronicles_log hquiet last)
  opened {before name after} hsplit := by
    rcases append_eq_append_cons hsplit with ⟨rest, hearly⟩ | ⟨part, _, hlast⟩
    · exact h.opened hearly
    · have hmem : .classReopened name ∈ [event] := by simp [hlast]
      exact absurd (List.mem_singleton.mp hmem).symm (hother name)

/-- Between the events of a `Plan.inCall` there is what its body `Accounts` for. -/
theorem Accounts.inCall {method : String} {body : Plan α}
    (h : body.Accounts (machine.log (.entered method)) last events) (hstart : machine.classes.Rooted)
    (hdone : last.classes.Rooted) :
    (Plan.inCall method body).Accounts machine (last.log (.left method))
      ([.entered method] ++ (events ++ [.left method])) := by
  have hbody : body.Accounts (machine.log (.entered method)) (last.log (.left method)) (events ++ [.left method]) :=
    h.log hdone rfl (by simp)
  refine ⟨(Machine.chronicles_log rfl machine).trans hstart hbody.toChronicles, ?_⟩
  intro before name after hsplit
  rcases append_eq_append_cons hsplit with ⟨rest, hentered⟩ | ⟨inner, rfl, hinner⟩
  · have hmem : .classReopened name ∈ [Event.entered method] := by simp [hentered]
    simp at hmem
  · exact (hbody.opened hinner).of_leads (.inCall .here) (Machine.journal_log machine _)

/-- **Whatever a plan does is accounted for** (`Accounts`). By induction on how it `Ends`. -/
theorem Ends.accounts {outcome : Outcome α} (hends : plan.Ends machine outcome) :
    ∀ {post : Set Value → α → Prop}, machine.WellFormed →
      plan.Within Machine.wellFormed.selves (Machine.wellFormed.known machine) post →
      ∃ events, plan.Accounts machine outcome.machine events := by
  induction hends with
  | done result =>
      intro post _ _
      exact ⟨[], .still _ _⟩
  | stop fault =>
      intro post _ _
      exact ⟨[], .still _ _⟩
  | @query _ machine question _ =>
      intro post _ _
      have hafter := question.after_run machine
      rw [Run.after] at hafter
      rw [hafter]
      exact ⟨[], .still _ _⟩
  | change _ =>
      intro post h hplan
      exact accounts_change _ h hplan.1
  | andThen hfirst _ ihf ihn =>
      intro post h hplan
      obtain ⟨hmiddle, _, hnext⟩ := Invariant.kept_of_ends hfirst h hplan
      obtain ⟨events, haccounts⟩ := ihf h hplan
      obtain ⟨recorded, haccounts'⟩ := ihn hmiddle hnext
      exact ⟨events ++ recorded, .andThen hfirst hmiddle.rooted haccounts haccounts'⟩
  | failed _ ihf =>
      intro post h hplan
      obtain ⟨events, haccounts⟩ := ihf h hplan
      exact ⟨events, .of_leads (.first .here) rfl haccounts.toChronicles haccounts⟩
  | inFrame hroom _ ih =>
      intro post h hplan
      obtain ⟨hself, hadmitted, hwithin⟩ := hplan
      obtain ⟨hpushed, hle⟩ := Machine.wellFormed.push h hself hadmitted
      obtain ⟨events, haccounts⟩ := ih hpushed (hwithin _ hle)
      rw [Outcome.machine_through]
      -- frames leave no trace in the journal and in the classes
      refine ⟨events, .of_leads (.inFrame hroom .here) rfl ?_ haccounts⟩
      exact ⟨haccounts.journal, haccounts.grown, haccounts.made, haccounts.gained, haccounts.stored⟩
  | refused _ =>
      intro post _ _
      exact ⟨[], .still _ _⟩
  | @inCall _ machine method _ _ hbody ih =>
      intro post h hplan
      obtain ⟨hentered, hle⟩ := Machine.wellFormed.step h (.log (.entered method))
      have hwithin := hplan _ hle
      obtain ⟨events, haccounts⟩ := ih hentered hwithin
      have hdone := Invariant.holds_of_meets (.atEnd .here hbody) hentered hwithin
      rw [Outcome.machine_through]
      exact ⟨_, haccounts.inCall h.rooted hdone.rooted⟩
  | @call _ _ name method _ _ _ ih =>
      intro post h hplan
      obtain ⟨hreceiver, hself, hargs, _⟩ := hplan
      obtain ⟨events, haccounts⟩ := ih h (within_called (Machine.wellFormed.basic h) name method hreceiver hself hargs
        fun _ _ _ hvalue => hvalue)
      exact ⟨events, .of_leads (.call .here) rfl haccounts.toChronicles haccounts⟩
  | display _ ih =>
      intro post h hplan
      obtain ⟨events, haccounts⟩ := ih h (within_displayed (Machine.wellFormed.basic h) hplan.1
        fun _ _ _ htext => htext)
      exact ⟨events, .of_leads (.display .here) rfl haccounts.toChronicles haccounts⟩
  | overflow =>
      intro post _ _
      exact ⟨[], .still _ _⟩

end Plan

namespace Machine

variable {machine : Machine}

theorem WellFormed.accounts_eval (h : machine.WellFormed) (node : Node) :
    ∃ events, (ofNode node).Accounts machine ((eval node).after machine) events :=
  (h.ends_eval node).accounts h (Invariant.within_program h node)

/-- A run adds at most an event to `Machine.eval`, and that defines nothing. -/
theorem WellFormed.accounts_run (h : machine.WellFormed) (program : Node) :
    ∃ events, (ofNode program).Accounts machine ((run program).after machine) events := by
  obtain ⟨events, haccounts⟩ := h.accounts_eval program
  have hdone : wellFormed.holds ((eval program).after machine) := (Invariant.kept_eval program h).after
  rw [Run.after] at haccounts hdone ⊢
  rw [run]
  cases houtcome : eval program machine with
  | ok value last =>
      rw [houtcome] at haccounts
      exact ⟨events, haccounts⟩
  | error fault last =>
      rw [houtcome] at haccounts hdone
      have haborted : (ofNode program).Accounts machine (last.log (.aborted fault)) (events ++ [.aborted fault]) :=
        Accounts.log haccounts hdone.rooted rfl (by simp)
      exact ⟨_, haborted⟩

/-- **The journal of definitions is faithful**, whether a run fails or not. Read by `Event.classDefinition?`, what it
    adds gives the new classes and their superclasses in order. A class that is said to be opened is there when just
    the events before have been recorded. Each method gained is told of, and each method told of is there. -/
theorem definition_journal_faithful (h : machine.Reachable) (program : Node) {last : Machine}
    (hlast : (run program).after machine = last) :
    ∃ events count,
      last.journal.toList = machine.journal.toList ++ events ∧
      last.classes.size = machine.classes.size + count ∧
      events.filterMap Event.classDefinition?
        = (List.range' machine.classes.size count).map last.classes.definition ∧
      (∀ before name after, events = before ++ .classReopened name :: after →
        ∃ met, (ofNode program).Meets machine met ∧ met.journal.toList = machine.journal.toList ++ before ∧
          ∃ id < met.classes.size, met.classes.name id = name) ∧
      (∀ id < last.classes.size, ∀ name, (last.classes.own? id name).isSome →
        machine.classes.own? id name = none → .methodDefined (last.classes.name id) name ∈ events) ∧
      (∀ owner name, .methodDefined owner name ∈ events →
        ∃ id < last.classes.size, last.classes.name id = owner ∧ (last.classes.own? id name).isSome) := by
  obtain ⟨events, haccounts⟩ := h.wellFormed.accounts_run program
  rw [hlast] at haccounts
  obtain ⟨count, hsize, hmade⟩ := haccounts.made
  refine ⟨events, count, haccounts.journal, hsize, hmade, ?_, ?_, ?_⟩
  · intro before name after hsplit
    exact haccounts.opened hsplit
  · intro id _ name hsome hnone
    exact haccounts.gained hsome hnone
  · intro owner name hevent
    exact haccounts.stored hevent

/-- A new machine with room for one `Frame` above the top level, after a program that makes a class. -/
def narrow : Machine :=
  (run (.classDef none "A" none (.sequence []))).after (boot { maxDepth := 2 } (.kept ""))

/-- A program that makes a class and a method in it where the superclass of another class is written, opens classes,
    and fails (`Fault.tooDeep`) when it has made a class whose body would be too deep. -/
def tangled : Node :=
  .sequence [.classDef none "B" (some (.classDef none "C" none
      (.sequence [.methodDef "m" {} (.sequence []), .constRef none "A"]))) (.sequence []),
    .classDef none "A" none (.methodDef "n" {} (.sequence [])),
    .classDef none "B" none (.classDef (some (.constRef none "B")) "D" none (.sequence []))]

theorem definition_journal_faithful_tangled :
    (narrow.Reachable ∧ ∃ last, run tangled narrow = .error (.tooDeep 2 2) last)
    ∧ ∃ events, ((run tangled).after narrow).journal.toList = narrow.journal.toList ++ events
      ∧ events.filterMap Event.classDefinition? = [("C", some "Object"), ("B", some "A"), ("B::D", some "Object")]
      ∧ (∃ met, (ofNode tangled).Meets narrow met
          ∧ met.journal.toList = narrow.journal.toList ++ [.classDefined "C" "Object", .methodDefined "C" "m",
              .classDefined "B" "A", .classReopened "A", .methodDefined "A" "n"]
          ∧ ∃ id < met.classes.size, met.classes.name id = "B")
      ∧ .methodDefined "A" "n" ∈ events
      ∧ ∃ id < ((run tangled).after narrow).classes.size, ((run tangled).after narrow).classes.name id = "C"
          ∧ (((run tangled).after narrow).classes.own? id "m").isSome := by
  have hreach : narrow.Reachable := .step (.boot { maxDepth := 2 } (.kept "")) (.run _)
  have hrecorded : ((run tangled).after narrow).journal.toList = narrow.journal.toList
      ++ [.classDefined "C" "Object", .methodDefined "C" "m", .classDefined "B" "A", .classReopened "A",
        .methodDefined "A" "n", .classReopened "B", .classDefined "B::D" "Object", .aborted (.tooDeep 2 2)] := by
    decide +kernel
  obtain ⟨events, count, hjournal, hsize, hmade, hopened, hgained, hstored⟩ :=
    definition_journal_faithful hreach tangled rfl
  obtain rfl := List.append_cancel_left (hrecorded.symm.trans hjournal)
  have hcount : ((run tangled).after narrow).classes.size = narrow.classes.size + 3 := by decide +kernel
  obtain rfl : count = 3 := Nat.add_left_cancel (hsize.symm.trans hcount)
  have hnames : (List.range' narrow.classes.size 3).map ((run tangled).after narrow).classes.definition
      = [("C", some "Object"), ("B", some "A"), ("B::D", some "Object")] := by decide +kernel
  refine ⟨⟨hreach, _, Run.eq_error_after (by decide +kernel)⟩, _, hjournal, hmade.trans hnames, ?_, ?_, ?_⟩
  · exact hopened [_, _, _, _, _] "B" _ rfl
  · have hname : ((run tangled).after narrow).classes.name 5 = "A" := by decide +kernel
    have hevent := hgained 5 (by decide +kernel) "n" (by decide +kernel) (by decide +kernel)
    rwa [hname] at hevent
  · exact hstored "C" "m" (by simp)

end Machine

end ObjectTalk

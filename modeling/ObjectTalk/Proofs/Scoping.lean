import ObjectTalk.Proofs.Frames
/-!
# `Proofs.Scoping` — a call cannot see its caller's frame

Two machines may have the same classes, objects and output, and stacks of the same depth, but other frames.
Evaluation tells them apart only by asking about the current frame. A message does not ask before its own frame
is there (`Plan.Blind`), and from then on the current frames are the same. So both machines do the same until
that frame is taken away, when each is left with the frames it had.

The two runs are compared step by step (`Machine.Twins`), with or without the current frames being the same.
What is recorded meanwhile is the same as well.
-/

namespace ObjectTalk

open Plan
open Progress (Respects)

/-! ## Machines with other frames -/

/-- The machines differ at most in their frames, of which there are as many (`CallStack.depth`), and in their
    journals. -/
structure Machine.SameButFrames (left right : Machine) : Prop where
  classes : right.classes = left.classes
  heap : right.heap = left.heap
  output : right.output = left.output
  settings : right.settings = left.settings
  depth : right.stack.depth = left.stack.depth

/-- The machines differ at most in their frames, and have recorded the same since their journals were `first`
    and `second`. If `here` holds, the current frames are the same. -/
structure Machine.Twins (first second : Array Event) (here : Prop) (left right : Machine) : Prop
    extends Machine.SameButFrames left right where
  current : here → right.stack.current = left.stack.current
  journal : ∃ events, left.journal = first ++ events ∧ right.journal = second ++ events

/-- Both outcomes have the same result or the same fault, and machines that are `Machine.Twins`. -/
inductive Outcome.Twins (first second : Array Event) (here : Prop) {α : Type} :
    Outcome α → Outcome α → Prop where
  | ok (result : α) {left right : Machine} (h : left.Twins first second here right) :
      Twins first second here (.ok result left) (.ok result right)
  | error (fault : Fault) {left right : Machine} (h : left.Twins first second here right) :
      Twins first second here (.error fault left) (.error fault right)

/-- On `Machine.Twins` both runs do the same, and go on with the stack they find. -/
structure Run.Twins (first second : Array Event) {α : Type} (work work' : Run α) : Prop where
  outcome : ∀ {here : Prop} {left right : Machine}, left.Twins first second here right →
    Outcome.Twins first second here (work left) (work' right)
  left : Respects Machine.Continues work work
  right : Respects Machine.Continues work' work'

variable {first second : Array Event} {here : Prop} {α β : Type}

theorem Outcome.Twins.machine {left right : Outcome α} (h : Outcome.Twins first second here left right) :
    left.machine.Twins first second here right.machine := by
  cases h with
  | ok _ h => exact h
  | error _ h => exact h

theorem Outcome.Twins.result_eq {left right : Outcome α}
    (h : Outcome.Twins first second here left right) : right.result = left.result := by
  cases h <;> rfl

namespace Machine

variable {left right : Machine}

/-- `Twins` that record the same event stay twins. -/
theorem Twins.log (h : left.Twins first second here right) (event : Event) :
    (left.log event).Twins first second here (right.log event) := by
  obtain ⟨events, hleft, hright⟩ := h.journal
  refine ⟨⟨h.classes, h.heap, h.output, h.settings, h.depth⟩, h.current, events.push event, ?_, ?_⟩
  · rw [Machine.log, hleft, Array.append_push]
  · rw [Machine.log, hright, Array.append_push]

/-- Once `Twins` have put the same frame on the stack, the current frames are the same. -/
theorem Twins.pushed (h : left.Twins first second here right) (self : Value) :
    (left.pushed self).Twins first second True (right.pushed self) := by
  refine ⟨⟨h.classes, h.heap, h.output, h.settings, ?_⟩, fun _ => rfl, h.journal⟩
  exact congrArg (· + 1) h.depth

/-- When the frames are gone that `Twins` have put on the stack, the stacks are what they were before. -/
theorem Twins.popped {before before' : Machine} (hbefore : before.Twins first second here before')
    (h : left.Twins first second True right) (hleft : left.stack.pop = before.stack)
    (hright : right.stack.pop = before'.stack) :
    left.popped.Twins first second here right.popped := by
  refine ⟨⟨h.classes, h.heap, h.output, h.settings, ?_⟩, fun hhere => ?_, h.journal⟩
  · rw [Machine.popped, Machine.popped, hleft, hright]
    exact hbefore.depth
  · rw [Machine.popped, Machine.popped, hleft, hright]
    exact hbefore.current hhere

end Machine

/-! ## Questions and changes -/

/-- The `Query` is not about the current frame. -/
def Query.Blind : {α : Type} → Query α → Prop
  | _, .self => False
  | _, .readLocal _ => False
  | _, .methodTarget => False
  | _, _ => True

/-- On `Machine.Twins`, only the three questions about the current frame can have other answers. -/
theorem Query.ask_twins (query : Query α) (hsee : here ∨ query.Blind) {left right : Machine}
    (h : left.Twins first second here right) : query.ask right = query.ask left := by
  have hcurrent : ¬ query.Blind → right.stack.current = left.stack.current := fun hnot =>
    h.current (hsee.resolve_right hnot)
  obtain ⟨classes, heap, stack, output, settings, journal⟩ := left
  obtain ⟨classes', heap', stack', output', settings', journal'⟩ := right
  obtain ⟨⟨rfl, rfl, rfl, rfl, _⟩, _, _⟩ := h
  cases query with
  | self => exact congrArg (fun frame : Frame => Except.ok frame.self) (hcurrent id)
  | readLocal name =>
      exact congrArg (fun frame : Frame => Except.ok ((frame.locals.get? name).getD .nil)) (hcurrent id)
  | methodTarget =>
      have hself : stack'.current.self = stack.current.self := congrArg Frame.self (hcurrent id)
      simp only [Query.ask, hself]
      rfl
  | _ => rfl

theorem Query.run_twins (query : Query α) (hsee : here ∨ query.Blind) {left right : Machine}
    (h : left.Twins first second here right) :
    Outcome.Twins first second here (query.run left) (query.run right) := by
  rw [Query.run_eq_outcome, Query.run_eq_outcome, query.ask_twins hsee h]
  cases query.ask left with
  | ok answer => exact .ok answer h
  | error fault => exact .error fault h

/-- What a `Change` does besides the journal and the current frame is the same in both `Machine.Twins`. -/
theorem Change.run_twins (change : Change α) {left right : Machine}
    (h : left.Twins first second here right) :
    Outcome.Twins first second here (change.run left) (change.run right) := by
  obtain ⟨classes, heap, stack, output, settings, journal⟩ := left
  obtain ⟨classes', heap', stack', output', settings', journal'⟩ := right
  obtain ⟨⟨rfl, rfl, rfl, rfl, hdepth⟩, hcurrent, hjournal⟩ := h
  have hsame : ∀ (classes : Hierarchy) (heap : Heap) (output : Output),
      Machine.Twins first second here ⟨classes, heap, stack, output, settings', journal⟩
        ⟨classes, heap, stack', output, settings', journal'⟩ := fun _ _ _ =>
    ⟨⟨rfl, rfl, rfl, rfl, hdepth⟩, hcurrent, hjournal⟩
  cases change with
  | alloc new =>
      rw [Change.run_alloc, Change.run_alloc]
      have hobject : ∀ stack journal stack' journal',
          new.object ⟨classes', heap', stack, output', settings', journal⟩
            = new.object ⟨classes', heap', stack', output', settings', journal'⟩ := by
        cases new <;> exact fun _ _ _ _ => rfl
      rw [hobject stack journal stack' journal']
      exact .ok _ (hsame _ _ _)
  | bindIvar target name value =>
      cases target with
      | nil => exact .error _ (hsame _ _ _)
      | object id => exact .ok () (hsame _ _ _)
      | classRef id => exact .ok () (hsame _ _ _)
  | bindLocal name value =>
      refine .ok () ⟨⟨rfl, rfl, rfl, rfl, ?_⟩, fun hhere => ?_, hjournal⟩
      · show (stack'.bindLocal name value).depth = (stack.bindLocal name value).depth
        rw [CallStack.depth_bindLocal, CallStack.depth_bindLocal]
        exact hdepth
      · show (stack'.bindLocal name value).current = (stack.bindLocal name value).current
        rw [CallStack.current_bindLocal, CallStack.current_bindLocal]
        have hframe : stack'.current = stack.current := hcurrent hhere
        rw [hframe]
  | write text => exact .ok () (hsame _ _ _)
  | define id name method =>
      have hlogged := (hsame classes' heap' output').log (.methodDefined (classes'.name id) name)
      exact .ok () ⟨⟨rfl, rfl, rfl, rfl, hdepth⟩, hcurrent, hlogged.journal⟩
  | declare scope name superclass =>
      show Outcome.Twins first second here (Run.declare scope name superclass _)
        (Run.declare scope name superclass _)
      rw [Run.declare_apply, Run.declare_apply]
      cases classes'.constant? scope name with
      | none => exact .ok _ ((hsame _ _ _).log _)
      | some value =>
          cases value with
          | nil => exact .error _ (hsame _ _ _)
          | object id => exact .error _ (hsame _ _ _)
          | classRef id => exact .ok _ ((hsame _ _ _).log _)
  | trace kind =>
      have hdepth' : stack'.depth = stack.depth := hdepth
      rw [Change.run_trace, Change.run_trace]
      by_cases htrace : settings'.trace
      · simp only [htrace, if_true, hdepth']
        exact .ok () ((hsame _ _ _).log _)
      · simp only [htrace]
        exact .ok () (hsame _ _ _)

/-! ## Plans -/

/-- The plan asks nothing about the current frame (`Query.Blind`), except in frames that it makes, in calls and for
    texts. -/
def Plan.Blind : {α : Type} → Plan α → Prop
  | _, .query question => question.Blind
  | _, .andThen first next => first.Blind ∧ ∀ result, (next result).Blind
  | _, .inCall _ body => body.Blind
  | _, _ => True

namespace Plan

/-- `Blind` is closed under the ways in which plans of messages and texts are put together. -/
theorem blind_asks : Asks fun _ plan _ => plan.Blind where
  done _ := trivial
  andThen hfirst hnext :=
    ⟨hfirst, fun result => hnext Set.univ (Set.subset_univ _) result (Shape.fits_univ _ result)⟩
  send _ _ _ := ⟨trivial, fun _ => trivial⟩
  answerText _ := trivial
  payload _ := trivial
  display _ := trivial

/-- The left run of `Run.Twins` goes on with the stack, since its calls and texts do. -/
theorem continues_left {services services' : Services} (hs : services.Alike (Run.Twins first second) services')
    (plan : Plan α) : Respects Machine.Continues (plan.follow services) (plan.follow services) :=
  Machine.continues_progress.respects_follow plan
    ⟨fun receiver name method args => (hs.call receiver name method args).left,
      fun value => (hs.display value).left⟩

theorem continues_right {services services' : Services} (hs : services.Alike (Run.Twins first second) services')
    (plan : Plan α) : Respects Machine.Continues (plan.follow services') (plan.follow services') :=
  Machine.continues_progress.respects_follow plan
    ⟨fun receiver name method args => (hs.call receiver name method args).right,
      fun value => (hs.display value).right⟩

/-- **On `Machine.Twins` a plan does the same**, if the current frames are the same or it is `Blind` to them. By
    induction on the plan; a frame that it makes is current on both sides, whatever is below. -/
theorem outcome_twins {services services' : Services}
    (hs : services.Alike (Run.Twins first second) services') (plan : Plan α) (hsee : here ∨ plan.Blind)
    {left right : Machine} (h : left.Twins first second here right) :
    Outcome.Twins first second here (plan.follow services left) (plan.follow services' right) := by
  induction plan generalizing here left right with
  | done result => exact .ok result h
  | stop fault => exact .error fault h
  | query question => exact question.run_twins hsee h
  | change step => exact step.run_twins h
  | andThen first next ihf ihn =>
      show Outcome.Twins _ _ here ((first.follow services >>= fun result => _) left)
        ((first.follow services' >>= fun result => _) right)
      rw [Run.bind_apply, Run.bind_apply]
      have hfirst := ihf (hsee.imp_right And.left) h
      generalize first.follow services left = before, first.follow services' right = before' at hfirst
      cases hfirst with
      | ok result hmiddle => exact ihn result (hsee.imp_right fun hblind => hblind.2 result) hmiddle
      | error fault hlast => exact .error fault hlast
  | inFrame self body ih =>
      show Outcome.Twins _ _ here (Run.inFrame self (body.follow services) left)
        (Run.inFrame self (body.follow services') right)
      rw [Run.inFrame_apply, Run.inFrame_apply, h.depth, h.settings]
      by_cases hroom : left.stack.depth < left.settings.maxDepth
      · rw [if_pos hroom, if_pos hroom]
        have hbody := ih (.inl trivial) (h.pushed self)
        -- on both sides the frame that goes is the one that was put there
        have hpop := CallStack.pop_of_continues_push (continues_left hs body (left.pushed self)).stack
        have hpop' := CallStack.pop_of_continues_push (continues_right hs body (right.pushed self)).stack
        rw [Run.after] at hpop hpop'
        generalize body.follow services (left.pushed self) = before,
          body.follow services' (right.pushed self) = before' at hbody hpop hpop'
        cases hbody with
        | ok result hlast => exact .ok result (h.popped hlast hpop hpop')
        | error fault hlast => exact .error fault (h.popped hlast hpop hpop')
      · rw [if_neg hroom, if_neg hroom]
        exact .error _ h
  | inCall method body ih =>
      show Outcome.Twins _ _ here (Run.inCall method (body.follow services) left)
        (Run.inCall method (body.follow services') right)
      rw [Run.inCall_apply, Run.inCall_apply]
      have hbody := ih hsee (h.log (.entered method))
      generalize body.follow services (left.log (.entered method)) = before,
        body.follow services' (right.log (.entered method)) = before' at hbody
      cases hbody with
      | ok result hlast => exact .ok result (hlast.log (.left method))
      | error fault hlast => exact .error fault (hlast.log (.left method))
  | call receiver name method args => exact (hs.call receiver name method args).outcome h
  | display value => exact (hs.display value).outcome h
  | overflow =>
      show Outcome.Twins _ _ here (.error (.tooDeep left.stack.depth left.settings.maxDepth) left)
        (.error (.tooDeep right.stack.depth right.settings.maxDepth) right)
      rw [h.depth, h.settings]
      exact .error _ h

/-- A plan that is `Blind` to the current frame does the same on twins, however their current frames differ. -/
theorem twins_follow {services services' : Services}
    (hs : services.Alike (Run.Twins first second) services') {plan : Plan α} (hblind : plan.Blind) :
    Run.Twins first second (plan.follow services) (plan.follow services') where
  outcome h := outcome_twins hs plan (.inr hblind) h
  left := continues_left hs plan
  right := continues_right hs plan

theorem respected_twins : Plan.Respected (Run.Twins first second) where
  done result := ⟨fun h => .ok result h, Machine.continues_progress.refl, Machine.continues_progress.refl⟩
  flat hs value := twins_follow hs (blind_asks.displayedFlat (Set.mem_univ value))
  displayed hs value := twins_follow hs (blind_asks.displayed (Set.mem_univ value))
  refused hs _ _ _ := twins_follow hs ⟨trivial, fun _ => trivial⟩
  called hs _ _ _ _ := twins_follow hs ⟨trivial, fun _ => trivial⟩

end Plan

/-! ## Messages -/

namespace Machine

/-- Machines that are `SameButFrames` have the same room. -/
theorem room_eq_of_sameButFrames {left right : Machine} (h : left.SameButFrames right) :
    right.room = left.room := by
  rw [room, room, h.settings, h.depth]

/-- A message makes `Outcome.Twins` of machines that are `SameButFrames`, whatever their current frames are. -/
theorem twins_send {left right : Machine} (h : left.SameButFrames right) (receiver : Value) (name : String)
    (args : List Value) :
    Outcome.Twins left.journal right.journal False (send receiver name args left)
      (send receiver name args right) := by
  have htwins : left.Twins left.journal right.journal False right :=
    ⟨h, False.elim, #[], by simp⟩
  have hservices := Services.within_alike (@respected_twins left.journal right.journal)
  rw [send_eq_follow, send_eq_follow, room_eq_of_sameButFrames h]
  have hblind := blind_asks.send name (Set.mem_univ receiver) fun arg (_ : arg ∈ args) => Set.mem_univ arg
  exact (twins_follow (hservices left.room) hblind).outcome htwins

/-- **A message does not see the frames of its sender.** In two machines that are `SameButFrames`, where every frame
    may have another self and other local variables, `send` has the same answer or fault, leaves machines that are
    `SameButFrames` again, each with the frames it had, and adds the same to the journals. -/
theorem messages_do_not_see_frames {left right : Machine} (h : left.SameButFrames right) (receiver : Value)
    (name : String) (args : List Value) :
    Outcome.result (send receiver name args right) = Outcome.result (send receiver name args left) ∧
    ((send receiver name args).after left).SameButFrames ((send receiver name args).after right) ∧
    ((send receiver name args).after left).stack = left.stack ∧
    ((send receiver name args).after right).stack = right.stack ∧
    ∃ events, ((send receiver name args).after left).journal = left.journal ++ events ∧
      ((send receiver name args).after right).journal = right.journal ++ events := by
  have htwins := twins_send h receiver name args
  exact ⟨htwins.result_eq, htwins.machine.toSameButFrames, (sameStack_send receiver name args left).stack,
    (sameStack_send receiver name args right).stack, htwins.machine.journal⟩

/-- A machine with a method that reads a local variable of its sender, in vain, shows it by another method and binds
    it. The sender has the `self` and the `locals` given. -/
def withNosyMethod (self : Value) (locals : Table Value) : Machine :=
  { (run (.sequence [.methodDef "show" ⟨[], some "rest"⟩ (.send none "print" [.localRead "x", .localRead "rest"]),
      .methodDef "nosy" ⟨["y"], none⟩ (.sequence [.send none "show" [.localRead "x", .localRead "y"],
        .localAssign "x" (.localRead "y"), .ivarAssign "@z" (.localRead "x"),
        .methodDef "later" {} (.localRead "x"), .interpolated [.localRead "x"]])])).after
      (boot {} (.kept "")) with
    stack := .ofBottom ⟨self, locals⟩ }

/-- The method is called by `main` at the top level, which has the local variable. -/
def askedByMain : Machine := withNosyMethod main ⟨[("x", .classRef ClassId.array)]⟩

/-- The method is called where self is `nil` and the local variable is another one. -/
def askedByNil : Machine := withNosyMethod .nil ⟨[("y", main), ("x", main)]⟩

theorem messages_do_not_see_frames_nosy :
    (askedByMain.SameButFrames askedByNil
      ∧ askedByMain.stack.current.locals.get? "x" ≠ askedByNil.stack.current.locals.get? "x")
    ∧ ((send main "nosy" [.classRef ClassId.string]).after askedByMain).output = .kept "[, String]"
    ∧ Outcome.result (send main "nosy" [.classRef ClassId.string] askedByNil)
      = Outcome.result (send main "nosy" [.classRef ClassId.string] askedByMain)
    ∧ ((send main "nosy" [.classRef ClassId.string]).after askedByMain).SameButFrames
        ((send main "nosy" [.classRef ClassId.string]).after askedByNil)
    ∧ ((send main "nosy" [.classRef ClassId.string]).after askedByMain).stack = askedByMain.stack
    ∧ ((send main "nosy" [.classRef ClassId.string]).after askedByNil).stack = askedByNil.stack := by
  have h : askedByMain.SameButFrames askedByNil := ⟨rfl, rfl, rfl, rfl, rfl⟩
  obtain ⟨hresult, hsame, hmain, hnil, _⟩ :=
    messages_do_not_see_frames h main "nosy" [.classRef ClassId.string]
  exact ⟨⟨h, by decide +kernel⟩, by decide +kernel, hresult, hsame, hmain, hnil⟩

end Machine

end ObjectTalk

import ObjectTalk.Proofs.Plan.Progress
import ObjectTalk.Proofs.Plan.Walk
/-!
# `Proofs.Frames` — evaluation leaves the frames as it found them

Each call and each class body puts a frame on the call stack and takes it away again, also when it stops with
a fault. So evaluating a node changes no frame but the current one, and of that one only the local variables,
of which none is lost or moved (`CallStack.Continues`). A message, a call and the text of a value do not even
do that: their plans change nothing outside the frames they make (`Plan.Outside`).
-/

namespace ObjectTalk

open Plan

/-! ## What may happen to the stack -/

/-- `Table.set` adds a name at most, and adds it last. -/
theorem Table.names_kept_by_set {α : Type} (table : Table α) (name : String) (value : α) :
    table.names <+: (table.set name value).names := by
  rw [Table.names_set]
  split
  · exact List.prefix_refl _
  · exact List.prefix_append _ _

namespace CallStack

/-- The frames of a `CallStack`, the current one first. -/
def frames (stack : CallStack) : List Frame := stack.above ++ [stack.bottom]

/-- The frames below `CallStack.current` are as they were, and the current one has the same self and at least the
    local variables it had, in the same order. -/
structure Continues (before after : CallStack) : Prop where
  depth : after.depth = before.depth
  below : after.frames.tail = before.frames.tail
  self : after.current.self = before.current.self
  names : before.current.locals.names <+: after.current.locals.names

theorem Continues.refl (stack : CallStack) : stack.Continues stack :=
  ⟨rfl, rfl, rfl, List.prefix_refl _⟩

theorem Continues.trans {first second third : CallStack} (h : first.Continues second)
    (h' : second.Continues third) : first.Continues third :=
  ⟨h'.depth.trans h.depth, h'.below.trans h.below, h'.self.trans h.self, h.names.trans h'.names⟩

/-- A stack `Continues` when a local variable is bound. -/
theorem continues_bindLocal (name : String) (value : Value) (stack : CallStack) :
    stack.Continues (stack.bindLocal name value) := by
  obtain ⟨bottom, above, depth, depth_eq⟩ := stack
  cases above with
  | nil => exact ⟨rfl, rfl, rfl, bottom.locals.names_kept_by_set name value⟩
  | cons frame rest => exact ⟨rfl, rfl, rfl, frame.locals.names_kept_by_set name value⟩

/-- **A frame that `CallStack.push` put on the stack can be taken away**, whatever was done in it. -/
theorem pop_of_continues_push {stack last : CallStack} {self : Value}
    (h : (stack.push self).Continues last) : last.pop = stack := by
  obtain ⟨bottom, above, depth, depth_eq⟩ := last
  cases above with
  | nil =>
      -- a stack of one frame is not as deep as one on which a frame was put
      have hd : depth = stack.depth + 1 := h.depth
      have hs := stack.depth_eq
      simp only [List.length_nil] at depth_eq
      omega
  | cons frame rest =>
      have hb : rest ++ [bottom] = stack.above ++ [stack.bottom] := h.below
      obtain ⟨habove, hbottom⟩ := List.append_inj' hb rfl
      exact eq_of_frames (List.singleton_inj.mp hbottom) habove

end CallStack

/-- The stack has gone on from what it was (`CallStack.Continues`), under the same limit. -/
structure Machine.Continues (before after : Machine) : Prop where
  stack : before.stack.Continues after.stack
  settings : after.settings = before.settings

/-- The `CallStack` is what it was, under the same limit. -/
structure Machine.SameStack (before after : Machine) : Prop where
  stack : after.stack = before.stack
  settings : after.settings = before.settings

namespace Machine

theorem SameStack.refl (machine : Machine) : machine.SameStack machine := ⟨rfl, rfl⟩

theorem SameStack.trans {first second third : Machine} (h : first.SameStack second)
    (h' : second.SameStack third) : first.SameStack third :=
  ⟨h'.stack.trans h.stack, h'.settings.trans h.settings⟩

theorem SameStack.continues {before after : Machine} (h : before.SameStack after) :
    before.Continues after :=
  ⟨h.stack ▸ .refl _, h.settings⟩

/-- Every `Machine.Step` goes on with the stack, and a finished frame leaves it as it was. -/
theorem continues_progress : Progress Machine.Continues where
  refl machine := (SameStack.refl machine).continues
  trans h h' := ⟨h.stack.trans h'.stack, h'.settings.trans h.settings⟩
  step hstep := by
    cases hstep with
    | bindLocal name value _ => exact ⟨CallStack.continues_bindLocal name value _, rfl⟩
    | _ => exact ⟨.refl _, rfl⟩
  frame h := SameStack.continues ⟨CallStack.pop_of_continues_push h.stack, h.settings⟩

end Machine

/-! ## Plans that leave the current frame alone -/

/-- The plan makes changes in frames, in calls and for texts only: no `Plan.change` of its own. -/
def Plan.Outside : {α : Type} → Plan α → Prop
  | _, .change _ => False
  | _, .andThen first next => first.Outside ∧ ∀ result, (next result).Outside
  | _, .inCall _ body => body.Outside
  | _, _ => True

namespace Plan

/-- `Outside` is closed under the ways in which plans of messages and texts are put together. -/
theorem outside_asks : Asks fun _ plan _ => plan.Outside where
  done _ := trivial
  andThen hfirst hnext :=
    ⟨hfirst, fun result => hnext Set.univ (Set.subset_univ _) result (Shape.fits_univ _ result)⟩
  send _ _ _ := ⟨trivial, fun _ => trivial⟩
  answerText _ := trivial
  payload _ := trivial
  display _ := trivial

end Plan

open Progress (Respects)

/-- A plan that is `Outside` leaves the stack as it was, if calls and texts do. -/
theorem Plan.respects_sameStack {services : Services}
    (hs : services.Alike (Respects Machine.SameStack) services) {α : Type} {plan : Plan α}
    (h : plan.Outside) : Respects Machine.SameStack (plan.follow services) (plan.follow services) := by
  have hcontinues : services.Alike (Respects Machine.Continues) services :=
    ⟨fun receiver name method args machine => (hs.call receiver name method args machine).continues,
      fun value machine => (hs.display value machine).continues⟩
  induction plan with
  | done result => exact Machine.SameStack.refl
  | stop fault => exact Machine.SameStack.refl
  | query question =>
      intro machine
      show machine.SameStack (question.run.after machine)
      rw [Query.after_run]
      exact .refl machine
  | change step => exact absurd h id
  | andThen first next ihf ihn =>
      exact Progress.respects_bind Machine.SameStack.trans (ihf h.1) fun result => ihn result (h.2 result)
  | inFrame self body _ =>
      intro machine
      show machine.SameStack (Outcome.machine (Run.inFrame self (body.follow services) machine))
      rw [Run.inFrame_apply]
      by_cases hroom : machine.stack.depth < machine.settings.maxDepth
      · rw [if_pos hroom, Outcome.machine_through]
        -- the body may change its frame, but that is the frame which goes
        have hbody := Machine.continues_progress.respects_follow body hcontinues (machine.pushed self)
        exact ⟨CallStack.pop_of_continues_push hbody.stack, hbody.settings⟩
      · rw [if_neg hroom]
        exact .refl machine
  | inCall method body ih =>
      intro machine
      show machine.SameStack (Outcome.machine (Run.inCall method (body.follow services) machine))
      rw [Run.inCall_apply, Outcome.machine_through]
      have hbody := ih h (machine.log (.entered method))
      exact ⟨hbody.stack, hbody.settings⟩
  | call receiver name method args => exact hs.call receiver name method args
  | display value => exact hs.display value
  | overflow => exact Machine.SameStack.refl

theorem Plan.respected_sameStack : Plan.Respected (Respects Machine.SameStack) where
  done _ := Machine.SameStack.refl
  flat hs value := respects_sameStack ⟨hs.call, hs.display⟩ (outside_asks.displayedFlat (Set.mem_univ value))
  displayed hs value := respects_sameStack ⟨hs.call, hs.display⟩ (outside_asks.displayed (Set.mem_univ value))
  refused hs _ _ _ := respects_sameStack ⟨hs.call, hs.display⟩ ⟨trivial, fun _ => trivial⟩
  called hs _ _ _ _ := respects_sameStack ⟨hs.call, hs.display⟩ ⟨trivial, fun _ => trivial⟩

namespace Machine

/-- The machine after a plan that is `Outside` has the stack it had. -/
theorem sameStack_follow {α : Type} {plan : Plan α} (h : plan.Outside) (room : Nat)
    (machine : Machine) : machine.SameStack ((plan.follow (.within room)).after machine) :=
  respects_sameStack (Services.within_alike Plan.respected_sameStack room) h machine

/-- `Machine.eval` goes on with the stack, whatever the node is. -/
theorem continues_eval (node : Node) (machine : Machine) :
    machine.Continues ((eval node).after machine) := by
  rw [Run.after, eval_eq_follow]
  exact continues_progress.follow_within (ofNode node) machine.room machine

/-- A run adds at most an event to `Machine.eval`, so it goes on with the stack as well. -/
theorem continues_run (program : Node) (machine : Machine) :
    machine.Continues ((run program).after machine) := by
  have h := continues_eval program machine
  rw [Run.after] at h ⊢
  rw [run]
  cases heval : eval program machine with
  | ok value last =>
      rw [heval] at h
      exact h
  | error fault last =>
      rw [heval] at h
      exact ⟨h.stack, h.settings⟩

theorem sameStack_send (receiver : Value) (name : String) (args : List Value) (machine : Machine) :
    machine.SameStack ((send receiver name args).after machine) :=
  have houtside := outside_asks.send name (Set.mem_univ receiver) fun arg (_ : arg ∈ args) => Set.mem_univ arg
  sameStack_follow houtside machine.room machine

theorem sameStack_call (receiver : Value) (name : String) (method : Method) (args : List Value)
    (machine : Machine) : machine.SameStack ((call receiver name method args).after machine) :=
  sameStack_follow (show (Plan.call receiver name method args).Outside from trivial) machine.room machine

theorem sameStack_display (value : Value) (machine : Machine) :
    machine.SameStack ((display value).after machine) :=
  sameStack_follow (show (Plan.display value).Outside from trivial) machine.room machine

/-- **Frames are restored on every exit.** Whether they end with a result or with a fault, `eval` and `run` go on
    with the stack they found (`Continues`), and `send`, `call` and `display` leave it exactly as it was
    (`SameStack`); the limit stays what it is. -/
theorem frames_restored (machine : Machine) :
    (∀ node, machine.Continues ((eval node).after machine)) ∧
    (∀ program, machine.Continues ((run program).after machine)) ∧
    (∀ receiver name args, machine.SameStack ((send receiver name args).after machine)) ∧
    (∀ receiver name method args,
      machine.SameStack ((call receiver name method args).after machine)) ∧
    (∀ value, machine.SameStack ((display value).after machine)) :=
  ⟨fun node => continues_eval node machine, fun program => continues_run program machine,
    fun receiver name args => sameStack_send receiver name args machine,
    fun receiver name method args => sameStack_call receiver name method args machine,
    fun value => sameStack_display value machine⟩

end Machine

end ObjectTalk

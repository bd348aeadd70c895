import ObjectTalk.Proofs.Dispatch
import ObjectTalk.Proofs.Payloads
import ObjectTalk.Proofs.Sequencing
/-!
# `Proofs.Allocation` — work that does nothing but allocate

Much of what programs do leaves everything as it was and makes new objects: literals, arithmetic, the size of an array.
`Machine.Allocates` says so of the machine before and the machine after. It holds of a message if it holds of the
built-in method that is found, because the frame of the call is gone afterwards (`Machine.Allocates.called`).

Which method is found is up to the program, which may store another one under the same name. `Hierarchy.Retains` says
that a class still has the method with which it began. Then a message to an instance of that very class calls it,
whatever has been done to other classes (`Machine.send_of_retains`).
-/

namespace ObjectTalk

/-- Nothing has been done but to allocate objects (`Heap.push`) and to record events (`Machine.log`). -/
structure Machine.Allocates (before after : Machine) : Prop where
  classes : after.classes = before.classes
  stack : after.stack = before.stack
  output : after.output = before.output
  settings : after.settings = before.settings
  size : before.heap.size ≤ after.heap.size
  objects : ∀ id < before.heap.size, after.heap.get id = before.heap.get id

/-- The value is an object that was not there before, of `ClassId.integer` and with the number. -/
def Machine.NewInteger (before after : Machine) (value : Value) (number : Int64) : Prop :=
  ∃ id, value = .object id ∧ before.heap.size ≤ id
    ∧ after.heap.get id = { classId := ClassId.integer, payload := some (.number number) }

namespace Machine

variable {machine middle last : Machine}

theorem Allocates.refl (machine : Machine) : machine.Allocates machine :=
  ⟨rfl, rfl, rfl, rfl, le_refl _, fun _ _ => rfl⟩

/-- `Allocates` holds over two stretches if it holds over each. -/
theorem Allocates.trans (h : machine.Allocates middle) (h' : middle.Allocates last) : machine.Allocates last where
  classes := h'.classes.trans h.classes
  stack := h'.stack.trans h.stack
  output := h'.output.trans h.output
  settings := h'.settings.trans h.settings
  size := h.size.trans h'.size
  objects id hid := by
    rw [h'.objects id (Nat.lt_of_lt_of_le hid h.size), h.objects id hid]

/-- What only `Allocates` leaves the room for frames as it is. -/
theorem Allocates.room_eq (h : machine.Allocates last) : last.room = machine.room := by
  unfold room
  rw [h.stack, h.settings]

theorem allocates_traced (kind : String) (machine : Machine) : machine.Allocates (machine.traced kind) := by
  unfold traced
  split
  · exact ⟨rfl, rfl, rfl, rfl, le_refl _, fun _ _ => rfl⟩
  · exact .refl machine

theorem heap_traced (kind : String) (machine : Machine) : (machine.traced kind).heap = machine.heap := by
  unfold traced
  split
  · rfl
  · rfl

/-- `Heap.push` is an allocation. -/
theorem allocates_push (machine : Machine) (object : Object) :
    machine.Allocates { machine with heap := machine.heap.push object } := by
  refine ⟨rfl, rfl, rfl, rfl, by simp, ?_⟩
  intro id hid
  rw [Heap.get_push, if_neg (Nat.ne_of_lt hid)]

/-- What only `Allocates` in a frame has only allocated when `CallStack.pop` has taken the frame away, if the frame
    was put on the stack by allocating at most. -/
theorem Allocates.left {inside : Machine} {event : Event} (h : inside.Allocates last)
    (hinside : machine.Allocates { inside with stack := machine.stack }) (hpop : inside.stack.pop = machine.stack) :
    machine.Allocates (last.popped.log event) where
  classes := h.classes.trans hinside.classes
  stack := by
    show last.stack.pop = machine.stack
    rw [h.stack, hpop]
  output := h.output.trans hinside.output
  settings := h.settings.trans hinside.settings
  size := hinside.size.trans h.size
  objects id hid := (h.objects id (Nat.lt_of_lt_of_le hid hinside.size)).trans (hinside.objects id hid)

/-- What only `Allocates` in the frame of a call has only allocated when the call is over. -/
theorem Allocates.called {name : String} {receiver : Value}
    (h : ((machine.log (.entered name)).pushed receiver).Allocates last) :
    machine.Allocates (last.popped.log (.left name)) :=
  h.left ⟨rfl, rfl, rfl, rfl, le_refl _, fun _ _ => rfl⟩ (CallStack.pop_push machine.stack receiver)

/-- An object with a `Heap.payload?` is there. -/
theorem lt_size_of_payload? {heap : Heap} {id : ObjectId} {payload : Payload}
    (h : heap.payload? (.object id) = some payload) : id < heap.size := by
  by_contra hout
  rw [Heap.payload?, Heap.get_of_size_le (Nat.le_of_not_lt hout)] at h
  cases h

/-- An object keeps its payload where one only `Allocates`. -/
theorem Allocates.payload? (h : machine.Allocates last) {value : Value} {payload : Payload}
    (hpayload : machine.heap.payload? value = some payload) : last.heap.payload? value = some payload := by
  cases value with
  | object id =>
      rw [← hpayload, Heap.payload?, Heap.payload?, h.objects id (lt_size_of_payload? hpayload)]
  | nil => cases hpayload
  | classRef id => cases hpayload

/-! ## New integers -/

variable {value : Value} {number : Int64}

/-- `Heap.push` of a new integer makes a `NewInteger`. -/
theorem newInteger_push (machine : Machine) (number : Int64) :
    machine.NewInteger { machine with heap := machine.heap.push ((NewObject.integer number).object machine) }
      (.object machine.heap.size) number := by
  refine ⟨machine.heap.size, rfl, le_refl _, ?_⟩
  rw [Heap.get_push, if_pos rfl]
  rfl

theorem NewInteger.payload? (h : machine.NewInteger last value number) :
    last.heap.payload? value = some (.number number) := by
  obtain ⟨id, rfl, _, hget⟩ := h
  rw [Heap.payload?, hget]

theorem NewInteger.classOf? (h : machine.NewInteger last value number) :
    last.classOf? value = some ClassId.integer := by
  obtain ⟨id, rfl, _, hget⟩ := h
  rw [Machine.classOf?, hget]

/-- A `NewInteger` stays what it is while others are allocated. -/
theorem NewInteger.allocates (h : machine.NewInteger middle value number) (hlast : middle.Allocates last) :
    machine.NewInteger last value number := by
  have hpayload := h.payload?
  obtain ⟨id, rfl, hnew, hget⟩ := h
  exact ⟨id, rfl, hnew, (hlast.objects id (lt_size_of_payload? hpayload)).trans hget⟩

/-- A `NewInteger` of later on is new. -/
theorem NewInteger.since (h : middle.NewInteger last value number) (hmiddle : machine.Allocates middle) :
    machine.NewInteger last value number := by
  obtain ⟨id, rfl, hnew, hget⟩ := h
  exact ⟨id, rfl, hmiddle.size.trans hnew, hget⟩

end Machine

/-! ## Built-in methods that a class still has -/

namespace Hierarchy

variable {hierarchy : Hierarchy} {owner id : ClassId} {name : String} {method : Method}

/-- The class has under the name the method that it has in `Hierarchy.initial`. -/
def Retains (hierarchy : Hierarchy) (owner : ClassId) (name : String) : Prop :=
  hierarchy.own? owner name = initial.own? owner name

/-- A class that has a method itself finds it by `lookup` before any other. -/
theorem lookup_of_own? (h : hierarchy.own? id name = some method) : hierarchy.lookup id name = some (id, method) := by
  have hid : id < hierarchy.size := by
    by_contra hout
    rw [own?, get_of_size_le (Nat.le_of_not_lt hout)] at h
    cases h
  obtain ⟨rest, hancestors⟩ : ∃ rest, hierarchy.ancestors id = id :: rest := by
    obtain ⟨n, hsize⟩ := Nat.exists_eq_succ_of_ne_zero (Nat.ne_of_gt (Nat.lt_of_le_of_lt (Nat.zero_le id) hid))
    rw [ancestors, hsize, chain]
    cases (hierarchy.get id).superclass with
    | none => exact ⟨[], rfl⟩
    | some parent => exact ⟨hierarchy.chain n parent, rfl⟩
  rw [lookup_eq_findSome?, hancestors, List.findSome?_cons, h]
  rfl

end Hierarchy

/-- **A `send` to an instance of a class that `Retains` its built-in method** has the method act in a frame for the
    receiver, if the number of arguments is right and there is room. -/
theorem Machine.send_of_retains {machine : Machine} {receiver : Value} {owner : ClassId} {name written : String}
    {args : List Value} {arity : Arity} {action : Builtin} (hclass : machine.classOf? receiver = some owner)
    (hretains : machine.classes.Retains owner name)
    (hinitial : Hierarchy.initial.own? owner name = some (.builtin written arity action))
    (harity : arity.admits args.length) (hroom : machine.stack.depth < machine.settings.maxDepth) :
    send receiver name args machine
      = Outcome.through (fun inside => inside.popped.log (.left name))
          (action.applyWith (callWithin (machine.room - 1)) receiver args
            ((machine.log (.entered name)).pushed receiver)) :=
  send_of_lookup hclass (Hierarchy.lookup_of_own? (hretains.trans hinitial)) harity hroom

end ObjectTalk

import ObjectTalk.Proofs.Allocation
/-!
# `Proofs.Construction` — new instances

The message `new` to a class makes an object and sends it `initialize`. What `initialize` does is up to the program: it
may answer anything, keep the object somewhere, make others, define methods, or fail. The constructor drops the answer
and gives the object (`Machine.send_new_of_room`), and since objects keep their class and what they hold, it is then
still the empty instance that was made.

A class always understands `initialize` on behalf of its instances: the root class has such a method from the
beginning, methods are never taken away, and every class descends from the root class.
-/

namespace ObjectTalk

namespace Hierarchy

variable {hierarchy : Hierarchy} {id : ClassId}

/-- What a new instance holds, by `emptyPayload`: an empty text, zero or no items if the class is that of strings,
    integers or arrays or descends from it, and nothing otherwise. -/
structure StartsWith (hierarchy : Hierarchy) (id : ClassId) (held : Option Payload) : Prop where
  text : hierarchy.descends id ClassId.string → held = some (.text "")
  number : hierarchy.descends id ClassId.integer → held = some (.number 0)
  items : hierarchy.descends id ClassId.array → held = some (.items [])
  nothing : (∀ owner ∈ ClassId.primitives, ¬ hierarchy.descends id owner) → held = none

/-- A class that descends from one of `ClassId.primitives` descends from no other. -/
theorem Settled.not_descends (h : hierarchy.Settled) (hid : id < hierarchy.size) {owner other : ClassId}
    (howner : owner ∈ ClassId.primitives) (hother : other ∈ ClassId.primitives) (hne : other ≠ owner)
    (hdescends : hierarchy.descends id owner) : ¬ hierarchy.descends id other := by
  intro hdescends'
  exact hne (h.primitive_unique hid hother howner hdescends' hdescends)

/-- A method of `ClassId.root` is there for every class, its own or another one. -/
theorem Rooted.lookup_of_root (h : hierarchy.Rooted) (hid : id < hierarchy.size) {name : String}
    (hroot : (hierarchy.own? ClassId.root name).isSome) :
    ∃ owner method, hierarchy.lookup id name = some (owner, method) := by
  have hlast := h.last_of_walk (h.walk_ancestors hid) hid
  have hmem : ClassId.root ∈ hierarchy.ancestors id := List.mem_of_getLast? hlast
  have hfound : (hierarchy.lookup id name).isSome := by
    rw [lookup_eq_findSome?, List.findSome?_isSome_iff]
    refine ⟨ClassId.root, hmem, ?_⟩
    rw [Option.isSome_map]
    exact hroot
  obtain ⟨⟨owner, method⟩, hlookup⟩ := Option.isSome_iff_exists.mp hfound
  exact ⟨owner, method, hlookup⟩

end Hierarchy

/-- The `Outcome` with another value, if it has one. -/
def Outcome.answering (value : Value) : Outcome Value → Outcome Value
  | .ok _ machine => .ok value machine
  | .error fault machine => .error fault machine

namespace Machine

variable {machine last : Machine} {id : ClassId}

/-- `emptyPayload` is what a new instance `StartsWith`. -/
theorem startsWith_emptyPayload (h : machine.classes.Settled) (hid : id < machine.classes.size) :
    machine.classes.StartsWith id (machine.emptyPayload id) := by
  have hstring : ClassId.string ∈ ClassId.primitives := by decide
  have hinteger : ClassId.integer ∈ ClassId.primitives := by decide
  have harray : ClassId.array ∈ ClassId.primitives := by decide
  unfold emptyPayload
  refine ⟨?_, ?_, ?_, ?_⟩
  · intro hdescends
    rw [if_pos hdescends]
  · intro hdescends
    rw [if_neg (h.not_descends hid hinteger hstring (by decide) hdescends), if_pos hdescends]
  · intro hdescends
    rw [if_neg (h.not_descends hid harray hstring (by decide) hdescends),
      if_neg (h.not_descends hid harray hinteger (by decide) hdescends), if_pos hdescends]
  · intro hnone
    rw [if_neg (hnone _ hstring), if_neg (hnone _ hinteger), if_neg (hnone _ harray)]

/-- **Where programs have been run, every class finds a method `initialize`.** -/
theorem Occurs.lookup_initialize {settings : Settings} {output : Output}
    (h : (boot settings output).Occurs machine) (hid : id < machine.classes.size) :
    ∃ owner method, machine.classes.lookup id "initialize" = some (owner, method) := by
  have hformed : wellFormed.holds machine := Invariant.holds_of_occurs h (wellFormed_boot settings output)
  have hinitial : ((boot settings output).classes.own? ClassId.root "initialize").isSome := rfl
  have hroot : ClassId.root < Hierarchy.initial.size := by decide
  exact hformed.rooted.lookup_of_root hid ((h.adds.classes.entries ClassId.root hroot).methods _ hinitial)

/-! ## The constructor -/

/-- The machine in which a new instance is sent `initialize`: there is a frame for the constructor, and the instance
    is the last of the objects. -/
def instantiating (machine : Machine) (id : ClassId) : Machine :=
  { (machine.log (.entered "new")).pushed (.classRef id) with
    heap := machine.heap.push { classId := id, payload := machine.emptyPayload id } }

/-- `instantiateWith` sends `initialize` to the instance and then gives the instance. -/
theorem instantiateWith_apply (call : Caller) (args : List Value) (hmeta : id ≠ ClassId.metaclass)
    (machine : Machine) :
    instantiateWith call (.classRef id) args machine
      = Outcome.answering (.object machine.heap.size) (sendWith call (.object machine.heap.size) "initialize" args
          { machine with heap := machine.heap.push { classId := id, payload := machine.emptyPayload id } }) := by
  have hclass : Run.asClass (.classRef id) machine = .ok id machine := rfl
  have halloc : Run.allocInstance id machine = .ok (.object machine.heap.size)
      { machine with heap := machine.heap.push { classId := id, payload := machine.emptyPayload id } } := rfl
  rw [instantiateWith, Run.bind_apply, hclass]
  simp only [if_neg hmeta]
  rw [Run.bind_apply, halloc]
  simp only
  rw [Run.bind_apply]
  generalize sendWith _ _ _ _ _ = outcome
  cases outcome with
  | ok answer last => rfl
  | error fault last => rfl

/-- `Hierarchy.initial` has the constructor in the metaclass. -/
theorem own?_new : Hierarchy.initial.own? ClassId.metaclass "new" = some (.builtin "new" (.orMore 0) .instantiate) :=
  rfl

/-- The constructor takes any arguments: its arity is `Arity.orMore`. -/
theorem admits_new (args : List Value) : (Arity.orMore 0).admits args.length := by
  simp [Arity.admits, Arity.orMore]

/-- **`new` makes an instance, sends it `initialize`, and gives the instance.** -/
theorem send_new_of_room (hid : machine.classOf? (.classRef id) = some ClassId.metaclass)
    (hretains : machine.classes.Retains ClassId.metaclass "new") (hmeta : id ≠ ClassId.metaclass)
    (args : List Value) (hroom : machine.stack.depth < machine.settings.maxDepth) :
    send (.classRef id) "new" args machine
      = Outcome.through (fun inner => inner.popped.log (.left "new"))
          (Outcome.answering (.object machine.heap.size)
            (send (.object machine.heap.size) "initialize" args (machine.instantiating id))) := by
  -- the room that is left in the frame of the constructor is what the message finds there
  have hleft : machine.room - 1 = (machine.instantiating id).room := rfl
  rw [send_of_retains hid hretains own?_new (admits_new args) hroom, Builtin.applyWith, Builtin.handler,
    Handler.applyWith, instantiateWith_apply _ _ hmeta, hleft]
  rfl

/-- A `send` whose method cannot have a frame fails with `Fault.tooDeep`. -/
theorem send_of_full {receiver : Value} {owner : ClassId} {name : String} {method : Method} {args : List Value}
    (hclass : machine.classOf? receiver = some id) (hlookup : machine.classes.lookup id name = some (owner, method))
    (harity : method.arity.admits args.length) (hfull : ¬ machine.stack.depth < machine.settings.maxDepth) :
    send receiver name args machine
      = .error (.tooDeep machine.stack.depth machine.settings.maxDepth)
          ((machine.log (.entered name)).log (.left name)) := by
  rw [send_eq_call hclass hlookup]
  exact call_of_full receiver name method harity hfull

/-- `initialize`, sent in the machine `instantiating`, leaves the instance its class and its payload. -/
theorem get_of_initialised (args : List Value) {outcome : Outcome Value}
    (h : send (.object machine.heap.size) "initialize" args (machine.instantiating id) = outcome) :
    machine.heap.size < outcome.machine.heap.size
      ∧ (outcome.machine.heap.get machine.heap.size).classId = id
      ∧ (outcome.machine.heap.get machine.heap.size).payload = machine.emptyPayload id := by
  have hgrown := (adds_progress.follow_within (Plan.send (.object machine.heap.size) "initialize" args)
    (machine.instantiating id).room (machine.instantiating id)).heap
  rw [Run.after, ← send_eq_follow, h] at hgrown
  have hlt : machine.heap.size < (machine.instantiating id).heap.size := by
    show _ < (machine.heap.push _).size
    rw [Heap.size_push]
    exact Nat.lt_succ_self _
  have hget : (machine.instantiating id).heap.get machine.heap.size
      = { classId := id, payload := machine.emptyPayload id } := by
    show (machine.heap.push _).get machine.heap.size = _
    rw [Heap.get_push, if_pos rfl]
  refine ⟨Nat.lt_of_lt_of_le hlt hgrown.size, ?_, ?_⟩
  · rw [hgrown.classId _ hlt, hget]
  · rw [hgrown.payload _ hlt, hget]

/-- **`new` gives a new instance, whatever `initialize` does**, as long as the metaclass `Retains` its own `new`.
    What it gives was not there before, is an instance of the class and holds what the class `StartsWith`. It fails
    only if its frame is refused or `initialize` fails, and then with that fault; any answer of `initialize` is
    dropped. -/
theorem constructor_gives_new_instance {settings : Settings} {output : Output} {machine : Machine}
    (h : (boot settings output).Occurs machine) (hretains : machine.classes.Retains ClassId.metaclass "new")
    {id : ClassId} (hid : machine.Owns (.classRef id)) (hmeta : id ≠ ClassId.metaclass) (args : List Value) :
    (∃ owner method, machine.classes.lookup id "initialize" = some (owner, method)) ∧
    (∀ object last, send (.classRef id) "new" args machine = .ok object last →
      object = .object machine.heap.size ∧ ¬ machine.Owns object ∧ last.Owns object
        ∧ last.classOf? object = some id ∧ machine.classes.StartsWith id (last.heap.payload? object)
        ∧ ∃ answer inner, send object "initialize" args (machine.instantiating id) = .ok answer inner) ∧
    (∀ fault last, send (.classRef id) "new" args machine = .error fault last →
      (¬ machine.stack.depth < machine.settings.maxDepth
          ∧ fault = .tooDeep machine.stack.depth machine.settings.maxDepth)
        ∨ ∃ inner, send (.object machine.heap.size) "initialize" args (machine.instantiating id)
            = .error fault inner) ∧
    (machine.stack.depth < machine.settings.maxDepth → ∀ answer inner,
      send (.object machine.heap.size) "initialize" args (machine.instantiating id) = .ok answer inner →
      ∃ last, send (.classRef id) "new" args machine = .ok (.object machine.heap.size) last) := by
  obtain ⟨hformed, htyped⟩ : typed.holds machine := typed_hosted.holds_of_arises (h.arises (.boot settings output))
  have hclass : machine.classOf? (.classRef id) = some ClassId.metaclass := by
    rw [classOf?, hformed.rooted.classId id hid]
  refine ⟨h.lookup_initialize hid, ?_⟩
  by_cases hroom : machine.stack.depth < machine.settings.maxDepth
  · rw [send_new_of_room hclass hretains hmeta args hroom]
    cases hinit : send (.object machine.heap.size) "initialize" args (machine.instantiating id) with
    | ok answer inner =>
        obtain ⟨hlt, hkind, hheld⟩ := get_of_initialised args hinit
        refine ⟨?_, ?_, ?_⟩
        · intro object last hok
          cases hok
          refine ⟨rfl, Nat.lt_irrefl _, hlt, ?_, ?_, answer, inner, hinit⟩
          · exact congrArg some hkind
          · have hpayload : Heap.payload? inner.heap (.object machine.heap.size) = machine.emptyPayload id := hheld
            show machine.classes.StartsWith id (inner.heap.payload? (.object machine.heap.size))
            rw [hpayload]
            exact startsWith_emptyPayload htyped.settled hid
        · intro fault last herror
          cases herror
        · intro _ _ _ _
          exact ⟨_, rfl⟩
    | error fault inner =>
        refine ⟨?_, ?_, ?_⟩
        · intro object last hok
          cases hok
        · intro found last herror
          cases herror
          exact .inr ⟨inner, rfl⟩
        · intro _ answer last hok
          cases hok
  · have hlookup := Hierarchy.lookup_of_own? (hretains.trans own?_new)
    rw [send_of_full hclass hlookup (admits_new args) hroom]
    refine ⟨?_, ?_, ?_⟩
    · intro object last hok
      cases hok
    · intro fault last herror
      cases herror
      exact .inl ⟨hroom, rfl⟩
    · intro hfits
      exact absurd hfits hroom

/-- A new machine after a program that makes a class which descends from that of strings. Its `initialize` takes one
    argument, defines another `initialize` in its own place, and answers another object. -/
def selfWilled : Machine :=
  (run (.classDef none "Label" (some (.constRef none "String")) (.methodDef "initialize" ⟨["x"], none⟩
    (.sequence [.ivarAssign "@x" (.localRead "x"), .methodDef "initialize" {} (.localRead "x"),
      .send (some (.constRef none "Object")) "new" []])))).after (boot {} (.kept ""))

theorem constructor_gives_new_instance_selfWilled :
    ((boot {} (.kept "")).Occurs selfWilled ∧ selfWilled.classes.Retains ClassId.metaclass "new"
      ∧ selfWilled.Owns (.classRef 5) ∧ 5 ≠ ClassId.metaclass
      ∧ selfWilled.stack.depth < selfWilled.settings.maxDepth
      ∧ selfWilled.classes.descends 5 ClassId.string
      ∧ (∃ inner, send (.object 2) "initialize" [main] (selfWilled.instantiating 5) = .ok (.object 4) inner)
      ∧ ∃ last, send (.classRef 5) "new" [] selfWilled = .error (.wrongArity "initialize" (.exactly 1) 0) last)
    ∧ (∃ owner method, selfWilled.classes.lookup 5 "initialize" = some (owner, method))
    ∧ (∃ last, send (.classRef 5) "new" [main] selfWilled = .ok (.object 2) last ∧ last.classOf? (.object 2) = some 5
      ∧ last.heap.payload? (.object 2) = some (.text "") ∧ ¬ selfWilled.Owns (.object 2))
    ∧ ∃ inner, send (.object 2) "initialize" [] (selfWilled.instantiating 5)
        = .error (.wrongArity "initialize" (.exactly 1) 0) inner := by
  have hoccurs : (boot {} (.kept "")).Occurs selfWilled := (RunsTo.refl.run _).occurs
  have hretains : selfWilled.classes.Retains ClassId.metaclass "new" := by
    rw [Hierarchy.Retains, own?_new]
    rfl
  have howns : selfWilled.Owns (.classRef 5) := by
    show 5 < selfWilled.classes.size
    decide +kernel
  have hmeta : 5 ≠ ClassId.metaclass := by decide
  have hroom : selfWilled.stack.depth < selfWilled.settings.maxDepth := by decide +kernel
  have hdescends : selfWilled.classes.descends 5 ClassId.string := by decide +kernel
  have hanswer : ∃ inner, send (.object 2) "initialize" [main] (selfWilled.instantiating 5) = .ok (.object 4) inner :=
    ⟨_, Run.eq_ok_after (by decide +kernel)⟩
  have hfails : ∃ last, send (.classRef 5) "new" [] selfWilled
      = .error (.wrongArity "initialize" (.exactly 1) 0) last := ⟨_, Run.eq_error_after (by decide +kernel)⟩
  have hsize : selfWilled.heap.size = 2 := by decide +kernel
  obtain ⟨hlookup, hgives, _, hunless⟩ := constructor_gives_new_instance hoccurs hretains howns hmeta [main]
  obtain ⟨_, _, hfault, _⟩ := constructor_gives_new_instance hoccurs hretains howns hmeta []
  rw [hsize] at hgives hunless hfault
  refine ⟨⟨hoccurs, hretains, howns, hmeta, hroom, hdescends, hanswer, hfails⟩, hlookup, ?_, ?_⟩
  · obtain ⟨inner, hinner⟩ := hanswer
    obtain ⟨last, hlast⟩ := hunless hroom _ _ hinner
    obtain ⟨_, hnew, _, hclass, hheld, _⟩ := hgives _ _ hlast
    exact ⟨last, hlast, hclass, hheld.text hdescends, hnew⟩
  · obtain ⟨last, hlast⟩ := hfails
    rcases hfault _ _ hlast with ⟨hfull, _⟩ | hinner
    · exact absurd hroom hfull
    · exact hinner

end Machine

end ObjectTalk

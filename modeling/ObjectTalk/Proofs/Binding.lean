import Mathlib.Data.List.Induction
import ObjectTalk.Proofs.Plan.Basic
/-!
# `Proofs.Binding` — arguments and the parameters that take them

The number of arguments is looked at twice: when a method is called, by its arity (`Run.checkArity`), and when its
parameters are bound, by giving out the arguments one by one (`assignParams`). Both come to the same: for any signature
the parameters can be bound exactly if the arity admits as many arguments (`assignParams_of_admits`,
`assignParams_of_not_admits`).

Parameters are bound one after another, and nothing forbids that two have the same name. So a name stands where
it was bound first and has the value it was given last (`Table.names_setAll`, `Table.get?_setAll_of_last`); what
the frame of a call looks like when the body begins is `Signature.Binds`.
-/

namespace ObjectTalk

/-! ## Binding names one after another -/

namespace Table

variable {α : Type}

/-- `Table.set` for names, one after another. -/
def setAll (table : Table α) (bindings : List (String × α)) : Table α :=
  bindings.foldl (fun table binding => table.set binding.1 binding.2) table

@[simp] theorem setAll_nil (table : Table α) : table.setAll [] = table := rfl

@[simp] theorem setAll_cons (table : Table α) (binding : String × α) (bindings : List (String × α)) :
    table.setAll (binding :: bindings) = (table.set binding.1 binding.2).setAll bindings := rfl

/-- `setAll` of two lists of bindings is one after the other. -/
theorem setAll_append (table : Table α) (front back : List (String × α)) :
    table.setAll (front ++ back) = (table.setAll front).setAll back := by
  simp [setAll, List.foldl_append]

/-- **A name stands where `setAll` bound it first.** By induction from the back, as each binding adds its name last
    or not at all. -/
theorem names_setAll (bindings : List (String × α)) :
    (setAll {} bindings).names = (bindings.map Prod.fst).eraseDups := by
  induction bindings using List.reverseRecOn with
  | nil => rfl
  | append_singleton front binding ih =>
      rw [setAll_append, setAll_cons, setAll_nil, names_set, ih, List.map_append, List.map_cons, List.map_nil,
        List.eraseDups_append]
      -- what is left of the last name when those before it are removed is the name itself, if it is new
      by_cases hmem : binding.1 ∈ front.map Prod.fst
      · simp [List.removeAll, List.mem_eraseDups, hmem]
      · simp [List.removeAll, List.mem_eraseDups, List.eraseDups_cons, hmem]

theorem get?_setAll_of_not_mem (table : Table α) {name : String} {bindings : List (String × α)}
    (h : name ∉ bindings.map Prod.fst) : (table.setAll bindings).get? name = table.get? name := by
  induction bindings generalizing table with
  | nil => rfl
  | cons binding bindings ih =>
      rw [List.map_cons, List.mem_cons, not_or] at h
      rw [setAll_cons, ih _ h.2, get?_set, if_neg h.1]

/-- **A name has the value that `setAll` gave it last.** -/
theorem get?_setAll_of_last (table : Table α) {name : String} {value : α} {front back : List (String × α)}
    (h : name ∉ back.map Prod.fst) :
    (table.setAll (front ++ (name, value) :: back)).get? name = some value := by
  rw [setAll_append, setAll_cons, get?_setAll_of_not_mem _ h, get?_set, if_pos rfl]

end Table

/-! ## The local variables of a call -/

namespace Signature

variable {α : Type}

/-- The names with the values they are bound to, in the order of binding; `array` holds what is left of the
    arguments. -/
def bindings (signature : Signature) (args : List α) (array : α) : List (String × α) :=
  signature.fixed.zip args ++ (signature.rest.map (·, array)).toList

/-- What the local variables are when the parameters have been bound, as `assignParams` does: each name once, in the
    order of first occurrence. A fixed parameter has its argument and the rest parameter has the array, unless a
    later parameter has the same name. -/
structure Binds (signature : Signature) (args : List Value) (array : Value) (locals : Table Value) : Prop where
  names : locals.names = signature.names.eraseDups
  fixed : ∀ (i : Nat) (name : String), signature.fixed[i]? = some name →
    name ∉ signature.names.drop (i + 1) → locals.get? name = args[i]?
  rest : ∀ name, signature.rest = some name → locals.get? name = some array

theorem names_eq (signature : Signature) : signature.names = signature.fixed ++ signature.rest.toList := by
  have hid : Param.name ∘ Param.fixed = id := rfl
  cases hrest : signature.rest <;> simp [names, params, hrest, hid, Param.name]

/-- An arity that admits a number has at most as many `fixed` parameters. -/
theorem length_fixed_le_of_admits {signature : Signature} {count : Nat} (h : signature.arity.admits count) :
    signature.fixed.length ≤ count := by
  unfold arity Arity.admits at h
  split at h
  · exact of_decide_eq_true h
  · exact Nat.le_of_eq (of_decide_eq_true h).symm

theorem map_fst_bindings {signature : Signature} {args : List α} (h : signature.arity.admits args.length)
    (array : α) : (signature.bindings args array).map Prod.fst = signature.names := by
  have hzip : (signature.fixed.zip args).map Prod.fst = signature.fixed :=
    List.map_fst_zip (length_fixed_le_of_admits h)
  rw [bindings, List.map_append, hzip, names_eq]
  cases signature.rest <;> rfl

/-- **`setAll` of the parameters in order gives the local variables of the call**: it `Binds` them. -/
theorem binds_setAll {signature : Signature} {args : List Value} (h : signature.arity.admits args.length)
    (array : Value) : signature.Binds args array (Table.setAll {} (signature.bindings args array)) := by
  have hfst := map_fst_bindings h array
  refine ⟨?_, ?_, ?_⟩
  · rw [Table.names_setAll, hfst]
  · intro i name hname hlast
    have hi : i < signature.fixed.length := (List.getElem?_eq_some_iff.mp hname).1
    have hargs : i < args.length := Nat.lt_of_lt_of_le hi (length_fixed_le_of_admits h)
    have harg : args[i]? = some args[i] := List.getElem?_eq_getElem hargs
    have hget : (signature.bindings args array)[i]? = some (name, args[i]) := by
      have hzip : i < (signature.fixed.zip args).length := by
        rw [List.length_zip]
        omega
      rw [bindings, List.getElem?_append_left hzip, List.getElem?_zip_eq_some]
      exact ⟨hname, harg⟩
    -- the parameter splits the bindings into those before it and those after it
    obtain ⟨hlt, heq⟩ := List.getElem?_eq_some_iff.mp hget
    have hsplit : signature.bindings args array
        = (signature.bindings args array).take i
          ++ (name, args[i]) :: (signature.bindings args array).drop (i + 1) := by
      rw [← heq, ← List.drop_eq_getElem_cons hlt, List.take_append_drop]
    have hback : name ∉ ((signature.bindings args array).drop (i + 1)).map Prod.fst := by
      rw [List.map_drop, hfst]
      exact hlast
    rw [hsplit, harg]
    exact Table.get?_setAll_of_last _ hback
  · intro name hrest
    rw [bindings, hrest]
    exact Table.get?_setAll_of_last _ (by simp)

end Signature

/-! ## Frames with local variables -/

namespace CallStack

/-- The `CallStack` with a frame on top that has local variables already. -/
def pushFrame (stack : CallStack) (frame : Frame) : CallStack where
  bottom := stack.bottom
  above := frame :: stack.above
  depth := stack.depth + 1
  depth_eq := congrArg Nat.succ stack.depth_eq

/-- `CallStack.bindLocal` for names, one after another. -/
def bindAll (stack : CallStack) (bindings : List (String × Value)) : CallStack :=
  bindings.foldl (fun stack binding => stack.bindLocal binding.1 binding.2) stack

/-- `bindAll` binds in the frame that `pushFrame` put on top. -/
theorem bindAll_pushFrame (stack : CallStack) (frame : Frame) (bindings : List (String × Value)) :
    (stack.pushFrame frame).bindAll bindings
      = stack.pushFrame { frame with locals := frame.locals.setAll bindings } := by
  induction bindings generalizing frame with
  | nil => rfl
  | cons binding bindings ih =>
      exact ih { frame with locals := frame.locals.set binding.1 binding.2 }

end CallStack

/-- `bindFixed` binds each name for which there is an argument, and gives the arguments after these, or stops if there
    are too few. By induction on the names. -/
theorem bindFixed_apply (missing : Fault) (names : List String) (args : List Value) (machine : Machine) :
    bindFixed missing names args machine
      = if names.length ≤ args.length then
          .ok (args.drop names.length) { machine with stack := machine.stack.bindAll (names.zip args) }
        else .error missing { machine with stack := machine.stack.bindAll (names.zip args) } := by
  induction names generalizing args machine with
  | nil =>
      have hall : ([] : List String).length ≤ args.length := Nat.zero_le _
      rw [if_pos hall]
      rfl
  | cons name names ih =>
      cases args with
      | nil =>
          have hnone : ¬ (name :: names).length ≤ ([] : List Value).length := Nat.not_succ_le_zero _
          rw [if_neg hnone]
          rfl
      | cons arg args =>
          show bindFixed missing names args { machine with stack := machine.stack.bindLocal name arg } = _
          rw [ih]
          simp only [List.length_cons, Nat.add_le_add_iff_right]
          rfl

/-- The heap when `assignParams` has bound the parameters: what is left of the arguments has become an array, if
    there is a parameter to take it. -/
def Signature.heapAfter (signature : Signature) (args : List Value) (heap : Heap) : Heap :=
  match signature.rest with
  | none => heap
  | some _ =>
    heap.push { classId := ClassId.array, payload := some (.items (args.drop signature.fixed.length)) }

/-- **`assignParams` succeeds if the arity admits the number of arguments.** -/
theorem assignParams_of_admits (name : String) {signature : Signature} {args : List Value}
    (h : signature.arity.admits args.length) (machine : Machine) :
    assignParams name signature args machine
      = .ok () { machine with
          heap := signature.heapAfter args machine.heap
          stack := machine.stack.bindAll (signature.bindings args (.object machine.heap.size)) } := by
  rw [assignParams, Run.bind_apply, bindFixed_apply, if_pos (Signature.length_fixed_le_of_admits h)]
  unfold Signature.heapAfter Signature.bindings
  cases hrest : signature.rest with
  | none =>
      -- without a rest parameter no argument is left
      have hall : args.drop signature.fixed.length = [] := by
        have hcount : args.length = signature.fixed.length := by simpa [Signature.arity, Arity.admits, hrest] using h
        exact List.drop_eq_nil_of_le (Nat.le_of_eq hcount)
      simp only [hall, Option.map_none, Option.toList_none, List.append_nil]
      rfl
  | some rest =>
      -- the array is allocated when the fixed parameters have been bound, and bound last
      simp only [Option.map_some, Option.toList_some, CallStack.bindAll, List.foldl_append]
      rfl

/-- **`assignParams` fails otherwise**, at the first parameter without an argument or at the first argument without a
    parameter. The parameters before it have been bound. -/
theorem assignParams_of_not_admits (name : String) {signature : Signature} {args : List Value}
    (h : ¬ signature.arity.admits args.length) (machine : Machine) :
    assignParams name signature args machine
      = .error (.wrongArity name signature.arity args.length)
          { machine with stack := machine.stack.bindAll (signature.fixed.zip args) } := by
  rw [assignParams, Run.bind_apply, bindFixed_apply]
  by_cases hfew : signature.fixed.length ≤ args.length
  · rw [if_pos hfew]
    cases hrest : signature.rest with
    | none =>
        have hcount : args.length ≠ signature.fixed.length := by simpa [Signature.arity, Arity.admits, hrest] using h
        cases hleft : args.drop signature.fixed.length with
        | nil => exact absurd (Nat.le_antisymm (List.drop_eq_nil_iff.mp hleft) hfew) hcount
        | cons arg left => rfl
    | some rest => exact absurd (by simpa [Signature.arity, Arity.admits, hrest] using hfew) h
  · rw [if_neg hfew]

/-! ## Calls -/

namespace Machine

/-- The machine in which the body of a written method begins: there is a `Frame` for it, with the local variables
    given, and what is left of the arguments has become an array. -/
def entering (machine : Machine) (receiver : Value) (name : String) (signature : Signature) (args : List Value)
    (locals : Table Value) : Machine :=
  { machine.log (.entered name) with
    heap := signature.heapAfter args machine.heap
    stack := machine.stack.pushFrame ⟨receiver, locals⟩ }

/-- Where a frame fits, the `room` is one more than it is inside the frame. -/
theorem room_eq_succ {machine : Machine} (h : machine.stack.depth < machine.settings.maxDepth) :
    machine.room = machine.settings.maxDepth - (machine.stack.depth + 1) + 1 := by
  unfold room
  omega

/-- A `call` whose arguments are too few or too many changes nothing but the journal, whether there is room or not. -/
theorem call_of_not_admits (receiver : Value) (name : String) (method : Method) {args : List Value}
    (h : ¬ method.arity.admits args.length) (machine : Machine) :
    call receiver name method args machine
      = .error (.wrongArity name method.arity args.length)
          ((machine.log (.entered name)).log (.left name)) := by
  have hcheck : ∀ machine : Machine, Run.checkArity name method.arity args.length machine
      = .error (.wrongArity name method.arity args.length) machine := by
    intro machine
    rw [Run.checkArity, if_neg h]
    rfl
  unfold call
  cases machine.room with
  | zero =>
      rw [callWithin, Run.inCall_apply, Run.bind_apply, hcheck]
      rfl
  | succ room =>
      rw [callWithin, Run.inCall_apply, Run.bind_apply, hcheck]
      rfl

/-- A `call` for which there is no room stops before the method does anything. -/
theorem call_of_full (receiver : Value) (name : String) (method : Method) {args : List Value}
    (h : method.arity.admits args.length) {machine : Machine}
    (hfull : ¬ machine.stack.depth < machine.settings.maxDepth) :
    call receiver name method args machine
      = .error (.tooDeep machine.stack.depth machine.settings.maxDepth)
          ((machine.log (.entered name)).log (.left name)) := by
  have hroom : machine.room = 0 := by
    unfold room
    omega
  have hcheck : Run.checkArity name method.arity args.length (machine.log (.entered name))
      = .ok () (machine.log (.entered name)) := by
    rw [Run.checkArity, if_pos h]
    rfl
  rw [call, hroom, callWithin, Run.inCall_apply, Run.bind_apply, hcheck]
  rfl

/-- With arguments that are admitted, `callWithin` does the method in a frame of its own, in which there is room for
    one call less. -/
theorem callWithin_of_admits (room : Nat) (receiver : Value) (name : String) (method : Method) {args : List Value}
    (h : method.arity.admits args.length) {machine : Machine}
    (hroom : machine.stack.depth < machine.settings.maxDepth) :
    callWithin (room + 1) receiver name method args machine
      = Outcome.through (fun last => last.popped.log (.left name))
          (invokeWith (callWithin room) receiver name args method
            ((machine.log (.entered name)).pushed receiver)) := by
  have hcheck : Run.checkArity name method.arity args.length (machine.log (.entered name))
      = .ok () (machine.log (.entered name)) := by
    rw [Run.checkArity, if_pos h]
    rfl
  have hfits : (machine.log (.entered name)).stack.depth < (machine.log (.entered name)).settings.maxDepth :=
    hroom
  rw [callWithin, Run.inCall_apply, Run.bind_apply, hcheck]
  simp only
  rw [Run.inFrame_apply, if_pos hfits]
  generalize invokeWith _ _ _ _ _ _ = outcome
  cases outcome <;> rfl

/-- **A `call` of a written method evaluates its body in a frame of its own, with its parameters bound**
    (`entering`). -/
theorem call_written_of_admits (receiver : Value) (name : String) {signature : Signature} (body : Node)
    {args : List Value} (h : signature.arity.admits args.length) {machine : Machine}
    (hroom : machine.stack.depth < machine.settings.maxDepth) :
    call receiver name (.written signature body) args machine
      = Outcome.through (fun last => last.popped.log (.left name))
          (eval body (machine.entering receiver name signature args
            (Table.setAll {} (signature.bindings args (.object machine.heap.size))))) := by
  generalize hlocals : Table.setAll {} (signature.bindings args (.object machine.heap.size)) = locals
  have hstack : (machine.stack.push receiver).bindAll (signature.bindings args (.object machine.heap.size))
      = machine.stack.pushFrame ⟨receiver, locals⟩ := by
    rw [← hlocals]
    exact CallStack.bindAll_pushFrame machine.stack { self := receiver } _
  have hassign : assignParams name signature args ((machine.log (.entered name)).pushed receiver)
      = .ok () (machine.entering receiver name signature args locals) := by
    rw [assignParams_of_admits name h, entering, ← hstack]
    rfl
  rw [call, room_eq_succ hroom, callWithin_of_admits _ receiver name (.written signature body) h hroom, invokeWith,
    Run.bind_apply, hassign]
  -- the room that is left in the frame is what the evaluator finds there
  rfl

/-- **Binding the arguments agrees with counting them**: the arity admits their number exactly if `assignParams`
    succeeds. Then, if there is room, a `call` evaluates the body in a new frame whose local variables the signature
    `Binds`. Otherwise it fails with both numbers, and nothing but the journal has changed. -/
theorem binding_agrees_with_arity (machine : Machine) (receiver : Value) (name : String) (signature : Signature)
    (body : Node) (args : List Value) :
    (signature.arity.admits args.length ↔ ∃ last, assignParams name signature args machine = .ok () last) ∧
    (signature.arity.admits args.length → machine.stack.depth < machine.settings.maxDepth →
      ∃ locals, signature.Binds args (.object machine.heap.size) locals ∧
        call receiver name (.written signature body) args machine
          = Outcome.through (fun last => last.popped.log (.left name))
              (eval body (machine.entering receiver name signature args locals))) ∧
    (¬ signature.arity.admits args.length →
      call receiver name (.written signature body) args machine
        = .error (.wrongArity name signature.arity args.length)
            ((machine.log (.entered name)).log (.left name))) := by
  refine ⟨⟨?_, ?_⟩, ?_, ?_⟩
  · intro hadmits
    exact ⟨_, assignParams_of_admits name hadmits machine⟩
  · rintro ⟨last, hok⟩
    by_contra hnot
    rw [assignParams_of_not_admits name hnot] at hok
    cases hok
  · intro hadmits hroom
    exact ⟨_, Signature.binds_setAll hadmits _, call_written_of_admits receiver name body hadmits hroom⟩
  · intro hnot
    exact call_of_not_admits receiver name (.written signature body) hnot machine

/-- Both names of the `Signature` are those of two parameters, and the last parameter takes what is left. -/
def repeatedNames : Signature := ⟨["a", "b", "a"], some "b"⟩

theorem binding_agrees_with_arity_repeated :
    (repeatedNames.arity.admits 5 ∧ ¬ repeatedNames.arity.admits 2
      ∧ (boot {} (.kept "")).stack.depth < (boot {} (.kept "")).settings.maxDepth)
    ∧ (∃ last, assignParams "m" repeatedNames [main, main, .nil, main, .nil] (boot {} (.kept "")) = .ok () last)
    ∧ (∃ locals : Table Value, locals.names = ["a", "b"] ∧ locals.get? "a" = some .nil
      ∧ locals.get? "b" = some (.object 1)
      ∧ call main "m" (.written repeatedNames (.localRead "b")) [main, main, .nil, main, .nil] (boot {} (.kept ""))
        = Outcome.through (fun last => last.popped.log (.left "m")) (eval (.localRead "b")
            ((boot {} (.kept "")).entering main "m" repeatedNames [main, main, .nil, main, .nil] locals)))
    ∧ call main "m" (.written repeatedNames (.localRead "b")) [main, main] (boot {} (.kept ""))
      = .error (.wrongArity "m" (.orMore 3) 2)
          (((boot {} (.kept "")).log (.entered "m")).log (.left "m")) := by
  have hadmits : repeatedNames.arity.admits 5 := by decide
  have hnot : ¬ repeatedNames.arity.admits 2 := by decide
  have hroom : (boot {} (.kept "")).stack.depth < (boot {} (.kept "")).settings.maxDepth := by decide
  obtain ⟨hiff, hcall, _⟩ := binding_agrees_with_arity (boot {} (.kept "")) main "m" repeatedNames
    (.localRead "b") [main, main, .nil, main, .nil]
  obtain ⟨_, _, hfail⟩ := binding_agrees_with_arity (boot {} (.kept "")) main "m" repeatedNames
    (.localRead "b") [main, main]
  obtain ⟨locals, hbinds, heq⟩ := hcall hadmits hroom
  refine ⟨⟨hadmits, hnot, hroom⟩, hiff.mp hadmits, ⟨locals, ?_, ?_, ?_, heq⟩, hfail hnot⟩
  · rw [hbinds.names]
    decide
  · exact hbinds.fixed 2 "a" rfl (by decide)
  · exact hbinds.rest "b" rfl

end Machine

end ObjectTalk

import ObjectTalk.Proofs.Arithmetic
/-!
# `Proofs.RestArrays` — arguments that are packed into an array

A method whose only parameter is a rest parameter gets its arguments, however many there are, as the items of a new
array. The array gives them back, by messages `size` and `[]`: places count from zero, and places below zero from the
end. Each argument has therefore two places, and every other place has `nil` (`itemAt_front`, `itemAt_back`,
`itemAt_outside`).

An index is a number of 64 bits. The place to which an index below zero leads is found by adding the number of items,
and that sum has 64 bits as well (`toInt_length_add`).
-/

namespace ObjectTalk

/-! ## Places -/

section

variable (items : List Value)

/-- `itemAt` finds a place counted from the front. -/
theorem itemAt_front {n : Nat} (h : n < items.length) : items[n]? = some (itemAt items n) := by
  have hplace : ¬ (n : Int) < 0 := by omega
  simp [itemAt, hplace, h]

/-- `itemAt` finds a place counted from the end. -/
theorem itemAt_back {n : Nat} (h : n < items.length) : items[n]? = some (itemAt items (n - items.length)) := by
  have hplace : (n : Int) - items.length < 0 := by omega
  have hsum : (items.length : Int) + (n - items.length) = n := by omega
  have hfront : ¬ (n : Int) < 0 := by omega
  simp [itemAt, hplace, hsum, hfront, h]

/-- `itemAt` finds nothing before the first item and after the last. -/
theorem itemAt_outside {place : Int} (h : place < -items.length ∨ items.length ≤ place) :
    itemAt items place = .nil := by
  rcases h with hbefore | hafter
  · have hplace : place < 0 := by omega
    have hsum : (items.length : Int) + place < 0 := by omega
    simp [itemAt, hplace, hsum]
  · have hplace : ¬ place < 0 := by omega
    have hbeyond : items.length ≤ place.toNat := by omega
    simp [itemAt, hplace, hbeyond]

end

/-- Adding a count to an index below zero does not overflow. -/
theorem toInt_length_add {count : Nat} (hcount : (count : Int) ≤ Int64.maxValue.toInt) {index : Int64}
    (hindex : index.toInt < 0) : (Int64.ofNat count + index).toInt = count + index.toInt := by
  have hmax : Int64.maxValue.toInt = 9223372036854775807 := by decide
  have hmin : -9223372036854775808 ≤ index.toInt := index.le_toInt
  have hcount' : (Int64.ofNat count).toInt = count := Int64.toInt_ofNat_of_lt (by omega)
  rw [Int64.toInt_add, hcount']
  exact Int.bmod_eq_of_le_mul_two (by omega) (by omega)

/-! ## Packing -/

namespace Machine

variable {machine last : Machine}

/-- What has been done after `entering` a method has been done when its frame is gone: it `Allocates`. -/
theorem Allocates.entering {receiver : Value} {name : String} {signature : Signature} {args : List Value}
    {locals : Table Value} (h : (machine.entering receiver name signature args locals).Allocates last) :
    machine.Allocates (last.popped.log (.left name)) := by
  refine h.left ?_ rfl
  unfold Machine.entering Signature.heapAfter
  cases signature.rest with
  | none => exact ⟨rfl, rfl, rfl, rfl, le_refl _, fun _ _ => rfl⟩
  | some param =>
      have hpush := allocates_push machine
        { classId := ClassId.array, payload := some (.items (args.drop signature.fixed.length)) }
      exact ⟨rfl, rfl, rfl, rfl, hpush.size, hpush.objects⟩

theorem eval_localRead (name : String) (machine : Machine) :
    eval (.localRead name) machine
      = .ok ((machine.stack.current.locals.get? name).getD .nil) (machine.traced (Node.localRead name).kind) := by
  rw [← (allocates_traced (Node.localRead name).kind machine).stack, eval, evalWith, Run.bind_apply, traceNode_apply]
  rfl

/-- **`call` of a method that reads its rest parameter answers a new array of its arguments**, and nothing else is
    done. -/
theorem call_rest (machine : Machine) (receiver : Value) (name param : String) (args : List Value)
    (hroom : machine.stack.depth < machine.settings.maxDepth) :
    ∃ last, call receiver name (.written { rest := some param } (.localRead param)) args machine
        = .ok (.object machine.heap.size) last
      ∧ machine.Allocates last
      ∧ last.heap = machine.heap.push { classId := ClassId.array, payload := some (.items args) } := by
  have hadmits : ({ rest := some param } : Signature).arity.admits args.length := by
    simp [Signature.arity, Arity.admits]
  have hcall := call_written_of_admits receiver name (.localRead param) hadmits hroom
  have hparam := (Signature.binds_setAll hadmits (.object machine.heap.size)).rest param rfl
  generalize Table.setAll {} _ = locals at hcall hparam
  have hcurrent : (machine.entering receiver name { rest := some param } args locals).stack.current.locals = locals :=
    rfl
  rw [eval_localRead, hcurrent, hparam] at hcall
  refine ⟨_, hcall, (allocates_traced _ _).entering, ?_⟩
  exact heap_traced _ _

/-! ## Unpacking -/

variable {array index : Value} {items : List Value}

/-- **`send` of `size` to an array gives the number of its items.** -/
theorem send_size (hclass : machine.classOf? array = some ClassId.array)
    (hitems : machine.heap.payload? array = some (.items items))
    (hcount : (items.length : Int) ≤ Int64.maxValue.toInt)
    (hroom : machine.stack.depth < machine.settings.maxDepth)
    (hretains : machine.classes.Retains ClassId.array "size") :
    ∃ size number last, send array "size" [] machine = .ok size last ∧ machine.Allocates last
      ∧ machine.NewInteger last size number ∧ number.toInt = items.length := by
  have hinitial : Hierarchy.initial.own? ClassId.array "size" = some (.builtin "size" (.exactly 0) .size) := rfl
  have harity : (Arity.exactly 0).admits ([] : List Value).length := rfl
  have hsend := send_of_retains hclass hretains hinitial harity hroom
  have hfits : Arithmetic.Fits items.length :=
    ⟨(Int.le_of_lt (by decide)).trans (Int.natCast_nonneg items.length), hcount⟩
  have hinside : ((machine.log (.entered "size")).pushed array).heap.payload? array = some (.items items) := hitems
  rw [Builtin.applyWith, Builtin.handler, Handler.applyWith, Run.bind_apply, Run.itemsOf_of_payload? hinside] at hsend
  simp only at hsend
  rw [Run.bind_apply, Arithmetic.fitInteger_of_fits "size" hfits] at hsend
  exact ⟨_, _, _, hsend, (allocates_push _ _).called, newInteger_push _ _, Arithmetic.toInt_ofInt_of_fits hfits⟩

/-- **`send` of `[]` to an array gives the item at the place.** -/
theorem send_itemAt (hclass : machine.classOf? array = some ClassId.array)
    (hitems : machine.heap.payload? array = some (.items items)) {number : Int64}
    (hindex : machine.heap.payload? index = some (.number number))
    (hroom : machine.stack.depth < machine.settings.maxDepth)
    (hretains : machine.classes.Retains ClassId.array "[]") :
    ∃ last, send array "[]" [index] machine = .ok (itemAt items number.toInt) last ∧ machine.Allocates last := by
  have hinitial : Hierarchy.initial.own? ClassId.array "[]" = some (.builtin "[]" (.exactly 1) .itemAt) := rfl
  have harity : (Arity.exactly 1).admits [index].length := rfl
  have hsend := send_of_retains hclass hretains hinitial harity hroom
  have hinside : ((machine.log (.entered "[]")).pushed array).heap.payload? array = some (.items items) := hitems
  have hinside' : ((machine.log (.entered "[]")).pushed array).heap.payload? index = some (.number number) := hindex
  have harg : ∀ machine, onlyArg "[]" [index] machine = .ok index machine := fun _ => rfl
  rw [Builtin.applyWith, Builtin.handler, Handler.applyWith, Run.bind_apply, Run.itemsOf_of_payload? hinside] at hsend
  simp only at hsend
  rw [Run.bind_apply, harg] at hsend
  simp only at hsend
  rw [Run.bind_apply, Run.numberOf_of_payload? hinside'] at hsend
  exact ⟨_, hsend, (Allocates.refl _).called⟩

/-- **Arguments that are packed into an array come back unchanged.** `call` of a method that reads its rest parameter
    gives a new array. However the heap has `Grown`, as long as arrays have their own methods, its `size` is the
    number of arguments, and `[]` gives the very argument at a place, counted from the front or the end, else `nil`. -/
theorem rest_array_gives_back_arguments (machine : Machine) (receiver : Value) (name param : String)
    (args : List Value) (hcount : (args.length : Int) ≤ Int64.maxValue.toInt)
    (hroom : machine.stack.depth < machine.settings.maxDepth) :
    ∃ array last,
      call receiver name (.written { rest := some param } (.localRead param)) args machine = .ok array last ∧
      array = .object machine.heap.size ∧ machine.Allocates last ∧
      ∀ later : Machine, last.heap.Grown later.heap → later.stack.depth < later.settings.maxDepth →
        (later.classes.Retains ClassId.array "size" →
          ∃ size number done, send array "size" [] later = .ok size done ∧ later.Allocates done
            ∧ later.NewInteger done size number ∧ number.toInt = args.length) ∧
        (later.classes.Retains ClassId.array "[]" →
          ∀ (index : Value) (i : Int64), later.heap.payload? index = some (.number i) →
            ∃ value done, send array "[]" [index] later = .ok value done ∧ later.Allocates done
              ∧ (∀ n < args.length, i.toInt = n ∨ i.toInt = n - args.length → args[n]? = some value)
              ∧ (i.toInt < -args.length ∨ args.length ≤ i.toInt → value = .nil)
              ∧ (i.toInt < 0 → (Int64.ofNat args.length + i).toInt = args.length + i.toInt)) := by
  obtain ⟨last, hcall, hallocates, hheap⟩ := call_rest machine receiver name param args hroom
  refine ⟨_, last, hcall, rfl, hallocates, ?_⟩
  intro later hgrown hlater
  have hlt : machine.heap.size < last.heap.size := by
    rw [hheap, Heap.size_push]
    exact Nat.lt_succ_self _
  have hget : last.heap.get machine.heap.size = { classId := ClassId.array, payload := some (.items args) } := by
    rw [hheap, Heap.get_push, if_pos rfl]
  have hclass : later.classOf? (.object machine.heap.size) = some ClassId.array := by
    rw [classOf?, hgrown.classId _ hlt, hget]
  have hitems : later.heap.payload? (.object machine.heap.size) = some (.items args) := by
    rw [Heap.payload?, hgrown.payload _ hlt, hget]
  refine ⟨send_size hclass hitems hcount hlater, ?_⟩
  intro hretains index i hindex
  obtain ⟨done, hsend, hdone⟩ := send_itemAt hclass hitems hindex hlater hretains
  refine ⟨_, done, hsend, hdone, ?_, itemAt_outside args, toInt_length_add hcount⟩
  rintro n hn (hplace | hplace)
  · rw [hplace]
    exact itemAt_front args hn
  · rw [hplace]
    exact itemAt_back args hn

/-- Three arguments have been packed; there was room for one frame. -/
def packed : Machine :=
  (call main "m" (.written { rest := some "r" } (.localRead "r")) [main, .nil, .classRef ClassId.array]).after
    (boot { maxDepth := 2 } (.kept ""))

/-- After `packed` there are two integers: the first place, counted from the end, and the least number. -/
def indexed : Machine :=
  (eval (.sequence [.integerLit (-3), .integerLit Int64.minValue])).after packed

theorem rest_array_gives_back_arguments_three :
    (((3 : Nat) : Int) ≤ Int64.maxValue.toInt
      ∧ (boot { maxDepth := 2 } (.kept "")).stack.depth < (boot { maxDepth := 2 } (.kept "")).settings.maxDepth
      ∧ packed.heap.Grown indexed.heap ∧ indexed.stack.depth < indexed.settings.maxDepth
      ∧ indexed.classes.Retains ClassId.array "size" ∧ indexed.classes.Retains ClassId.array "[]"
      ∧ indexed.heap.payload? (.object 2) = some (.number (-3))
      ∧ indexed.heap.payload? (.object 3) = some (.number Int64.minValue))
    ∧ (∃ size number done, send (.object 1) "size" [] indexed = .ok size done
      ∧ indexed.NewInteger done size number ∧ number.toInt = 3)
    ∧ (∃ done, send (.object 1) "[]" [.object 2] indexed = .ok main done)
    ∧ (∃ done, send (.object 1) "[]" [.object 3] indexed = .ok .nil done)
    ∧ (Int64.ofNat 3 + Int64.minValue).toInt = 3 + Int64.minValue.toInt := by
  have hcount : (([main, .nil, .classRef ClassId.array] : List Value).length : Int) ≤ Int64.maxValue.toInt := by decide
  have hroom : (boot { maxDepth := 2 } (.kept "")).stack.depth
      < (boot { maxDepth := 2 } (.kept "")).settings.maxDepth := by decide
  have hgrown : packed.heap.Grown indexed.heap := (Heap.grown_push _ _).trans (Heap.grown_push _ _)
  have hroom' : indexed.stack.depth < indexed.settings.maxDepth := by decide +kernel
  have hsize : indexed.classes.Retains ClassId.array "size" := rfl
  have hitem : indexed.classes.Retains ClassId.array "[]" := rfl
  have hfirst : indexed.heap.payload? (.object 2) = some (.number (-3)) := rfl
  have hleast : indexed.heap.payload? (.object 3) = some (.number Int64.minValue) := rfl
  obtain ⟨array, last, hcall, rfl, _, hlater⟩ := rest_array_gives_back_arguments (boot { maxDepth := 2 } (.kept ""))
    main "m" "r" [main, .nil, .classRef ClassId.array] hcount hroom
  have hlast : last = packed := by
    rw [packed, Run.after, hcall]
    rfl
  subst hlast
  obtain ⟨hsend, hitems⟩ := hlater indexed hgrown hroom'
  obtain ⟨size, number, done, hok, _, hnew, hnumber⟩ := hsend hsize
  obtain ⟨value, done', hok', _, hback, _, _⟩ := hitems hitem (.object 2) (-3) hfirst
  obtain ⟨value', done'', hok'', _, _, houtside, hsum⟩ := hitems hitem (.object 3) Int64.minValue hleast
  have hmain : some main = some value := hback 0 (by decide) (.inr (by decide))
  cases hmain
  cases houtside (.inl (by decide))
  exact ⟨⟨hcount, hroom, hgrown, hroom', hsize, hitem, hfirst, hleast⟩, ⟨size, number, done, hok, hnew, hnumber⟩,
    ⟨done', hok'⟩, ⟨done'', hok''⟩, hsum (by decide)⟩

end Machine

end ObjectTalk

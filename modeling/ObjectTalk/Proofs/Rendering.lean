import Mathlib.Data.List.Forall2
import Mathlib.Data.Nat.Digits.Defs
import ObjectTalk.Proofs.Allocation
/-!
# `Proofs.Rendering` — values that are shown by what they hold

`nil`, strings, integers and arrays of such values, however deep they stand in one another, have a text that is laid
down by what they hold. `Datum` is that content without the heap, and `Datum.text` its text. A value that stands for
a datum (`Heap.StandsFor`) is shown by this text (`displayUpTo_of_standsFor`), and nothing is asked and nothing is
done on the way: which methods there are, what class the value is an instance of, and how deep the stack is does not
matter.

The items of an array are shown with one level less than the array. That there are levels enough is due to the heap,
in which the items of an array are older than the array.
-/

namespace ObjectTalk

/-! ## Data and their texts -/

/-- What a value holds that is `nil`, a string, an integer or an array of such values. -/
inductive Datum where
  | nil
  | string (text : String)
  | integer (number : Int64)
  | array (items : List Datum)

namespace Datum

/-- The digits of a number, for `decimal`, from the most significant one on; zero has the digit zero. -/
def digits (n : Nat) : List Nat :=
  if n = 0 then [0] else (Nat.digits 10 n).reverse

/-- A number in decimal, with a minus sign if it is below zero. -/
def decimal (number : Int) : String :=
  (if number < 0 then "-" else "") ++ String.ofList ((digits number.natAbs).map fun digit => Char.ofNat (48 + digit))

mutual

/-- The text of a datum: nothing for `nil`, a string itself, an integer in decimal, and for an array the texts of its
    items in brackets, with a comma and a blank between them. -/
def text : Datum → String
  | .nil => ""
  | .string text => text
  | .integer number => decimal number.toInt
  | .array items => "[" ++ ", ".intercalate (texts items) ++ "]"

/-- The texts of data, each by `Datum.text`. -/
def texts : List Datum → List String
  | [] => []
  | item :: items => item.text :: texts items

end

theorem digitChar_of_lt {digit : Nat} (h : digit < 10) : digit.digitChar = Char.ofNat (48 + digit) := by
  have hall : ∀ digit < 10, digit.digitChar = Char.ofNat (48 + digit) := by decide
  exact hall digit h

/-- `Nat.toDigits` writes the `digits`. By induction on the number: its last digit is written after those of a tenth
    of it. -/
theorem toDigits_eq_digits (n : Nat) :
    Nat.toDigits 10 n = (digits n).map fun digit => Char.ofNat (48 + digit) := by
  induction n using Nat.strongRecOn with
  | _ n ih =>
      rcases Nat.lt_or_ge n 10 with hn | hn
      · rw [Nat.toDigits_of_lt_base hn, digitChar_of_lt hn, digits]
        by_cases hzero : n = 0
        · simp [hzero]
        · simp [hzero, Nat.digits_of_lt 10 n hzero hn]
      · have hzero : n ≠ 0 := by omega
        have htenth : n / 10 ≠ 0 := by omega
        have hlast : n % 10 < 10 := Nat.mod_lt n (by decide)
        rw [Nat.toDigits_of_base_le (by decide) hn, ih (n / 10) (by omega), digitChar_of_lt hlast]
        simp [digits, hzero, htenth, Nat.digits_def' (b := 10) (by decide) (Nat.pos_of_ne_zero hzero)]

/-- **Integers are written in `decimal`.** -/
theorem toString_eq_decimal (number : Int) : toString number = decimal number := by
  cases number with
  | ofNat n =>
      have hrepr : toString (Int.ofNat n) = String.ofList (Nat.toDigits 10 n) := rfl
      have hsign : ¬ Int.ofNat n < 0 := Int.not_lt.mpr (Int.natCast_nonneg n)
      rw [hrepr, toDigits_eq_digits, decimal, if_neg hsign, String.empty_append]
      rfl
  | negSucc n =>
      have hrepr : toString (Int.negSucc n) = "-" ++ String.ofList (Nat.toDigits 10 (n + 1)) := rfl
      rw [hrepr, toDigits_eq_digits, decimal, if_pos (Int.negSucc_lt_zero n)]
      rfl

end Datum

/-! ## Primitive values -/

namespace Heap

/-- The value is `nil`, or an object that holds a text, a number, or items that are such values themselves. -/
inductive Primitive (heap : Heap) : Value → Prop where
  | nil : Primitive heap .nil
  | string {value : Value} {text : String} (h : heap.payload? value = some (.text text)) : Primitive heap value
  | integer {value : Value} {number : Int64} (h : heap.payload? value = some (.number number)) :
      Primitive heap value
  | array {value : Value} {items : List Value} (h : heap.payload? value = some (.items items))
      (hitems : ∀ item ∈ items, Primitive heap item) : Primitive heap value

/-- The value holds what the `Datum` says. -/
inductive StandsFor (heap : Heap) : Value → Datum → Prop where
  | nil : StandsFor heap .nil .nil
  | string {value : Value} {text : String} (h : heap.payload? value = some (.text text)) :
      StandsFor heap value (.string text)
  | integer {value : Value} {number : Int64} (h : heap.payload? value = some (.number number)) :
      StandsFor heap value (.integer number)
  | array {value : Value} {items : List Value} {data : List Datum} (h : heap.payload? value = some (.items items))
      (hitems : List.Forall₂ (StandsFor heap) items data) : StandsFor heap value (.array data)

variable {heap : Heap} {value : Value}

theorem exists_forall₂_standsFor {items : List Value} (h : ∀ item ∈ items, ∃ datum, heap.StandsFor item datum) :
    ∃ data, List.Forall₂ heap.StandsFor items data := by
  induction items with
  | nil => exact ⟨[], .nil⟩
  | cons item items ih =>
      rw [List.forall_mem_cons] at h
      obtain ⟨⟨datum, hitem⟩, hrest⟩ := h
      obtain ⟨data, hitems⟩ := ih hrest
      exact ⟨datum :: data, .cons hitem hitems⟩

/-- **A value that is `Primitive` stands for a `Datum`.** -/
theorem Primitive.standsFor (h : heap.Primitive value) : ∃ datum, heap.StandsFor value datum := by
  induction h with
  | nil => exact ⟨.nil, .nil⟩
  | string hpayload => exact ⟨_, .string hpayload⟩
  | integer hpayload => exact ⟨_, .integer hpayload⟩
  | array hpayload _ ih =>
      obtain ⟨data, hitems⟩ := exists_forall₂_standsFor ih
      exact ⟨.array data, .array hpayload hitems⟩

/-- What has a `payload?` is an object that is there. -/
theorem exists_of_payload? {payload : Payload} (h : heap.payload? value = some payload) :
    ∃ id < heap.size, value = .object id := by
  cases value with
  | nil => cases h
  | object id => exact ⟨id, Machine.lt_size_of_payload? h, rfl⟩
  | classRef id => cases h

/-- Where the heap is `Layered`, the items of an array have a lower rank than the array. -/
theorem Layered.rank_lt (hlayered : heap.Layered) {items : List Value}
    (h : heap.payload? value = some (.items items)) {item : Value} (hitem : item ∈ items) :
    item.rank < value.rank := by
  obtain ⟨id, hid, rfl⟩ := exists_of_payload? h
  exact Nat.lt_succ_of_le (hlayered id hid items h item hitem)

end Heap

/-! ## Showing them -/

section

open Plan

variable (call : Caller) {machine : Machine}

/-- `displayUpTo` shows a value that holds something by that, if there is a level left. -/
theorem displayUpTo_of_payload? {value : Value} {payload : Payload} (h : machine.heap.payload? value = some payload)
    {levels : Nat} (hrank : value.rank ≤ levels) :
    displayUpTo call levels value machine
      = (displayHolding value (some payload)).follow ⟨call, displayUpTo call (levels - 1)⟩ machine := by
  obtain ⟨id, _, rfl⟩ := Heap.exists_of_payload? h
  obtain ⟨inner, rfl⟩ := Nat.exists_eq_add_of_le' hrank
  have hlevels : inner + Value.rank (.object id) = inner + id + 1 := rfl
  rw [hlevels, displayUpTo_succ]
  show (displayHolding _ (machine.heap.payload? (.object id))).follow _ machine = _
  rw [h, Nat.add_sub_cancel]

/-- `displayAll` gives the texts in order, if each value is shown by its text with nothing done. -/
theorem follow_displayAll {services : Services} {values : List Value} {texts : List String}
    (h : List.Forall₂ (fun value text => services.display value machine = .ok text machine) values texts) :
    (displayAll values).follow services machine = .ok texts machine := by
  induction h with
  | nil => rfl
  | @cons value text values texts hvalue _ ih =>
      show (services.display value >>= fun text =>
        (displayAll values).follow services >>= fun texts => pure (text :: texts)) machine = _
      rw [Run.bind_apply, hvalue]
      simp only
      rw [Run.bind_apply, ih]
      rfl

mutual

/-- **`displayUpTo` shows a value by the text of the `Datum` for which it stands**, if there are as many levels as
    its rank says, and nothing is called or changed. -/
theorem displayUpTo_of_standsFor (hlayered : machine.heap.Layered) :
    (datum : Datum) → ∀ {levels : Nat} {value : Value}, machine.heap.StandsFor value datum → value.rank ≤ levels →
      displayUpTo call levels value machine = .ok datum.text machine
  | .nil, levels, value, h, _ => by
      cases h
      cases levels <;> rfl
  | .string text, levels, value, h, hrank => by
      cases h with
      | string hpayload =>
          rw [displayUpTo_of_payload? call hpayload hrank]
          rfl
  | .integer number, levels, value, h, hrank => by
      cases h with
      | integer hpayload =>
          rw [displayUpTo_of_payload? call hpayload hrank, Datum.text, ← Datum.toString_eq_decimal]
          rfl
  | .array data, levels, value, h, hrank => by
      cases h with
      | @array _ items _ hpayload hitems =>
          have hlower : ∀ item ∈ items, item.rank ≤ levels - 1 := fun item hitem => by
            have hlt := hlayered.rank_lt hpayload hitem
            omega
          have hshown := displayUpTo_of_forall₂ hlayered data hitems hlower
          rw [displayUpTo_of_payload? call hpayload hrank, displayHolding, Plan.follow_bind, Run.bind_apply,
            follow_displayAll hshown, Datum.text]
          rfl

/-- `displayUpTo` shows the items of an array one by one. -/
theorem displayUpTo_of_forall₂ (hlayered : machine.heap.Layered) :
    (data : List Datum) → ∀ {levels : Nat} {items : List Value},
    List.Forall₂ machine.heap.StandsFor items data → (∀ item ∈ items, item.rank ≤ levels) →
      List.Forall₂ (fun item text => displayUpTo call levels item machine = .ok text machine) items
        (Datum.texts data)
  | [], levels, items, h, _ => by
      cases h
      exact .nil
  | datum :: data, levels, items, h, hrank => by
      cases h with
      | cons hitem hitems =>
          have hfirst := displayUpTo_of_standsFor hlayered datum hitem (hrank _ List.mem_cons_self)
          have hrest := displayUpTo_of_forall₂ hlayered data hitems fun item hmem =>
            hrank item (List.mem_cons_of_mem _ hmem)
          exact .cons hfirst hrest

end

end

namespace Machine

/-- **Primitive values are shown by what they hold alone**, in any machine that `Arises`, whatever methods it has and
    however little room. A value that is `Primitive`, made of `nil`, texts, numbers and arrays of such values,
    `StandsFor` a datum; `display` gives the text of that datum and leaves the machine as it was. -/
theorem primitive_values_shown_by_what_they_hold {machine : Machine} (h : machine.Arises) {value : Value}
    (hvalue : machine.heap.Primitive value) :
    (∃ datum, machine.heap.StandsFor value datum) ∧
    ∀ datum, machine.heap.StandsFor value datum → display value machine = .ok datum.text machine := by
  have hformed : machine.WellFormed := wellFormed_hosted.holds_of_arises h
  refine ⟨hvalue.standsFor, fun datum hdatum => ?_⟩
  exact displayUpTo_of_standsFor _ hformed.layered datum hdatum (le_refl value.rank)

/-- A method `to_s` that fails. -/
def failingText : Node := .methodDef "to_s" {} (.constRef none "Missing")

/-- A new machine after a program in which no `to_s` works any longer and which makes an array that holds an array of
    an empty label and an empty grid. Then a host has put frames on the stack until it was full. -/
def speechless : Machine :=
  (Run.push main).after ((Run.push main).after ((run (.sequence
    [failingText,
     .classDef none "String" none failingText,
     .classDef none "Integer" none failingText,
     .classDef none "Array" none failingText,
     .classDef none "Label" (some (.constRef none "String")) failingText,
     .classDef none "Grid" (some (.constRef none "Array")) (.sequence []),
     .methodDef "list" { rest := some "items" } (.localRead "items"),
     .send none "list" [.localRead "unset", .stringLit "a", .integerLit Int64.minValue,
       .send none "list" [.send (some (.constRef none "Label")) "new" [],
         .send (some (.constRef none "Grid")) "new" []]]])).after (boot { maxDepth := 3 } (.kept ""))))

theorem primitive_values_shown_by_what_they_hold_speechless :
    (speechless.Arises ∧ speechless.heap.Primitive (.object 12) ∧ speechless.classOf? (.object 9) = some 5
      ∧ ¬ speechless.stack.depth < speechless.settings.maxDepth
      ∧ (∃ last, send (.object 12) "to_s" [] speechless = .error (.tooDeep 3 3) last)
      ∧ ∃ last, send (.object 12) "to_s" [] speechless.popped
          = .error (.unboundConstant "Missing" "Object") last)
    ∧ display (.object 12) speechless = .ok "[, a, -9223372036854775808, [, []]]" speechless := by
  have hpush : ∀ {machine : Machine}, machine.Reachable → ((Run.push main).after machine).Reachable :=
    fun hmachine => .step hmachine (.push main hmachine.wellFormed.contained.main)
  have hreach : speechless.Reachable := hpush (hpush (.step (.boot _ _) (.run _)))
  have harises : speechless.Arises := .during hreach (.eval (.sequence [])) (Plan.meets_self _ _)
  have houter : speechless.heap.payload? (.object 12)
      = some (.items [.nil, .object 7, .object 8, .object 11]) := by decide +kernel
  have hinner : speechless.heap.payload? (.object 11) = some (.items [.object 9, .object 10]) := by decide +kernel
  have htext : speechless.heap.payload? (.object 7) = some (.text "a") := by decide +kernel
  have hnumber : speechless.heap.payload? (.object 8) = some (.number Int64.minValue) := by decide +kernel
  have hlabel : speechless.heap.payload? (.object 9) = some (.text "") := by decide +kernel
  have hgrid : speechless.heap.payload? (.object 10) = some (.items []) := by decide +kernel
  have hstands : speechless.heap.StandsFor (.object 12)
      (.array [.nil, .string "a", .integer Int64.minValue, .array [.string "", .array []]]) :=
    .array houter (.cons .nil (.cons (.string htext) (.cons (.integer hnumber) (.cons (.array hinner
      (.cons (.string hlabel) (.cons (.array hgrid .nil) .nil))) .nil))))
  have hprimitive : speechless.heap.Primitive (.object 12) := by
    refine .array houter ?_
    simp only [List.forall_mem_cons]
    refine ⟨.nil, .string htext, .integer hnumber, .array hinner ?_, by simp⟩
    simp only [List.forall_mem_cons]
    exact ⟨.string hlabel, .array hgrid (by simp), by simp⟩
  have hwritten : Datum.text (.array [.nil, .string "a", .integer Int64.minValue, .array [.string "", .array []]])
      = "[, a, -9223372036854775808, [, []]]" := by decide +kernel
  have hshown := (primitive_values_shown_by_what_they_hold harises hprimitive).2 _ hstands
  refine ⟨⟨harises, hprimitive, by decide +kernel, by decide +kernel, ?_, ?_⟩, ?_⟩
  · exact ⟨_, Run.eq_error_after (by decide +kernel)⟩
  · exact ⟨_, Run.eq_error_after (by decide +kernel)⟩
  · rw [hshown, hwritten]

end Machine

end ObjectTalk

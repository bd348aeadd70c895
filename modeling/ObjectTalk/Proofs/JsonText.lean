import Mathlib.Data.List.TakeDrop
import ObjectTalk.Json.Printer
import ObjectTalk.Json.Reader
/-!
# `Proofs.JsonText` — the text of a JSON value reads back

`Json.compact` writes a value and `Json.read` reads it, and on values made of words, strings, integers of 64 bits
and arrays (`Json.Exact`) the two fit: the text is read as the value it was written from, if it is not nested deeper
than allowed, and is refused for its depth otherwise. Floats and objects are left out.

What is shown of every reader is how it goes on: from the text of a value with more text behind it, the value is
read and the other text is left. Only a number needs to know what is behind it (`Json.EndsNumber`). The rounds that
the readers are given are counted against the length of the text.
-/

namespace ObjectTalk.Json

/-- The `Json` values whose text gives them back: an integer is one that fits 64 bits, without a sign or with one. -/
inductive Exact : Json → Prop where
  | null : Exact .null
  | bool (value : Bool) : Exact (.bool value)
  | integer {value : Int} (hlow : Int64.minValue.toInt ≤ value) (hhigh : value ≤ maxWord) : Exact (.integer value)
  | string (text : String) : Exact (.string text)
  | array {items : List Json} (hitems : ∀ item ∈ items, Exact item) : Exact (.array items)

/-! ## Numbers -/

/-- A number that stands before the text ends there: `readNumber` takes no more of it. -/
def EndsNumber (text : List Char) : Prop :=
  ∀ c ∈ text.head?, c.isDigit = false ∧ c ≠ '.' ∧ c ≠ 'e' ∧ c ≠ 'E'

theorem toDigits_eq_cons (n : Nat) : ∃ c digits, Nat.toDigits 10 n = c :: digits ∧ c.isDigit = true := by
  obtain ⟨c, digits, h⟩ := List.exists_cons_of_ne_nil (Nat.toDigits_ne_nil (n := n) (b := 10))
  exact ⟨c, digits, h, Nat.isDigit_of_mem_toDigits (by decide) (by decide) (h ▸ List.mem_cons_self)⟩

/-- `Nat.toDigits` writes no zero before other digits. -/
theorem eq_nil_of_toDigits_eq_zero_cons {n : Nat} {digits : List Char} (h : Nat.toDigits 10 n = '0' :: digits) :
    digits = [] := by
  induction n using Nat.strongRecOn generalizing digits with
  | _ n ih =>
      by_cases hn : n < 10
      · rw [Nat.toDigits_of_lt_base hn] at h
        exact (List.cons.inj h).2.symm
      · have hten : 10 ≤ n := Nat.le_of_not_lt hn
        rw [Nat.toDigits_of_base_le (by decide) hten] at h
        obtain ⟨first, more, hfirst, -⟩ := toDigits_eq_cons (n / 10)
        rw [hfirst, List.cons_append] at h
        obtain ⟨rfl, -⟩ := List.cons.inj h
        -- the digits before the last one are those of zero, so the number has one digit
        have hmore : more = [] := ih (n / 10) (by omega) hfirst
        have hzero : Nat.ofDigitChars 10 (Nat.toDigits 10 (n / 10)) 0 = 0 := by
          rw [hfirst, hmore]
          rfl
        rw [Nat.ofDigitChars_ten_toDigits] at hzero
        omega

theorem le_ofDigitChars (digits : List Char) (start : Nat) : start ≤ Nat.ofDigitChars 10 digits start := by
  rw [Nat.ofDigitChars_eq_ofDigitChars_zero]
  have hpow : 1 ≤ 10 ^ digits.length := Nat.one_le_pow _ _ (by decide)
  calc start = 1 * start := (Nat.one_mul start).symm
    _ ≤ 10 ^ digits.length * start := Nat.mul_le_mul_right start hpow
    _ ≤ _ := Nat.le_add_right _ _

/-- `accumulate` takes all digits of a number that fits a word. -/
theorem accumulate_of_le_maxWord {digits : List Char} {start : Nat}
    (h : Nat.ofDigitChars 10 digits start ≤ maxWord) :
    accumulate start digits = (Nat.ofDigitChars 10 digits start, []) := by
  induction digits generalizing start with
  | nil => rfl
  | cons c digits ih =>
      have hnext : 10 * start + (c.toNat - '0'.toNat) = start * 10 + digitValue c := by
        rw [Nat.mul_comm]
        rfl
      rw [Nat.ofDigitChars_cons, hnext] at h ⊢
      have hfits : ¬ maxWord < start * 10 + digitValue c :=
        Nat.not_lt_of_le (Nat.le_trans (le_ofDigitChars digits _) h)
      rw [accumulate, if_neg hfits, ih h]

theorem readDigits_append {digits rest : List Char} (hne : digits ≠ []) (hdigits : ∀ c ∈ digits, c.isDigit = true)
    (hrest : EndsNumber rest) : readDigits (digits ++ rest) = .ok (digits, rest) := by
  have hspan : (digits ++ rest).span Char.isDigit = (digits, rest) := by
    rw [List.span_eq_takeWhile_dropWhile, List.takeWhile_append_of_pos hdigits, List.dropWhile_append_of_pos hdigits]
    cases rest with
    | nil => simp
    | cons c rest => simp [(hrest c rfl).1]
  rw [readDigits, hspan]
  cases digits with
  | nil => exact absurd rfl hne
  | cons c digits => rfl

theorem readWhole_toDigits (n : Nat) {rest : List Char} (hrest : EndsNumber rest) :
    readWhole (Nat.toDigits 10 n ++ rest) = .ok (Nat.toDigits 10 n, rest) := by
  have hread : readDigits (Nat.toDigits 10 n ++ rest) = .ok (Nat.toDigits 10 n, rest) :=
    readDigits_append Nat.toDigits_ne_nil
      (fun c hc => Nat.isDigit_of_mem_toDigits (by decide) (by decide) hc) hrest
  unfold readWhole
  split
  · rename_i second more left h
    rw [hread] at h
    have hzero := eq_nil_of_toDigits_eq_zero_cons (Prod.mk.inj (Except.ok.inj h)).1
    cases hzero
  · exact hread

theorem readFraction_of_endsNumber {rest : List Char} (hrest : EndsNumber rest) :
    readFraction rest = .ok (none, rest) := by
  unfold readFraction
  split
  · exact absurd rfl (hrest '.' rfl).2.1
  · rfl

theorem readExponent_of_endsNumber {rest : List Char} (hrest : EndsNumber rest) :
    readExponent rest = .ok (none, rest) := by
  cases rest with
  | nil => rfl
  | cons c rest =>
      obtain ⟨-, -, hlower, hupper⟩ := hrest c rfl
      exact if_neg (not_or.mpr ⟨hlower, hupper⟩)

/-- `readNumber` reads the digits of a word as an integer, negative only if there is room for it. -/
theorem readNumber_toDigits {negative : Bool} {n : Nat} (hn : n ≤ maxWord)
    (hnegative : negative = true → 0 < n ∧ n ≤ Nat.pow 2 63) {rest : List Char} (hrest : EndsNumber rest) :
    readNumber negative (Nat.toDigits 10 n ++ rest)
      = .ok (.integer (if negative then -(n : Int) else n), rest) := by
  have hvalue : accumulate 0 (Nat.toDigits 10 n) = (n, []) := by
    rw [accumulate_of_le_maxWord (by rwa [Nat.ofDigitChars_ten_toDigits]), Nat.ofDigitChars_ten_toDigits]
  have hnumeral : (⟨negative, Nat.toDigits 10 n, none, none⟩ : Numeral).value?
      = some (.integer (if negative then -(n : Int) else n)) := by
    simp only [Numeral.value?, hvalue]
    cases negative with
    | false => rfl
    | true => exact if_pos (hnegative rfl)
  simp only [readNumber, bind, Except.bind, readWhole_toDigits n hrest, readFraction_of_endsNumber hrest,
    readExponent_of_endsNumber hrest, hnumeral]

/-! ## Strings -/

theorem hexValue?_hexDigit : ∀ n < 16, hexValue? (hexDigit n) = some n := by decide

/-- `readEscape` reads a control character from the digits of its code. -/
theorem readEscape_control {c : Char} (hc : c.toNat < 0x20) (rest : List Char) :
    readEscape ('u' :: '0' :: '0' :: hexDigit (c.toNat / 16) :: hexDigit (c.toNat % 16) :: rest) = .ok (c, rest) := by
  have hhex : readHex ('0' :: '0' :: hexDigit (c.toNat / 16) :: hexDigit (c.toNat % 16) :: rest)
      = .ok (c.toNat, rest) := by
    have hzero : hexValue? '0' = some 0 := by decide
    have hcode : ((0 * 16 + 0) * 16 + c.toNat / 16) * 16 + c.toNat % 16 = c.toNat := by omega
    simp only [readHex, hzero, hexValue?_hexDigit (c.toNat / 16) (by omega),
      hexValue?_hexDigit (c.toNat % 16) (by omega), hcode]
  have hlow : ¬ (0xDC00 ≤ c.toNat ∧ c.toNat ≤ 0xDFFF) := by omega
  have hhigh : ¬ (0xD800 ≤ c.toNat ∧ c.toNat ≤ 0xDBFF) := by omega
  simp only [readEscape, bind, Except.bind, hhex, if_neg hlow, if_neg hhigh, Char.ofNat_toNat]

/-- A round of `readChars` takes a character that `escapeChar` has written. -/
theorem readChars_escapeChar (rounds : Nat) (done : List Char) (c : Char) (rest : List Char) :
    readChars (rounds + 1) done (escapeChar c ++ rest) = readChars rounds (c :: done) rest := by
  unfold escapeChar
  split
  · rfl
  · rfl
  · rfl
  · rfl
  · rfl
  · rfl
  · rfl
  · rename_i hquote hbackslash _ _ _ _ _
    split
    · rename_i hcontrol
      simp only [List.cons_append, List.nil_append]
      rw [readChars, if_neg (by decide), if_pos rfl, readEscape_control hcontrol]
    · rename_i hprinted
      show readChars (rounds + 1) done (c :: rest) = _
      rw [readChars, if_neg hquote, if_neg hbackslash, if_neg hprinted]

theorem readChars_flatMap (text : List Char) {rounds : Nat} (hrounds : text.length < rounds) (done rest : List Char) :
    readChars rounds done (text.flatMap escapeChar ++ '"' :: rest)
      = .ok (String.ofList (done.reverse ++ text), rest) := by
  induction text generalizing rounds done with
  | nil =>
      obtain ⟨rounds, rfl⟩ := Nat.exists_eq_add_one_of_ne_zero (Nat.ne_zero_of_lt hrounds)
      rw [List.append_nil]
      rfl
  | cons c text ih =>
      obtain ⟨rounds, rfl⟩ := Nat.exists_eq_add_one_of_ne_zero (Nat.ne_zero_of_lt hrounds)
      rw [List.flatMap_cons, List.append_assoc, readChars_escapeChar, ih (Nat.lt_of_succ_lt_succ hrounds),
        List.reverse_cons, List.append_assoc, List.singleton_append]

theorem length_le_flatMap_escapeChar (text : List Char) : text.length ≤ (text.flatMap escapeChar).length := by
  induction text with
  | nil => exact Nat.le_refl 0
  | cons c text ih =>
      have hc : 1 ≤ (escapeChar c).length := by
        fun_cases escapeChar c <;> exact Nat.le_add_left 1 _
      rw [List.flatMap_cons, List.length_append, List.length_cons]
      omega

theorem readString_quoted (text : String) {rounds : Nat}
    (hrounds : (text.toList.flatMap escapeChar).length < rounds) (rest : List Char) :
    readString rounds (text.toList.flatMap escapeChar ++ '"' :: rest) = .ok (text, rest) := by
  have hlength := length_le_flatMap_escapeChar text.toList
  rw [readString, readChars_flatMap text.toList (Nat.lt_of_le_of_lt hlength hrounds), List.reverse_nil,
    List.nil_append, String.ofList_toList]

/-! ## Values -/

theorem skipBlanks_cons {c : Char} (h : isBlank c = false) (rest : List Char) : skipBlanks (c :: rest) = c :: rest :=
  List.dropWhile_cons_of_neg (by rw [h]; exact Bool.false_ne_true)

theorem ne_of_isDigit {c other : Char} (hc : c.isDigit = true) (hother : other.isDigit = false) : c ≠ other := by
  rintro rfl
  rw [hc] at hother
  cases hother

theorem isBlank_of_isDigit {c : Char} (hc : c.isDigit = true) : isBlank c = false := by
  have hspace : c ≠ ' ' := ne_of_isDigit hc rfl
  have htab : c ≠ '\t' := ne_of_isDigit hc rfl
  have hfeed : c ≠ '\n' := ne_of_isDigit hc rfl
  have hreturn : c ≠ '\r' := ne_of_isDigit hc rfl
  simp [isBlank, hspace, htab, hfeed, hreturn]

theorem readValue_digit (rounds room : Nat) {c : Char} (hc : c.isDigit = true) (rest : List Char) :
    readValue (rounds + 1) room (c :: rest) = readNumber false (c :: rest) := by
  rw [readValue, skipBlanks_cons (isBlank_of_isDigit hc)]
  -- no digit is one of the characters that the other kinds of values start with
  split <;> simp_all

/-- With enough rounds `readValue` reads the text of the value, unless it is too deep, and leaves what is behind it. -/
def ReadsBack (json : Json) : Prop :=
  ∀ (rounds room : Nat) (rest : List Char), 2 * (chars json).length < rounds → EndsNumber rest →
    readValue rounds room (chars json ++ rest) = if json.nesting ≤ room then .ok (json, rest) else .error .tooDeep

/-- A value whose `nesting` is zero, no array and no object, is never too deep. -/
theorem readsBack_of_nesting_eq_zero {json : Json} (hflat : json.nesting = 0)
    (h : ∀ (rounds room : Nat) (rest : List Char), (chars json).length ≤ rounds → EndsNumber rest →
      readValue (rounds + 1) room (chars json ++ rest) = .ok (json, rest)) : ReadsBack json := by
  intro rounds room rest hrounds hrest
  obtain ⟨rounds, rfl⟩ := Nat.exists_eq_add_one_of_ne_zero (Nat.ne_zero_of_lt hrounds)
  rw [if_pos (hflat ▸ Nat.zero_le room), h rounds room rest (by omega) hrest]

theorem readsBack_integer {value : Int} (hlow : Int64.minValue.toInt ≤ value) (hhigh : value ≤ maxWord) :
    ReadsBack (.integer value) := by
  refine readsBack_of_nesting_eq_zero rfl fun rounds room rest _ hrest => ?_
  have hsize : value.natAbs ≤ maxWord ∧ (value < 0 → value.natAbs ≤ Nat.pow 2 63) := by
    have hmin : Int64.minValue.toInt = -9223372036854775808 := rfl
    have hpow : Nat.pow 2 63 = 9223372036854775808 := rfl
    have hword : maxWord = 18446744073709551615 := rfl
    omega
  rw [chars, integerChars]
  by_cases hsign : value < 0
  · have hnegative : true = true → 0 < value.natAbs ∧ value.natAbs ≤ Nat.pow 2 63 :=
      fun _ => ⟨by omega, hsize.2 hsign⟩
    rw [if_pos hsign, List.cons_append]
    show readNumber true _ = _
    rw [readNumber_toDigits hsize.1 hnegative hrest, if_pos rfl, Int.ofNat_natAbs_of_nonpos (by omega),
      Int.neg_neg]
  · have hpositive : false = true → 0 < value.natAbs ∧ value.natAbs ≤ Nat.pow 2 63 := fun h => (nomatch h)
    obtain ⟨c, digits, hdigits, hc⟩ := toDigits_eq_cons value.natAbs
    rw [if_neg hsign, hdigits, List.cons_append, readValue_digit rounds room hc, ← List.cons_append, ← hdigits,
      readNumber_toDigits hsize.1 hpositive hrest, if_neg Bool.false_ne_true, Int.natAbs_of_nonneg (by omega)]

theorem readsBack_string (text : String) : ReadsBack (.string text) := by
  refine readsBack_of_nesting_eq_zero rfl fun rounds room rest hrounds _ => ?_
  simp only [chars, quote, List.length_cons, List.length_append] at hrounds
  rw [chars, quote, List.cons_append, List.append_assoc, List.singleton_append]
  rw [readValue, skipBlanks_cons (rfl : isBlank '"' = false)]
  simp only [bind, Except.bind, readString_quoted text (show _ < rounds by omega)]

/-- The text of a value that is `Exact` starts like no blank and no end of an array. -/
theorem Exact.chars_eq_cons {json : Json} (h : json.Exact) :
    ∃ c more, chars json = c :: more ∧ isBlank c = false ∧ c ≠ ']' := by
  cases h with
  | null => exact ⟨_, _, rfl, rfl, by decide⟩
  | bool value => cases value <;> exact ⟨_, _, rfl, rfl, by decide⟩
  | @integer value hlow hhigh =>
      rw [chars, integerChars]
      by_cases hsign : value < 0
      · rw [if_pos hsign]
        exact ⟨_, _, rfl, rfl, by decide⟩
      · obtain ⟨c, digits, hdigits, hc⟩ := toDigits_eq_cons value.natAbs
        rw [if_neg hsign]
        exact ⟨c, digits, hdigits, isBlank_of_isDigit hc, ne_of_isDigit hc rfl⟩
  | string text => exact ⟨_, _, rfl, rfl, by decide⟩
  | array hitems => exact ⟨_, _, by rw [chars], rfl, by decide⟩

/-- What stands behind an item `EndsNumber`. -/
theorem endsNumber_cons {c : Char} (hc : c = ',' ∨ c = ']') (rest : List Char) : EndsNumber (c :: rest) := by
  rintro _ ⟨⟩
  rcases hc with rfl | rfl <;> decide

/-- From the texts of values with commas between them `readItems` reads the values, after those that were read
    before. -/
theorem readItems_itemChars {item : Json} {items : List Json} (hitems : ∀ json ∈ item :: items, ReadsBack json)
    {rounds room : Nat} (hrounds : 2 * (itemChars (item :: items)).length + 1 < rounds) (done : List Json)
    (rest : List Char) :
    readItems rounds room done (itemChars (item :: items) ++ ']' :: rest)
      = if nestingAll (item :: items) ≤ room then .ok (.array (done.reverse ++ item :: items), rest)
        else .error .tooDeep := by
  induction items generalizing item rounds done with
  | nil =>
      obtain ⟨rounds, rfl⟩ := Nat.exists_eq_add_one_of_ne_zero (Nat.ne_zero_of_lt hrounds)
      have hitem := hitems item List.mem_cons_self rounds room _ (Nat.lt_of_succ_lt_succ hrounds)
        (endsNumber_cons (.inr rfl) rest)
      rw [itemChars, readItems, hitem, nestingAll, nestingAll, Nat.max_zero]
      by_cases hdeep : item.nesting ≤ room
      · rw [if_pos hdeep, if_pos hdeep, ← List.reverse_cons]
        rfl
      · rw [if_neg hdeep, if_neg hdeep]
  | cons next items ih =>
      obtain ⟨rounds, rfl⟩ := Nat.exists_eq_add_one_of_ne_zero (Nat.ne_zero_of_lt hrounds)
      obtain ⟨hhead, hmore⟩ := List.forall_mem_cons.mp hitems
      rw [itemChars, List.length_append, List.length_cons] at hrounds
      have hitem := hhead rounds room _ (by omega)
        (endsNumber_cons (.inl rfl) (itemChars (next :: items) ++ ']' :: rest))
      rw [itemChars, List.append_assoc, List.cons_append, readItems, hitem, nestingAll]
      by_cases hdeep : item.nesting ≤ room
      · rw [if_pos hdeep]
        show readItems rounds room (item :: done) (itemChars (next :: items) ++ ']' :: rest) = _
        rw [ih hmore (by omega) (item :: done), List.reverse_cons, List.append_assoc, List.singleton_append]
        simp only [Nat.max_le, hdeep, true_and]
      · rw [if_neg hdeep, if_neg (fun h => hdeep (Nat.max_le.mp h).1)]

/-- `readValue` goes on with the items of an array that does not end at once. -/
theorem readValue_bracket (rounds room : Nat) {c : Char} (hblank : isBlank c = false) (hbracket : c ≠ ']')
    (text : List Char) :
    readValue (rounds + 1) (room + 1) ('[' :: c :: text) = readItems rounds room [] (c :: text) := by
  rw [readValue, skipBlanks_cons (rfl : isBlank '[' = false)]
  simp only [skipBlanks_cons hblank]
  split
  · rename_i heq
    exact absurd (List.cons.inj heq).1 hbracket
  · rfl

theorem itemChars_eq_cons {item : Json} (h : item.Exact) (items : List Json) :
    ∃ c more, itemChars (item :: items) = c :: more ∧ isBlank c = false ∧ c ≠ ']' := by
  obtain ⟨c, more, hchars, hblank, hbracket⟩ := h.chars_eq_cons
  cases items with
  | nil => exact ⟨c, more, by rw [itemChars, hchars], hblank, hbracket⟩
  | cons next items => exact ⟨c, _, by rw [itemChars, hchars, List.cons_append], hblank, hbracket⟩

theorem readsBack_array {items : List Json} (hexact : ∀ item ∈ items, Exact item)
    (hitems : ∀ item ∈ items, ReadsBack item) : ReadsBack (.array items) := by
  intro rounds room rest hrounds hrest
  obtain ⟨rounds, rfl⟩ := Nat.exists_eq_add_one_of_ne_zero (Nat.ne_zero_of_lt hrounds)
  rw [chars, List.length_cons, List.length_append] at hrounds
  rw [chars, nesting, List.cons_append, List.append_assoc, List.singleton_append]
  cases room with
  | zero => rfl
  | succ room =>
      cases items with
      | nil => rfl
      | cons item items =>
          obtain ⟨c, more, hstart, hblank, hbracket⟩ :=
            itemChars_eq_cons (hexact item List.mem_cons_self) items
          rw [hstart, List.cons_append, readValue_bracket rounds room hblank hbracket, ← List.cons_append, ← hstart,
            readItems_itemChars hitems (by omega), List.reverse_nil, List.nil_append]
          simp only [Nat.add_le_add_iff_right]

/-- **The text of a value that is `Exact` is read as the value** (`ReadsBack`). -/
theorem Exact.readsBack {json : Json} (h : json.Exact) : json.ReadsBack := by
  induction h with
  | null => exact readsBack_of_nesting_eq_zero rfl fun rounds room rest _ _ => rfl
  | bool value =>
      refine readsBack_of_nesting_eq_zero rfl fun rounds room rest _ _ => ?_
      cases value <;> rfl
  | integer hlow hhigh => exact readsBack_integer hlow hhigh
  | string text => exact readsBack_string text
  | array hitems ih => exact readsBack_array hitems ih

/-- **What `compact` writes, `read` reads back** up to the limit on its depth, and only the depth is at fault beyond
    it. -/
theorem Exact.read_compact {json : Json} (h : json.Exact) (limit : Nat) :
    read limit json.compact = if json.nesting ≤ limit then .ok json else .error .tooDeep := by
  have hread : readFront limit json.compact.toList
      = if json.nesting ≤ limit then .ok (json, []) else .error .tooDeep := by
    have hends : EndsNumber [] := fun c hc => (nomatch hc)
    have hback := h.readsBack (2 * (chars json).length + 1) limit [] (Nat.lt_succ_self _) hends
    rw [List.append_nil] at hback
    rw [compact, String.toList_ofList, readFront, hback]
  rw [read, hread]
  split <;> rfl

end ObjectTalk.Json

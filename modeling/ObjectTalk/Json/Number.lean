import ObjectTalk.Json.Basic
/-!
# `Json.Number` — the value of a number's digits

A number without fraction and exponent that fits 64 bits (without a sign, or with one when it is
negative) is an integer. Any other number is a float, computed as follows. The significand is made of
the leading digits while they fit 64 bits without a sign; whole digits that no longer fit raise the
exponent, digits of the fraction that no longer fit are dropped. The significand is rounded to a double
and scaled by the power of ten in one multiplication or division. Only below the power -308 are there
several divisions. A float beyond the largest double is refused; one too small becomes zero.
-/

namespace ObjectTalk.Json

/-- Why a text is no JSON value. -/
inductive ReadError where
  /-- The text ended too soon. -/
  | truncated
  /-- A character stands where it cannot stand. -/
  | unexpected
  /-- More arrays and objects stand inside one another than allowed. -/
  | tooDeep
  /-- A number is larger than every double. -/
  | outOfRange
deriving DecidableEq, Repr

/-- The largest integer of 64 bits. -/
def maxWord : Nat := Nat.pow 2 64 - 1

/-- The largest exponent that is taken into account. -/
def maxExponent : Nat := Nat.pow 2 31 - 1

/-- The value of a decimal digit. -/
def digitValue (c : Char) : Nat := c.toNat - '0'.toNat

/-- Append digits to `start` while the result fits a word; also gives the digits that are left. -/
def accumulate (start : Nat) : List Char → Nat × List Char
  | [] => (start, [])
  | c :: digits =>
    let next := start * 10 + digitValue c
    if maxWord < next then (start, c :: digits) else accumulate next digits

/-- The value of some digits. -/
def natOfDigits (digits : List Char) : Nat :=
  digits.foldl (fun n c => n * 10 + digitValue c) 0

/-- The double nearest to `10^n`, for `n` up to 308. -/
def powerOfTen (n : Nat) : Float :=
  Float.ofScientific 1 false n

/-- Divide by `10^n`, at most by `10^308` at a time. -/
def shrink (value : Float) (n : Nat) : Float :=
  if n ≤ 308 then value / powerOfTen n
  else if value == 0 then value
  else shrink (value / powerOfTen 308) (n - 308)
termination_by n

/-- `significand · 10^exponent` as a double, if there is one. -/
def scale? (significand : Nat) (exponent : Int) : Option Float :=
  let value := significand.toUInt64.toFloat
  if exponent < 0 then
    some (shrink value exponent.natAbs)
  else if exponent ≤ 308 then
    let scaled := value * powerOfTen exponent.toNat
    if scaled.isInf then none else some scaled
  else if value == 0 then some value
  else none

/-- The written parts of a number. -/
structure Numeral where
  negative : Bool
  /-- The digits before the point. -/
  whole : List Char
  /-- The digits after the point, if there is a point. -/
  fraction : Option (List Char)
  /-- Whether the exponent is negative, and its digits. -/
  exponent : Option (Bool × List Char)
deriving Repr

namespace Numeral

/-- A float with the sign of the number. -/
def signed (n : Numeral) (size : Float) : Json :=
  float (if n.negative then -size else size)

/-- The value of a number with a fraction, an exponent or too many digits. -/
def toFloat? (n : Numeral) : Option Json :=
  let (upToPoint, dropped) := accumulate 0 n.whole
  let fraction := n.fraction.getD []
  let (significand, ignored) := accumulate upToPoint fraction
  let start : Int := (dropped.length : Int) - ((fraction.length - ignored.length : Nat) : Int)
  match n.exponent with
  | none => (scale? significand start).map n.signed
  | some (negative, digits) =>
    let size := natOfDigits digits
    if maxExponent < size then
      if significand ≠ 0 ∧ !negative then none else some (n.signed 0)
    else
      (scale? significand (if negative then start - size else start + size)).map n.signed

/-- The value of a number, if a double can hold it. -/
def value? (n : Numeral) : Option Json :=
  match n.fraction, n.exponent, accumulate 0 n.whole with
  | none, none, (size, []) =>
    if !n.negative then some (integer size)
    else if 0 < size ∧ size ≤ Nat.pow 2 63 then some (integer (-size))
    else some (n.signed size.toUInt64.toFloat)
  | _, _, _ => n.toFloat?

end Numeral

/-- Split off the digits at the front, of which there must be one. -/
def readDigits (text : List Char) : Except ReadError (List Char × List Char) :=
  match text.span Char.isDigit with
  | ([], []) => .error .truncated
  | ([], _ :: _) => .error .unexpected
  | (digits, rest) => .ok (digits, rest)

/-- Read the digits before the point: a zero stands alone. -/
def readWhole (text : List Char) : Except ReadError (List Char × List Char) :=
  match readDigits text with
  | .ok ('0' :: _ :: _, _) => .error .unexpected
  | result => result

/-- Read a fraction, if there is one. -/
def readFraction : List Char → Except ReadError (Option (List Char) × List Char)
  | '.' :: rest =>
    match readDigits rest with
    | .ok (digits, rest) => .ok (some digits, rest)
    | .error e => .error e
  | text => .ok (none, text)

/-- Read an exponent after its mark. -/
def readExponentDigits (negative : Bool) (text : List Char) :
    Except ReadError (Option (Bool × List Char) × List Char) :=
  match readDigits text with
  | .ok (digits, rest) => .ok (some (negative, digits), rest)
  | .error e => .error e

/-- Read an exponent, if there is one. -/
def readExponent : List Char → Except ReadError (Option (Bool × List Char) × List Char)
  | c :: rest =>
    if c = 'e' ∨ c = 'E' then
      match rest with
      | '+' :: digits => readExponentDigits false digits
      | '-' :: digits => readExponentDigits true digits
      | digits => readExponentDigits false digits
    else .ok (none, c :: rest)
  | [] => .ok (none, [])

/-- Read a number after its sign. -/
def readNumber (negative : Bool) (text : List Char) : Except ReadError (Json × List Char) := do
  let (whole, rest) ← readWhole text
  let (fraction, rest) ← readFraction rest
  let (exponent, rest) ← readExponent rest
  match (⟨negative, whole, fraction, exponent⟩ : Numeral).value? with
  | some value => .ok (value, rest)
  | none => .error .outOfRange

end ObjectTalk.Json

import ObjectTalk.Json.Basic
import ObjectTalk.Decimal.Shortest
/-!
# `Json.Printer` — compact JSON text

No blanks between tokens. In strings only the quote, the backslash and the characters below U+0020 are
escaped. A float has the fewest digits that read back; it is written positionally, always with a
fraction, when its first digit stands between the places `10^-5` and `10^15`, and with a signed exponent
otherwise.
-/

namespace ObjectTalk.Json

/-- A hexadecimal digit in lower case. -/
def hexDigit (n : Nat) : Char :=
  if n < 10 then Char.ofNat ('0'.toNat + n) else Char.ofNat ('a'.toNat + (n - 10))

/-- A character as it stands inside quotes. -/
def escapeChar (c : Char) : List Char :=
  match c with
  | '"' => ['\\', '"']
  | '\\' => ['\\', '\\']
  | '\x08' => ['\\', 'b']
  | '\x0c' => ['\\', 'f']
  | '\n' => ['\\', 'n']
  | '\r' => ['\\', 'r']
  | '\t' => ['\\', 't']
  | c =>
    if c.toNat < 0x20 then
      ['\\', 'u', '0', '0', hexDigit (c.toNat / 16), hexDigit (c.toNat % 16)]
    else [c]

/-- A string in quotes. -/
def quote (text : String) : List Char :=
  '"' :: (text.toList.flatMap escapeChar ++ ['"'])

/-- The digits `digits · 10^exponent` written positionally, with a fraction. -/
def positional (digits : List Char) (exponent : Int) : List Char :=
  if 0 ≤ exponent then
    digits ++ List.replicate exponent.toNat '0' ++ ['.', '0']
  else
    let places := (-exponent).toNat
    if places < digits.length then
      digits.take (digits.length - places) ++ '.' :: digits.drop (digits.length - places)
    else
      '0' :: '.' :: (List.replicate (places - digits.length) '0' ++ digits)

/-- The digits with a point after the first and an exponent that says where it belongs. -/
def scientific (digits : List Char) (magnitude : Int) : List Char :=
  let sign := if magnitude < 0 then '-' else '+'
  let mantissa := match digits with
    | first :: second :: rest => first :: '.' :: second :: rest
    | short => short
  mantissa ++ 'e' :: sign :: Nat.toDigits 10 magnitude.natAbs

/-- A finite float. -/
def floatChars (value : Float) : List Char :=
  let bits := value.toBits
  let found := Decimal.shortest bits
  let digits := Nat.toDigits 10 found.digits
  -- the place of the first digit
  let magnitude := found.exponent + (digits.length : Int) - 1
  let size :=
    if -5 ≤ magnitude ∧ magnitude ≤ 15 then positional digits found.exponent
    else scientific digits magnitude
  if bits.toNat < Nat.pow 2 63 then size else '-' :: size

/-- An integer in decimal. -/
def integerChars (value : Int) : List Char :=
  if value < 0 then '-' :: Nat.toDigits 10 value.natAbs else Nat.toDigits 10 value.natAbs

mutual

/-- The text of a value. -/
def chars : Json → List Char
  | null => ['n', 'u', 'l', 'l']
  | bool true => ['t', 'r', 'u', 'e']
  | bool false => ['f', 'a', 'l', 's', 'e']
  | integer value => integerChars value
  | float value => floatChars value
  | string text => quote text
  | array items => '[' :: (itemChars items ++ [']'])
  | object fields => '\x7b' :: (fieldChars fields ++ ['\x7d'])

/-- The items of an array, with commas between them. -/
def itemChars : List Json → List Char
  | [] => []
  | [item] => chars item
  | item :: next :: items => chars item ++ ',' :: itemChars (next :: items)

/-- The fields of an object, with commas between them. -/
def fieldChars : List (String × Json) → List Char
  | [] => []
  | [(key, value)] => quote key ++ ':' :: chars value
  | (key, value) :: next :: fields => quote key ++ ':' :: chars value ++ ',' :: fieldChars (next :: fields)

end

/-- The compact text of a value. -/
def compact (json : Json) : String :=
  String.ofList json.chars

end ObjectTalk.Json

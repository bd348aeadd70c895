import ObjectTalk.Json.Number
/-!
# `Json.Reader` — strict JSON text

The reader takes the text from its front and gives the value with what is left of the text. Blanks are
the space, the tab, the line feed and the carriage return; no comments, no trailing commas, no raw
control characters in strings, no escapes of lone surrogates. A limit bounds how many arrays and objects
may stand inside one another.
-/

namespace ObjectTalk.Json

/-- Whether a character may stand between tokens. -/
def isBlank (c : Char) : Bool :=
  c = ' ' || c = '\t' || c = '\n' || c = '\r'

/-- Drop the blanks at the front. -/
def skipBlanks (text : List Char) : List Char :=
  text.dropWhile isBlank

/-- Check that the text goes on with `expected`, of which the first part has been read. -/
def readWord (value : Json) : List Char → List Char → Except ReadError (Json × List Char)
  | [], rest => .ok (value, rest)
  | _ :: _, [] => .error .truncated
  | e :: expected, c :: rest => if e = c then readWord value expected rest else .error .unexpected

/-- The value of a hexadecimal digit. -/
def hexValue? (c : Char) : Option Nat :=
  if '0' ≤ c ∧ c ≤ '9' then some (c.toNat - '0'.toNat)
  else if 'a' ≤ c ∧ c ≤ 'f' then some (c.toNat - 'a'.toNat + 10)
  else if 'A' ≤ c ∧ c ≤ 'F' then some (c.toNat - 'A'.toNat + 10)
  else none

/-- Read the four digits of an escape. When fewer than four bytes of text are left, the text ended too
soon, whatever they are. -/
def readHex (text : List Char) : Except ReadError (Nat × List Char) :=
  match text with
  | a :: b :: c :: d :: rest =>
    match hexValue? a, hexValue? b, hexValue? c, hexValue? d with
    | some a, some b, some c, some d => .ok (((a * 16 + b) * 16 + c) * 16 + d, rest)
    | _, _, _, _ => .error .unexpected
  | short => if short.foldl (fun bytes c => bytes + c.utf8Size) 0 < 4 then .error .truncated else .error .unexpected

/-- Read the second half of a surrogate pair. -/
def readLowHalf (high : Nat) : List Char → Except ReadError (Char × List Char)
  | [] => .error .truncated
  | ['\\'] => .error .truncated
  | '\\' :: 'u' :: rest => do
    let (low, rest) ← readHex rest
    if 0xDC00 ≤ low ∧ low ≤ 0xDFFF then
      .ok (Char.ofNat (0x10000 + (high - 0xD800) * 0x400 + (low - 0xDC00)), rest)
    else .error .unexpected
  | _ => .error .unexpected

/-- Read the character that an escape stands for, after the backslash. -/
def readEscape : List Char → Except ReadError (Char × List Char)
  | [] => .error .truncated
  | '"' :: rest => .ok ('"', rest)
  | '\\' :: rest => .ok ('\\', rest)
  | '/' :: rest => .ok ('/', rest)
  | 'b' :: rest => .ok ('\x08', rest)
  | 'f' :: rest => .ok ('\x0c', rest)
  | 'n' :: rest => .ok ('\n', rest)
  | 'r' :: rest => .ok ('\r', rest)
  | 't' :: rest => .ok ('\t', rest)
  | 'u' :: rest => do
    let (code, rest) ← readHex rest
    if 0xDC00 ≤ code ∧ code ≤ 0xDFFF then .error .unexpected
    else if 0xD800 ≤ code ∧ code ≤ 0xDBFF then readLowHalf code rest
    else .ok (Char.ofNat code, rest)
  | _ :: _ => .error .unexpected

/-- Read a string after its opening quote; `done` holds what has been read, the last character first.
Each round takes a character, so as many rounds are enough as the text is long. -/
def readChars : (rounds : Nat) → (done : List Char) → List Char → Except ReadError (String × List Char)
  | _, _, [] => .error .truncated
  | 0, _, _ :: _ => .error .truncated
  | rounds + 1, done, c :: rest =>
    if c = '"' then .ok (String.ofList done.reverse, rest)
    else if c = '\\' then
      match readEscape rest with
      | .ok (c, rest) => readChars rounds (c :: done) rest
      | .error e => .error e
    else if c.toNat < 0x20 then .error .unexpected
    else readChars rounds (c :: done) rest

/-- Read a string after its opening quote. -/
def readString (rounds : Nat) (text : List Char) : Except ReadError (String × List Char) :=
  readChars rounds [] text

/-- Read the key of a field and the colon after it. -/
def readKey (rounds : Nat) (text : List Char) : Except ReadError (String × List Char) :=
  match skipBlanks text with
  | [] => .error .truncated
  | '"' :: rest => do
    let (key, rest) ← readString rounds rest
    match skipBlanks rest with
    | [] => .error .truncated
    | ':' :: rest => .ok (key, rest)
    | _ :: _ => .error .unexpected
  | _ :: _ => .error .unexpected

mutual

/-- Read a value. `room` is how many arrays and objects may still be opened inside one another. Of two
rounds one takes a character, so twice the length of the text is enough rounds. -/
def readValue : (rounds room : Nat) → List Char → Except ReadError (Json × List Char)
  | 0, _, _ => .error .truncated
  | rounds + 1, room, text =>
    match skipBlanks text with
    | [] => .error .truncated
    | '"' :: rest => do
      let (text, rest) ← readString rounds rest
      .ok (string text, rest)
    | '[' :: rest =>
      match room with
      | 0 => .error .tooDeep
      | room + 1 =>
        match skipBlanks rest with
        | ']' :: rest => .ok (array [], rest)
        | rest => readItems rounds room [] rest
    | '\x7b' :: rest =>
      match room with
      | 0 => .error .tooDeep
      | room + 1 =>
        match skipBlanks rest with
        | '\x7d' :: rest => .ok (object [], rest)
        | rest => readFields rounds room [] rest
    | 'n' :: rest => readWord null ['u', 'l', 'l'] rest
    | 't' :: rest => readWord (bool true) ['r', 'u', 'e'] rest
    | 'f' :: rest => readWord (bool false) ['a', 'l', 's', 'e'] rest
    | '-' :: rest => readNumber true rest
    | c :: rest => if c.isDigit then readNumber false (c :: rest) else .error .unexpected

/-- Read the items of an array up to its end; `done` holds those read, the last one first. -/
def readItems : (rounds room : Nat) → (done : List Json) → List Char →
    Except ReadError (Json × List Char)
  | 0, _, _, _ => .error .truncated
  | rounds + 1, room, done, text =>
    match readValue rounds room text with
    | .error e => .error e
    | .ok (item, rest) =>
      match skipBlanks rest with
      | [] => .error .truncated
      | ',' :: rest => readItems rounds room (item :: done) rest
      | ']' :: rest => .ok (array (item :: done).reverse, rest)
      | _ :: _ => .error .unexpected

/-- Read the fields of an object up to its end; `done` holds those read, sorted. -/
def readFields : (rounds room : Nat) → (done : List (String × Json)) → List Char →
    Except ReadError (Json × List Char)
  | 0, _, _, _ => .error .truncated
  | rounds + 1, room, done, text =>
    match readKey rounds text with
    | .error e => .error e
    | .ok (key, rest) =>
      match readValue rounds room rest with
      | .error e => .error e
      | .ok (value, rest) =>
        match skipBlanks rest with
        | [] => .error .truncated
        | ',' :: rest => readFields rounds room (insertField key value done) rest
        | '\x7d' :: rest => .ok (object (insertField key value done), rest)
        | _ :: _ => .error .unexpected

end

/-- Check that nothing but blanks is left. -/
def atEnd (text : List Char) : Except ReadError Unit :=
  match skipBlanks text with
  | [] => .ok ()
  | _ :: _ => .error .unexpected

/-- Read the value at the front of a text in which at most `limit` arrays and objects stand inside one
another; also gives what is left of the text. -/
def readFront (limit : Nat) (text : List Char) : Except ReadError (Json × List Char) :=
  readValue (2 * text.length + 1) limit text

/-- Read a text that holds one value and nothing else. -/
def read (limit : Nat) (text : String) : Except ReadError Json := do
  let (value, rest) ← readFront limit text.toList
  atEnd rest
  return value

end ObjectTalk.Json

import ObjectTalk.Text.Printable
/-!
# `Text.Quoted` — text in quotes, with nothing unseen

The quote, the backslash and the common controls have short escapes. Every other character that is not
printable is written as its code point in braces.
-/

namespace ObjectTalk.Text

/-- A character as it stands inside quotes. -/
def quotedChar (c : Char) : List Char :=
  match c with
  | '\x00' => ['\\', '0']
  | '\t' => ['\\', 't']
  | '\r' => ['\\', 'r']
  | '\n' => ['\\', 'n']
  | '"' => ['\\', '"']
  | '\\' => ['\\', '\\']
  | c =>
    if isPrintable c then [c]
    else ['\\', 'u', '\x7b'] ++ Nat.toDigits 16 c.toNat ++ ['\x7d']

/-- Text in quotes. -/
def quoted (text : String) : String :=
  String.ofList ('"' :: (text.toList.flatMap quotedChar ++ ['"']))

end ObjectTalk.Text

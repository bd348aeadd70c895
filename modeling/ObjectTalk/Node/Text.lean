import ObjectTalk.Node.OfJson
import ObjectTalk.Json.Reader
/-!
# `Node.Text` — programs as text

A program is written as JSON text in which at most 127 arrays and objects stand inside one another.
-/

namespace ObjectTalk

/-- How many arrays and objects of a program's text may stand inside one another. -/
def nestingLimit : Nat := 127

/-- The name of the form in which programs are written. -/
def formatName : String := "JSON AST"

/-- The extension of files that hold programs. -/
def fileExtension : String := "json"

/-- Why a text is no program. -/
inductive ProgramError where
  /-- The text is no JSON. -/
  | text (cause : Json.ReadError)
  /-- The JSON value is no program tree. -/
  | tree (cause : TreeError)

/-- What is wrong with a text, in words. -/
def Json.ReadError.text : Json.ReadError → String
  | .truncated => "unexpected end of text"
  | .unexpected => "unexpected character"
  | .tooDeep => "nested too deep"
  | .outOfRange => "number out of range"

/-- The message of an error in a program. -/
def ProgramError.message : ProgramError → String
  | .text cause => "invalid JSON: " ++ cause.text
  | .tree cause => cause.message

namespace Node

/-- The program that a JSON value writes. -/
def ofTree (json : Json) : Except ProgramError Node :=
  (ofJson json).mapError .tree

/-- The program that a text holds. The whole text must be JSON before the tree is looked at. -/
def ofText (text : String) : Except ProgramError Node :=
  match Json.read nestingLimit text with
  | .ok json => ofTree json
  | .error cause => .error (.text cause)

/-- The program that a text holds, where the tree is looked at before what follows it in the text. -/
def ofTextFront (text : String) : Except ProgramError Node := do
  let (json, rest) ← (Json.readFront nestingLimit text.toList).mapError .text
  let node ← ofTree json
  (Json.atEnd rest).mapError .text
  return node

end Node

end ObjectTalk

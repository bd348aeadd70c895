import ObjectTalk.CommandLine
/-!
# `Main` — the command

Reads what the arguments name, runs it and writes what comes of it.
-/

open ObjectTalk

/-- Why a file could not be read, as the system words it. -/
def readFailure : IO.Error → String
  | .noFileOrDirectory _ code _ => "No such file or directory (os error " ++ toString code ++ ")"
  | .permissionDenied _ code _ => "Permission denied (os error " ++ toString code ++ ")"
  | error => toString error

/-- Read a file as text. -/
def readSource (file : String) : IO (Except String String) := do
  try
    return .ok (← IO.FS.readFile file)
  catch error =>
    return .error (readFailure error)

/-- Do what the arguments ask for. -/
def perform (args : List String) : IO CommandLine.Outcome := do
  match CommandLine.parse args with
  | .ok (.execute "-" settings) =>
    return CommandLine.execute "-" settings (.ok (← (← IO.getStdin).readToEnd))
  | .ok (.execute file settings) => return CommandLine.execute file settings (← readSource file)
  | _ => return CommandLine.respond args "" fun _ => .error ""

def main (args : List String) : IO UInt32 := do
  let outcome ← perform args
  let output ← IO.getStdout
  output.putStr outcome.stdout
  output.flush
  for event in outcome.log do
    IO.eprintln event.line
  if let some report := outcome.report then
    IO.eprintln report
  return outcome.exitCode.toUInt32

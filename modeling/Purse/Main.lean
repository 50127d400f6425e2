import Purse.Command.Run

/-!
# The program

The outer layer: it gathers what a run finds around it and hands out the report. No database answers
at any address here, so of the commands only those succeed that need none.
-/

namespace Purse.Program

/-- The variables of the environment, from the text in which each is followed by a zero
character. -/
def variablesOf (text : String) : List (String × String) :=
  (text.splitOn (String.singleton (Char.ofNat 0))).filterMap fun entry =>
    let name := entry.toList.takeWhile (· ≠ '=')
    match entry.toList.drop name.length with
    | _ :: value => some (String.ofList name, String.ofList value)
    | [] => none

/-- The text of a file, if there is such a file and it is a text. -/
def fileText? (file : String) : IO (Option String) := do
  try
    pure (String.fromUTF8? (← IO.FS.readBinFile file))
  catch _ => pure none

/-- The document of settings of a name: that of the file, or of the file with the ending `.toml`. -/
def document? (file : String) : IO (Option String) := do
  if file.endsWith ".toml" then
    if let some text ← fileText? file then return some text
  fileText? (file ++ ".toml")

/-- The name of the file of settings that some arguments lead to. -/
def settingsFile (args : List String) : String :=
  match Invocation.ofArguments [] args with
  | .run file _ => file
  | _ => Invocation.defaultSettings

/-- A run of the program on the files and the environment as they are. -/
def run (args : List String) : IO Report := do
  let document ← document? (settingsFile args)
  let environment := variablesOf ((← fileText? "/proc/self/environ").getD "")
  pure (runProgram ⟨fun _ => document, environment, fun _ => none, .epoch, default⟩ args).1

end Purse.Program

def main (args : List String) : IO UInt32 := do
  let report ← Purse.Program.run args
  IO.print report.output
  IO.eprint report.errors
  return UInt32.ofNat report.exitCode

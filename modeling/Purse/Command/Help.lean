import Purse.Command.Arguments

/-!
# Help

What an operator is told about the command line: what a command does, how it is written, and lists
of commands, operands and options, each with its explanations in one column.
-/

namespace Purse.HelpTopic

def programName : String := "wallet"

def versionNumber : String := "0.1.0"

/-- The answer to the question for the version. -/
def versionText : String := programName ++ " " ++ versionNumber ++ "\n"

/-- A list under a heading, with what explains its entries in one column. -/
def listed (heading : String) (entries : List (String × String)) : List String :=
  let width := (entries.map fun e => e.1.length).foldl max 0
  let line (e : String × String) : String :=
    "  " ++ e.1 ++ String.ofList (List.replicate (width - e.1.length) ' ') ++ "  " ++ e.2
  if entries.isEmpty then [] else "" :: (heading ++ ":") :: entries.map line

def aboutHelp : String := "Print this message or the help of the given subcommand(s)"

def helpOption (name : String) : String × String := (name, "Print help")

def about : HelpTopic → String
  | everything => "Multi-currency wallet balance operations"
  | verb v => v.about
  | help => aboutHelp

/-- An operand as it is written in lists. -/
def operandName (o : Operand) : String := "<" ++ o.name ++ ">"

/-- How the command is written, behind the name of the program. -/
def usage : HelpTopic → String
  | everything => "[OPTIONS] <COMMAND>"
  | verb v => " ".intercalate (v.name :: v.operands.map operandName)
  | help => "help [COMMAND]..."

def sections : HelpTopic → List String
  | everything =>
    listed "Commands" ((Verb.all.map fun v => (v.name, v.about)) ++ [("help", aboutHelp)]) ++
      listed "Options" [
        ("-c, --config <CONFIG>", "Configuration file path [default: " ++ Invocation.defaultSettings ++ "]"),
        helpOption "-h, --help",
        ("-V, --version", "Print version")]
  | verb v =>
    listed "Arguments" (v.operands.map fun o => (operandName o, o.about)) ++
      listed "Options" [helpOption "-h, --help"]
  | help => listed "Arguments" [("[COMMAND]...", "Print help for the subcommand(s)")]

/-- **The help on a topic.** -/
def text (t : HelpTopic) : String :=
  let lines := [t.about, "", "Usage: " ++ programName ++ " " ++ t.usage] ++ t.sections
  String.join (lines.map (· ++ "\n"))

end Purse.HelpTopic

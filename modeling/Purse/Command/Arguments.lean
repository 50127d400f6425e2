import Purse.Command

/-!
# Arguments

How a list of arguments is read: options first, then the name of a command, then its operands.

An option that takes a value is given it in the same argument (`--config=FILE`, `-cFILE`, `-c=FILE`)
or in the next one, which must not look like an option; it is given once. What looks like an option
is one, except after `--`, and `-` alone does not look like one. A question for help or for the
version is answered at once, unless something in front of it is wrong; so the arguments are read
from the left, and the first thing that matters decides.
-/

namespace Purse

/-- What help is wanted about. -/
inductive HelpTopic where
  | everything
  | verb (v : Verb)
  | help
deriving DecidableEq, Repr

/-- What a list of arguments asks for. -/
inductive Invocation where
  /-- Running a command, with the settings in a file. -/
  | run (settings : String) (command : Command)
  | help (topic : HelpTopic)
  | version
  /-- The arguments make no sense. -/
  | misuse

namespace Invocation

/-- The name of the file of settings if none is given. -/
def defaultSettings : String := "wallet.toml"

/-- An argument in front of the name of a command. -/
inductive LeadingArgument where
  /-- The file of settings, in the same argument. -/
  | settings (file : String)
  /-- The file of settings, in the next argument. -/
  | settingsNext
  | help
  | version
  /-- Something else. -/
  | unknown

/-- What an argument in front of the name of a command means. -/
def LeadingArgument.ofArgument (arg : String) : LeadingArgument :=
  match arg.toList with
  | '-' :: '-' :: word =>
    let name := word.takeWhile (· ≠ '=')
    match String.ofList name, word.drop name.length with
    | "config", [] => settingsNext
    | "config", _ :: value => settings (String.ofList value)
    | "help", [] => help
    | "version", [] => version
    | _, _ => unknown
  | ['-', 'c'] => settingsNext
  | '-' :: 'c' :: '=' :: value => settings (String.ofList value)
  | '-' :: 'c' :: value => settings (String.ofList value)
  | '-' :: 'h' :: _ => help
  | '-' :: 'V' :: _ => version
  | _ => unknown

def looksLikeOption (arg : String) : Bool :=
  match arg.toList with
  | '-' :: _ :: _ => true
  | _ => false

/-- Whether an argument behind the name of a command asks for help. -/
def asksForHelp (arg : String) : Bool :=
  match arg.toList with
  | '-' :: 'h' :: _ => true
  | _ => arg = "--help"

/-- Reading the operands of a command behind those already given; `plain` says that nothing is an
option any more. -/
def ofOperands (v : Verb) (settings : String) : (plain : Bool) → (given : List String) → List String → Invocation
  | _, given, [] =>
    match Command.ofOperands? v given with
    | some c => run settings c
    | none => misuse
  | true, given, arg :: args => ofOperands v settings true (given ++ [arg]) args
  | false, given, arg :: args =>
    if arg = "--" then ofOperands v settings true given args
    else if looksLikeOption arg then
      if asksForHelp arg && v.accepts given then help (.verb v) else misuse
    else ofOperands v settings false (given ++ [arg]) args

/-- What the arguments of the command `help` ask for. -/
def ofHelp : List String → Invocation
  | [] => help .everything
  | [arg] =>
    match Verb.ofName? arg with
    | some v => help (.verb v)
    | none => if arg = "help" then help .help else misuse
  | _ => misuse

/-- The invocation, unless the file of settings is given more than once: only help is given
nevertheless. -/
def settledBy (settings : List String) : Invocation → Invocation
  | run file c => if settings.length ≤ 1 then run file c else misuse
  | other => other

/-- **Reading the arguments** behind those that gave files of settings, in the order in which they
did. -/
def ofArguments : (settings : List String) → List String → Invocation
  | _, [] => misuse
  | settings, arg :: args =>
    match Verb.ofName? arg with
    | some v => settledBy settings (ofOperands v (settings.headD defaultSettings) false [] args)
    | none =>
      if arg = "help" then ofHelp args
      else
        match LeadingArgument.ofArgument arg, args with
        | .settings file, args => if settings.isEmpty then ofArguments [file] args else misuse
        | .settingsNext, file :: args =>
          if settings.length ≤ 1 && !looksLikeOption file then ofArguments (settings ++ [file]) args else misuse
        | .help, _ => if settings.length ≤ 1 then help .everything else misuse
        | .version, _ => if settings.length ≤ 1 then version else misuse
        | _, _ => misuse

end Invocation

end Purse

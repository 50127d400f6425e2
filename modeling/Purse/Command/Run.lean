import Purse.Command.Help
import Purse.Database.Connection
import Purse.Database.Service
import Purse.Settings.Load
import Purse.Wallet.Document

/-!
# Running a command

A run of the program: the arguments are read, then the settings, then the command is carried out, on
the database if it needs one. What the operator sees is a `Report`.

The settings come from the file that the arguments name, with the environment laid over it. If that
gives no settings, they come from the environment alone.
-/

namespace Purse

/-- What the operator sees of a run: the exit code, and what was written to the output and to the
error output. -/
structure Report where
  exitCode : Nat
  output : String
  errors : String
deriving DecidableEq, Repr

namespace Report

/-- A run that went well. -/
def success (output : String) : Report := ⟨0, output, ""⟩

/-- A run whose arguments make no sense. -/
def misuse : Report := ⟨2, "", "error: unexpected arguments\n\nFor more information, try '--help'.\n"⟩

/-- A run that broke down before the service was there. -/
def breakdown (reason : String) : Report := ⟨1, "", "Error: " ++ reason ++ "\n"⟩

/-- A run whose request failed. The operator is told what any caller is told. -/
def failure (e : WalletError) : Report := ⟨1, "", "error: " ++ e.publicMessage ++ "\n"⟩

/-- A run on settings for which no gate can be made. -/
def noGate : Report := ⟨101, "", "a gate cannot have so many permits\n"⟩

end Report

/-- What a run finds around it. -/
structure Surroundings where
  /-- The documents of settings, by the names of their files. -/
  document : String → Option String
  /-- The environment. -/
  environment : List (String × String)
  /-- The databases, by the addresses at which they answer. -/
  server : String → Option Database
  time : Timestamp
  /-- The identifier for a new wallet. -/
  drawn : Uuid

namespace Surroundings

/-- The settings of a run. -/
def settings (s : Surroundings) (file : String) : Except Settings.LoadError Settings :=
  match Settings.fromDocument (s.document file) s.environment with
  | .ok c => .ok c
  | .error _ => Settings.fromEnvironment s.environment

end Surroundings

namespace Command

/-- Rates, each on a line of its own. -/
def ratesText (rs : List ExchangeRate) : String :=
  String.join (rs.map fun r => r.pair.text ++ " " ++ rateText r.rate ++ "\n")

/-- A wallet as the operator sees it. -/
def walletText (w : Wallet) : String := w.overview.indentedText ++ "\n"

/-- What the operator is told of an exchange. -/
def exchangeText (sold bought : String) (rate : Float) (debited credited : MinorUnits) : String :=
  "Exchanged " ++ debited.text ++ " " ++ sold ++ " into " ++ credited.text ++ " " ++ bought ++
    " at " ++ rateText rate ++ "\n"

/-- The answer to a request as the operator sees it. -/
def answerText : Request → Answer → String
  | .exchange _ sold bought _, .exchanged w rate debited credited =>
    exchangeText sold bought rate debited credited ++ walletText w
  | _, .exchanged w .. => walletText w
  | _, .wallet w => walletText w
  | _, .rate x => rateText x ++ "\n"
  | _, .rates rs => ratesText rs

/-- The rates of the settings, if they are all that the command asks for. -/
def fixedListing? (c : Settings) : Command → Option (List ExchangeRate)
  | ask .listing =>
    if c.rates.source = .fixed then some ((((c.rateCache).refresh 0 c.fixedRates.getAll).getAll 0).getD []) else none
  | _ => none

/-- Carrying out a command on a database to which there is a connection. -/
def perform (c : Settings) (s : Surroundings) (db : Database) : Command → Database × Report
  | migrate =>
    match db.migrate with
    | (db, .ok _) => (db, .success "Schema ready\n")
    | (db, .error e) => (db, .breakdown e.message)
  | ask request =>
    match c.database.prepare db, (c.gate? : Option (Gate Unit)) with
    | (db, .error e), _ => (db, .breakdown e.message)
    | (db, .ok _), none => (db, .noGate)
    | (db, .ok _), some _ =>
      let (r, service) := ((DatabaseService.serve 0 s.time s.drawn request).run (.start c db)).run
      (service.database, match r with
        | .ok answer => .success (answerText request answer)
        | .error e => .failure e)

/-- Carrying out a command, and the database after it if one was reached. -/
def run (c : Settings) (s : Surroundings) (command : Command) : Report × Option Database :=
  match command.fixedListing? c with
  | some rs => (.success (ratesText rs), none)
  | none =>
    match c.database.reach s.server with
    | .error e => (.breakdown (WalletError.ofDatabase e).message, none)
    | .ok db =>
      let (db, report) := command.perform c s db
      (report, some db)

end Command

/-- **A run of the program** with some arguments, and the database after it if one was reached. -/
def runProgram (s : Surroundings) (args : List String) : Report × Option Database :=
  match Invocation.ofArguments [] args with
  | .misuse => (.misuse, none)
  | .help topic => (.success topic.text, none)
  | .version => (.success HelpTopic.versionText, none)
  | .run file command =>
    match s.settings file with
    | .error e => (.breakdown e.message, none)
    | .ok c => command.run c s

end Purse

import Purse.Settings
import Purse.Settings.Environment
import Purse.Toml.Document

/-!
# Loading settings

Settings are put together from a TOML document, if there is one, and the environment, which goes
first; what neither mentions has its default. Then they are checked.
-/

namespace Purse.Settings

/-- Why settings could not be loaded. -/
inductive LoadError where
  /-- The document is missing. -/
  | missing
  /-- The document is not well-formed. -/
  | malformed
  /-- A value does not fit its setting. -/
  | unfitting
  /-- The service cannot run on the settings. -/
  | faulty (fault : SettingsFault)

/-- The wording of an error. -/
def LoadError.message : LoadError → String
  | missing => "the document of settings is missing"
  | malformed => "the document of settings is not well-formed"
  | unfitting => "a setting has a value that does not fit it"
  | faulty fault => fault.message

def databaseOf? (v : Setting) : Option DatabaseSettings := do
  let d : DatabaseSettings := {}
  let [url, most, least, timeout, migrate] ←
    v.record? ["url", "max_connections", "min_connections", "acquire_timeout_secs", "run_migrations"] | none
  pure {
    url := ← Setting.defaulted? Setting.text? d.url url
    maxConnections := ← Setting.defaulted? (Setting.nat? 32) d.maxConnections most
    minConnections := ← Setting.defaulted? (Setting.nat? 32) d.minConnections least
    acquireTimeoutSecs := ← Setting.defaulted? (Setting.nat? 64) d.acquireTimeoutSecs timeout
    runMigrations := ← Setting.defaulted? Setting.bool? d.runMigrations migrate }

def gateOf? (v : Setting) : Option GateSettings := do
  let d : GateSettings := {}
  let [most, timeout] ← v.record? ["max_in_flight", "acquire_timeout_ms"] | none
  pure {
    maxInFlight := ← Setting.defaulted? (Setting.nat? 64) d.maxInFlight most
    acquireTimeoutMs := ← Setting.defaulted? (Setting.optional? (Setting.nat? 64)) d.acquireTimeoutMs timeout }

def currencyNames : List (String × Currency) := Currency.all.map fun c => (c.symbol, c)

def originNames : List (String × RateOrigin) := RateOrigin.all.map fun o => (o.name, o)

/-- An entry of the table of rates; all its members must be there. -/
def rateOf? (v : Setting) : Option ExchangeRate := do
  let currency? (member : Option Setting) : Option Currency :=
    Setting.required? (Setting.name? currencyNames) member
  let [sold, bought, rate] ← v.record? ["from", "to", "rate"] | none
  pure ⟨⟨← currency? sold, ← currency? bought⟩, ← Setting.required? Setting.float? rate⟩

def ratesOf? (v : Setting) : Option RateSettings := do
  let d : RateSettings := {}
  let [source, ttl, table] ← v.record? ["source", "cache_ttl_secs", "table"] | none
  pure {
    source := ← Setting.defaulted? (Setting.name? originNames) d.source source
    cacheTtlSecs := ← Setting.defaulted? (Setting.nat? 64) d.cacheTtlSecs ttl
    table := ← Setting.defaulted? (Setting.list? rateOf?) d.table table }

def eventsOf? (v : Setting) : Option EventSettings := do
  let d : EventSettings := {}
  let [threshold, capacity] ← v.record? ["notify_threshold", "channel_capacity"] | none
  pure {
    notifyThreshold := ← Setting.defaulted? Setting.float? d.notifyThreshold threshold
    channelCapacity := ← Setting.defaulted? (Setting.nat? 64) d.channelCapacity capacity }

/-- The settings that a tree of values describes. -/
def ofSetting? (v : Setting) : Option Settings := do
  let [database, gate, rates, events] ← v.record? ["database", "gate", "rates", "events"] | none
  pure {
    database := ← Setting.defaulted? databaseOf? {} database
    gate := ← Setting.defaulted? gateOf? {} gate
    rates := ← Setting.defaulted? ratesOf? {} rates
    events := ← Setting.defaulted? eventsOf? {} events }

/-- Reading and checking a tree of values. -/
def finish (tree : Setting) : Except LoadError Settings :=
  match ofSetting? tree with
  | none => .error .unfitting
  | some c =>
    match c.fault? with
    | some fault => .error (.faulty fault)
    | none => .ok c

/-- **Loading settings from the environment alone.** -/
def fromEnvironment (environment : List (String × String)) : Except LoadError Settings :=
  finish ((Setting.group []).withEnvironment environment)

/-- **Loading settings from a document and the environment.** A missing document is an error. -/
def fromDocument (text : Option String) (environment : List (String × String)) : Except LoadError Settings :=
  match text with
  | none => .error .missing
  | some text =>
    match Toml.parse? text with
    | none => .error .malformed
    | some entries => finish (((Setting.group []).withEntries entries).withEnvironment environment)

end Purse.Settings

import Purse.Json.Decode
import Purse.Json.Reader
import Purse.Settings

/-!
# Settings as JSON documents

Settings may be kept as a JSON document, in which every value has exactly its type. What the
document does not mention has its default.
-/

namespace Purse

namespace Json

/-- An entry of the table of rates; all its members must be there. -/
def tableRate? (v : Json) : Option ExchangeRate := do
  let [sold, bought, rate] ← v.record? ["from", "to", "rate"] | none
  pure ⟨⟨← required? (name? Currency.ofSymbol?) sold, ← required? (name? Currency.ofSymbol?) bought⟩,
    ← required? double? rate⟩

end Json

namespace Settings

def origin? (s : String) : Option RateOrigin := RateOrigin.all.find? fun (o : RateOrigin) => o.name = s

def databaseOfJson? (v : Json) : Option DatabaseSettings := do
  let d : DatabaseSettings := {}
  let [url, most, least, timeout, migrate] ←
    v.record? ["url", "max_connections", "min_connections", "acquire_timeout_secs", "run_migrations"] | none
  pure {
    url := ← Json.defaulted? Json.text? d.url url
    maxConnections := ← Json.defaulted? (Json.natBelow? 32) d.maxConnections most
    minConnections := ← Json.defaulted? (Json.natBelow? 32) d.minConnections least
    acquireTimeoutSecs := ← Json.defaulted? (Json.natBelow? 64) d.acquireTimeoutSecs timeout
    runMigrations := ← Json.defaulted? Json.bool? d.runMigrations migrate }

def gateOfJson? (v : Json) : Option GateSettings := do
  let d : GateSettings := {}
  let [most, timeout] ← v.record? ["max_in_flight", "acquire_timeout_ms"] | none
  pure {
    maxInFlight := ← Json.defaulted? (Json.natBelow? 64) d.maxInFlight most
    acquireTimeoutMs := ← Json.defaulted? (Json.optional? (Json.natBelow? 64)) d.acquireTimeoutMs timeout }

def ratesOfJson? (v : Json) : Option RateSettings := do
  let d : RateSettings := {}
  let [source, ttl, table] ← v.record? ["source", "cache_ttl_secs", "table"] | none
  pure {
    source := ← Json.defaulted? (Json.name? origin?) d.source source
    cacheTtlSecs := ← Json.defaulted? (Json.natBelow? 64) d.cacheTtlSecs ttl
    table := ← Json.defaulted? (Json.list? Json.tableRate?) d.table table }

def eventsOfJson? (v : Json) : Option EventSettings := do
  let d : EventSettings := {}
  let [threshold, capacity] ← v.record? ["notify_threshold", "channel_capacity"] | none
  pure {
    notifyThreshold := ← Json.defaulted? Json.double? d.notifyThreshold threshold
    channelCapacity := ← Json.defaulted? (Json.natBelow? 64) d.channelCapacity capacity }

/-- **The settings that a record describes.** -/
def ofJson? (v : Json) : Option Settings := do
  let [database, gate, rates, events] ← v.record? ["database", "gate", "rates", "events"] | none
  pure {
    database := ← Json.defaulted? databaseOfJson? {} database
    gate := ← Json.defaulted? gateOfJson? {} gate
    rates := ← Json.defaulted? ratesOfJson? {} rates
    events := ← Json.defaulted? eventsOfJson? {} events }

def ofDocument? (s : String) : Option Settings := do ofJson? (← Json.ofText? s)

end Settings

end Purse

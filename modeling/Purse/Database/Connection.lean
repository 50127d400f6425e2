import Purse.Database.Address
import Purse.Database.Wallets
import Purse.Settings

/-!
# Connecting to a database

A database is reached at the address in the settings. The address is looked at first; then a
connection has to come from a pool, which has none to give if it may hold none, may not wait for one
or finds nobody at the address. Once there is a connection the tables are created, if the settings
say so.
-/

namespace Purse

namespace DatabaseSettings

/-- **Reaching the database** that the settings name, among those that answer at some addresses. -/
def reach (d : DatabaseSettings) (server : String → Option Database) : Except DatabaseError Database :=
  match Address.fault? d.url with
  | some fault => .error (.badConfiguration fault.message)
  | none =>
    if d.maxConnections = 0 || d.acquireTimeoutSecs = 0 then .error .poolTimedOut
    else
      match server d.url with
      | some db => .ok db
      | none => .error .poolTimedOut

/-- What is done on a new connection: the tables are created, unless the settings leave that to
somebody else. -/
def prepare (d : DatabaseSettings) (db : Database) : Database × Except WalletError Unit :=
  if d.runMigrations then db.migrate else (db, .ok ())

end DatabaseSettings

end Purse

import Checkout.Config.Environment

/-!
# The database settings

Where the database is and how connections to it are kept. A URL that is set and not empty stands for
everything else when a connection is made.
-/

namespace Checkout

/-- How the database is reached. -/
structure DatabaseConfig where
  host : String
  port : Nat
  database : String
  username : String
  password : String
  maxConnections : Nat
  /-- How long a connection is waited for, in milliseconds. -/
  acquireTimeout : Nat
  url : Option String
  deriving DecidableEq

namespace DatabaseConfig

/-- Reads the settings. -/
def ofEnvironment (e : Environment) : Except ConfigFault DatabaseConfig := do
  let port ← e.number "DATABASE_PORT" UInt16.size 3306
  let maxConnections ← e.number "DATABASE_MAX_CONNECTIONS" UInt32.size 10
  let acquireTimeout ← e.number "DATABASE_ACQUIRE_TIMEOUT_MS" UInt64.size 5000
  return {
    host := e.textOr "DATABASE_HOST" "localhost"
    port
    database := e.textOr "DATABASE_NAME" "checkout_db"
    username := e.textOr "DATABASE_USER" "checkout_user"
    password := e.textOr "DATABASE_PASSWORD" "checkout_password"
    maxConnections
    acquireTimeout
    url := (e.text? "DATABASE_URL").filter (· ≠ "") }

/-- What a connection is made with. -/
def connectionString (c : DatabaseConfig) : String :=
  match c.url with
  | some url => url
  | none => s!"mysql://{c.username}:{c.password}@{c.host}:{c.port}/{c.database}"

end DatabaseConfig

end Checkout

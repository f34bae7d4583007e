import WalletBudget.Text.Utf8
import WalletBudget.Vasp.Config
import WalletBudget.Word

/-!
How the database is reached, from the environment or from a record, and its URL with the password
masked for logs.
-/

namespace WalletBudget

structure DatabaseConfig where
  url : String
  maxConnections : Nat
  minConnections : Nat
  acquireTimeoutSecs : Nat
  runMigrations : Bool
  deriving DecidableEq, Repr

namespace DatabaseConfig

def defaultMaxConnections : Nat := 20

def defaultMinConnections : Nat := 2

def defaultAcquireTimeoutSecs : Nat := 30

def defaultUrl : String := "postgresql://localhost/nwc"

def default (env : Environment) : DatabaseConfig :=
  ⟨(env.get? "DATABASE_URL").getD defaultUrl, defaultMaxConnections, defaultMinConnections,
    defaultAcquireTimeoutSecs, true⟩

/-- A variable that cannot be read counts as unset. -/
def number (env : Environment) (name : String) (largest fallback : Nat) : Nat :=
  ((env.get? name).bind (fun s => Digits.readUpTo? largest s.toList)).getD fallback

def flag (env : Environment) (name : String) (fallback : Bool) : Bool :=
  match env.get? name with
  | some "true" => true
  | some "false" => false
  | _ => fallback

/-- There is no database without a URL in the environment. -/
def fromEnvironment? (env : Environment) : Option DatabaseConfig := do
  let url ← env.get? "DATABASE_URL"
  return ⟨url, number env "PG_MAX_CONNECTIONS" Word.largest32 defaultMaxConnections,
    number env "PG_MIN_CONNECTIONS" Word.largest32 defaultMinConnections,
    number env "PG_ACQUIRE_TIMEOUT" Word.largest64 defaultAcquireTimeoutSecs,
    flag env "RUN_MIGRATIONS" true⟩

/-- The text with what stands between the first colon of the credentials and the last `@` masked.
The credentials lie between the first `://` and that `@`; it is a defect if they end before they
start. -/
def maskUrl (url : String) : Except Defect String :=
  let cs := url.toList
  match Utf8.last? '@' cs, Utf8.first? "://".toList cs with
  | some stop, some scheme => do
    let start := scheme + 3
    let credentials ← Utf8.part start stop cs
    match Utf8.first? [':'] credentials with
    | some colon =>
      let front ← Utf8.part 0 start cs
      let user ← Utf8.part 0 colon credentials
      let rest ← Utf8.part stop (Utf8.size cs) cs
      return String.ofList (front ++ user ++ ":***".toList ++ rest)
    | none => return url
  | _, _ => return url

def record {V : Type} (parts : Parts V) : Record V DatabaseConfig :=
  (Record.build DatabaseConfig.mk)
    |>.field (.required "postgres_url" parts.string)
    |>.field (.defaulted "pg_max_connections" (parts.natural Word.largest32) defaultMaxConnections)
    |>.field (.defaulted "pg_min_connections" (parts.natural Word.largest32) defaultMinConnections)
    |>.field (.defaulted "pg_acquire_timeout_secs" (parts.natural Word.largest64)
      defaultAcquireTimeoutSecs)
    |>.field (.defaulted "run_migrations" parts.boolean true)

def fromJson : Json.Decoder DatabaseConfig := Record.decode (record Json.strict)

def toJson (c : DatabaseConfig) : Json :=
  .obj [("postgres_url", .str c.url), ("pg_max_connections", .nat c.maxConnections),
    ("pg_min_connections", .nat c.minConnections),
    ("pg_acquire_timeout_secs", .nat c.acquireTimeoutSecs),
    ("run_migrations", .bool c.runMigrations)]

end DatabaseConfig

end WalletBudget

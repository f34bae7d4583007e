import WalletBudget.Database.Config
import WalletBudget.Wire.Budget
import WalletBudget.Word

/-!
Settings of the server, and their records. Without a database the records are kept in memory.
-/

namespace WalletBudget

open Record (build)

structure ServerSettings where
  host : String
  port : Nat
  deriving DecidableEq, Repr

namespace ServerSettings

/-- Only this machine can reach the server. -/
def default : ServerSettings := ⟨"127.0.0.1", 8080⟩

def record {V : Type} (parts : Parts V) : Record V ServerSettings :=
  (build ServerSettings.mk)
    |>.field (.defaulted "host" parts.string default.host)
    |>.field (.defaulted "port" (parts.natural Word.largest16) default.port)

def fromJson : Json.Decoder ServerSettings := Record.decode (record Json.strict)

def toJson (s : ServerSettings) : Json := .obj [("host", .str s.host), ("port", .nat s.port)]

end ServerSettings

structure LoggingSettings where
  level : String
  format : String
  deriving DecidableEq, Repr

namespace LoggingSettings

def default : LoggingSettings := ⟨"info", "pretty"⟩

def record {V : Type} (parts : Parts V) : Record V LoggingSettings :=
  (build LoggingSettings.mk)
    |>.field (.defaulted "level" parts.string default.level)
    |>.field (.defaulted "format" parts.string default.format)

def fromJson : Json.Decoder LoggingSettings := Record.decode (record Json.strict)

def toJson (s : LoggingSettings) : Json :=
  .obj [("level", .str s.level), ("format", .str s.format)]

end LoggingSettings

structure Settings where
  server : ServerSettings
  database : Option DatabaseConfig
  vasp : VaspConfig
  budget : HoldPolicy
  logging : LoggingSettings
  deriving DecidableEq

namespace Settings

/-- A section that is missing has its defaults. Inside a section some settings are needed. -/
def record {V : Type} [Nullable V] (parts : Parts V) (decimal : Reader V Decimal)
    (env : Environment) : Record V Settings :=
  (build Settings.mk)
    |>.field (.defaulted "server" (parts.record (ServerSettings.record parts)) .default)
    |>.field (.omissible "database" (parts.record (DatabaseConfig.record parts)))
    |>.field (.defaulted "vasp" (parts.record (VaspConfig.record parts)) (.default env))
    |>.field (.defaulted "budget" (parts.record (HoldPolicy.record decimal)) .exact)
    |>.field (.defaulted "logging" (parts.record (LoggingSettings.record parts)) .default)

def fromJson (env : Environment) : Json.Decoder Settings :=
  Record.decode (record Json.strict Decimal.fromJson env)

def toJson (s : Settings) : Json :=
  .obj [("server", s.server.toJson), ("database", .opt DatabaseConfig.toJson s.database),
    ("vasp", s.vasp.toJson), ("budget", s.budget.toJson), ("logging", s.logging.toJson)]

end Settings

end WalletBudget

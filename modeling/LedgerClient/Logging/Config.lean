import LedgerClient.Config.Environment
import LedgerClient.Text.LetterCase
import LedgerClient.Value.Conversion

/-!
# Logging settings

The settings come from the caller or from the environment. A level is named in any case; a name
that is no level stands for the informational one.
-/

namespace LedgerClient

structure LoggingConfig where
  file : Value
  level : Value
  format : Value
  console : Value
  maxBytes : Value
  backupCount : Value

namespace LoggingConfig

def settingNames : List String :=
  ["log_file", "log_level", "log_format", "console_output", "max_bytes", "backup_count"]

def defaultFormat : String := "%(asctime)s - %(name)s - %(levelname)s - %(message)s"

def numberSetting (given : List (String × Value)) (key : String) (env : Environment) (name : String)
    (default : Int) : Setting Value :=
  match given.lookup key with
  | some v => ⟨v, []⟩
  | none =>
    let s := env.int name default
    ⟨.int s.value, s.warnings⟩

/-- Settings given by name, the others from the environment. -/
def build (env : Environment) (given : List (String × Value)) : List String × Result LoggingConfig :=
  if given.any fun g => !settingNames.contains g.1 then ([], .error (.fault .wrongType))
  else
    let text (key name default : String) : Value :=
      (given.lookup key).getD (.text ((env.text? name).getD default))
    let maxBytes := numberSetting given "max_bytes" env "LOG_MAX_BYTES" 10485760
    let backupCount := numberSetting given "backup_count" env "LOG_BACKUP_COUNT" 5
    (maxBytes.warnings ++ backupCount.warnings,
      .ok ⟨text "log_file" "LOG_FILE" "", text "log_level" "LOG_LEVEL" "INFO",
        text "log_format" "LOG_FORMAT" defaultFormat,
        (given.lookup "console_output").getD (.bool (env.bool "LOG_CONSOLE" true)),
        maxBytes.value, backupCount.value⟩)

/-- Names that stand for a number of their own. Two names stand for something else and are no
levels: a format, and a table of styles. -/
def levelOf (name : String) : Value :=
  match Text.upper name with
  | "CRITICAL" | "FATAL" => .int 50
  | "ERROR" => .int 40
  | "WARNING" | "WARN" => .int 30
  | "INFO" => .int 20
  | "DEBUG" => .int 10
  | "NOTSET" => .int 0
  | "BASIC_FORMAT" => .text "%(levelname)s:%(name)s:%(message)s"
  | "_STYLES" => .dict []
  | _ => .int 20

/-- What the level's name stands for. -/
def levelValue (c : LoggingConfig) : Except Fault Value :=
  match c.level with
  | .text s => .ok (levelOf s)
  | .torn t => .ok (levelOf t.mended)
  | .bytes _ | .buffer _ => .error .wrongType
  | _ => .error .noAttribute

/-- The level as a number. -/
def levelNumber (c : LoggingConfig) : Except Fault Int := do
  match ← c.levelValue with
  | .int n => return n
  | .text _ => .error .badValue
  | _ => .error .wrongType

end LoggingConfig

end LedgerClient

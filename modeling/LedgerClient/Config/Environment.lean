import LedgerClient.Number.Floating
import LedgerClient.Number.Integer
import LedgerClient.Number.Shortest
import LedgerClient.Text.LetterCase

/-!
# Environments

An environment maps names to texts. A setting is read from it with a default: an unset variable
takes the default, and so does a text setting that is set to nothing. A number that cannot be read
takes the default with a warning.
-/

namespace LedgerClient

abbrev Environment := List (String × String)

/-- A setting together with the warnings that reading it gave. -/
structure Setting (α : Type) where
  value : α
  warnings : List String

namespace Environment

def get? (env : Environment) (name : String) : Option String := env.lookup name

/-- A variable set to nothing counts as unset. -/
def text? (env : Environment) (name : String) : Option String :=
  (env.get? name).filter fun s => !s.isEmpty

def unreadable (kind name given default : String) : String :=
  "Invalid " ++ kind ++ " value for " ++ name ++ "='" ++ given ++ "', using default=" ++ default

def number {α : Type} (env : Environment) (kind name : String) (read : String → Option α)
    (shown : α → String) (default : α) : Setting α :=
  match env.get? name with
  | none => ⟨default, []⟩
  | some given =>
    match read given with
    | some a => ⟨a, []⟩
    | none => ⟨default, [unreadable kind name given (shown default)]⟩

def float (env : Environment) (name : String) (default : Float) : Setting Float :=
  env.number "float" name Floating.read? Shortest.text default

def int (env : Environment) (name : String) (default : Int) : Setting Int :=
  env.number "int" name (Integer.read? 10) Integer.decimal default

/-- Four words switch a setting on; any other word switches it off. -/
def bool (env : Environment) (name : String) (default : Bool) : Bool :=
  match env.get? name with
  | none => default
  | some given => ["true", "1", "yes", "on"].contains (Text.lower given)

theorem number_unset {α : Type} {env : Environment} {name : String} (kind : String)
    (read : String → Option α) (shown : α → String) (default : α) (h : env.get? name = none) :
    env.number kind name read shown default = ⟨default, []⟩ := by
  simp [number, h]

/-- Adds a variable unless one of its name is set. -/
def addUnset (env : Environment) (name given : String) : Environment :=
  match env.get? name with
  | some _ => env
  | none => env ++ [(name, given)]

theorem addUnset_of_set {env : Environment} {name s : String} (given : String)
    (h : env.get? name = some s) : env.addUnset name given = env := by
  simp [addUnset, h]

end Environment

end LedgerClient

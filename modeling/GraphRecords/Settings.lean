import GraphRecords.Text.Blank

/-!
# Settings

Settings that all models share, and how they are read from environment variables.
-/

namespace GraphRecords

structure Settings where
  /-- Hooks that may be in flight at once where the adapter sets no bound. -/
  hookConcurrency : Nat := 16
  /-- Records may hold only keys that their model recognizes. -/
  strictAttributes : Bool := true
  deriving Repr, DecidableEq, Inhabited

inductive SettingsError where
  | invalidValue (field value expected : String)
  | noConcurrency
  deriving Repr, DecidableEq

def SettingsError.message : SettingsError → String
  | .invalidValue field value expected =>
      s!"Invalid value for field '{field}': '{value}'. Expected: {expected}"
  | .noConcurrency =>
      "Configuration validation failed: hook_concurrency must be at least 1"

namespace Settings

def validate (settings : Settings) : Except SettingsError Unit :=
  if settings.hookConcurrency = 0 then .error .noConcurrency else .ok ()

/-- An unsigned 64-bit number in decimal digits, with at most one plus sign before them. -/
def readNatural? (text : String) : Option Nat :=
  let digits := match text.toList with
    | '+' :: rest => rest
    | cs => cs
  let value := digits.foldl (fun acc c => acc * 10 + (c.toNat - '0'.toNat)) 0
  if !digits.isEmpty && digits.all Char.isDigit && value < UInt64.size then some value else none

def readFlag? : String → Option Bool
  | "true" => some true
  | "false" => some false
  | _ => none

def hookConcurrencyVariable : String := "ELIF_ORM_HOOK_CONCURRENCY"

def strictAttributesVariable : String := "ELIF_ORM_STRICT_ATTRIBUTES"

/-- A variable that is unset leaves the default; the blanks around a value do not count. -/
def readVariable {α : Type} (environment : String → Option String) (name expected : String)
    (read : String → Option α) (default : α) : Except SettingsError α :=
  match environment name with
  | none => .ok default
  | some raw =>
      match read (trimBlank raw) with
      | some value => .ok value
      | none => .error (.invalidValue name raw expected)

def ofEnvironment (environment : String → Option String) : Except SettingsError Settings := do
  let defaults : Settings := {}
  let hookConcurrency ← readVariable environment hookConcurrencyVariable "positive integer"
    readNatural? defaults.hookConcurrency
  let strictAttributes ← readVariable environment strictAttributesVariable "true or false"
    readFlag? defaults.strictAttributes
  let settings : Settings := { hookConcurrency, strictAttributes }
  settings.validate
  .ok settings

end Settings

end GraphRecords

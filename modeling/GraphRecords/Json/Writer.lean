import GraphRecords.Json.Basic
import GraphRecords.Number.Shortest

/-!
# JSON text

Compact text: no blanks, keys in order, and only quotes, backslashes and control characters
below the blank escaped.
-/

namespace GraphRecords

def Number.render : Number → String
  | .int value => toString value
  | .float value => value.render

namespace Json

def hexDigit (n : Nat) : Char := Nat.digitChar n

def escape (c : Char) : List Char :=
  match c with
  | '"' => ['\\', '"']
  | '\\' => ['\\', '\\']
  | '\u0008' => ['\\', 'b']
  | '\u000c' => ['\\', 'f']
  | '\n' => ['\\', 'n']
  | '\r' => ['\\', 'r']
  | '\t' => ['\\', 't']
  | c =>
      if c.toNat < 0x20 then
        ['\\', 'u', '0', '0', hexDigit (c.toNat / 16), hexDigit (c.toNat % 16)]
      else [c]

/-- A text between quotes. -/
def quote (text : String) : String :=
  "\"" ++ String.ofList (text.toList.flatMap escape) ++ "\""

mutual

/-- The compact text of a value. -/
def render : Json → String
  | .null => "null"
  | .bool true => "true"
  | .bool false => "false"
  | .num value => value.render
  | .str value => quote value
  | .arr items => "[" ++ ",".intercalate (renderItems items) ++ "]"
  | .obj ⟨fields⟩ => "\x7b" ++ ",".intercalate (renderFields fields) ++ "\x7d"

def renderItems : List Json → List String
  | [] => []
  | item :: rest => item.render :: renderItems rest

def renderFields : List (String × Json) → List String
  | [] => []
  | (key, value) :: rest => (quote key ++ ":" ++ value.render) :: renderFields rest

end

end Json

end GraphRecords

import Reshape.Json.Basic
import Reshape.Number.Numeral

/-! JSON values as text, without any space between the parts. -/
namespace Reshape.Json

/-- Two hexadecimal digits of a small code. -/
def hexPair (code : Nat) : List Char := [Nat.digitChar (code / 16), Nat.digitChar (code % 16)]

/-- How one character stands inside a JSON text. -/
def escape (c : Char) : List Char :=
  match c with
  | '"' => ['\\', '"']
  | '\\' => ['\\', '\\']
  | '\x08' => ['\\', 'b']
  | '\x0c' => ['\\', 'f']
  | '\n' => ['\\', 'n']
  | '\r' => ['\\', 'r']
  | '\t' => ['\\', 't']
  | c => if c.toNat < 0x20 then ['\\', 'u', '0', '0'] ++ hexPair c.toNat else [c]

/-- A text between quotes. -/
def writeText (text : String) : String :=
  .ofList ('"' :: text.toList.flatMap escape ++ ['"'])

mutual

/-- The text of a value. -/
def write : Json → String
  | .null => "null"
  | .boolean b => if b then "true" else "false"
  | .integer n => toString n
  | .decimal x => Number.scientific x
  | .text s => writeText s
  | .list items => "[" ++ ",".intercalate (writeItems items) ++ "]"
  | .object fields => "\x7b" ++ ",".intercalate (writeFields fields) ++ "\x7d"

/-- The texts of list items. -/
def writeItems : List Json → List String
  | [] => []
  | item :: items => write item :: writeItems items

/-- The texts of object fields. -/
def writeFields : List (String × Json) → List String
  | [] => []
  | (name, value) :: fields => (writeText name ++ ":" ++ write value) :: writeFields fields

end

end Reshape.Json

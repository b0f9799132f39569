import Reshape.Text.Printable

/-! Quoted texts, as they stand in programs and messages: a text between
double quotes in which the quote, the backslash and every character that is
not shown as it is have an escape of their own. -/
namespace Reshape.Text

/-- How one character stands between the quotes. -/
def escape (c : Char) : List Char :=
  match c with
  | '"' => ['\\', '"']
  | '\\' => ['\\', '\\']
  | '\n' => ['\\', 'n']
  | '\r' => ['\\', 'r']
  | '\t' => ['\\', 't']
  | '\x00' => ['\\', '0']
  | c =>
    if isShown c then [c]
    else '\\' :: 'u' :: '\x7b' :: Nat.toDigits 16 c.toNat ++ ['\x7d']

/-- The text between double quotes. -/
def quoted (text : String) : String :=
  .ofList ('"' :: text.toList.flatMap escape ++ ['"'])

end Reshape.Text

/-! Cutting a text at a separator, which belongs to none of the parts. -/
namespace Reshape.Text

/-- The characters that separate the parts of a text. -/
def separators : List Char := ['-', '_', ' ']

/-- The separator that joins united texts. -/
def uniteSeparator : Char := '_'

/-- Whether a text has one of the separators. -/
def hasSeparator (text : String) : Bool := text.toList.any (· ∈ separators)

/-- Cuts at the first character with a property. -/
def splitFirst? (p : Char → Bool) : List Char → Option (List Char × List Char)
  | [] => none
  | c :: rest =>
    if p c then some ([], rest)
    else (splitFirst? p rest).map fun (left, right) => (c :: left, right)

/-- Cuts at the last character with a property. -/
def splitLast? (p : Char → Bool) (text : List Char) : Option (List Char × List Char) :=
  (splitFirst? p text.reverse).map fun (right, left) => (left.reverse, right.reverse)

/-- The parts of a text between all occurrences of a character. -/
def parts (separator : Char) : List Char → List (List Char)
  | [] => [[]]
  | c :: rest =>
    if c = separator then [] :: parts separator rest
    else match parts separator rest with
      | first :: others => (c :: first) :: others
      | [] => [[c]]

end Reshape.Text

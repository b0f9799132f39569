import Mathlib.Data.List.Forall2
import Reshape.Program.Basic
import Reshape.Proofs.NumberTexts
import Reshape.Proofs.TextParts

/-! Texts of arguments. Each argument shows where it ends: a word at the comma or
parenthesis behind it, a list at its bracket, a quoted text at its closing quote,
whatever it quotes. What an argument means depends on its position, for a column may
be spelled like a number, and a comparison like a text; but in one position, arguments
that are written alike have the same value. -/
namespace Reshape

/-- The kinds of arguments that the positions of operators take. -/
inductive Slot where
  | column
  | columns
  | comparison
  | arithmetic
  | aggregate
  /-- The rows, or a column. -/
  | target
  | constant
deriving DecidableEq, Repr

theorem Operator.name_injective : Function.Injective Operator.name := by
  intro op op' same
  cases op <;> cases op' <;> first | rfl | exact absurd same (by decide)

/-- What an operator takes at each position. -/
def Operator.slots : Operator → List Slot
  | .select | .gather | .gatherNeg => [.columns]
  | .separate | .cumsum => [.column]
  | .spread => [.column, .column]
  | .unite => [.column, .column, .constant]
  | .filter | .mutateCustom => [.column, .comparison, .constant]
  | .groupSum => [.columns, .target, .aggregate]
  | .mutate => [.column, .arithmetic, .column]

theorem Operator.slots_length (op : Operator) : op.slots.length = op.arity := by
  cases op <;> rfl

/-- Whether a position takes an argument. It may always be left open. -/
inductive Slot.Takes : Slot → Argument → Prop
  | hole {slot : Slot} : Takes slot .hole
  | column {c : Nat} : Takes .column (.column c)
  | columns {cs : List Nat} : Takes .columns (.columns cs)
  | comparison {op : Comparison} : Takes .comparison (.comparison op)
  | arithmetic {op : Arithmetic} : Takes .arithmetic (.arithmetic op)
  | aggregate {f : Aggregate} : Takes .aggregate (.aggregate f)
  | rows : Takes .target .rows
  | target {c : Nat} : Takes .target (.column c)
  | constant {cell : Cell} : Takes .constant (.constant cell)

/-- Whether a step has an argument of the right kind at each position. -/
def Step.WellKinded (step : Step) : Prop :=
  List.Forall₂ Slot.Takes step.operator.slots step.arguments

theorem Step.WellKinded.arity {step : Step} (kinded : step.WellKinded) :
    step.arguments.length = step.operator.arity :=
  kinded.length_eq.symm.trans step.operator.slots_length

/-- The characters behind an argument. -/
def endsArgument (c : Char) : Bool := c = ',' || c = ')'

/-- What follows an argument. -/
def FollowsArgument (text : List Char) : Prop :=
  ∃ c rest, text = c :: rest ∧ endsArgument c = true

/-- The characters that no word has: those behind it, and those that begin other
texts. -/
def isOutsideWords (c : Char) : Bool := endsArgument c || c = '"' || c = '['

/-- The texts of arguments. -/
inductive Token : List Char → Prop
  | word {text : List Char} (plain : ∀ c ∈ text, isOutsideWords c = false) : Token text
  | quoted (s : String) : Token (Text.quoted s).toList
  | listed {inner : List Char} (plain : ∀ c ∈ inner, c ≠ ']') : Token ('[' :: inner ++ [']'])

namespace Token

variable {text text' : List Char}

/-- A word begins like no other token. -/
theorem word_ne {c : Char} {rest behind : List Char} (plain : ∀ c ∈ text, isOutsideWords c = false)
    (follows : FollowsArgument behind) (begins : isOutsideWords c = true)
    (endless : endsArgument c = false) : text ++ behind ≠ c :: rest := by
  intro same
  cases text with
  | nil =>
    obtain ⟨d, rest, rfl, ends⟩ := follows
    rw [(List.cons.inj same).1, endless] at ends
    cases ends
  | cons d text =>
    rw [← (List.cons.inj same).1, plain d List.mem_cons_self] at begins
    cases begins

theorem word_inj {behind behind' : List Char} (plain : ∀ c ∈ text, isOutsideWords c = false)
    (plain' : ∀ c ∈ text', isOutsideWords c = false) (follows : FollowsArgument behind)
    (follows' : FollowsArgument behind') (same : text ++ behind = text' ++ behind') :
    text = text' ∧ behind = behind' := by
  obtain ⟨c, rest, rfl, ends⟩ := follows
  obtain ⟨c', rest', rfl, ends'⟩ := follows'
  have inside {l : List Char} (plain : ∀ c ∈ l, isOutsideWords c = false) :
      ∀ c ∈ l, endsArgument c = false := by
    intro c member
    have outside := plain c member
    simp only [isOutsideWords, Bool.or_eq_false_iff] at outside
    exact outside.1.1
  exact Text.cut_inj endsArgument (inside plain) (inside plain') ends ends' same

theorem listed_inj {inner inner' behind behind' : List Char} (plain : ∀ c ∈ inner, c ≠ ']')
    (plain' : ∀ c ∈ inner', c ≠ ']')
    (same : inner ++ ']' :: behind = inner' ++ ']' :: behind') :
    inner = inner' ∧ behind = behind' := by
  obtain ⟨parts, ends⟩ := Text.cut_inj (· = ']')
    (fun c member => decide_eq_false (plain c member))
    (fun c member => decide_eq_false (plain' c member)) (decide_eq_true rfl)
    (decide_eq_true rfl) same
  exact ⟨parts, (List.cons.inj ends).2⟩

/-- **A token shows where it ends**, before a comma or a parenthesis. -/
theorem append_inj {behind behind' : List Char} (token : Token text) (token' : Token text')
    (follows : FollowsArgument behind) (follows' : FollowsArgument behind')
    (same : text ++ behind = text' ++ behind') : text = text' ∧ behind = behind' := by
  cases token with
  | word plain =>
    cases token' with
    | word plain' => exact word_inj plain plain' follows follows' same
    | quoted s =>
      rw [Text.quoted_to_list, List.cons_append] at same
      exact absurd same (word_ne plain follows rfl rfl)
    | listed _ =>
      rw [List.cons_append, List.cons_append] at same
      exact absurd same (word_ne plain follows rfl rfl)
  | quoted s =>
    cases token' with
    | word plain =>
      rw [Text.quoted_to_list, List.cons_append] at same
      exact absurd same.symm (word_ne plain follows' rfl rfl)
    | quoted s' =>
      obtain ⟨rfl, ends⟩ := Text.quoted_append_inj same
      exact ⟨rfl, ends⟩
    | listed _ =>
      rw [Text.quoted_to_list] at same
      exact absurd (List.cons.inj same).1 (by decide)
  | listed plain =>
    cases token' with
    | word plain' =>
      rw [List.cons_append, List.cons_append] at same
      exact absurd same.symm (word_ne plain' follows' rfl rfl)
    | quoted s' =>
      rw [Text.quoted_to_list] at same
      exact absurd (List.cons.inj same).1 (by decide)
    | listed plain' =>
      simp only [List.cons_append, List.append_assoc, List.nil_append, List.cons.injEq,
        true_and] at same
      obtain ⟨rfl, ends⟩ := listed_inj plain plain' same
      exact ⟨rfl, ends⟩

end Token

/-- No number has one of the characters outside words. -/
theorem inside_of_number {c : Char} (number : Number.isNumberChar c = true) :
    isOutsideWords c = false := by
  cases outside : isOutsideWords c with
  | false => rfl
  | true =>
    simp only [isOutsideWords, endsArgument, Bool.or_eq_true, decide_eq_true_eq] at outside
    rcases outside with ((rfl | rfl) | rfl) | rfl <;> cases number

theorem number_of_digit {c : Char} (digit : c.isDigit = true) : Number.isNumberChar c = true := by
  rw [Number.isNumberChar, digit, Bool.true_or]

theorem nat_number_chars (n : Nat) : ∀ c ∈ (toString n).toList, Number.isNumberChar c = true :=
  fun _ member =>
    number_of_digit (Number.digit_of_mem_digits (Nat.toList_repr (n := n) ▸ member))

/-- A text with another character is of no number. -/
theorem number_text_ne {text text' : String} {c : Char}
    (number : ∀ c ∈ text.toList, Number.isNumberChar c = true) (other : c ∈ text'.toList)
    (strange : Number.isNumberChar c = false) : text ≠ text' := by
  rintro rfl
  rw [number c other] at strange
  cases strange

theorem quote_mem_quoted (s : String) : '"' ∈ (Text.quoted s).toList := by
  rw [Text.quoted_to_list]
  exact List.mem_cons_self

theorem quoted_injective : Function.Injective Text.quoted := fun _ _ same =>
  (Text.quoted_append_inj (congrArg (String.toList · ++ []) same)).1

/-- Cells that are written alike have the same value. -/
theorem Cell.canonical_of_literal {x y : Cell} (same : x.literal = y.literal) :
    x.canonical = y.canonical := by
  have numeric (x : Float) := Number.positional_number_chars (Number.canonical x)
  have boolean (b : Bool) : ∃ c ∈ (Cell.boolean b).literal.toList,
      Number.isNumberChar c = false ∧ '"' ∉ (Cell.boolean b).literal.toList := by
    cases b <;> exact List.any_iff_exists_prop.mp (by decide)
  cases x with
  | text s =>
    cases y with
    | text s' => exact congrArg Cell.text (quoted_injective same)
    | number y => exact absurd same.symm (number_text_ne (numeric y) (quote_mem_quoted s) rfl)
    | boolean b =>
      obtain ⟨-, -, -, unquoted⟩ := boolean b
      exact absurd (same ▸ quote_mem_quoted s) unquoted
  | number x =>
    cases y with
    | text s' => exact absurd same (number_text_ne (numeric x) (quote_mem_quoted s') rfl)
    | number y => exact congrArg Cell.number (Number.positional_injective same)
    | boolean b =>
      obtain ⟨c, member, strange, -⟩ := boolean b
      exact absurd same (number_text_ne (numeric x) member strange)
  | boolean b =>
    cases y with
    | text s' =>
      obtain ⟨-, -, -, unquoted⟩ := boolean b
      exact absurd (same ▸ quote_mem_quoted s') unquoted
    | number y =>
      obtain ⟨c, member, strange, -⟩ := boolean b
      exact absurd same.symm (number_text_ne (numeric y) member strange)
    | boolean b' =>
      cases b <;> cases b'
      · rfl
      · exact absurd same (by decide)
      · exact absurd same (by decide)
      · rfl

/-- What separates the arguments of an operator. -/
def comma : List Char := [',', ' ']

/-- The columns of a list, as they stand between its brackets. -/
def listedColumns (cs : List Nat) : List Char := comma.intercalate (cs.map (Nat.toDigits 10))

theorem columns_display (cs : List Nat) :
    (Argument.columns cs).display.toList = '[' :: listedColumns cs ++ [']'] := by
  have digits : cs.map (String.toList ∘ toString) = cs.map (Nat.toDigits 10) :=
    List.map_congr_left fun c _ => Nat.toList_repr
  simp only [Argument.display, String.toList_append, String.toList_intercalate, List.map_map,
    digits]
  rfl

theorem digits_injective : Function.Injective (Nat.toDigits 10) := fun m n same => by
  rw [← Nat.ofDigitChars_ten_toDigits (n := m), same, Nat.ofDigitChars_ten_toDigits]

/-- What follows digits. -/
def FollowsDigits (text : List Char) : Prop := ∃ c rest, text = c :: rest ∧ c.isDigit = false

/-- The digits of a number are told from what follows them. -/
theorem digits_append_inj {m n : Nat} {behind behind' : List Char} (follows : FollowsDigits behind)
    (follows' : FollowsDigits behind')
    (same : Nat.toDigits 10 m ++ behind = Nat.toDigits 10 n ++ behind') :
    Nat.toDigits 10 m = Nat.toDigits 10 n ∧ behind = behind' := by
  obtain ⟨c, rest, rfl, ends⟩ := follows
  obtain ⟨c', rest', rfl, ends'⟩ := follows'
  have inside {k : Nat} : ∀ c ∈ Nat.toDigits 10 k, (!c.isDigit) = false := fun c member => by
    rw [Number.digit_of_mem_digits member, Bool.not_true]
  exact Text.cut_inj (fun c => !c.isDigit) inside inside (by rw [ends, Bool.not_false])
    (by rw [ends', Bool.not_false]) same

/-- Every argument is written as a token. -/
theorem Argument.token (argument : Argument) : Token argument.display.toList := by
  cases argument with
  | hole => exact .word (List.all_iff_forall_prop.mp (by decide))
  | column c => exact .word fun d member => inside_of_number (nat_number_chars c d member)
  | columns cs =>
    rw [columns_display]
    refine .listed fun c member => ?_
    rintro rfl
    cases cs with
    | nil => cases member
    | cons first others =>
      rw [listedColumns, List.map_cons, Text.intercalate_cons, List.flatMap_map] at member
      rcases List.mem_append.mp member with here | later
      · exact absurd (Number.digit_of_mem_digits here) (by decide)
      · obtain ⟨n, -, later⟩ := List.mem_flatMap.mp later
        rcases List.mem_append.mp later with separator | later
        · exact absurd separator (by decide)
        · exact absurd (Number.digit_of_mem_digits later) (by decide)
  | comparison op => exact .quoted _
  | arithmetic op => exact .quoted _
  | aggregate f => exact .quoted _
  | rows => exact .word (List.all_iff_forall_prop.mp (by decide))
  | constant cell =>
    cases cell with
    | text s => exact .quoted s
    | number x =>
      exact .word fun c member => inside_of_number (Number.positional_number_chars _ c member)
    | boolean b => cases b <;> exact .word (List.all_iff_forall_prop.mp (by decide))

/-- Lists of columns that are written alike are the same. -/
theorem columns_injective {cs cs' : List Nat}
    (same : (Argument.columns cs).display = (Argument.columns cs').display) : cs = cs' := by
  have texts := congrArg String.toList same
  rw [columns_display, columns_display] at texts
  obtain ⟨-, texts⟩ := List.cons.inj texts
  have nonempty {n : Nat} {others : List (List Char)} :
      comma.intercalate (Nat.toDigits 10 n :: others) ≠ [] := by
    rw [Text.intercalate_cons]
    exact List.append_ne_nil_of_left_ne_nil Nat.toDigits_ne_nil _
  have inner : listedColumns cs = listedColumns cs' := List.append_cancel_right texts
  cases cs with
  | nil =>
    cases cs' with
    | nil => rfl
    | cons n others => exact absurd inner.symm nonempty
  | cons n others =>
    cases cs' with
    | nil => exact absurd inner nonempty
    | cons n' others' =>
      have joined : comma.intercalate ((n :: others).map (Nat.toDigits 10)) ++ [']'] =
          comma.intercalate ((n' :: others').map (Nat.toDigits 10)) ++ [']'] := texts
      refine List.map_injective_iff.mpr digits_injective (Text.intercalate_inj FollowsDigits
        (List.cons_ne_nil _ _) (List.cons_ne_nil _ _) (fun x => ⟨',', _, rfl, by decide⟩)
        ⟨']', [], rfl, by decide⟩ ⟨']', [], rfl, by decide⟩ (by simp [comma]) (by simp [comma])
        ?_ joined).1
      intro a here b there x y follows follows' equal
      obtain ⟨m, -, rfl⟩ : ∃ m ∈ n :: others, Nat.toDigits 10 m = a := List.mem_map.mp here
      obtain ⟨m', -, rfl⟩ : ∃ m ∈ n' :: others', Nat.toDigits 10 m = b := List.mem_map.mp there
      exact digits_append_inj follows follows' equal

/-- An open argument is written like no other. -/
theorem Argument.hole_of_display {argument : Argument} (same : argument.display = "??") :
    argument = .hole := by
  have texts := congrArg String.toList same
  have quoted (s : String) : Text.quoted s ≠ "??" := fun same =>
    absurd (same ▸ quote_mem_quoted s) (by decide)
  cases argument with
  | hole => rfl
  | column c => exact absurd same (number_text_ne (nat_number_chars c) (c := '?') (by decide) rfl)
  | columns cs =>
    rw [columns_display] at texts
    exact absurd (List.cons.inj texts).1 (by decide)
  | comparison op => exact absurd same (quoted _)
  | arithmetic op => exact absurd same (quoted _)
  | aggregate f => exact absurd same (quoted _)
  | rows => exact absurd same (by decide)
  | constant cell =>
    cases cell with
    | text s => exact absurd same (quoted s)
    | number x =>
      exact absurd same (number_text_ne (Number.positional_number_chars _) (c := '?') (by decide) rfl)
    | boolean b => cases b <;> exact absurd same (by decide)

theorem Comparison.symbol_injective : Function.Injective Comparison.symbol := by
  intro op op' same
  cases op <;> cases op' <;> first | rfl | exact absurd same (by decide)

theorem Arithmetic.symbol_injective : Function.Injective Arithmetic.symbol := by
  intro op op' same
  cases op <;> cases op' <;> first | rfl | exact absurd same (by decide)

theorem Aggregate.name_injective : Function.Injective Aggregate.name := by
  intro f f' same
  cases f <;> cases f' <;> first | rfl | exact absurd same (by decide)

theorem column_injective {c c' : Nat}
    (same : (Argument.column c).display = (Argument.column c').display) : c = c' := by
  refine digits_injective ?_
  rw [← Nat.toList_repr, ← Nat.toList_repr]
  exact congrArg String.toList same

theorem rows_ne_column (c : Nat) : (Argument.column c).display ≠ Argument.rows.display :=
  number_text_ne (nat_number_chars c) (c := '*') (by decide) rfl

/-- Arguments of one position that are written alike have the same value. -/
theorem Slot.Takes.canonical_eq {slot : Slot} {a b : Argument} (takes : slot.Takes a)
    (takes' : slot.Takes b) (same : a.display = b.display) : a.canonical = b.canonical := by
  -- An open argument reads like no other, so either both are open or neither is.
  have left := fun here : a = .hole => Argument.hole_of_display (same.symm.trans (here ▸ rfl))
  have right := fun here : b = .hole => Argument.hole_of_display (same.trans (here ▸ rfl))
  cases takes with
  | hole => rw [left rfl]
  | column =>
    cases takes' with
    | hole => exact absurd (right rfl) nofun
    | column => rw [column_injective same]
  | columns =>
    cases takes' with
    | hole => exact absurd (right rfl) nofun
    | columns => rw [columns_injective same]
  | comparison =>
    cases takes' with
    | hole => exact absurd (right rfl) nofun
    | comparison => rw [Comparison.symbol_injective (quoted_injective same)]
  | arithmetic =>
    cases takes' with
    | hole => exact absurd (right rfl) nofun
    | arithmetic => rw [Arithmetic.symbol_injective (quoted_injective same)]
  | aggregate =>
    cases takes' with
    | hole => exact absurd (right rfl) nofun
    | aggregate => rw [Aggregate.name_injective (quoted_injective same)]
  | rows =>
    cases takes' with
    | hole => exact absurd (right rfl) nofun
    | rows => rfl
    | target => exact absurd same.symm (rows_ne_column _)
  | target =>
    cases takes' with
    | hole => exact absurd (right rfl) nofun
    | rows => exact absurd same (rows_ne_column _)
    | target => rw [column_injective same]
  | constant =>
    cases takes' with
    | hole => exact absurd (right rfl) nofun
    | constant => exact congrArg Argument.constant (Cell.canonical_of_literal same)

/-- Steps of one operator whose arguments are written alike have the same value. -/
theorem Step.canonical_eq {step step' : Step} (kinded : step.WellKinded)
    (kinded' : step'.WellKinded) (operator : step.operator = step'.operator)
    (same : step.arguments.map Argument.display = step'.arguments.map Argument.display) :
    step.canonical = step'.canonical := by
  rw [Step.WellKinded, ← operator] at kinded'
  have arguments : step.arguments.map Argument.canonical =
      step'.arguments.map Argument.canonical := by
    rw [Step.WellKinded] at kinded
    generalize step.arguments = arguments at kinded same ⊢
    generalize step'.arguments = arguments' at kinded' same ⊢
    generalize step.operator.slots = slots at kinded kinded'
    induction kinded generalizing arguments' with
    | nil =>
      cases kinded'
      rfl
    | cons takes _ ih =>
      cases kinded' with
      | cons takes' others =>
        obtain ⟨here, later⟩ := List.cons.inj same
        rw [List.map_cons, List.map_cons, takes.canonical_eq takes' here, ih _ later others]
  rw [Step.canonical, Step.canonical, arguments, operator]

end Reshape

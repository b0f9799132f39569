import Mathlib.Data.Nat.Basic
import Reshape.Text.Quoted

/-! Texts that show where they end. A part without a certain character ends at the
first such character behind it, and parts that show where they end can be told from
a text that joins them. A quoted text may hold every character, but none that looks
like its closing quote, because the quote and the backslash have escapes. So
whatever follows a quoted text, it can be told from the text. -/
namespace Reshape.Text

/-- Parts without a character that ends them are told from what follows. -/
theorem cut_inj (stop : Char → Bool) {front front' : List Char} {c c' : Char}
    {behind behind' : List Char} (plain : ∀ d ∈ front, stop d = false)
    (plain' : ∀ d ∈ front', stop d = false) (stops : stop c = true) (stops' : stop c' = true)
    (same : front ++ c :: behind = front' ++ c' :: behind') :
    front = front' ∧ c :: behind = c' :: behind' := by
  induction front generalizing front' with
  | nil =>
    cases front' with
    | nil => exact ⟨rfl, same⟩
    | cons d rest =>
      obtain rfl := (List.cons.inj same).1
      rw [plain' c List.mem_cons_self] at stops
      cases stops
  | cons d front ih =>
    cases front' with
    | nil =>
      obtain rfl := (List.cons.inj same).1
      rw [plain d List.mem_cons_self] at stops'
      cases stops'
    | cons d' front' =>
      obtain ⟨rfl, rest⟩ := List.cons.inj same
      obtain ⟨rfl, ends⟩ := ih (List.forall_mem_cons.mp plain).2
        (List.forall_mem_cons.mp plain').2 rest
      exact ⟨rfl, ends⟩

/-- What joins parts stands in front of every part but the first. -/
theorem intercalate_cons (separator first : List Char) (others : List (List Char)) :
    separator.intercalate (first :: others) = first ++ others.flatMap (separator ++ ·) := by
  induction others generalizing first with
  | nil => simp
  | cons next others ih =>
    rw [List.intercalate_cons_cons, ih, List.flatMap_cons, List.append_assoc, List.append_assoc]

section Joined

variable {separator stop stop' : List Char} {parts parts' : List (List Char)}

/-- Parts that are told from whatever follows them are told from their join. -/
theorem parts_inj (follows : List Char → Prop) (next : ∀ x, follows (separator ++ x))
    (last : follows stop) (last' : follows stop') (apart : ∀ x, stop ≠ separator ++ x)
    (apart' : ∀ x, stop' ≠ separator ++ x)
    (tell : ∀ a ∈ parts, ∀ b ∈ parts', ∀ x y, follows x → follows y → a ++ x = b ++ y →
      a = b ∧ x = y)
    (same : parts.flatMap (separator ++ ·) ++ stop = parts'.flatMap (separator ++ ·) ++ stop') :
    parts = parts' ∧ stop = stop' := by
  -- Behind a part comes a separator, or what follows the whole.
  have rest {l : List (List Char)} {end' : List Char} (last : follows end') :
      follows (l.flatMap (separator ++ ·) ++ end') := by
    cases l with
    | nil => exact last
    | cons a l =>
      rw [List.flatMap_cons, List.append_assoc, List.append_assoc]
      exact next _
  induction parts generalizing parts' with
  | nil =>
    cases parts' with
    | nil => exact ⟨rfl, same⟩
    | cons b parts' =>
      rw [List.flatMap_cons, List.append_assoc, List.append_assoc] at same
      exact absurd same (apart _)
  | cons a parts ih =>
    cases parts' with
    | nil =>
      rw [List.flatMap_cons, List.append_assoc, List.append_assoc] at same
      exact absurd same.symm (apart' _)
    | cons b parts' =>
      simp only [List.flatMap_cons, List.append_assoc, List.append_cancel_left_eq] at same
      obtain ⟨rfl, others⟩ := tell a List.mem_cons_self b List.mem_cons_self _ _ (rest last)
        (rest last') same
      obtain ⟨rfl, ends⟩ := ih (fun a here b there => tell a (List.mem_cons_of_mem _ here) b
        (List.mem_cons_of_mem _ there)) others
      exact ⟨rfl, ends⟩

/-- The same of parts with a separator between them only. -/
theorem intercalate_inj (follows : List Char → Prop) (some : parts ≠ []) (some' : parts' ≠ [])
    (next : ∀ x, follows (separator ++ x)) (last : follows stop) (last' : follows stop')
    (apart : ∀ x, stop ≠ separator ++ x) (apart' : ∀ x, stop' ≠ separator ++ x)
    (tell : ∀ a ∈ parts, ∀ b ∈ parts', ∀ x y, follows x → follows y → a ++ x = b ++ y →
      a = b ∧ x = y)
    (same : separator.intercalate parts ++ stop = separator.intercalate parts' ++ stop') :
    parts = parts' ∧ stop = stop' := by
  refine parts_inj follows next last last' apart apart' tell ?_
  obtain ⟨a, rest, rfl⟩ := List.exists_cons_of_ne_nil some
  obtain ⟨b, rest', rfl⟩ := List.exists_cons_of_ne_nil some'
  rw [intercalate_cons, intercalate_cons, List.append_assoc, List.append_assoc] at same
  simp only [List.flatMap_cons, List.append_assoc, same]

end Joined

theorem digit_char_inj : ∀ m < 16, ∀ n < 16, m.digitChar = n.digitChar → m = n := by decide

/-- Hexadecimal digits tell the number. -/
theorem hex_digits_injective : Function.Injective (Nat.toDigits 16) := by
  intro m
  induction m using Nat.strongRecOn with
  | ind m ih =>
    intro n same
    have single {k : Nat} (c : Char) (large : 16 ≤ k) : Nat.toDigits 16 k ≠ [c] := by
      rw [Nat.toDigits_of_base_le (by decide) large]
      intro short
      have none := List.append_eq_singleton_iff.mp short
      simp [Nat.toDigits_ne_nil] at none
    rcases Nat.lt_or_ge m 16 with small | large <;> rcases Nat.lt_or_ge n 16 with small' | large'
    · rw [Nat.toDigits_of_lt_base small, Nat.toDigits_of_lt_base small'] at same
      exact digit_char_inj m small n small' (List.cons.inj same).1
    · rw [Nat.toDigits_of_lt_base small] at same
      exact absurd same.symm (single _ large')
    · rw [Nat.toDigits_of_lt_base small'] at same
      exact absurd same (single _ large)
    · rw [Nat.toDigits_of_base_le (by decide) large, Nat.toDigits_of_base_le (by decide) large']
        at same
      obtain ⟨front, last⟩ := List.append_inj' same rfl
      have quotients := ih (m / 16) (Nat.div_lt_self (by omega) (by decide)) front
      have remainders := digit_char_inj _ (Nat.mod_lt m (by decide)) _ (Nat.mod_lt n (by decide))
        (List.cons.inj last).1
      omega

theorem digit_char_ne_brace : ∀ n < 16, n.digitChar ≠ '\x7d' := by decide

theorem hex_digits_ne_brace {n : Nat} {c : Char} (member : c ∈ Nat.toDigits 16 n) :
    c ≠ '\x7d' := by
  induction n using Nat.strongRecOn with
  | ind n ih =>
    rcases Nat.lt_or_ge n 16 with small | large
    · rw [Nat.toDigits_of_lt_base small] at member
      rw [List.mem_singleton.mp member]
      exact digit_char_ne_brace n small
    · rw [Nat.toDigits_of_base_le (by decide) large] at member
      rcases List.mem_append.mp member with front | last
      · exact ih (n / 16) (Nat.div_lt_self (by omega) (by decide)) front
      · rw [List.mem_singleton.mp last]
        exact digit_char_ne_brace _ (Nat.mod_lt n (by decide))

/-- The characters whose escape is a letter, with that letter. -/
def letters : List (Char × Char) :=
  [('"', '"'), ('\\', '\\'), ('\n', 'n'), ('\r', 'r'), ('\t', 't'), ('\x00', '0')]

/-- The ways in which a character stands between quotes. -/
inductive Escaped : Char → List Char → Prop
  | shown {c : Char} (notQuote : c ≠ '"') (notBackslash : c ≠ '\\') : Escaped c [c]
  | letter {c l : Char} (listed : (c, l) ∈ letters) : Escaped c ['\\', l]
  | code {c : Char} : Escaped c ('\\' :: 'u' :: '\x7b' :: Nat.toDigits 16 c.toNat ++ ['\x7d'])

/-- A character with a letter for its escape has that one; any other is shown, or
stands as a code. -/
theorem escape_escaped (c : Char) : Escaped c (escape c) := by
  by_cases listed : ∃ l, (c, l) ∈ letters
  · obtain ⟨l, member⟩ := listed
    have written : ∀ p ∈ letters, escape p.1 = ['\\', p.2] := by decide
    rw [written _ member]
    exact .letter member
  · have other : c ∉ letters.map Prod.fst := by simpa using listed
    simp only [letters, List.map_cons, List.map_nil, List.mem_cons, List.not_mem_nil, or_false,
      not_or] at other
    have plain : escape c = if isShown c then [c]
        else '\\' :: 'u' :: '\x7b' :: Nat.toDigits 16 c.toNat ++ ['\x7d'] := by
      simp [escape, other]
    rw [plain]
    split
    · exact .shown other.1 other.2.1
    · exact .code

/-- An escape is told from what follows, and tells its character. -/
theorem Escaped.append_inj {c c' : Char} {text text' behind behind' : List Char}
    (escaped : Escaped c text) (escaped' : Escaped c' text')
    (same : text ++ behind = text' ++ behind') : c = c' ∧ behind = behind' := by
  have listed : ∀ p ∈ letters, p.2 ≠ 'u' ∧ ∀ q ∈ letters, p.2 = q.2 → p.1 = q.1 := by decide
  cases escaped with
  | shown notQuote notBackslash =>
    cases escaped' with
    | shown _ _ => exact List.cons.inj same
    | letter _ | code => exact absurd (List.cons.inj same).1 notBackslash
  | letter member =>
    cases escaped' with
    | shown _ notBackslash => exact absurd (List.cons.inj same).1.symm notBackslash
    | letter member' =>
      obtain ⟨letter, ends⟩ := List.cons.inj (List.cons.inj same).2
      exact ⟨(listed _ member).2 _ member' letter, ends⟩
    | code => exact absurd (List.cons.inj (List.cons.inj same).2).1 (listed _ member).1
  | code =>
    cases escaped' with
    | shown _ notBackslash => exact absurd (List.cons.inj same).1.symm notBackslash
    | letter member =>
      exact absurd (List.cons.inj (List.cons.inj same).2).1.symm (listed _ member).1
    | code =>
      simp only [List.cons_append, List.cons.injEq, true_and, List.append_assoc,
        List.nil_append] at same
      have plain {n : Nat} : ∀ d ∈ Nat.toDigits 16 n, decide (d = '\x7d') = false := fun d member =>
        decide_eq_false (hex_digits_ne_brace member)
      obtain ⟨digits, ends⟩ := cut_inj (· = '\x7d') plain plain (decide_eq_true rfl)
        (decide_eq_true rfl) same
      exact ⟨Char.toNat_inj.mp (hex_digits_injective digits), (List.cons.inj ends).2⟩

/-- No escape begins with the closing quote. -/
theorem Escaped.ne_quote {c : Char} {text behind behind' : List Char} (escaped : Escaped c text) :
    '"' :: behind' ≠ text ++ behind := by
  intro same
  cases escaped with
  | shown notQuote _ => exact notQuote (List.cons.inj same).1.symm
  | letter _ | code => exact absurd (List.cons.inj same).1 (by decide)

/-- Up to the first closing quote there are the escapes of one text only. -/
theorem escapes_append_inj {text text' behind behind' : List Char}
    (same : text.flatMap escape ++ '"' :: behind = text'.flatMap escape ++ '"' :: behind') :
    text = text' ∧ behind = behind' := by
  induction text generalizing text' with
  | nil =>
    cases text' with
    | nil => exact ⟨rfl, (List.cons.inj same).2⟩
    | cons c rest =>
      rw [List.flatMap_cons, List.append_assoc] at same
      exact absurd same (escape_escaped c).ne_quote
  | cons c rest ih =>
    cases text' with
    | nil =>
      rw [List.flatMap_cons, List.append_assoc] at same
      exact absurd same.symm (escape_escaped c).ne_quote
    | cons c' rest' =>
      rw [List.flatMap_cons, List.flatMap_cons, List.append_assoc, List.append_assoc] at same
      obtain ⟨rfl, rest⟩ := (escape_escaped c).append_inj (escape_escaped c') same
      obtain ⟨rfl, ends⟩ := ih rest
      exact ⟨rfl, ends⟩

theorem quoted_to_list (s : String) :
    (quoted s).toList = '"' :: (s.toList.flatMap escape ++ ['"']) :=
  String.toList_ofList

/-- **A quoted text shows where it ends**, and what it quotes. -/
theorem quoted_append_inj {s s' : String} {behind behind' : List Char}
    (same : (quoted s).toList ++ behind = (quoted s').toList ++ behind') :
    s = s' ∧ behind = behind' := by
  simp only [quoted_to_list, List.cons_append, List.append_assoc, List.nil_append,
    List.cons.injEq, true_and] at same
  obtain ⟨texts, ends⟩ := escapes_append_inj same
  exact ⟨String.toList_inj.mp texts, ends⟩

end Reshape.Text

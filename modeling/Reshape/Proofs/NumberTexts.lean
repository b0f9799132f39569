import Mathlib.Data.BitVec
import Mathlib.Data.Bool.AllAny
import Reshape.Number.Numeral
import Reshape.Proofs.Requirements
import Reshape.Proofs.ShortestDecimals

/-! Texts of numbers. A text that is written positionally can be read: its digits
tell a decimal, and the decimal lies in the interval of one number. So different
numbers have different texts, and the two zeros are the only numbers that a
program shows alike. -/
namespace Reshape.Number

variable {x y : Float} {negative : Bool} {mantissa : Nat} {exponent : Int}

/-- An encoding consists of a sign, an exponent and a fraction. -/
theorem bits_split {bits : Nat} (small : bits < 2 ^ 64) :
    bits = (if decide (signBit ≤ bits) then signBit else 0) +
      bits / hiddenBit % 2048 * hiddenBit + bits % hiddenBit := by
  by_cases sign : signBit ≤ bits <;>
    simp only [sign, decide_true, decide_false, if_true, if_false, Bool.false_eq_true] <;>
    simp only [hiddenBit, signBit] at * <;>
    omega

/-- Numbers are taken apart into normal mantissas and exponents, which tell the
encoding. -/
theorem bits_of_finite (finite : exact x = .finite negative mantissa exponent) :
    Normal mantissa exponent ∧ x.toBits.toNat =
      (if negative then signBit else 0) + (exponent - leastExponent).toNat * hiddenBit +
        mantissa := by
  have whole := bits_split x.toBits.toNat_lt
  have fraction : x.toBits.toNat % hiddenBit < hiddenBit := Nat.mod_lt _ (by decide)
  rw [exact] at finite
  split_ifs at finite with special none subnormal
  · obtain ⟨rfl, rfl, rfl⟩ := Exact.finite.inj finite
    refine ⟨⟨by omega, le_rfl, fun more => absurd more (lt_irrefl _)⟩, ?_⟩
    rw [subnormal] at whole
    rw [Int.sub_self]
    exact whole
  · obtain ⟨rfl, rfl, rfl⟩ := Exact.finite.inj finite
    refine ⟨⟨by omega, by omega, fun _ => Nat.le_add_right _ _⟩, ?_⟩
    obtain ⟨n, biased⟩ := Nat.exists_eq_succ_of_ne_zero subnormal
    rw [biased, Nat.succ_mul] at whole
    rw [biased, Nat.succ_sub_one, add_sub_cancel_left, Int.toNat_natCast]
    omega

theorem bits_of_infinite (infinite : exact x = .infinite negative) :
    x.toBits.toNat = (if negative then signBit else 0) + infinityBits := by
  have whole := bits_split x.toBits.toNat_lt
  rw [exact] at infinite
  split_ifs at infinite with special none
  obtain rfl := Exact.infinite.inj infinite
  rwa [special, none] at whole

open Float.Model in
/-- Only one encoding is of no number. -/
theorem bits_of_not_a_number (notNumber : exact x = .notANumber) :
    x.toBits.toBitVec = UnpackedFloat.packedNaN Format.binary64 := by
  have encoded : x.toBits = x.toModel.toBits := rfl
  rw [exact] at notNumber
  split_ifs at notNumber with special fraction
  refine x.toModel.valid.eq_packedNaN ?_ fun none => fraction ?_
  · refine BitVec.eq_of_toNat_eq ?_
    simpa [UnpackedFloat.unpackExponent, Nat.shiftRight_eq_div_pow, hiddenBit, encoded]
      using special
  · have value := congrArg BitVec.toNat none
    simpa [UnpackedFloat.unpackMantissa, hiddenBit, encoded] using value

/-- What is taken apart can be put together again. -/
theorem exact_injective : Function.Injective exact := by
  intro x y same
  cases parts : exact x with
  | notANumber =>
    have encoded := (bits_of_not_a_number parts).trans
      (bits_of_not_a_number (same ▸ parts)).symm
    exact eq_of_bits (congrArg BitVec.toNat encoded)
  | infinite negative =>
    exact eq_of_bits ((bits_of_infinite parts).trans (bits_of_infinite (same ▸ parts)).symm)
  | finite negative mantissa exponent =>
    exact eq_of_bits ((bits_of_finite parts).2.trans (bits_of_finite (same ▸ parts)).2.symm)

/-- The decimal that a positional text stands for. -/
def readPositional (text : List Char) : ℚ :=
  let whole := text.takeWhile (· ≠ '.')
  let fraction := (text.dropWhile (· ≠ '.')).drop 1
  Nat.ofDigitChars 10 (whole ++ fraction) 0 / 10 ^ fraction.length

theorem read_pointed {whole : List Char} (digits : ∀ c ∈ whole, c ≠ '.') (fraction : List Char) :
    readPositional (whole ++ '.' :: fraction) =
      Nat.ofDigitChars 10 (whole ++ fraction) 0 / 10 ^ fraction.length := by
  have before : ∀ c ∈ whole, decide (c ≠ '.') = true := fun c member =>
    decide_eq_true (digits c member)
  rw [readPositional, List.takeWhile_append_of_pos before, List.dropWhile_append_of_pos before]
  simp

theorem read_whole {whole : List Char} (digits : ∀ c ∈ whole, c ≠ '.') :
    readPositional whole = Nat.ofDigitChars 10 whole 0 := by
  have before : ∀ c ∈ whole, decide (c ≠ '.') = true := fun c member =>
    decide_eq_true (digits c member)
  have parts := List.append_nil whole
  rw [readPositional, ← parts, List.takeWhile_append_of_pos before,
    List.dropWhile_append_of_pos before]
  simp

theorem digit_of_mem_digits {n : Nat} {c : Char} (member : c ∈ Nat.toDigits 10 n) :
    c.isDigit = true :=
  Nat.isDigit_of_mem_toDigits (by decide) (by decide) member

theorem digits_value (n : Nat) : Nat.ofDigitChars 10 (digitsOf n) 0 = n :=
  Nat.ofDigitChars_ten_toDigits

theorem digits_ne_point {n : Nat} {c : Char} (member : c ∈ digitsOf n) : c ≠ '.' := by
  rintro rfl
  exact absurd (digit_of_mem_digits member) (by decide)

theorem mem_zeros {count : Nat} {c : Char} (member : c ∈ zeros count) : c = '0' :=
  List.eq_of_mem_replicate member

/-- A decimal reads back from its positional text. -/
theorem read_positional (d : Decimal) : readPositional d.positional = d.value := by
  rw [Decimal.positional, Decimal.value]
  dsimp only
  -- The digits have zeros behind them, the point among them, or zeros in front.
  split_ifs with whole short
  · obtain ⟨n, same⟩ := Int.eq_ofNat_of_zero_le whole
    have plain : ∀ c ∈ digitsOf d.digits ++ zeros d.exponent.toNat, c ≠ '.' := by
      intro c member
      rcases List.mem_append.mp member with digit | zero
      · exact digits_ne_point digit
      · rw [mem_zeros zero]
        decide
    rw [read_whole plain, Nat.ofDigitChars_append, digits_value, zeros,
      Nat.ofDigitChars_replicate_zero, same]
    simp [mul_comm]
  · obtain ⟨n, same⟩ := Int.eq_ofNat_of_zero_le (a := -d.exponent) (by omega)
    obtain same' : d.exponent = -n := by omega
    rw [same, Int.toNat_natCast] at short ⊢
    rw [read_pointed fun c member => digits_ne_point (List.mem_of_mem_take member),
      List.take_append_drop, digits_value, List.length_drop, same', zpow_neg, zpow_natCast,
      Nat.sub_sub_self short.le, div_eq_mul_inv]
  · obtain ⟨n, same⟩ := Int.eq_ofNat_of_zero_le (a := -d.exponent) (by omega)
    obtain same' : d.exponent = -n := by omega
    rw [same, Int.toNat_natCast] at short ⊢
    have zero : ∀ c ∈ ['0'], c ≠ '.' := List.forall_mem_singleton.mpr (by decide)
    have padded := read_pointed zero
      (zeros (n - (digitsOf d.digits).length) ++ digitsOf d.digits)
    have value : Nat.ofDigitChars 10 (['0'] ++ (zeros (n - (digitsOf d.digits).length) ++
        digitsOf d.digits)) 0 = d.digits := by
      rw [← List.append_assoc, zeros, ← List.replicate_one, List.replicate_append_replicate,
        Nat.ofDigitChars_append, Nat.ofDigitChars_replicate_zero, Nat.mul_zero, digits_value]
    have places : (zeros (n - (digitsOf d.digits).length) ++ digitsOf d.digits).length = n := by
      rw [List.length_append, zeros, List.length_replicate]
      omega
    rw [value, places] at padded
    rw [same', zpow_neg, zpow_natCast, ← div_eq_mul_inv, ← padded]
    rfl

/-- The text of a number's magnitude. -/
def magnitudeText (mantissa : Nat) (exponent : Int) : List Char :=
  if mantissa = 0 then ['0'] else (shortest .up mantissa exponent).positional

theorem positional_finite (finite : exact x = .finite negative mantissa exponent) :
    positional x = .ofList (signed negative (magnitudeText mantissa exponent)) := by
  rw [positional, finite, magnitudeText]
  cases mantissa <;> rfl

/-- A decimal is written with digits and at most a point, the first a digit. -/
theorem positional_chars (d : Decimal) :
    (∀ c ∈ d.positional, c.isDigit = true ∨ c = '.') ∧
      ∃ first, d.positional.head? = some first ∧ first.isDigit = true := by
  have zero {count : Nat} {c : Char} (member : c ∈ zeros count) : c.isDigit = true := by
    rw [mem_zeros member]
    decide
  obtain ⟨first, rest, digits⟩ := List.exists_cons_of_ne_nil
    (Nat.toDigits_ne_nil (n := d.digits) (b := 10))
  have digit : first.isDigit = true :=
    digit_of_mem_digits (n := d.digits) (digits ▸ List.mem_cons_self)
  rw [Decimal.positional]
  dsimp only
  split_ifs with whole short
  · refine ⟨fun c member => .inl ?_, first, by rw [digitsOf, digits]; rfl, digit⟩
    exact (List.mem_append.mp member).elim digit_of_mem_digits zero
  · refine ⟨fun c member => ?_, first, ?_, digit⟩
    · rcases List.mem_append.mp member with front | back
      · exact .inl (digit_of_mem_digits (List.mem_of_mem_take front))
      · rcases List.mem_cons.mp back with point | back
        · exact .inr point
        · exact .inl (digit_of_mem_digits (List.mem_of_mem_drop back))
    · obtain ⟨count, some⟩ := Nat.exists_eq_succ_of_ne_zero (Nat.sub_pos_of_lt short).ne'
      rw [some, digitsOf, digits]
      rfl
  · refine ⟨fun c member => ?_, '0', rfl, by decide⟩
    simp only [List.cons_append, List.mem_cons, List.mem_append] at member
    rcases member with rfl | point | zeros | digits
    · exact .inl (by decide)
    · exact .inr point
    · exact .inl (zero zeros)
    · exact .inl (digit_of_mem_digits digits)

theorem magnitude_chars (mantissa : Nat) (exponent : Int) :
    (∀ c ∈ magnitudeText mantissa exponent, c.isDigit = true ∨ c = '.') ∧
      ∃ first, (magnitudeText mantissa exponent).head? = some first ∧ first.isDigit = true := by
  rw [magnitudeText]
  split
  · exact ⟨List.forall_mem_singleton.mpr (.inl rfl), '0', rfl, by decide⟩
  · exact positional_chars _

/-- A magnitude can be told from its text. -/
theorem magnitude_text_inj {mantissa' : Nat} {exponent' : Int} (normal : Normal mantissa exponent)
    (normal' : Normal mantissa' exponent')
    (same : magnitudeText mantissa exponent = magnitudeText mantissa' exponent') :
    mantissa = mantissa' ∧ exponent = exponent' := by
  have read {m : Nat} (e : Int) (positive : 0 < m) :
      (Interval.around m e).Covers (readPositional (magnitudeText m e)) := by
    rw [magnitudeText, if_neg positive.ne', read_positional]
    exact shortest_covers _ positive
  have readZero (e : Int) : readPositional (magnitudeText 0 e) = 0 := by
    rw [magnitudeText, if_pos rfl, read_whole (List.forall_mem_singleton.mpr (by decide))]
    rfl
  have leastOfZero {e : Int} (normal : Normal 0 e) : e = leastExponent :=
    le_antisymm (not_lt.mp fun more => absurd (normal.hidden more) (by decide)) normal.least
  rcases Nat.eq_zero_or_pos mantissa with rfl | positive <;>
    rcases Nat.eq_zero_or_pos mantissa' with rfl | positive'
  · exact ⟨rfl, (leastOfZero normal).trans (leastOfZero normal').symm⟩
  · have covered := pos_of_covered positive' (read exponent' positive')
    rw [← same, readZero] at covered
    exact absurd covered (lt_irrefl 0)
  · have covered := pos_of_covered positive (read exponent positive)
    rw [same, readZero] at covered
    exact absurd covered (lt_irrefl 0)
  · exact normal.eq_of_covers normal' (read exponent positive) (same ▸ read exponent' positive')

/-- What has no sign of its own shows which sign it is given. -/
theorem signed_inj {negative negative' : Bool} {text text' : List Char}
    (unsigned : text.head? ≠ some '-') (unsigned' : text'.head? ≠ some '-')
    (same : signed negative text = signed negative' text') :
    negative = negative' ∧ text = text' := by
  cases negative <;> cases negative'
  · exact ⟨rfl, same⟩
  · cases (same : text = '-' :: text')
    exact absurd rfl unsigned
  · cases (same : '-' :: text = text')
    exact absurd rfl unsigned'
  · exact ⟨rfl, (List.cons.inj same).2⟩

theorem magnitude_unsigned (mantissa : Nat) (exponent : Int) :
    (magnitudeText mantissa exponent).head? ≠ some '-' := by
  obtain ⟨-, first, head, digit⟩ := magnitude_chars mantissa exponent
  rw [head]
  rintro ⟨⟩
  exact absurd digit (by decide)

/-- Finite numbers are not written in letters. -/
theorem magnitude_ne_word {word : List Char}
    (letters : ∀ c ∈ word, c.isDigit = false ∧ c ≠ '-') (negative negative' : Bool)
    (mantissa : Nat) (exponent : Int) :
    signed negative word ≠ signed negative' (magnitudeText mantissa exponent) := by
  intro same
  have unsigned : word.head? ≠ some '-' := fun head =>
    (letters '-' (List.mem_of_head? head)).2 rfl
  obtain ⟨-, same⟩ := signed_inj unsigned (magnitude_unsigned mantissa exponent) same
  obtain ⟨-, first, head, digit⟩ := magnitude_chars mantissa exponent
  rw [← same] at head
  rw [(letters first (List.mem_of_head? head)).1] at digit
  cases digit

theorem nan_letters : ∀ c ∈ ['N', 'a', 'N'], c.isDigit = false ∧ c ≠ '-' :=
  List.all_iff_forall_prop.mp (by decide)

theorem inf_letters : ∀ c ∈ ['i', 'n', 'f'], c.isDigit = false ∧ c ≠ '-' :=
  List.all_iff_forall_prop.mp (by decide)

/-- **Different numbers have different texts.** -/
theorem positional_injective : Function.Injective positional := by
  intro x y same
  refine exact_injective ?_
  have texts := congrArg String.toList same
  cases here : exact x with
  | notANumber =>
    cases there : exact y with
    | notANumber => rfl
    | infinite negative =>
      rw [positional, positional, here, there] at texts
      cases negative <;> cases texts
    | finite negative mantissa exponent =>
      rw [positional_finite there, positional, here, String.toList_ofList, String.toList_ofList]
        at texts
      exact absurd texts (magnitude_ne_word nan_letters false negative mantissa exponent)
  | infinite negative =>
    cases there : exact y with
    | notANumber =>
      rw [positional, positional, here, there] at texts
      cases negative <;> cases texts
    | infinite negative' =>
      rw [positional, positional, here, there, String.toList_ofList, String.toList_ofList] at texts
      rw [(signed_inj (by decide) (by decide) texts).1]
    | finite negative' mantissa exponent =>
      rw [positional_finite there, positional, here, String.toList_ofList, String.toList_ofList]
        at texts
      exact absurd texts (magnitude_ne_word inf_letters negative negative' mantissa exponent)
  | finite negative mantissa exponent =>
    cases there : exact y with
    | notANumber =>
      rw [positional_finite here, positional, there, String.toList_ofList] at texts
      exact absurd texts.symm (magnitude_ne_word nan_letters false negative mantissa exponent)
    | infinite negative' =>
      rw [positional_finite here, positional, there, String.toList_ofList, String.toList_ofList]
        at texts
      exact absurd texts.symm (magnitude_ne_word inf_letters negative' negative mantissa exponent)
    | finite negative' mantissa' exponent' =>
      rw [positional_finite here, positional_finite there, String.toList_ofList,
        String.toList_ofList] at texts
      obtain ⟨rfl, same⟩ := signed_inj (magnitude_unsigned mantissa exponent)
        (magnitude_unsigned mantissa' exponent') texts
      obtain ⟨rfl, rfl⟩ := magnitude_text_inj (bits_of_finite here).1 (bits_of_finite there).1 same
      rfl

/-- The characters of numbers. -/
def isNumberChar (c : Char) : Bool := c.isDigit || c ∈ ['-', '.', 'N', 'a', 'i', 'n', 'f']

theorem signed_number_chars {text : List Char} (chars : ∀ c ∈ text, isNumberChar c = true) :
    ∀ c ∈ signed negative text, isNumberChar c = true := by
  cases negative
  · exact chars
  · exact List.forall_mem_cons.mpr ⟨by decide, chars⟩

theorem positional_number_chars (x : Float) :
    ∀ c ∈ (positional x).toList, isNumberChar c = true := by
  cases parts : exact x with
  | notANumber =>
    rw [positional, parts]
    exact List.all_eq_true.mp (by decide)
  | infinite negative =>
    rw [positional, parts, String.toList_ofList]
    exact signed_number_chars (List.all_eq_true.mp (by decide))
  | finite negative mantissa exponent =>
    rw [positional_finite parts, String.toList_ofList]
    refine signed_number_chars fun c member => ?_
    rcases (magnitude_chars mantissa exponent).1 c member with digit | rfl
    · rw [isNumberChar, digit, Bool.true_or]
    · decide

end Reshape.Number

import Reshape.Proofs.Admissibility
import Reshape.Proofs.Origins

/-! Separators that the inputs lack. A separation needs a text with a separator.
If no name and no text of the inputs has one, a program gets one by uniting, or
by gathering a column whose name has one; and such a name is derived by a
spread, a computed column or a summary. So the filter that asks for a separator
in the inputs turns away a sequence with an instance that produces the target
only if beneath its innermost separation it unites or gathers such names. -/
namespace Reshape

/-- A text is written with a separator. A union writes one, as what joins the
texts of two cells; or a gathering does, of a column whose name has a separator,
which stands outside an operator that derives names. -/
inductive WritesSeparator (inputs : List Table) (input : Nat) : List Step → Prop
  | united {step : Step} {inner : List Step} {below : Table} {s : String}
      (made : evalSteps inputs input inner = .ok below) (written : .text s ∈ step.united below)
      (separator : Text.hasSeparator s = true) : WritesSeparator inputs input (step :: inner)
  | gathered {step : Step} {inner : List Step} {below : Table} {c : Nat}
      (made : evalSteps inputs input inner = .ok below) (chosen : c ∈ step.melted below)
      (separator : Text.hasSeparator (below.name c) = true)
      (derived : ∃ other ∈ inner, other.operator.derivesNames = true) :
      WritesSeparator inputs input (step :: inner)
  | beneath {step : Step} {inner : List Step} (writes : WritesSeparator inputs input inner) :
      WritesSeparator inputs input (step :: inner)

/-- The sequences of operators that may write a text with a separator: they
unite, or gather outside an operator that derives names. -/
def mayWriteSeparator (operators : List Operator) : Bool :=
  decide (.unite ∈ operators) || gathersOver Operator.derivesNames operators

theorem Step.unites_of_united {step : Step} {t : Table} {cell : Cell}
    (written : cell ∈ step.united t) : step.operator = .unite := by
  rw [united] at written
  split at written
  · assumption
  · cases written

theorem Step.gathers_of_melted {step : Step} {t : Table} {c : Nat}
    (chosen : c ∈ step.melted t) : step.operator.gathers = true := by
  rw [melted] at chosen
  split at chosen
  · simp [*, Operator.gathers]
  · simp [*, Operator.gathers]
  · cases chosen

theorem may_write_separator_cons {op : Operator} {inner : List Operator}
    (writes : mayWriteSeparator inner = true) : mayWriteSeparator (op :: inner) = true := by
  simp only [mayWriteSeparator, gathersOver, Bool.or_eq_true, decide_eq_true_eq,
    List.mem_cons] at writes ⊢
  exact writes.imp .inr .inr

/-- Steps that write a text with a separator have operators that may. -/
theorem WritesSeparator.may_write {inputs : List Table} {input : Nat} {steps : List Step}
    (writes : WritesSeparator inputs input steps) :
    mayWriteSeparator (steps.map Step.operator) = true := by
  induction writes with
  | united made written separator =>
    simp [mayWriteSeparator, Step.unites_of_united written]
  | gathered made chosen separator derived =>
    simp [mayWriteSeparator, gathersOver, Step.gathers_of_melted chosen, derived]
  | beneath _ ih => exact may_write_separator_cons ih

theorem gathers_over_mono {p q : Operator → Bool} {operators : List Operator}
    (weaker : ∀ op ∈ operators, p op = true → q op = true)
    (around : gathersOver p operators = true) : gathersOver q operators = true := by
  induction operators with
  | nil => exact around
  | cons op inner ih =>
    obtain ⟨-, later⟩ := List.forall_mem_cons.mp weaker
    simp only [gathersOver, Bool.or_eq_true, Bool.and_eq_true, List.any_eq_true] at around ⊢
    rcases around with ⟨gathers, named, held, property⟩ | around
    · exact .inl ⟨gathers, named, held, later named held property⟩
    · exact .inr (ih later around)

namespace Text

/-- The digits behind a name are no separators. -/
theorem NamedAfter.has_separator {hint name : String} (named : NamedAfter hint name) :
    hasSeparator name = hasSeparator hint := by
  cases named with
  | plain => rfl
  | numbered n =>
    have digits : (toString n).toList.any (· ∈ separators) = false := by
      rw [show toString n = n.repr from rfl, Nat.toList_repr, List.any_eq_false]
      intro c member
      have digit := Nat.isDigit_of_mem_toDigits (by decide) (by decide) member
      simp only [separators, List.mem_cons, List.not_mem_nil, or_false, decide_eq_true_eq]
      rintro (rfl | rfl | rfl) <;> simp at digit
    rw [hasSeparator, Names.numbered, String.toList_append, List.any_append, digits, Bool.or_false,
      hasSeparator]

theorem fixed_names_plain :
    ∀ hint ∈ ["KEY", "VALUE", "cumsum"], hasSeparator hint = false := by decide +kernel

/-- A text that is cut has a character to be cut at. -/
theorem any_of_split_first {p : Char → Bool} {text : List Char} {parts : List Char × List Char}
    (cut : splitFirst? p text = some parts) : text.any p = true := by
  induction text generalizing parts with
  | nil => cases cut
  | cons c rest ih =>
    rw [splitFirst?] at cut
    split at cut
    · rename_i here
      simp [here]
    · obtain ⟨later, inside, -⟩ := Option.map_eq_some_iff.mp cut
      simp [ih inside]

end Text

section Written

variable {inputs : List Table} {input : Nat} {steps : List Step} {t : Table}

theorem not_separable_iff : Context.separable t = false ↔
    (∀ name ∈ t.columns, Text.hasSeparator name = false) ∧
      ∀ s, .text s ∈ t.cells → Text.hasSeparator s = false := by
  simp only [Context.separable, Bool.or_eq_false_iff, List.any_eq_false, Bool.not_eq_true]
  refine and_congr_right fun _ => ⟨fun plain s held => plain _ held, fun plain cell held => ?_⟩
  cases cell with
  | text s => exact plain s held
  | number _ | boolean _ => rfl

/-- While no name is derived, no name has a separator. -/
theorem names_plain (plain : ∀ t ∈ inputs, Context.separable t = false)
    (underived : ∀ step ∈ steps, step.operator.derivesNames = false)
    (ran : evalSteps inputs input steps = .ok t) :
    ∀ name ∈ t.columns, Text.hasSeparator name = false := by
  induction steps generalizing t with
  | nil =>
    rw [evalSteps] at ran
    split at ran
    · rename_i held
      cases ran
      exact (not_separable_iff.mp (plain t (List.mem_of_getElem? held))).1
    · cases ran
  | cons step rest ih =>
    intro name member
    rw [evalSteps, bind_eq_ok] at ran
    obtain ⟨below, inner, applied⟩ := ran
    obtain ⟨here, later⟩ := List.forall_mem_cons.mp underived
    cases Step.name_origin applied member with
    | kept held => exact ih later inner name held
    | fixed _ known named =>
      rw [named.has_separator]
      exact Text.fixed_names_plain _ known
    | derived derives => simp [here] at derives

/-- A text with a separator has been written, as long as nothing is separated. -/
theorem separator_written (shaped : ∀ t ∈ inputs, t.Shaped)
    (plain : ∀ t ∈ inputs, Context.separable t = false)
    (whole : ∀ step ∈ steps, step.operator ≠ .separate)
    (ran : evalSteps inputs input steps = .ok t) {s : String} (member : .text s ∈ t.cells)
    (separator : Text.hasSeparator s = true) : WritesSeparator inputs input steps := by
  induction steps generalizing t with
  | nil =>
    rw [evalSteps] at ran
    split at ran
    · rename_i held
      cases ran
      have none := (not_separable_iff.mp (plain t (List.mem_of_getElem? held))).2 s member
      simp [separator] at none
    · cases ran
  | cons step rest ih =>
    rw [evalSteps, bind_eq_ok] at ran
    obtain ⟨below, inner, applied⟩ := ran
    obtain ⟨here, later⟩ := List.forall_mem_cons.mp whole
    cases Step.cell_origin (eval_steps_shaped shaped inner) applied member with
    | kept held => exact .beneath (ih later inner held)
    | named _ chosen inside same =>
      cases same
      refine .gathered inner chosen separator ?_
      -- Had no operator beneath derived a name, this one would have no separator.
      by_contra underived
      have none := names_plain plain (by simpa using underived) inner _ (Table.name_mem inside)
      simp [separator] at none
    | computed _ noText => exact absurd rfl noText
    | united _ written => exact .united inner written separator
    | separated op => exact absurd op here

/-- A separation of a table with rows reads a text with a separator. -/
theorem separator_read {step : Step} {out : Table} (shaped : t.Shaped) (rows : t.rows ≠ [])
    (op : step.operator = .separate) (applied : step.apply t = .ok out) :
    ∃ s, .text s ∈ t.cells ∧ Text.hasSeparator s = true := by
  cases Step.applied_of_ok applied with
  | separate _ taken made =>
    rename_i column _
    obtain ⟨kind, parts, cut, -⟩ := Table.separate_eq_ok.mp made
    obtain ⟨row, rest, split⟩ := List.exists_cons_of_ne_nil rows
    have held : row ∈ t.rows := split ▸ List.mem_cons_self
    have text : (row.at column).kind = .text := (shaped.kind_at held column).trans kind
    have inside := shaped.at_mem_cells held (Step.take_column_eq_ok.mp taken).2
    rw [Table.column, split, List.map_cons] at cut
    cases cut with
    | cons found _ =>
      cases cell : row.at column with
      | text s =>
        rw [cell] at found inside
        exact ⟨s, inside, Text.any_of_split_first found⟩
      | number _ | boolean _ => simp [cell] at text
  | _ => simp_all

/-- Steps above others have a value with rows only if those have one. -/
theorem value_beneath {outer inner : List Step} {out : Table}
    (ran : evalSteps inputs input (outer ++ inner) = .ok out) (rows : out.rows ≠ []) :
    ∃ below, evalSteps inputs input inner = .ok below ∧ below.rows ≠ [] := by
  induction outer generalizing out with
  | nil => exact ⟨out, ran, rows⟩
  | cons step rest ih =>
    rw [List.cons_append, evalSteps, bind_eq_ok] at ran
    obtain ⟨below, made, applied⟩ := ran
    exact ih made (Step.rows_of_apply applied rows)

/-- Among steps with a separation there is an innermost one. -/
theorem innermost_separation (separates : ∃ step ∈ steps, step.operator = .separate) :
    ∃ outer step inner, steps = outer ++ step :: inner ∧ step.operator = .separate ∧
      ∀ other ∈ inner, other.operator ≠ .separate := by
  induction steps with
  | nil => simp at separates
  | cons first rest ih =>
    by_cases later : ∃ step ∈ rest, step.operator = .separate
    · obtain ⟨outer, step, inner, rfl, op, whole⟩ := ih later
      exact ⟨first :: outer, step, inner, rfl, op, whole⟩
    · have whole : ∀ step ∈ rest, step.operator ≠ .separate := by simpa using later
      obtain ⟨step, held, op⟩ := separates
      rcases List.mem_cons.mp held with rfl | held
      · exact ⟨[], step, rest, rfl, op, whole⟩
      · exact absurd op (whole step held)

end Written

/-- **A separation needs a separator that was written.** Let the inputs have no
separator, and the target a row. A program with a separation produces the target
only if, beneath its innermost separation, it writes a text with a separator: it
joins texts into one there, or gathers a column of such a name outside an
operator that derives names. And if a program produces the target whose operators
are turned away for the lack of a separator alone, then it unites there, or
gathers outside a spread or an arithmetic column. -/
theorem separation_needs_separator {inputs : List Table} {target : Table}
    (shaped : ∀ t ∈ inputs, t.Shaped) (rows : target.rows ≠ [])
    (lacking : (Context.of inputs target).hasSeparator = false) :
    (∀ p : Program, .separate ∈ p.operators → p.produces inputs target = true →
      ∃ outer step inner, p.steps = outer ++ step :: inner ∧ step.operator = .separate ∧
        (∀ other ∈ inner, other.operator ≠ .separate) ∧ WritesSeparator inputs p.input inner) ∧
    ∀ p : Program,
      isAdmissible p.operators { Context.of inputs target with hasSeparator := true } = true →
      isAdmissible p.operators (Context.of inputs target) = false →
      p.produces inputs target = true →
        ∃ outer inner, p.operators = outer ++ .separate :: inner ∧ .separate ∉ inner ∧
          (.unite ∈ inner ∨ gathersOver (fun op => op = .spread ∨ op = .mutate) inner = true) := by
  have plain : ∀ t ∈ inputs, Context.separable t = false := by
    simpa [Context.of] using lacking
  have written (p : Program) (separates : .separate ∈ p.operators)
      (produced : p.produces inputs target = true) :
      ∃ outer step inner, p.steps = outer ++ step :: inner ∧ step.operator = .separate ∧
        (∀ other ∈ inner, other.operator ≠ .separate) ∧ WritesSeparator inputs p.input inner := by
    obtain ⟨out, ran, included⟩ := Program.produces_iff.mp produced
    obtain ⟨outer, step, inner, steps, op, whole⟩ :=
      innermost_separation (List.mem_map.mp separates)
    rw [Program.eval, steps] at ran
    obtain ⟨made, value, some⟩ := value_beneath ran (Table.included_rows included rows)
    rw [evalSteps, bind_eq_ok] at value
    obtain ⟨below, beneath, applied⟩ := value
    obtain ⟨s, held, separator⟩ := separator_read (eval_steps_shaped shaped beneath)
      (Step.rows_of_apply applied some) op applied
    exact ⟨outer, step, inner, steps, op, whole,
      separator_written shaped plain whole beneath held separator⟩
  refine ⟨written, fun p otherwise rejected produced => ?_⟩
  have rules := is_admissible_iff.mp otherwise
  obtain ⟨outer, step, inner, steps, op, whole, writes⟩ :=
    written p (separates_of_rejected otherwise rejected) produced
  have may := writes.may_write
  have operators : p.operators =
      outer.map Step.operator ++ .separate :: inner.map Step.operator := by
    simp [Program.operators, steps, op]
  have apart : .separate ∉ inner.map Step.operator := by simpa using whole
  refine ⟨_, _, operators, apart, ?_⟩
  by_cases unites : .unite ∈ inner.map Step.operator
  · exact .inl unites
  · simp only [mayWriteSeparator, unites, decide_false, Bool.false_or] at may
    refine .inr (gathers_over_mono (fun op held derives => ?_) may)
    -- Beneath another operator there is neither a summary nor a compared column.
    have outermost := rules.outermost op (by
      rw [operators]
      cases outer <;> simp [List.mem_map.mp held])
    cases op <;> simp_all [Operator.derivesNames]

namespace Separators

/-- Two texts without a separator. -/
def names : Table := ⟨["a", "b"], [.text, .text], [[.text "x", .text "y"]]⟩

/-- The texts are united and separated again. -/
def reseparated : Program :=
  ⟨0, [⟨.separate, [.column 0]⟩,
    ⟨.unite, [.column 0, .column 1, .constant (.text "_")]⟩]⟩

/-- Two numbers, one of which has a sign. -/
def signed : Table := ⟨["k", "v"], [.number, .number], [[.number (-1), .number 2]]⟩

/-- One of the numbers. -/
def unsigned : Table := ⟨["v"], [.number], [[.number 2]]⟩

/-- Separations of a gathered column's name, one for each operator that gives
columns names with a separator: a spread number, a difference, a comparison and
a summary. -/
def nameSeparations : List Program :=
  [⟨0, [⟨.separate, [.column 0]⟩, ⟨.gather, [.columns [0]]⟩,
      ⟨.spread, [.column 0, .column 1]⟩]⟩,
    ⟨0, [⟨.separate, [.column 2]⟩, ⟨.gather, [.columns [2]]⟩,
      ⟨.mutate, [.column 0, .arithmetic .minus, .column 1]⟩]⟩,
    ⟨0, [⟨.separate, [.column 2]⟩, ⟨.gather, [.columns [2]]⟩,
      ⟨.mutateCustom, [.column 1, .comparison .greater, .constant (.number (-1))]⟩]⟩,
    ⟨0, [⟨.separate, [.column 1]⟩, ⟨.gather, [.columns [1]]⟩,
      ⟨.groupSum, [.columns [0], .column 1, .aggregate .sum]⟩]⟩]

theorem names_shaped : ∀ t ∈ [names], t.Shaped := by
  intro t member
  cases List.mem_singleton.mp member
  exact ⟨rfl, by simp [names]⟩

end Separators

open Separators in
theorem separation_needs_separator_names :
    names.rows ≠ [] ∧ (Context.of [names] names).hasSeparator = false ∧
      reseparated.produces [names] names = true ∧
      (∃ outer step inner, reseparated.steps = outer ++ step :: inner ∧
        step.operator = .separate ∧ (∀ other ∈ inner, other.operator ≠ .separate) ∧
        WritesSeparator [names] 0 inner) ∧
      ∃ outer inner, reseparated.operators = outer ++ .separate :: inner ∧ .separate ∉ inner ∧
        (.unite ∈ inner ∨
          gathersOver (fun op => op = .spread ∨ op = .mutate) inner = true) := by
  have lacking : (Context.of [names] names).hasSeparator = false := by decide +kernel
  have produced : reseparated.produces [names] names = true := by decide +kernel
  obtain ⟨written, turned⟩ := separation_needs_separator names_shaped (by decide) lacking
  exact ⟨by decide, lacking, produced, written reseparated (by decide) produced,
    turned reseparated (by decide +kernel) (by decide +kernel) produced⟩

open Separators in
/-- The exceptions are there. Texts are united and separated again, though no
separator is among them, and the operators are turned away for that; and each
way to derive a name gives a name that can be separated. -/
theorem separation_without_separator :
    (names.rows ≠ [] ∧ (Context.of [names] names).hasSeparator = false ∧
      .separate ∈ reseparated.operators ∧ reseparated.produces [names] names = true ∧
      isAdmissible reseparated.operators
        { Context.of [names] names with hasSeparator := true } = true ∧
      isAdmissible reseparated.operators (Context.of [names] names) = false) ∧
    (Context.of [signed] unsigned).hasSeparator = false ∧
      ∀ p ∈ nameSeparations, .separate ∈ p.operators ∧ p.produces [signed] unsigned = true := by
  decide +kernel

end Reshape

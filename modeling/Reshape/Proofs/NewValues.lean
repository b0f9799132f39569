import Reshape.Proofs.Admissibility
import Reshape.Proofs.Origins

/-! Values that the inputs lack. A program whose operators create no values can
still show one, but only by gathering a column whose name was not there at the
start: a spread renders cells as names, and gathering itself adds two names.
Such a value is a text. So when the target has a new value, the filter that
asks for a value-creating operator turns away no sequence with an instance that
produces the target, except a gathering operator around a spread. -/
namespace Reshape

/-- The operators that put names of their own on columns while they create no
values. -/
def Operator.namesColumns (op : Operator) : Bool := decide (op = .spread) || op.gathers

/-- A cell with the key of a text is that text. -/
theorem Cell.eq_text_of_key {cell : Cell} {s : String} (key : cell.key = .text s) :
    cell = .text s := by
  cases cell with
  | text t => exact key
  | number x => cases key
  | boolean b => cases key

section Known

variable {inputs : List Table} {input : Nat} {steps : List Step} {t : Table}

/-- Without an operator that names columns, every column name is one of the
inputs'. -/
theorem names_known (plain : ∀ step ∈ steps, step.operator.createsValues = false ∧
      step.operator.namesColumns = false) (ran : evalSteps inputs input steps = .ok t) :
    ∀ name ∈ t.columns, .text name ∈ inputs.flatMap Context.known := by
  induction steps generalizing t with
  | nil =>
    intro name member
    rw [evalSteps] at ran
    split at ran
    · rename_i held
      cases ran
      exact List.mem_flatMap.mpr ⟨t, List.mem_of_getElem? held,
        List.mem_append_left _ (List.mem_map_of_mem member)⟩
    · cases ran
  | cons step rest ih =>
    intro name member
    rw [evalSteps, bind_eq_ok] at ran
    obtain ⟨below, inner, applied⟩ := ran
    obtain ⟨⟨creates, names⟩, later⟩ := List.forall_mem_cons.mp plain
    cases Step.name_origin applied member with
    | kept held => exact ih later inner name held
    | fixed adds _ _ =>
      rcases adds with gathers | op
      · simp [Operator.namesColumns, gathers] at names
      · simp [op, Operator.createsValues] at creates
    | derived derives =>
      cases op : step.operator <;>
        simp [op, Operator.derivesNames, Operator.createsValues, Operator.namesColumns]
          at derives creates names

/-- Without operators that create values, each cell has the key of a known one,
or it is the name of a gathered column, below which some operator named
columns. -/
theorem cells_known (shaped : ∀ t ∈ inputs, t.Shaped)
    (plain : ∀ step ∈ steps, step.operator.createsValues = false)
    (ran : evalSteps inputs input steps = .ok t) :
    ∀ cell ∈ t.cells, cell.key ∈ inputs.flatMap Context.known ∨
      gathersOver Operator.namesColumns (steps.map Step.operator) = true ∧
        ∃ name, cell = .text name ∧ GathersName inputs input steps name := by
  induction steps generalizing t with
  | nil =>
    intro cell member
    rw [evalSteps] at ran
    split at ran
    · rename_i held
      cases ran
      exact .inl (List.mem_flatMap.mpr ⟨t, List.mem_of_getElem? held,
        List.mem_append_right _ (List.mem_map_of_mem member)⟩)
    · cases ran
  | cons step rest ih =>
    intro cell member
    rw [evalSteps, bind_eq_ok] at ran
    obtain ⟨below, inner, applied⟩ := ran
    obtain ⟨creates, later⟩ := List.forall_mem_cons.mp plain
    simp only [List.map_cons, gathersOver, Bool.or_eq_true, Bool.and_eq_true]
    cases Step.cell_origin (eval_steps_shaped shaped inner) applied member with
    | kept held =>
      rcases ih later inner cell held with known | ⟨above, name, same, gathered⟩
      · exact .inl known
      · exact .inr ⟨.inr above, name, same, .beneath gathered⟩
    | named gathers chosen inside same =>
      -- The name is an input's, unless an operator beneath named columns.
      subst same
      by_cases named : (rest.map Step.operator).any Operator.namesColumns = true
      · exact .inr ⟨.inl ⟨gathers, named⟩, _, rfl, .here inner chosen⟩
      · have unnamed : ∀ step ∈ rest, step.operator.namesColumns = false := by
          simpa using named
        exact .inl (names_known (fun step held => ⟨later step held, unnamed step held⟩) inner _
          (Table.name_mem inside))
    | computed other _ => simp [creates] at other
    | united op _ | separated op => simp [op, Operator.createsValues] at creates

end Known

/-- A sequence within the rules that creates no values has at most a gathering
and a spreading operator, and the gathering is outside in only two of them. -/
theorem gathering_around_spread {operators : List Operator} {context : Context}
    (rules : Admissible operators context)
    (plain : ∀ op ∈ operators, op.createsValues = false)
    (above : gathersOver Operator.namesColumns operators = true) :
    operators = [.gather, .spread] ∨ operators = [.gatherNeg, .spread] := by
  have member (op : Operator) (held : op ∈ operators) :
      op = .spread ∨ op = .gather ∨ op = .gatherNeg := by
    have creates := plain op held
    have inside := rules.outside op held
    cases op <;> simp_all [Operator.createsValues]
  have gathering := rules.gathering
  have once := rules.once
  match operators with
  | [] | [_] => simp [gathersOver] at above
  | [a, b] =>
    rcases member a (by simp) with rfl | rfl | rfl <;>
      rcases member b (by simp) with rfl | rfl | rfl <;>
        simp [gathersOver, Operator.namesColumns, repeats, Operator.gathers, List.filter_cons]
          at above gathering once ⊢
  | a :: b :: c :: rest =>
    -- Of three operators two spread or two gather.
    rcases member a (by simp) with rfl | rfl | rfl <;>
      rcases member b (by simp) with rfl | rfl | rfl <;>
        rcases member c (by simp) with rfl | rfl | rfl <;>
          simp [repeats, Operator.gathers, List.filter_cons] at gathering once

/-- **New values come from gathered names.** Take a target with a value that the
inputs lack. A program of operators that create no values produces it only by
gathering outside an operator that names columns, and only if every value of the
target that the inputs lack is the name of a column that it gathers, as a text.
And if a program produces it whose operators are turned away for creating no
values alone, then they are a gathering operator around a spread. -/
theorem new_values_gathered {inputs : List Table} {target : Table}
    (shaped : ∀ t ∈ inputs, t.Shaped) (new : (Context.of inputs target).newValues = true) :
    (∀ p : Program, (∀ op ∈ p.operators, op.createsValues = false) →
      p.produces inputs target = true →
        gathersOver Operator.namesColumns p.operators = true ∧
          ∀ cell ∈ target.cells, cell.key ∉ inputs.flatMap Context.known →
            ∃ name, cell = .text name ∧ GathersName inputs p.input p.steps name) ∧
    ∀ p : Program,
      isAdmissible p.operators { Context.of inputs target with newValues := false } = true →
      isAdmissible p.operators (Context.of inputs target) = false →
      p.produces inputs target = true →
        p.operators = [.gather, .spread] ∨ p.operators = [.gatherNeg, .spread] := by
  have gathered (p : Program) (plain : ∀ op ∈ p.operators, op.createsValues = false)
      (produced : p.produces inputs target = true) {cell : Cell} (wanted : cell ∈ target.cells)
      (lacking : cell.key ∉ inputs.flatMap Context.known) :
      gathersOver Operator.namesColumns p.operators = true ∧
        ∃ name, cell = .text name ∧ GathersName inputs p.input p.steps name := by
    obtain ⟨out, ran, included⟩ := Program.produces_iff.mp produced
    obtain ⟨held, inside, key⟩ :=
      Table.included_cells (eval_steps_shaped shaped ran) included wanted
    rcases cells_known shaped (List.forall_mem_map.mp plain) ran held inside with
      known | ⟨above, name, same, gathered⟩
    · exact absurd (key ▸ known) lacking
    · refine ⟨above, name, ?_, gathered⟩
      rw [same] at key
      exact Cell.eq_text_of_key key.symm
  obtain ⟨cell, wanted, lacking⟩ : ∃ cell ∈ target.cells,
      cell.key ∉ inputs.flatMap Context.known := by
    simpa [Context.of] using new
  refine ⟨fun p plain produced => ⟨?_, fun other member missing => ?_⟩,
    fun p otherwise rejected produced => ?_⟩
  · exact (gathered p plain produced wanted lacking).1
  · exact (gathered p plain produced member missing).2
  · have plain := creates_nothing_of_rejected otherwise rejected
    exact gathering_around_spread (is_admissible_iff.mp otherwise) plain
      (gathered p plain produced wanted lacking).1

namespace NewValues

/-- Amounts by year, the years being numbers. -/
def amounts : Table where
  columns := ["name", "year", "amount"]
  kinds := [.text, .number, .number]
  rows := [[.text "a", .number 1, .number 10], [.text "a", .number 2, .number 20]]

/-- A year as a text, which occurs nowhere among the amounts. -/
def year : Table := ⟨["x"], [.text], [[.text "1"]]⟩

/-- The years become names of columns, and then these are gathered. -/
def regathered : Program :=
  ⟨0, [⟨.gather, [.columns [1, 2]]⟩, ⟨.spread, [.column 1, .column 2]⟩]⟩

/-- The name of a column that gathering adds. -/
def addedName : Table := ⟨["x"], [.text], [[.text "KEY"]]⟩

/-- A column that gathering adds is gathered in turn. -/
def gatheredTwice : Program :=
  ⟨0, [⟨.gather, [.columns [1]]⟩, ⟨.gather, [.columns [1, 2]]⟩]⟩

theorem amounts_shaped : ∀ t ∈ [amounts], t.Shaped := by
  intro t member
  cases List.mem_singleton.mp member
  exact ⟨rfl, by simp [amounts]⟩

end NewValues

open NewValues in
theorem new_values_gathered_amounts :
    (Context.of [amounts] year).newValues = true ∧ regathered.produces [amounts] year = true ∧
      gathersOver Operator.namesColumns regathered.operators = true ∧
      (∀ cell ∈ year.cells, cell.key ∉ [amounts].flatMap Context.known →
        ∃ name, cell = .text name ∧ GathersName [amounts] 0 regathered.steps name) ∧
      (regathered.operators = [.gather, .spread] ∨
        regathered.operators = [.gatherNeg, .spread]) := by
  have new : (Context.of [amounts] year).newValues = true := by decide +kernel
  have produced : regathered.produces [amounts] year = true := by decide +kernel
  obtain ⟨named, around⟩ := new_values_gathered amounts_shaped new
  obtain ⟨above, names⟩ := named regathered (by decide) produced
  exact ⟨new, produced, above, names,
    around regathered (by decide +kernel) (by decide +kernel) produced⟩

open NewValues in
/-- The exceptions are there. Operators that create no values produce a value
that the inputs lack, and are turned away for creating none; and two gatherings
produce another. -/
theorem new_values_without_creation :
    ((Context.of [amounts] year).newValues = true ∧
      (∀ op ∈ regathered.operators, op.createsValues = false) ∧
      regathered.produces [amounts] year = true ∧
      isAdmissible regathered.operators { Context.of [amounts] year with newValues := false } =
        true ∧
      isAdmissible regathered.operators (Context.of [amounts] year) = false) ∧
    (Context.of [amounts] addedName).newValues = true ∧
      (∀ op ∈ gatheredTwice.operators, op.createsValues = false) ∧
      gatheredTwice.produces [amounts] addedName = true := by
  decide +kernel

end Reshape

import Reshape.Proofs.Fillings
import Reshape.Proofs.Replacement

/-! Domains offer nothing that does not work. Arguments are drawn one after the
other, each from the domain that those before it leave. What is drawn is of the
kind that its position calls for, with columns in range, and fits what was drawn
before it: this is kept from argument to argument. So no domain along the way is
refused, and a step with all its arguments applies. Only spreading depends on the
rows as well, and can still find them wrong; a search counts no other operator as
inapplicable. -/
namespace Reshape

/-- Arguments for the first positions of an operator, each taken from its domain
above a table while all later ones are open. -/
inductive Drawing (config : Config) (t : Table) (op : Operator) : List Argument → Prop where
  | nothing : Drawing config t op []
  | next {given : List Argument} {value : Argument} {values : List Argument}
      (drawn : Drawing config t op given) (room : given.length < op.arity)
      (offered : Step.domain ⟨op, given ++ List.replicate (op.arity - given.length) .hole⟩
        (given.length + 1) t config = .ok values)
      (taken : value ∈ values) : Drawing config t op (given ++ [value])

section Chosen

variable {config : Config} {t : Table} {op : Operator}

/-- Arguments drawn for the first positions, with others drawn behind them. -/
theorem Drawing.choice {given rest : List Argument} {later : List Nat}
    (drawn : Drawing config t op given) (total : given.length + rest.length = op.arity)
    (behind : Drawn config t op given rest later) :
    ∃ choice, Drawn config t op [] (given ++ rest) choice := by
  induction drawn generalizing rest later with
  | nothing => exact ⟨later, behind⟩
  | @next given value values _ room offered taken ih =>
    rw [List.length_append, List.length_singleton] at total
    have holes : op.arity - given.length = rest.length + 1 := by omega
    obtain ⟨place, held⟩ := List.getElem?_of_mem taken
    have whole : given.length + (value :: rest).length = op.arity := by
      rw [List.length_cons]
      omega
    rw [List.append_assoc]
    exact ih whole (.next (holes ▸ offered) held behind)

theorem Drawn.drawing {given rest : List Argument} {choice : List Nat}
    (behind : Drawn config t op given rest choice)
    (total : given.length + rest.length = op.arity) (drawn : Drawing config t op given) :
    Drawing config t op (given ++ rest) := by
  induction behind with
  | done => rwa [List.append_nil]
  | @next given rest value choice values place offered held _ ih =>
    rw [List.length_cons] at total
    have holes : op.arity - given.length = rest.length + 1 := by omega
    have whole : (given ++ [value]).length + rest.length = op.arity := by
      rw [List.length_append, List.length_singleton]
      omega
    have further := drawn.next (by omega) (holes ▸ offered) (List.mem_of_getElem? held)
    simpa using ih whole further

/-- Drawing an argument for every position is choosing the step. -/
theorem Step.chosen_iff_drawing {arguments : List Argument} :
    (∃ choice, Step.Chosen config t ⟨op, arguments⟩ choice) ↔
      Drawing config t op arguments ∧ arguments.length = op.arity := by
  constructor
  · rintro ⟨choice, total, drawn⟩
    exact ⟨drawn.drawing ((Nat.zero_add _).trans total) .nothing, total⟩
  · rintro ⟨drawn, total⟩
    obtain ⟨choice, all⟩ := drawn.choice (by simpa using total) .done
    rw [List.append_nil] at all
    exact ⟨choice, total, all⟩

end Chosen

/-- Choices of at most so many columns are the increasing lists of one to so many
columns in range. -/
theorem mem_column_choices {limit width : Nat} {columns : List Nat} :
    columns ∈ columnChoices limit width ↔
      columns.Sublist (List.range width) ∧ columns ≠ [] ∧ columns.length ≤ limit := by
  simp only [columnChoices, List.mem_flatMap, List.mem_range'_1, combinations, mem_choose_iff]
  constructor
  · rintro ⟨k, ⟨positive, bounded⟩, chosen, rfl⟩
    refine ⟨chosen, ?_, by omega⟩
    rintro rfl
    simp at positive
  · rintro ⟨chosen, some, bounded⟩
    have positive := List.length_pos_iff.mpr some
    exact ⟨columns.length, ⟨positive, by omega⟩, chosen, rfl⟩

namespace Table

variable {t : Table}

/-- At least one column, all different and in range. -/
structure Lists (t : Table) (columns : List Nat) : Prop where
  some : columns ≠ []
  different : columns.Nodup
  inRange : ∀ c ∈ columns, c < t.width

theorem lists_of_choice {limit : Nat} {columns : List Nat}
    (chosen : columns ∈ columnChoices limit t.width) : t.Lists columns := by
  obtain ⟨sub, some, -⟩ := mem_column_choices.mp chosen
  exact ⟨some, List.nodup_range.sublist sub, fun c member => List.mem_range.mp (sub.subset member)⟩

theorem mem_columns_of {kind : Kind} {c : Nat} :
    c ∈ t.columnsOf kind ↔ c < t.width ∧ t.kind c = kind := by
  simp [columnsOf, positions]

/-- Columns that share their kind have a first one, and its kind. -/
theorem shares_kind_iff {columns : List Nat} :
    t.sharesKind columns = true ↔
      ∃ first, columns.head? = some first ∧ ∀ c ∈ columns, t.kind c = t.kind first := by
  cases columns with
  | nil => simp [sharesKind]
  | cons first rest => simp [sharesKind]

/-- A column that can be separated is separated. -/
theorem separate_of_separable {c : Nat} (text : t.kind c = .text)
    (separable : t.isSeparable c = true) : ∃ out, t.separate c = .ok out := by
  have cut : ∀ row ∈ t.rows, Text.splitFirst? (· ∈ Text.separators) (cellText (row.at c)) =
      some (halves (· ∈ Text.separators) c row) := by
    intro row held
    have separator := List.all_eq_true.mp separable (row.at c) (List.mem_map_of_mem held)
    cases cell : row.at c with
    | text s =>
      rw [cell] at separator
      obtain ⟨joint, member, holds⟩ := List.any_eq_true.mp separator
      obtain ⟨parts, found⟩ :=
        Text.exists_split_first (p := (decide <| · ∈ Text.separators)) member holds
      have here : Text.splitFirst? (· ∈ Text.separators) (cellText (row.at c)) = some parts := by
        rw [cell]
        exact found
      rw [halves, here, ← cell, here, Option.getD_some]
    | number x | boolean b => simp [cell] at separator
  exact ⟨_, separate_eq_ok.mpr ⟨text, t.rows.map (halves (· ∈ Text.separators) c),
    List.forall₂_map_left_iff.mpr (List.forall₂_map_right_iff.mpr (List.forall₂_same.mpr cut)),
    rfl⟩⟩

end Table

/-- Listed columns are taken. -/
theorem Step.take_listed {step : Step} {position : Nat} {t : Table} {columns : List Nat}
    (read : step.argument? position = some (.columns columns)) (listed : t.Lists columns) :
    step.takeColumns position t.width = .ok columns :=
  take_columns_eq_ok.mpr ⟨read, listed.inRange, listed.different⟩

/-- A domain that reads the column given first goes on with it. -/
theorem Step.column_here_bind {α : Type} {op : Operator} {c width : Nat} {rest : List Argument}
    {next : Nat → Except EvalError α} {a : α} (inside : c < width) :
    (Step.columnHere ⟨op, .column c :: rest⟩ 1 width >>= next) = .ok a ↔ next c = .ok a := by
  have here : Step.columnHere ⟨op, .column c :: rest⟩ 1 width = .ok c :=
    check_column_eq_ok.mpr ⟨inside, rfl⟩
  rw [here, ok_bind]

/-- The operators that compare a column with a constant. -/
def Operator.compares : Operator → Bool
  | .filter | .mutateCustom => true
  | _ => false

/-- What the arguments drawn for the first positions of an operator are, one case
for each operator and position. -/
inductive Suited (t : Table) : Operator → List Argument → Prop where
  | nothing {op : Operator} : Suited t op []
  | select {columns : List Nat} (listed : t.Lists columns) : Suited t .select [.columns columns]
  | uniteLeft {left : Nat} (inside : left < t.width) : Suited t .unite [.column left]
  | uniteRight {left right : Nat} (inside : left < t.width) (insideRight : right < t.width)
      (apart : left ≠ right) : Suited t .unite [.column left, .column right]
  | unite {left right : Nat} {separator : String} (inside : left < t.width)
      (insideRight : right < t.width) (apart : left ≠ right) :
      Suited t .unite [.column left, .column right, .constant (.text separator)]
  | compared {op : Operator} {c : Nat} (compares : op.compares = true) (inside : c < t.width) :
      Suited t op [.column c]
  | comparedBy {op : Operator} {c : Nat} {cmp : Comparison} (compares : op.compares = true)
      (inside : c < t.width) (accepts : cmp.accepts (t.kind c) = true) :
      Suited t op [.column c, .comparison cmp]
  | comparedWith {op : Operator} {c : Nat} {cmp : Comparison} {constant : Cell}
      (compares : op.compares = true) (inside : c < t.width)
      (accepts : cmp.accepts (t.kind c) = true) (kind : constant.kind = t.kind c) :
      Suited t op [.column c, .comparison cmp, .constant constant]
  | separate {c : Nat} (inside : c < t.width) (text : t.kind c = .text)
      (separable : t.isSeparable c = true) : Suited t .separate [.column c]
  | spreadKey {key : Nat} (inside : key < t.width) : Suited t .spread [.column key]
  | spread {key value : Nat} (inside : key < t.width) (insideValue : value < t.width)
      (apart : key ≠ value) : Suited t .spread [.column key, .column value]
  | gather {columns : List Nat} (listed : t.Lists columns)
      (shared : t.sharesKind columns = true) : Suited t .gather [.columns columns]
  | gatherNeg {columns : List Nat} (listed : t.Lists columns)
      (shared : t.sharesKind (t.others columns) = true) : Suited t .gatherNeg [.columns columns]
  | grouped {groups : List Nat} (listed : t.Lists groups) :
      Suited t .groupSum [.columns groups]
  | summed {groups : List Nat} {c : Nat} (listed : t.Lists groups) (inside : c < t.width)
      (apart : c ∉ groups) (numeric : t.kind c = .number) :
      Suited t .groupSum [.columns groups, .column c]
  | counted {groups : List Nat} (listed : t.Lists groups) :
      Suited t .groupSum [.columns groups, .rows]
  | groupSum {groups : List Nat} {c : Nat} {f : Aggregate} (listed : t.Lists groups)
      (inside : c < t.width) (apart : c ∉ groups) (numeric : t.kind c = .number) :
      Suited t .groupSum [.columns groups, .column c, .aggregate f]
  | groupCount {groups : List Nat} (listed : t.Lists groups) :
      Suited t .groupSum [.columns groups, .rows, .aggregate .count]
  | cumsum {c : Nat} (inside : c < t.width) (numeric : t.kind c = .number) :
      Suited t .cumsum [.column c]
  | mutateLeft {left : Nat} (inside : left < t.width) (numeric : t.kind left = .number) :
      Suited t .mutate [.column left]
  | mutateBy {left : Nat} {arith : Arithmetic} (inside : left < t.width)
      (numeric : t.kind left = .number) : Suited t .mutate [.column left, .arithmetic arith]
  | mutate {left right : Nat} {arith : Arithmetic} (inside : left < t.width)
      (numeric : t.kind left = .number) (insideRight : right < t.width)
      (numericRight : t.kind right = .number) (apart : left ≠ right) :
      Suited t .mutate [.column left, .arithmetic arith, .column right]

namespace Suited

variable {config : Config} {t : Table} {op : Operator} {given : List Argument}

/-- No domain is refused that is asked for behind arguments that suit. -/
theorem domain_ok (suited : Suited t op given) (room : given.length < op.arity) :
    ∃ values, Step.domain ⟨op, given ++ List.replicate (op.arity - given.length) .hole⟩
      (given.length + 1) t config = .ok values := by
  cases suited with
  | nothing => cases op <;> exact ⟨_, rfl⟩
  | uniteLeft inside | spreadKey inside => exact ⟨_, (Step.column_here_bind inside).mpr rfl⟩
  | compared compares inside | comparedBy compares inside _ =>
    cases op <;> cases compares <;> exact ⟨_, (Step.column_here_bind inside).mpr rfl⟩
  | uniteRight | grouped | summed | counted | mutateLeft => exact ⟨_, rfl⟩
  | @mutateBy left arith inside _ =>
    cases arith <;> exact ⟨_, (Step.column_here_bind inside).mpr rfl⟩
  | select | unite | separate | spread | gather | gatherNeg | groupSum | groupCount | cumsum
  | mutate => exact absurd room (Nat.lt_irrefl _)
  | comparedWith compares _ _ _ => cases op <;> cases compares <;> exact absurd room (Nat.lt_irrefl _)

/-- What is offered for the first position suits. -/
theorem start {values : List Argument}
    (offered : Step.domain ⟨op, List.replicate op.arity .hole⟩ 1 t config = .ok values)
    {value : Argument} (taken : value ∈ values) : Suited t op [value] := by
  cases op with
  | select =>
    cases offered
    obtain ⟨columns, chosen, rfl⟩ := List.mem_map.mp taken
    exact .select (Table.lists_of_choice chosen)
  | groupSum =>
    cases offered
    obtain ⟨columns, chosen, rfl⟩ := List.mem_map.mp taken
    exact .grouped (Table.lists_of_choice chosen)
  | gather =>
    cases offered
    obtain ⟨columns, chosen, rfl⟩ := List.mem_map.mp taken
    obtain ⟨listed, shared⟩ := List.mem_filter.mp chosen
    exact .gather (Table.lists_of_choice listed) shared
  | gatherNeg =>
    cases offered
    obtain ⟨columns, chosen, rfl⟩ := List.mem_map.mp taken
    obtain ⟨listed, shared⟩ := List.mem_filter.mp chosen
    exact .gatherNeg (Table.lists_of_choice listed) shared
  | unite =>
    cases offered
    obtain ⟨c, inside, rfl⟩ := List.mem_map.mp taken
    exact .uniteLeft (List.mem_range.mp inside)
  | spread =>
    cases offered
    obtain ⟨c, inside, rfl⟩ := List.mem_map.mp taken
    exact .spreadKey (List.mem_range.mp inside)
  | filter | mutateCustom =>
    cases offered
    obtain ⟨c, inside, rfl⟩ := List.mem_map.mp taken
    exact .compared rfl (List.mem_range.mp inside)
  | separate =>
    cases offered
    obtain ⟨c, chosen, rfl⟩ := List.mem_map.mp taken
    obtain ⟨text, separable⟩ := List.mem_filter.mp chosen
    obtain ⟨inside, text⟩ := Table.mem_columns_of.mp text
    exact .separate inside text separable
  | cumsum =>
    cases offered
    obtain ⟨c, chosen, rfl⟩ := List.mem_map.mp taken
    obtain ⟨inside, numeric⟩ := Table.mem_columns_of.mp chosen
    exact .cumsum inside numeric
  | mutate =>
    cases offered
    obtain ⟨c, chosen, rfl⟩ := List.mem_map.mp taken
    obtain ⟨inside, numeric⟩ := Table.mem_columns_of.mp chosen
    exact .mutateLeft inside numeric

/-- What a domain offers behind arguments that suit goes on to suit. -/
theorem next (suited : Suited t op given) (room : given.length < op.arity) {values : List Argument}
    (offered : Step.domain ⟨op, given ++ List.replicate (op.arity - given.length) .hole⟩
      (given.length + 1) t config = .ok values) {value : Argument} (taken : value ∈ values) :
    Suited t op (given ++ [value]) := by
  cases suited with
  | nothing => exact start offered taken
  | @uniteLeft left inside =>
    cases (Step.column_here_bind inside).mp offered
    obtain ⟨right, chosen, rfl⟩ := List.mem_map.mp taken
    obtain ⟨insideRight, later⟩ := List.mem_filter.mp chosen
    exact .uniteRight inside (List.mem_range.mp insideRight)
      (Nat.ne_of_lt (of_decide_eq_true later))
  | uniteRight inside insideRight apart =>
    cases offered
    cases List.mem_singleton.mp taken
    exact .unite inside insideRight apart
  | compared compares inside =>
    cases op <;> cases compares <;>
    · cases (Step.column_here_bind inside).mp offered
      obtain ⟨cmp, chosen, rfl⟩ := List.mem_map.mp taken
      exact .comparedBy rfl inside (List.mem_filter.mp chosen).2
  | comparedBy compares inside accepts =>
    cases op <;> cases compares <;>
    · cases (Step.column_here_bind inside).mp offered
      obtain ⟨constant, chosen, rfl⟩ := List.mem_map.mp taken
      exact .comparedWith rfl inside accepts (of_decide_eq_true (List.mem_filter.mp chosen).2)
  | spreadKey inside =>
    cases (Step.column_here_bind inside).mp offered
    obtain ⟨value, chosen, rfl⟩ := List.mem_map.mp taken
    obtain ⟨insideValue, other⟩ := List.mem_filter.mp chosen
    exact .spread inside (List.mem_range.mp insideValue) (Ne.symm (of_decide_eq_true other))
  | grouped listed =>
    cases offered
    rcases List.mem_append.mp taken with column | rows
    · obtain ⟨c, chosen, rfl⟩ := List.mem_map.mp column
      obtain ⟨held, apart⟩ := List.mem_filter.mp chosen
      obtain ⟨inside, numeric⟩ := Table.mem_columns_of.mp held
      exact .summed listed inside (of_decide_eq_true apart) numeric
    · split at rows
      · cases List.mem_singleton.mp rows
        exact .counted listed
      · cases rows
  | summed listed inside apart numeric =>
    cases offered
    obtain ⟨f, -, rfl⟩ := List.mem_map.mp taken
    exact .groupSum listed inside apart numeric
  | counted listed =>
    cases offered
    cases List.mem_singleton.mp taken
    exact .groupCount listed
  | mutateLeft inside numeric =>
    cases offered
    obtain ⟨arith, -, rfl⟩ := List.mem_map.mp taken
    exact .mutateBy inside numeric
  | @mutateBy left arith inside numeric =>
    cases arith with
    | plus =>
      cases (Step.column_here_bind inside).mp offered
      obtain ⟨right, chosen, rfl⟩ := List.mem_map.mp taken
      obtain ⟨held, later⟩ := List.mem_filter.mp chosen
      obtain ⟨insideRight, numericRight⟩ := Table.mem_columns_of.mp held
      exact .mutate inside numeric insideRight numericRight
        (Nat.ne_of_lt (of_decide_eq_true later))
    | minus =>
      cases (Step.column_here_bind inside).mp offered
      obtain ⟨right, chosen, rfl⟩ := List.mem_map.mp taken
      obtain ⟨held, other⟩ := List.mem_filter.mp chosen
      obtain ⟨insideRight, numericRight⟩ := Table.mem_columns_of.mp held
      exact .mutate inside numeric insideRight numericRight (Ne.symm (of_decide_eq_true other))
  | select | unite | separate | spread | gather | gatherNeg | groupSum | groupCount | cumsum
  | mutate => exact absurd room (Nat.lt_irrefl _)
  | comparedWith compares _ _ _ => cases op <;> cases compares <;> exact absurd room (Nat.lt_irrefl _)

/-- A step whose arguments are all there and suit applies, unless it spreads a
table whose rows do not make a full grid. -/
theorem apply_ok (suited : Suited t op given) (total : given.length = op.arity) :
    (∃ out, Step.apply ⟨op, given⟩ t = .ok out) ∨ op = .spread ∧ ∃ reason,
      Step.apply ⟨op, given⟩ t = .error (.inapplicable .spread reason) ∧
        (reason = .nothingToSpread ∨ (∃ cell, reason = .repeatedKey cell) ∨
          reason = .missingCells) := by
  cases suited with
  | select listed =>
    exact .inl ⟨_, Step.ok_of_applied (.select rfl
      (Step.take_listed rfl listed)
      (Table.select_eq_ok.mpr ⟨listed.some, rfl⟩))⟩
  | unite inside insideRight apart =>
    exact .inl ⟨_, Step.ok_of_applied (.unite rfl (Step.take_column_eq_ok.mpr ⟨rfl, inside⟩)
      (Step.take_column_eq_ok.mpr ⟨rfl, insideRight⟩) (Step.take_text_eq_ok.mpr rfl)
      (Table.unite_eq_ok.mpr ⟨apart, rfl⟩))⟩
  | comparedWith compares inside accepts kind =>
    cases op <;> cases compares
    · exact .inl ⟨_, Step.ok_of_applied (.filter rfl (Step.take_column_eq_ok.mpr ⟨rfl, inside⟩)
        (Step.take_comparison_eq_ok.mpr rfl) (Step.take_constant_eq_ok.mpr rfl)
        (Table.filter_eq_ok.mpr ⟨⟨accepts, kind⟩, rfl⟩))⟩
    · exact .inl ⟨_, Step.ok_of_applied (.mutateCustom rfl
        (Step.take_column_eq_ok.mpr ⟨rfl, inside⟩) (Step.take_comparison_eq_ok.mpr rfl)
        (Step.take_constant_eq_ok.mpr rfl)
        (Table.mutate_custom_eq_ok.mpr ⟨⟨accepts, kind⟩, rfl⟩))⟩
  | separate inside text separable =>
    obtain ⟨out, made⟩ := Table.separate_of_separable text separable
    exact .inl ⟨out, Step.ok_of_applied
      (.separate rfl (Step.take_column_eq_ok.mpr ⟨rfl, inside⟩) made)⟩
  | @spread key value inside insideValue apart =>
    cases made : t.spread key value with
    | ok out =>
      exact .inl ⟨out, Step.ok_of_applied (.spread rfl (Step.take_column_eq_ok.mpr ⟨rfl, inside⟩)
        (Step.take_column_eq_ok.mpr ⟨rfl, insideValue⟩) made)⟩
    | error reason =>
      refine .inr ⟨rfl, reason, ?_, Table.spread_eq_error apart made⟩
      have takenKey : Step.takeColumn ⟨.spread, [.column key, .column value]⟩ 1 t.width =
          .ok key := Step.take_column_eq_ok.mpr ⟨rfl, inside⟩
      have takenValue : Step.takeColumn ⟨.spread, [.column key, .column value]⟩ 2 t.width =
          .ok value := Step.take_column_eq_ok.mpr ⟨rfl, insideValue⟩
      simp only [Step.apply, takenKey, takenValue, ok_bind, Step.refusing, made, Except.mapError]
  | gather listed shared =>
    obtain ⟨first, head, same⟩ := Table.shares_kind_iff.mp shared
    exact .inl ⟨_, Step.ok_of_applied (.gather rfl
      (Step.take_listed rfl listed)
      (Table.gather_eq_ok.mpr ⟨first, head, same, rfl⟩))⟩
  | gatherNeg listed shared =>
    obtain ⟨first, head, same⟩ := Table.shares_kind_iff.mp shared
    exact .inl ⟨_, Step.ok_of_applied (.gatherNeg rfl
      (Step.take_listed rfl listed)
      (Table.gather_eq_ok.mpr ⟨first, head, same, rfl⟩))⟩
  | @groupSum groups c f listed inside apart numeric =>
    have target : Step.takeTarget ⟨.groupSum, [.columns groups, .column c, .aggregate f]⟩ 2
        t.width = .ok (some c) := Step.take_target_eq_ok.mpr ⟨rfl, inside⟩
    exact .inl ⟨_, Step.ok_of_applied (.groupSum rfl (Step.take_listed rfl listed) target
      (Step.take_aggregate_eq_ok.mpr rfl)
      (Table.group_sum_eq_ok.mpr ⟨listed.some, ⟨apart, numeric⟩, rfl⟩))⟩
  | @groupCount groups listed =>
    have target : Step.takeTarget ⟨.groupSum, [.columns groups, .rows, .aggregate .count]⟩ 2
        t.width = .ok none := Step.take_target_eq_ok.mpr rfl
    exact .inl ⟨_, Step.ok_of_applied (.groupSum rfl (Step.take_listed rfl listed) target
      (Step.take_aggregate_eq_ok.mpr rfl)
      (Table.group_sum_eq_ok.mpr ⟨listed.some, rfl, rfl⟩))⟩
  | cumsum inside numeric =>
    exact .inl ⟨_, Step.ok_of_applied (.cumsum rfl (Step.take_column_eq_ok.mpr ⟨rfl, inside⟩)
      (Table.cumsum_eq_ok.mpr ⟨numeric, rfl⟩))⟩
  | mutate inside numeric insideRight numericRight apart =>
    exact .inl ⟨_, Step.ok_of_applied (.mutate rfl (Step.take_column_eq_ok.mpr ⟨rfl, inside⟩)
      (Step.take_arithmetic_eq_ok.mpr rfl) (Step.take_column_eq_ok.mpr ⟨rfl, insideRight⟩)
      (Table.mutate_eq_ok.mpr ⟨⟨apart, numeric, numericRight⟩, rfl⟩))⟩
  | nothing => cases op <;> cases total
  | uniteLeft | uniteRight | spreadKey | grouped | summed | counted | mutateLeft | mutateBy =>
    cases total
  | compared compares | comparedBy compares => cases op <;> cases compares <;> cases total

end Suited

/-- **What is drawn suits.** -/
theorem Drawing.suited {config : Config} {t : Table} {op : Operator} {given : List Argument}
    (drawn : Drawing config t op given) : Suited t op given := by
  induction drawn with
  | nothing => exact .nothing
  | next _ room offered taken ih => exact ih.next room offered taken

end Reshape

import Mathlib.Data.List.Forall2
import Reshape.Program.Evaluation

/-! What the success of a step says. A step that applies has arguments of the
right kinds in range, and its value is what its operator makes of them; nothing
else can succeed. Later modules argue by these cases and open neither the
reading of arguments nor the operators themselves. -/
namespace Reshape

section Outcomes

variable {ε ε' α β : Type}

@[simp] theorem bind_eq_ok {x : Except ε α} {f : α → Except ε β} {b : β} :
    (x >>= f) = .ok b ↔ ∃ a, x = .ok a ∧ f a = .ok b := by
  cases x <;> simp [bind, Except.bind]

theorem bind_eq_error {x : Except ε α} {f : α → Except ε β} {e : ε} :
    (x >>= f) = .error e ↔ x = .error e ∨ ∃ a, x = .ok a ∧ f a = .error e := by
  cases x <;> simp [bind, Except.bind]

theorem ok_bind (a : α) (f : α → Except ε β) : (Except.ok a >>= f) = f a := rfl

@[simp] theorem pure_eq_ok {a b : α} : (pure a : Except ε α) = .ok b ↔ a = b := by
  simp [pure, Except.pure]

@[simp] theorem map_eq_ok {x : Except ε α} {f : α → β} {b : β} :
    x.map f = .ok b ↔ ∃ a, x = .ok a ∧ f a = b := by
  cases x <;> simp [Except.map]

@[simp] theorem map_error_eq_ok {x : Except ε α} {f : ε → ε'} {a : α} :
    x.mapError f = .ok a ↔ x = .ok a := by
  cases x <;> simp [Except.mapError]

@[simp] theorem throw_eq_ok {e : ε} {a : α} : (throw e : Except ε α) = .ok a ↔ False := by
  simp [throw, throwThe, MonadExceptOf.throw]

/-- A guard that throws lets the rest run only when its condition fails. -/
theorem guard_eq_ok {p : Prop} [Decidable p] {e : ε} {rest : Unit → Except ε α} {a : α} :
    (if p then throw e >>= rest else rest ()) = .ok a ↔ ¬ p ∧ rest () = .ok a := by
  by_cases holds : p <;> simp [holds]

theorem forall₂_congr {R S : α → β → Prop} (same : ∀ a b, R a b ↔ S a b) {l : List α}
    {l' : List β} : List.Forall₂ R l l' ↔ List.Forall₂ S l l' :=
  ⟨List.Forall₂.imp fun a b => (same a b).mp, List.Forall₂.imp fun a b => (same a b).mpr⟩

theorem forall₂_exists_right {R : α → β → Prop} {l : List α} {l' : List β}
    (pairs : List.Forall₂ R l l') {a : α} (member : a ∈ l) : ∃ b ∈ l', R a b := by
  obtain ⟨i, inside, rfl⟩ := List.getElem_of_mem member
  obtain ⟨size, each⟩ := List.forall₂_iff_get.mp pairs
  exact ⟨_, List.getElem_mem (size ▸ inside), each i inside (size ▸ inside)⟩

theorem forall₂_exists_left {R : α → β → Prop} {l : List α} {l' : List β}
    (pairs : List.Forall₂ R l l') {b : β} (member : b ∈ l') : ∃ a ∈ l, R a b :=
  forall₂_exists_right pairs.flip member

theorem exists_forall₂_iff {R : α → β → Prop} {l : List α} :
    (∃ l', List.Forall₂ R l l') ↔ ∀ a ∈ l, ∃ b, R a b := by
  constructor
  · rintro ⟨l', pairs⟩ a member
    obtain ⟨b, -, holds⟩ := forall₂_exists_right pairs member
    exact ⟨b, holds⟩
  · intro each
    induction l with
    | nil => exact ⟨[], .nil⟩
    | cons a rest ih =>
      obtain ⟨⟨b, holds⟩, each⟩ := List.forall_mem_cons.mp each
      obtain ⟨l', pairs⟩ := ih each
      exact ⟨b :: l', .cons holds pairs⟩

theorem map_eq_of_forall₂ {γ : Type} {f : α → γ} {g : β → γ} {l : List α} {l' : List β}
    (pairs : List.Forall₂ (fun a b => f a = g b) l l') : l.map f = l'.map g := by
  induction pairs with
  | nil => rfl
  | cons same _ ih => rw [List.map_cons, List.map_cons, same, ih]

theorem forall₂_mem {R : α → β → Prop} {l : List α} {l' : List β} (pairs : List.Forall₂ R l l') :
    List.Forall₂ (fun a b => a ∈ l ∧ b ∈ l' ∧ R a b) l l' := by
  obtain ⟨size, each⟩ := List.forall₂_iff_get.mp pairs
  exact List.forall₂_iff_get.mpr ⟨size, fun i inside inside' =>
    ⟨List.getElem_mem inside, List.getElem_mem inside', each i inside inside'⟩⟩

/-- A list of computations succeeds with the list of their results. -/
theorem map_m_eq_ok {f : α → Except ε β} {l : List α} {results : List β} :
    l.mapM f = .ok results ↔ List.Forall₂ (fun a b => f a = .ok b) l results := by
  induction l generalizing results with
  | nil => simp [pure, Except.pure, eq_comm]
  | cons a rest ih =>
    simp only [List.mapM_cons, bind_eq_ok, pure_eq_ok, ih]
    constructor
    · rintro ⟨b, head, tail, others, rfl⟩
      exact .cons head others
    · rintro (_ | ⟨head, others⟩)
      exact ⟨_, head, _, others, rfl⟩

/-- The first element with a property, where all those before it have another one. -/
theorem exists_split_cons {p q : α → Prop} {a : α} {rest : List α} :
    (∃ before b after, a :: rest = before ++ b :: after ∧ (∀ c ∈ before, p c) ∧ q b) ↔
      q a ∨ p a ∧ ∃ before b after, rest = before ++ b :: after ∧ (∀ c ∈ before, p c) ∧ q b := by
  constructor
  · rintro ⟨before, b, after, split, passed, found⟩
    cases before with
    | nil =>
      obtain ⟨rfl, rfl⟩ := List.cons.inj split
      exact .inl found
    | cons c before =>
      obtain ⟨rfl, rfl⟩ := List.cons.inj split
      obtain ⟨here, passed⟩ := List.forall_mem_cons.mp passed
      exact .inr ⟨here, before, b, after, rfl, passed, found⟩
  · rintro (found | ⟨here, before, b, after, rfl, passed, found⟩)
    · exact ⟨[], a, rest, rfl, nofun, found⟩
    · exact ⟨a :: before, b, after, rfl, List.forall_mem_cons.mpr ⟨here, passed⟩, found⟩

/-- A list of computations fails with the first of them that does. -/
theorem map_m_eq_error_iff {f : α → Except ε β} {l : List α} {e : ε} :
    l.mapM f = .error e ↔ ∃ before a after, l = before ++ a :: after ∧
      (∀ b ∈ before, ∃ result, f b = .ok result) ∧ f a = .error e := by
  induction l with
  | nil => simp [pure, Except.pure]
  | cons a rest ih =>
    rw [List.mapM_cons, bind_eq_error, exists_split_cons, ← ih]
    simp [bind_eq_error, pure, Except.pure]

theorem map_m_eq_error {f : α → Except ε β} {l : List α} {e : ε} (failed : l.mapM f = .error e) :
    ∃ a ∈ l, f a = .error e := by
  obtain ⟨before, a, after, rfl, -, failed⟩ := map_m_eq_error_iff.mp failed
  exact ⟨a, List.mem_append_right _ List.mem_cons_self, failed⟩

/-- The same for computations that may have no result. -/
theorem map_m_eq_some {f : α → Option β} {l : List α} {results : List β} :
    l.mapM f = some results ↔ List.Forall₂ (fun a b => f a = some b) l results := by
  induction l generalizing results with
  | nil => simp [eq_comm]
  | cons a rest ih =>
    simp only [List.mapM_cons, Option.bind_eq_bind, Option.bind_eq_some_iff, Option.pure_def,
      Option.some.injEq, ih]
    constructor
    · rintro ⟨b, head, tail, others, rfl⟩
      exact .cons head others
    · rintro (_ | ⟨head, others⟩)
      exact ⟨_, head, _, others, rfl⟩

/-- Computations that succeed with the values of a function have these as their results. -/
theorem map_m_ok {f : α → Except ε β} {g : α → β} {l : List α}
    (each : ∀ a ∈ l, f a = .ok (g a)) : l.mapM f = .ok (l.map g) :=
  map_m_eq_ok.mpr (List.forall₂_map_right_iff.mpr (List.forall₂_same.mpr each))

theorem map_m_some {f : α → Option β} {g : α → β} {l : List α} (each : ∀ a ∈ l, f a = some (g a)) :
    l.mapM f = some (l.map g) :=
  map_m_eq_some.mpr (List.forall₂_map_right_iff.mpr (List.forall₂_same.mpr each))

end Outcomes

namespace Table

variable {t out : Table}

theorem select_eq_ok {columns : List Nat} :
    t.select columns = .ok out ↔ columns ≠ [] ∧ t.project columns = out := by
  by_cases none : columns = [] <;> simp [select, none]

theorem unite_eq_ok {left right : Nat} {separator : String} :
    t.unite left right separator = .ok out ↔ left ≠ right ∧
      t.splice left [right] [(t.newName (t.name left ++ separator ++ t.name right), .text)]
        (t.rows.map fun row => [joinCells separator (row.at left) (row.at right)]) = out := by
  by_cases same : left = right <;> simp [unite, same]

theorem require_comparable_eq_ok {column : Nat} {op : Comparison} {constant : Cell} {u : Unit} :
    t.requireComparable column op constant = .ok u ↔
      op.accepts (t.kind column) = true ∧ constant.kind = t.kind column := by
  rw [requireComparable]
  split <;> simp_all

theorem filter_eq_ok {column : Nat} {op : Comparison} {constant : Cell} :
    t.filter column op constant = .ok out ↔
      (op.accepts (t.kind column) = true ∧ constant.kind = t.kind column) ∧
        { t with rows := t.rows.filter fun row =>
          op.holds? (row.at column) constant = some true } = out := by
  simp only [filter, bind_eq_ok, require_comparable_eq_ok, exists_const, pure_eq_ok]

/-- Separation succeeds on a text column whose every cell has a separator. -/
theorem separate_eq_ok {column : Nat} :
    t.separate column = .ok out ↔ t.kind column = .text ∧ ∃ parts,
      List.Forall₂ (fun cell part =>
        Text.splitFirst? (· ∈ Text.separators) (cellText cell) = some part)
        (t.column column) parts ∧ t.splitColumn column parts = out := by
  simp only [separate, guard_eq_ok, bind_eq_ok, map_m_eq_ok, pure_eq_ok, ne_eq, not_not]
  refine and_congr_right fun _ => exists_congr fun parts => and_congr_left fun _ => ?_
  refine forall₂_congr fun cell part => ?_
  split <;> simp_all

theorem require_numeric_eq_ok {column : Nat} {u : Unit} :
    t.requireNumeric column = .ok u ↔ t.kind column = .number := by
  by_cases numeric : t.kind column = .number <;> simp [requireNumeric, numeric]

theorem cumsum_eq_ok {column : Nat} :
    t.cumsum column = .ok out ↔ t.kind column = .number ∧
      t.append (t.newName "cumsum") .number
        ((runningTotals 0 ((t.column column).map cellNumber)).map Cell.number) = out := by
  simp only [cumsum, bind_eq_ok, require_numeric_eq_ok, exists_const, pure_eq_ok]

theorem mutate_eq_ok {left right : Nat} {op : Arithmetic} :
    t.mutate left op right = .ok out ↔
      (left ≠ right ∧ t.kind left = .number ∧ t.kind right = .number) ∧
        t.append (t.newName (t.name left ++ op.symbol ++ t.name right)) .number
          (t.rows.map fun row =>
            .number (op.apply (cellNumber (row.at left)) (cellNumber (row.at right)))) = out := by
  simp only [mutate, guard_eq_ok, bind_eq_ok, require_numeric_eq_ok, exists_const, pure_eq_ok,
    and_assoc, ne_eq]

theorem mutate_custom_eq_ok {column : Nat} {op : Comparison} {constant : Cell} :
    t.mutateCustom column op constant = .ok out ↔
      (op.accepts (t.kind column) = true ∧ constant.kind = t.kind column) ∧
        t.append (t.newName (t.name column ++ op.symbol ++ constant.display)) .boolean
          ((t.column column).map fun cell =>
            .boolean (op.holds? cell constant = some true)) = out := by
  simp only [mutateCustom, bind_eq_ok, require_comparable_eq_ok, exists_const, pure_eq_ok]

/-- Gathering succeeds on at least one column, all of one kind. -/
theorem gather_eq_ok {melted : List Nat} :
    t.gather melted = .ok out ↔ ∃ first, melted.head? = some first ∧
      (∀ c ∈ melted, t.kind c = t.kind first) ∧
      { columns := (t.others melted).map t.name ++
          ((Text.Names.reserving t.columns).claimAll ["KEY", "VALUE"]).1
        kinds := (t.others melted).map t.kind ++ [.text, t.kind first]
        rows := melted.flatMap fun c =>
          t.rows.map fun row => row.pick (t.others melted) ++ [.text (t.name c), row.at c] } = out := by
  cases melted with
  | nil => simp [gather]
  | cons first rest =>
    have test : (first :: rest).any (fun c => t.kind c ≠ t.kind first) = true ↔
        ¬ ∀ c ∈ first :: rest, t.kind c = t.kind first := by simp
    simp only [gather, List.head?_cons, Option.some.injEq, exists_eq_left']
    by_cases same : ∀ c ∈ first :: rest, t.kind c = t.kind first
    · rw [if_neg fun mixed => test.mp mixed same]
      simp only [Except.ok.injEq]
      exact (and_iff_right same).symm
    · rw [if_pos (test.mpr same)]
      exact ⟨nofun, fun held => absurd held.1 same⟩

/-- Spreading succeeds when no pair of group and key repeats and none is
missing. Each row of the result stands for a group and reads one cell per key
from the rows themselves. -/
theorem spread_eq_ok {key value : Nat} :
    t.spread key value = .ok out ↔ key ≠ value ∧
      let index := t.others [key, value]
      let placed := t.rows.map (place index key)
      let keys := firstsBy Placed.key placed
      firstRepeat (fun p => (p.group, p.key)) [] placed = none ∧ placed ≠ [] ∧ ∃ rows,
        List.Forall₂ (fun g row => ∃ cells,
          List.Forall₂ (fun k cell => ∃ p,
            placed.find? (fun p => p.group = g.group ∧ p.key = k.key) = some p ∧
              p.row.at value = cell) keys cells ∧
          g.row.pick index ++ cells = row) (firstsBy Placed.group placed) rows ∧
        { columns := index.map t.name ++ ((Text.Names.reserving (index.map t.name)).claimAll
            (keys.map fun k => (k.row.at key).display)).1
          kinds := index.map t.kind ++ keys.map fun _ => t.kind value
          rows } = out := by
  rw [spread, guard_eq_ok]
  refine and_congr_right fun _ => ?_
  dsimp only
  cases repeated : firstRepeat (fun p : Placed => (p.group, p.key)) []
      (t.rows.map (place (t.others [key, value]) key)) with
  | some p => simp
  | none =>
    simp only [guard_eq_ok, bind_eq_ok, map_m_eq_ok, pure_eq_ok, true_and]
    refine and_congr_right fun _ => exists_congr fun rows => and_congr_left fun _ => ?_
    refine forall₂_congr fun g row => exists_congr fun cells => and_congr_left fun _ => ?_
    refine forall₂_congr fun k cell => ?_
    split
    · rename_i p found
      simp only [found, Except.ok.injEq, Option.some.injEq, exists_eq_left']
    · rename_i missing
      simp only [missing, reduceCtorEq, false_and, exists_false]

/-- Spreading different columns fails for three reasons only. -/
theorem spread_eq_error {key value : Nat} {reason : Refusal} (different : key ≠ value)
    (failed : t.spread key value = .error reason) :
    reason = .nothingToSpread ∨ (∃ cell, reason = .repeatedKey cell) ∨ reason = .missingCells := by
  rw [spread, if_neg different] at failed
  dsimp only at failed
  split at failed
  · rename_i p _
    cases failed
    exact .inr (.inl ⟨_, rfl⟩)
  · split at failed
    · cases failed
      exact .inl rfl
    · rcases bind_eq_error.mp failed with grid | ⟨rows, -, ended⟩
      · obtain ⟨g, -, incomplete⟩ := map_m_eq_error grid
        rcases bind_eq_error.mp incomplete with missing | ⟨cells, -, ended⟩
        · obtain ⟨k, -, lacks⟩ := map_m_eq_error missing
          split at lacks
          · cases lacks
          · cases lacks
            exact .inr (.inr rfl)
        · cases ended
      · cases ended

/-- Summarizing succeeds on at least one group column, with a numeric column
outside of them, or with the rows themselves when they are counted. -/
theorem group_sum_eq_ok {groups : List Nat} {target : Option Nat} {f : Aggregate} :
    t.groupSum groups target f = .ok out ↔ groups ≠ [] ∧
      (match target with
        | none => f = .count
        | some c => c ∉ groups ∧ t.kind c = .number) ∧
      { columns := groups.map t.name ++ [t.newName (match target with
          | none => "count"
          | some c => f.name ++ "_" ++ t.name c)]
        kinds := groups.map t.kind ++ [.number]
        rows := (firstsBy (fun row => (row.pick groups).key) t.rows).map fun row =>
          row.pick groups ++ [.number (f.apply ((t.rowsLike groups row).map fun row =>
            match target with
            | none => 1
            | some c => ((row.at c).number?).getD 1))] } = out := by
  rw [groupSum, guard_eq_ok]
  refine and_congr_right fun _ => ?_
  cases target with
  | none => by_cases counted : f = .count <;> simp [counted]
  | some c =>
    by_cases grouped : c ∈ groups
    · simp [grouped]
    · simp only [grouped, ↓reduceIte, bind_eq_ok, map_eq_ok, require_numeric_eq_ok, pure_eq_ok]
      simp

end Table

namespace Step

variable {step : Step} {position width : Nat}

theorem required_eq_ok {argument : Argument} :
    step.required position = .ok argument ↔
      step.argument? position = some argument ∧ argument ≠ .hole := by
  rw [required]
  split <;> simp_all
  rintro rfl
  assumption

theorem check_column_eq_ok {column c : Nat} :
    step.checkColumn width column = .ok c ↔ column < width ∧ column = c := by
  by_cases inside : column < width <;> simp [checkColumn, inside]

theorem take_column_eq_ok {c : Nat} :
    step.takeColumn position width = .ok c ↔
      step.argument? position = some (.column c) ∧ c < width := by
  simp only [takeColumn, bind_eq_ok, required_eq_ok]
  constructor
  · rintro ⟨argument, ⟨read, -⟩, taken⟩
    cases argument with
    | column d =>
      obtain ⟨inside, rfl⟩ := check_column_eq_ok.mp taken
      exact ⟨read, inside⟩
    | _ => simp at taken
  · rintro ⟨read, inside⟩
    exact ⟨.column c, ⟨read, by simp⟩, check_column_eq_ok.mpr ⟨inside, rfl⟩⟩

/-- Columns that are taken are in range and all different. -/
theorem take_columns_eq_ok {columns : List Nat} :
    step.takeColumns position width = .ok columns ↔
      step.argument? position = some (.columns columns) ∧
        (∀ c ∈ columns, c < width) ∧ columns.Nodup := by
  simp only [takeColumns, bind_eq_ok, required_eq_ok]
  constructor
  · rintro ⟨argument, ⟨read, -⟩, taken⟩
    cases argument with
    | columns listed =>
      dsimp only at taken
      split at taken
      · cases taken
      · rename_i inside
        split at taken
        · rename_i different
          cases taken
          exact ⟨read, by simpa using inside, different⟩
        · cases taken
    | _ => simp at taken
  · rintro ⟨read, inside, different⟩
    refine ⟨.columns columns, ⟨read, by simp⟩, ?_⟩
    have absent : columns.find? (width ≤ ·) = none := by simpa using inside
    simp [absent, different]

theorem take_constant_eq_ok {cell : Cell} :
    step.takeConstant position = .ok cell ↔ step.argument? position = some (.constant cell) := by
  simp only [takeConstant, bind_eq_ok, required_eq_ok]
  constructor
  · rintro ⟨argument, ⟨read, -⟩, taken⟩
    cases argument <;> simp_all
  · exact fun read => ⟨_, ⟨read, by simp⟩, rfl⟩

theorem take_comparison_eq_ok {op : Comparison} :
    step.takeComparison position = .ok op ↔ step.argument? position = some (.comparison op) := by
  simp only [takeComparison, bind_eq_ok, required_eq_ok]
  constructor
  · rintro ⟨argument, ⟨read, -⟩, taken⟩
    cases argument <;> simp_all
  · exact fun read => ⟨_, ⟨read, by simp⟩, rfl⟩

theorem take_arithmetic_eq_ok {op : Arithmetic} :
    step.takeArithmetic position = .ok op ↔ step.argument? position = some (.arithmetic op) := by
  simp only [takeArithmetic, bind_eq_ok, required_eq_ok]
  constructor
  · rintro ⟨argument, ⟨read, -⟩, taken⟩
    cases argument <;> simp_all
  · exact fun read => ⟨_, ⟨read, by simp⟩, rfl⟩

theorem take_aggregate_eq_ok {f : Aggregate} :
    step.takeAggregate position = .ok f ↔ step.argument? position = some (.aggregate f) := by
  simp only [takeAggregate, bind_eq_ok, required_eq_ok]
  constructor
  · rintro ⟨argument, ⟨read, -⟩, taken⟩
    cases argument <;> simp_all
  · exact fun read => ⟨_, ⟨read, by simp⟩, rfl⟩

theorem take_text_eq_ok {text : String} :
    step.takeText position = .ok text ↔
      step.argument? position = some (.constant (.text text)) := by
  simp only [takeText, bind_eq_ok, take_constant_eq_ok]
  constructor
  · rintro ⟨cell, read, taken⟩
    cases cell <;> simp_all
  · exact fun read => ⟨_, read, rfl⟩

/-- What a summary reads: the rows themselves, or a column in range. -/
theorem take_target_eq_ok {target : Option Nat} :
    step.takeTarget position width = .ok target ↔
      match target with
      | none => step.argument? position = some .rows
      | some c => step.argument? position = some (.column c) ∧ c < width := by
  simp only [takeTarget, bind_eq_ok, required_eq_ok]
  constructor
  · rintro ⟨argument, ⟨read, -⟩, taken⟩
    cases argument with
    | rows =>
      cases taken
      exact read
    | column d =>
      simp only [map_eq_ok, check_column_eq_ok] at taken
      obtain ⟨c, ⟨inside, rfl⟩, rfl⟩ := taken
      exact ⟨read, inside⟩
    | _ => simp at taken
  · cases target with
    | none => exact fun read => ⟨.rows, ⟨read, by simp⟩, rfl⟩
    | some c =>
      rintro ⟨read, inside⟩
      refine ⟨.column c, ⟨read, by simp⟩, ?_⟩
      simp [checkColumn, inside, Except.map]

/-- The ways in which a step succeeds on a table, one for each operator. -/
inductive Applied (step : Step) (t : Table) : Table → Prop
  | select {columns : List Nat} {out : Table} (op : step.operator = .select)
      (taken : step.takeColumns 1 t.width = .ok columns)
      (made : t.select columns = .ok out) : Applied step t out
  | unite {left right : Nat} {separator : String} {out : Table} (op : step.operator = .unite)
      (takenLeft : step.takeColumn 1 t.width = .ok left)
      (takenRight : step.takeColumn 2 t.width = .ok right)
      (takenText : step.takeText 3 = .ok separator)
      (made : t.unite left right separator = .ok out) : Applied step t out
  | filter {column : Nat} {cmp : Comparison} {constant : Cell} {out : Table}
      (op : step.operator = .filter) (taken : step.takeColumn 1 t.width = .ok column)
      (takenComparison : step.takeComparison 2 = .ok cmp)
      (takenConstant : step.takeConstant 3 = .ok constant)
      (made : t.filter column cmp constant = .ok out) : Applied step t out
  | separate {column : Nat} {out : Table} (op : step.operator = .separate)
      (taken : step.takeColumn 1 t.width = .ok column)
      (made : t.separate column = .ok out) : Applied step t out
  | spread {key value : Nat} {out : Table} (op : step.operator = .spread)
      (takenKey : step.takeColumn 1 t.width = .ok key)
      (takenValue : step.takeColumn 2 t.width = .ok value)
      (made : t.spread key value = .ok out) : Applied step t out
  | gather {melted : List Nat} {out : Table} (op : step.operator = .gather)
      (taken : step.takeColumns 1 t.width = .ok melted)
      (made : t.gather melted = .ok out) : Applied step t out
  | gatherNeg {kept : List Nat} {out : Table} (op : step.operator = .gatherNeg)
      (taken : step.takeColumns 1 t.width = .ok kept)
      (made : t.gather (t.others kept) = .ok out) : Applied step t out
  | groupSum {groups : List Nat} {target : Option Nat} {f : Aggregate} {out : Table}
      (op : step.operator = .groupSum) (taken : step.takeColumns 1 t.width = .ok groups)
      (takenTarget : step.takeTarget 2 t.width = .ok target)
      (takenAggregate : step.takeAggregate 3 = .ok f)
      (made : t.groupSum groups target f = .ok out) : Applied step t out
  | cumsum {column : Nat} {out : Table} (op : step.operator = .cumsum)
      (taken : step.takeColumn 1 t.width = .ok column)
      (made : t.cumsum column = .ok out) : Applied step t out
  | mutate {left right : Nat} {arith : Arithmetic} {out : Table} (op : step.operator = .mutate)
      (takenLeft : step.takeColumn 1 t.width = .ok left)
      (takenArithmetic : step.takeArithmetic 2 = .ok arith)
      (takenRight : step.takeColumn 3 t.width = .ok right)
      (made : t.mutate left arith right = .ok out) : Applied step t out
  | mutateCustom {column : Nat} {cmp : Comparison} {constant : Cell} {out : Table}
      (op : step.operator = .mutateCustom) (taken : step.takeColumn 1 t.width = .ok column)
      (takenComparison : step.takeComparison 2 = .ok cmp)
      (takenConstant : step.takeConstant 3 = .ok constant)
      (made : t.mutateCustom column cmp constant = .ok out) : Applied step t out

/-- A successful application is one of them. -/
theorem applied_of_ok {t out : Table} (ran : step.apply t = .ok out) : step.Applied t out := by
  cases op : step.operator <;> simp only [apply, op, bind_eq_ok, refusing, map_error_eq_ok] at ran
  case select =>
    obtain ⟨columns, taken, made⟩ := ran
    exact .select op taken made
  case unite =>
    obtain ⟨left, takenLeft, right, takenRight, separator, takenText, made⟩ := ran
    exact .unite op takenLeft takenRight takenText made
  case filter =>
    obtain ⟨column, taken, cmp, takenComparison, constant, takenConstant, made⟩ := ran
    exact .filter op taken takenComparison takenConstant made
  case separate =>
    obtain ⟨column, taken, made⟩ := ran
    exact .separate op taken made
  case spread =>
    obtain ⟨key, takenKey, value, takenValue, made⟩ := ran
    exact .spread op takenKey takenValue made
  case gather =>
    obtain ⟨melted, taken, made⟩ := ran
    exact .gather op taken made
  case gatherNeg =>
    obtain ⟨kept, taken, made⟩ := ran
    exact .gatherNeg op taken made
  case groupSum =>
    obtain ⟨groups, taken, target, takenTarget, f, takenAggregate, made⟩ := ran
    exact .groupSum op taken takenTarget takenAggregate made
  case cumsum =>
    obtain ⟨column, taken, made⟩ := ran
    exact .cumsum op taken made
  case mutate =>
    obtain ⟨left, takenLeft, arith, takenArithmetic, right, takenRight, made⟩ := ran
    exact .mutate op takenLeft takenArithmetic takenRight made
  case mutateCustom =>
    obtain ⟨column, taken, cmp, takenComparison, constant, takenConstant, made⟩ := ran
    exact .mutateCustom op taken takenComparison takenConstant made

/-- And each of them is a successful application. -/
theorem ok_of_applied {t out : Table} (applied : step.Applied t out) : step.apply t = .ok out := by
  rw [apply]
  cases applied with
  | select op taken made => simp only [op, taken, ok_bind, refusing, made, Except.mapError]
  | unite op takenLeft takenRight takenText made =>
    simp only [op, takenLeft, takenRight, takenText, ok_bind, refusing, made, Except.mapError]
  | filter op taken takenComparison takenConstant made
  | mutateCustom op taken takenComparison takenConstant made =>
    simp only [op, taken, takenComparison, takenConstant, ok_bind, refusing, made, Except.mapError]
  | separate op taken made => simp only [op, taken, ok_bind, refusing, made, Except.mapError]
  | spread op takenKey takenValue made =>
    simp only [op, takenKey, takenValue, ok_bind, refusing, made, Except.mapError]
  | gather op taken made | gatherNeg op taken made =>
    simp only [op, taken, ok_bind, refusing, made, Except.mapError]
  | groupSum op taken takenTarget takenAggregate made =>
    simp only [op, taken, takenTarget, takenAggregate, ok_bind, refusing, made, Except.mapError]
  | cumsum op taken made => simp only [op, taken, ok_bind, refusing, made, Except.mapError]
  | mutate op takenLeft takenArithmetic takenRight made =>
    simp only [op, takenLeft, takenArithmetic, takenRight, ok_bind, refusing, made, Except.mapError]

end Step
end Reshape

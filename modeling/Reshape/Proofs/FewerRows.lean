import Reshape.Proofs.Completeness

/-! Asking for fewer rows. Where the operators neither join nor separate texts,
the rules drop columns, keep requirements or put columns below each other, and
keep each row once. Each of these asks for less when less is asked of it, so
every chain of requirements of a target stands above one of a target with fewer
of its rows, and no program is lost. -/
namespace Reshape

open scoped List

namespace Table

variable {r r' t t' : Table}

/-- Asks for some of the rows of another table, in columns of the same kinds. -/
structure Fewer (r r' : Table) : Prop extends r.SameKinds r' where
  keys : r'.keys <+~ r.keys

/-- Fewer rows are included wherever all of them are. -/
theorem Fewer.included (fewer : r.Fewer r') (included : r.includedIn t = true) :
    r'.includedIn t = true := by
  obtain ⟨mapping, found⟩ := included_in_iff.mp included
  exact included_of_subperm (found.total.trans fewer.width.symm) found.different found.inRange
    (fewer.keys.trans found.subperm)

/-- A table with the same columns and the same keys stands for another. -/
theorem Fewer.of_canonical (fewer : r.Fewer r') {other : Table}
    (same : other.canonical = r'.canonical) : r.Fewer other := by
  have columns : other.columns = r'.columns := (congrArg Table.columns same :)
  have kinds : other.kinds = r'.kinds := (congrArg Table.kinds same :)
  have keys : other.keys = r'.keys := by rw [← keys_canonical, same, keys_canonical]
  refine ⟨⟨?_, kinds.trans fewer.kinds⟩, keys ▸ fewer.keys⟩
  rw [← fewer.width, Table.width, Table.width, columns]

/-- Where each row is kept once, it is enough that each row has its like. -/
theorem dedup_keys_subperm (like : ∀ row' ∈ t'.rows, ∃ row ∈ t.rows, row.key = row'.key) :
    t'.dedup.keys <+~ t.dedup.keys := by
  refine List.subperm_of_subset (firsts_by_distinct Row.key t'.rows) fun key member => ?_
  obtain ⟨row', first, rfl⟩ := List.mem_map.mp member
  obtain ⟨row, held, same⟩ := like row' (mem_firsts_by first)
  obtain ⟨kept, stands, value⟩ := firsts_by_represent Row.key held
  exact List.mem_map.mpr ⟨kept, stands, value.trans same⟩

namespace Fewer

variable (fewer : r.Fewer r')
include fewer

/-- Each row has its like. -/
theorem like {row' : Row} (held : row' ∈ r'.rows) : ∃ row ∈ r.rows, row.key = row'.key :=
  List.mem_map.mp (fewer.keys.subset (List.mem_map_of_mem held))

theorem without (gone : List Nat) : (r.without gone).Fewer (r'.without gone) := by
  refine ⟨⟨?_, ?_⟩, dedup_keys_subperm fun picked member => ?_⟩
  · simp [Table.without, drop, project, dedup, Table.width, fewer.others]
  · simp [Table.without, drop, project, dedup, fewer.others, fewer.kind]
  · obtain ⟨row', held, rfl⟩ := List.mem_map.mp member
    obtain ⟨row, stands, same⟩ := fewer.like held
    refine ⟨_, List.mem_map_of_mem stands, ?_⟩
    rw [key_pick, same, ← key_pick, fewer.others]

/-- Columns are put below each other in the same way, and row by row. -/
theorem molten {ids : List Nat} (made : r.molten? ids = some t) :
    ∃ t', r'.molten? ids = some t' ∧ t.Fewer t' := by
  unfold molten? at made ⊢
  rw [fewer.others]
  cases beside : r.others ids with
  | nil => simp [beside] at made
  | cons first rest =>
    simp only [beside, fewer.kind] at made ⊢
    split at made
    · cases made
    · rename_i same
      rw [if_neg same]
      cases made
      refine ⟨_, rfl, ⟨by simp [dedup, Table.width], by simp [dedup, fewer.kind]⟩,
        dedup_keys_subperm fun row' member => ?_⟩
      obtain ⟨wide', held, member⟩ := List.mem_flatMap.mp member
      obtain ⟨c, chosen, rfl⟩ := List.mem_map.mp member
      obtain ⟨wide, stands, alike⟩ := fewer.like held
      refine ⟨_, List.mem_flatMap.mpr ⟨wide, stands, List.mem_map_of_mem chosen⟩, ?_⟩
      have byKey (row : Row) :
          (row.pick ids ++ [row.at c]).key = row.key.pick ids ++ [row.key.at c] := by
        rw [← key_pick, key_at]
        exact List.map_append
      rw [byKey, alike, ← byKey]

end Fewer

end Table

open Table (Fewer)

variable {op : Operator} {r r' : Table}

/-- What is handed down for more rows has its counterpart for fewer. -/
theorem Operator.undone_fewer (fewer : r.Fewer r') (plain : op ≠ .unite ∧ op ≠ .separate)
    {next : Table} (made : next ∈ op.undone r) : ∃ next' ∈ op.undone r', next.Fewer next' := by
  have dropped {kind : Kind} (member : next ∈ (r.columnsOf kind).map fun c => r.without [c]) :
      ∃ next' ∈ (r'.columnsOf kind).map fun c => r'.without [c], next.Fewer next' := by
    obtain ⟨c, chosen, rfl⟩ := List.mem_map.mp member
    rw [← fewer.columns_of] at chosen
    exact ⟨_, List.mem_map_of_mem chosen, fewer.without [c]⟩
  cases op with
  | unite => exact absurd rfl plain.1
  | separate => exact absurd rfl plain.2
  | select | filter =>
    cases List.mem_singleton.mp made
    exact ⟨r', List.mem_cons_self, fewer⟩
  | spread =>
    obtain ⟨k, within, member⟩ := List.mem_flatMap.mp made
    obtain ⟨ids, chosen, long⟩ := List.mem_filterMap.mp member
    obtain ⟨next', made', less⟩ := fewer.molten long
    rw [← fewer.width] at within chosen
    exact ⟨next', List.mem_flatMap.mpr ⟨k, within, List.mem_filterMap.mpr ⟨ids, chosen, made'⟩⟩,
      less⟩
  | gather | gatherNeg =>
    obtain ⟨pair, chosen, rfl⟩ := List.mem_map.mp made
    refine ⟨r'.without pair, List.mem_map_of_mem ?_, fewer.without pair⟩
    simpa only [fewer.width, fewer.kind] using chosen
  | mutate | cumsum | groupSum | mutateCustom => exact dropped made

/-- So it is after repetitions are left out. -/
theorem Operator.backward_fewer (fewer : r.Fewer r') (plain : op ≠ .unite ∧ op ≠ .separate)
    {outermost : Bool} {next : Table} (handed : next ∈ op.backward r outermost) :
    ∃ next' ∈ op.backward r' outermost, next.Fewer next' := by
  obtain ⟨next', listed, less⟩ : ∃ next' ∈
      (if op.passesOn && !outermost then [r'] else []) ++ op.undone r', next.Fewer next' := by
    rcases List.mem_append.mp (mem_firsts_by handed) with kept | undone
    · split at kept
      · rename_i passes
        cases List.mem_singleton.mp kept
        exact ⟨r', List.mem_append_left _ (by rw [if_pos passes]; exact List.mem_cons_self), fewer⟩
      · cases kept
    · obtain ⟨next', member, less⟩ := undone_fewer fewer plain undone
      exact ⟨next', List.mem_append_right _ member, less⟩
  obtain ⟨stands, first, same⟩ := firsts_by_represent Table.canonical listed
  exact ⟨stands, first, less.of_canonical same⟩

/-- **Every chain of requirements for more rows stands above one for fewer**,
along any operators that neither join nor separate texts. -/
theorem derivations_fewer {operators : List Operator}
    (plain : ∀ op ∈ operators, op ≠ .unite ∧ op ≠ .separate) (fewer : r.Fewer r') {depth : Nat}
    {tables : List Table} (derived : tables ∈ derivations depth operators r) :
    ∃ tables' ∈ derivations depth operators r', List.Forall₂ Fewer tables tables' := by
  induction operators generalizing r r' depth tables with
  | nil =>
    cases List.mem_singleton.mp derived
    exact ⟨[r'], List.mem_cons_self, .cons fewer .nil⟩
  | cons op rest ih =>
    obtain ⟨here, later⟩ := List.forall_mem_cons.mp plain
    obtain ⟨next, handed, member⟩ := List.mem_flatMap.mp derived
    obtain ⟨tail, below, rfl⟩ := List.mem_map.mp member
    obtain ⟨next', handed', less⟩ := Operator.backward_fewer fewer here handed
    obtain ⟨tail', below', each⟩ := ih later less below
    exact ⟨r' :: tail', List.mem_flatMap.mpr ⟨next', handed', List.mem_map_of_mem below'⟩,
      .cons fewer each⟩

/-- A program that meets a chain meets every chain that asks for less. -/
theorem Program.Meets.fewer {inputs : List Table} {p : Program} {tables tables' : List Table}
    (meets : p.Meets inputs tables) (each : List.Forall₂ Fewer tables tables') :
    p.Meets inputs tables' := by
  intro d inside
  obtain ⟨premise, t, held, value, included⟩ := meets d inside
  obtain ⟨bound, rfl⟩ := List.getElem?_eq_some_iff.mp held
  obtain ⟨size, related⟩ := List.forall₂_iff_get.mp each
  have bound' : d < tables'.length := size ▸ bound
  exact ⟨tables'[d], t, List.getElem?_eq_getElem bound', value,
    (related d bound bound').included included⟩

/-- Fewer rows show no new values when all of them show none. -/
theorem Context.new_values_fewer {inputs : List Table} (fewer : r.Fewer r')
    (new : (Context.of inputs r').newValues = true) : (Context.of inputs r).newValues = true := by
  obtain ⟨cell, member, unknown⟩ := List.any_eq_true.mp new
  obtain ⟨row', held, inside⟩ := List.mem_flatten.mp member
  obtain ⟨row, stands, same⟩ := fewer.like held
  have shown : cell.key ∈ row.key := same ▸ List.mem_map_of_mem inside
  obtain ⟨other, within, key⟩ := List.mem_map.mp shown
  exact List.any_eq_true.mpr ⟨other, List.mem_flatten.mpr ⟨row, stands, within⟩, key ▸ unknown⟩

/-- A program wanted for a target is wanted for fewer of its rows. -/
theorem Wanted.fewer {problem : Problem} {target : Table} (fewer : problem.target.Fewer target)
    (plain : ∀ op ∈ problem.config.operators, op ≠ .unite ∧ op ≠ .separate) {maxSize : Nat}
    {p : Program} (wanted : Wanted problem maxSize p) :
    Wanted { problem with target } maxSize p := by
  have rules := is_admissible_iff.mp wanted.admissible
  obtain ⟨tables, derived, meets⟩ := meets_derivation_iff.mpr wanted.premises
  obtain ⟨tables', derived', each⟩ :=
    derivations_fewer (fun op held => plain op (wanted.configured op held)) fewer derived
  refine ⟨wanted.reads, wanted.small, wanted.configured, is_admissible_iff.mpr ?_, wanted.drawn,
    meets_derivation_iff.mp ⟨tables', derived', meets.fewer each⟩⟩
  exact { rules with creating := fun new => rules.creating (Context.new_values_fewer fewer new) }

namespace Search

variable {problem : Problem} {target : Table} {budgets : Budgets}

/-- **Asking for fewer rows loses no program.** Where no configured operator
joins or separates texts, let a second target have the columns of the first and
some of its rows, as often at most, rows being told apart by their keys. Then
every program that a run returns for the first target is returned for the
second one, up to the value of its constants, by a run that nothing ends early. -/
theorem synthesize_for_fewer_rows (readings readings' : Nat → Nat) (given : problem.inputs ≠ [])
    (shapedInputs : ∀ t ∈ problem.inputs, t.Shaped) (shapedTarget : problem.target.Shaped)
    (shapedTarget' : target.Shaped) (valid : budgets.validate = .ok ())
    (plain : ∀ op ∈ problem.config.operators, op ≠ .unite ∧ op ≠ .separate)
    (columns : target.columns = problem.target.columns)
    (kinds : target.kinds = problem.target.kinds)
    (rows : target.keys <+~ problem.target.keys)
    (inTime : ¬ Expires readings' { problem with target } budgets) :
    ∃ result result', synthesize readings problem budgets = .ok result ∧
      synthesize readings' { problem with target } budgets = .ok result' ∧
      (result'.solutions.length < budgets.solutionLimit →
        ∀ s ∈ result.solutions, ∃ s' ∈ result'.solutions,
          s'.program.canonical = s.program.canonical) := by
  refine ⟨_, _, synthesize_eq_ok readings given valid, synthesize_eq_ok readings' given valid,
    fun unfilled s member => ?_⟩
  have fewer : problem.target.Fewer target :=
    ⟨⟨congrArg List.length columns, kinds⟩, rows⟩
  have wanted := (outcome_wanted readings shapedInputs shapedTarget member).fewer fewer plain
  rw [outcome_complete valid inTime unfilled]
  refine solutions_up_to_cover ?_ ?_ wanted
  · exact shapedInputs
  · exact shapedTarget'

/-- Amounts by name, of which sums are wanted. -/
def sums (wanted : List Row) : Problem where
  inputs := [⟨["name", "amount"], [.text, .number],
    [[.text "a", .number 1], [.text "a", .number 2], [.text "b", .number 5]]⟩]
  target := ⟨["name", "sum"], [.text, .number], wanted⟩
  config := { Config.standard with operators := [.groupSum, .spread], aggregates := [.sum] }

/-- The program that makes both sums is found as well for the one that is an
amount already, although that one is no new value. -/
theorem synthesize_for_fewer_rows_sums :
    ∃ result result', synthesize (fun _ => 0)
        (sums [[.text "a", .number 3], [.text "b", .number 5]]) ⟨1, 1, 9⟩ = .ok result ∧
      synthesize (fun _ => 0) (sums [[.text "b", .number 5]]) ⟨1, 1, 9⟩ = .ok result' ∧
      result.solutions.length = 1 ∧ result'.solutions.length = 2 ∧
      ∀ s ∈ result.solutions, ∃ s' ∈ result'.solutions,
        s'.program.canonical = s.program.canonical := by
  have shapedInputs (wanted : List Row) : ∀ t ∈ (sums wanted).inputs, t.Shaped := by
    intro t member
    cases List.mem_singleton.mp member
    exact ⟨rfl, by simp⟩
  have valid : Budgets.validate ⟨1, 1, 9⟩ = .ok () := rfl
  have both : (sums [[.text "a", .number 3], [.text "b", .number 5]]).target.Shaped :=
    ⟨rfl, by simp [sums]⟩
  have one : (sums [[.text "b", .number 5]]).target.Shaped := ⟨rfl, by simp [sums]⟩
  have inTime : ¬ Expires (fun _ => 0) (sums [[.text "b", .number 5]]) ⟨1, 1, 9⟩ :=
    not_expires_of_early (fun _ => Nat.one_pos) _
  obtain ⟨result, result', ran, ran', kept⟩ := synthesize_for_fewer_rows (fun _ => 0) (fun _ => 0)
    (by decide) (shapedInputs _) both one valid (by decide) rfl rfl
    (List.sublist_cons_self _ _).subperm inTime
  have single : (synthesize (fun _ => 0)
      (sums [[.text "a", .number 3], [.text "b", .number 5]]) ⟨1, 1, 9⟩).map
        (·.solutions.length) = .ok 1 := by
    decide +kernel
  have two : (synthesize (fun _ => 0) (sums [[.text "b", .number 5]]) ⟨1, 1, 9⟩).map
      (·.solutions.length) = .ok 2 := by
    decide +kernel
  rw [ran, map_eq_ok] at single
  obtain ⟨_, ⟨⟩, length⟩ := single
  have found : (synthesize (fun _ => 0) (sums [[.text "b", .number 5]]) ⟨1, 1, 9⟩).map
      (·.solutions.length) = .ok result'.solutions.length := congrArg (Except.map _) ran'
  have length' : result'.solutions.length = 2 := Except.ok.inj (found.symm.trans two)
  exact ⟨result, result', ran, ran', length, length', kept (by rw [length']; decide)⟩

end Search
end Reshape

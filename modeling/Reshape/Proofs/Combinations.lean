import Mathlib.Data.Finset.Range
import Mathlib.Data.List.Sort
import Mathlib.Data.Nat.Choose.Basic
import Reshape.Proofs.DomainSoundness

/-! Combinations in order. The combinations of `k` numbers below `n` are the
strictly increasing lists of that many numbers, each once, in lexicographic order.
They can be had without any recursion on `n` or `k`: from the first `k` numbers on,
each list leads to the next by one change in place, and the last one shows itself
by leaving no room for a change. So the columns that may be selected or grouped by
are all nonempty sets of columns, each once. -/
namespace Reshape

variable {n k size : Nat} {current : List Nat}

/-- The last place whose number can still grow. A number that cannot is as large as
those behind it leave room for. No list is longer than `n` where this is asked, so
nothing is taken from too little. -/
def lastRaisable? (n : Nat) (current : List Nat) : Option Nat :=
  (List.range current.length).reverse.find? fun i =>
    current.getD i 0 ≠ i + n - current.length

/-- The list after this one: the number at the last place where one can grow does so
by one, and the numbers behind it follow it closely. -/
def successor? (n : Nat) (current : List Nat) : Option (List Nat) :=
  (lastRaisable? n current).map fun i =>
    current.take i ++ List.range' (current.getD i 0 + 1) (current.length - i)

/-- The lists that are passed on the way from a list to its successor, and so on
until there is none. -/
inductive Passes (n : Nat) : List Nat → List (List Nat) → Prop where
  | last {current : List Nat} (stuck : successor? n current = none) :
    Passes n current [current]
  | step {current next : List Nat} {later : List (List Nat)}
    (moved : successor? n current = some next) (passes : Passes n next later) :
    Passes n current (current :: later)

theorem last_raisable_cons (a : Nat) :
    lastRaisable? n (a :: current) = ((lastRaisable? n current).map (· + 1)).or
      (if a = n - (current.length + 1) then none else some 0) := by
  have behind : (fun i => decide ((a :: current).getD i 0 ≠ i + n - (current.length + 1))) ∘
      Nat.succ = fun i => decide (current.getD i 0 ≠ i + n - current.length) := by
    funext i
    have same : i.succ + n - (current.length + 1) = i + n - current.length := by omega
    simp [same]
  rw [lastRaisable?, List.length_cons, List.range_succ_eq_map, List.reverse_cons,
    List.find?_append, ← List.map_reverse, List.find?_map, behind, lastRaisable?]
  congr 1
  by_cases full : a = n - (current.length + 1) <;> simp [full]

/-- The first number of a list changes only where the rest has no successor. -/
theorem successor_cons (n a : Nat) (current : List Nat) : successor? n (a :: current) =
    match successor? n current with
    | some next => some (a :: next)
    | none =>
      if a = n - (current.length + 1) then none
      else some (List.range' (a + 1) (current.length + 1)) := by
  rw [successor?, last_raisable_cons, successor?]
  cases lastRaisable? n current with
  | some i => simp
  | none => by_cases full : a = n - (current.length + 1) <;> simp [full]

theorem successor_length {next : List Nat} (moved : successor? n current = some next) :
    next.length = current.length := by
  obtain ⟨i, raisable, rfl⟩ := Option.map_eq_some_iff.mp moved
  have inside : i < current.length := by simpa using List.mem_of_find?_eq_some raisable
  simp only [List.length_append, List.length_take, List.length_range']
  omega

/-- What is passed with a number in front of all lists, up to the turn at which that
number changes or the way ends. -/
theorem Passes.behind {a : Nat} {lists others : List (List Nat)}
    (passes : Passes n current lists) (length : current.length = size)
    (turn : a = n - (size + 1) ∧ others = [] ∨
      a ≠ n - (size + 1) ∧ Passes n (List.range' (a + 1) (size + 1)) others) :
    Passes n (a :: current) (lists.map (a :: ·) ++ others) := by
  induction passes with
  | @last current stuck =>
    subst length
    have turned := successor_cons n a current
    rw [stuck] at turned
    rcases turn with ⟨full, rfl⟩ | ⟨room, more⟩
    · exact .last (turned.trans (if_pos full))
    · exact .step (turned.trans (if_neg room)) more
  | step moved _ ih =>
    refine .step ?_ (ih ((successor_length moved).trans length))
    rw [successor_cons, moved]

/-- There is only one way to go. -/
theorem Passes.unique {lists others : List (List Nat)} (passes : Passes n current lists)
    (again : Passes n current others) : lists = others := by
  induction passes generalizing others with
  | last stuck =>
    cases again with
    | last => rfl
    | step moved _ => cases stuck.symm.trans moved
  | step moved _ ih =>
    cases again with
    | last stuck => cases stuck.symm.trans moved
    | step moved' later =>
      cases moved.symm.trans moved'
      rw [ih later]

theorem choose_eq_nil {α : Type} {l : List α} (short : l.length < k) : choose k l = [] := by
  refine List.eq_nil_iff_forall_not_mem.mpr fun chosen member => ?_
  obtain ⟨sub, rfl⟩ := mem_choose_iff.mp member
  exact absurd sub.length_le (Nat.not_le.mpr short)

/-- The choices among numbers in a row are what is passed from the first choice
on. -/
theorem choose_passes (a m k : Nat) (fits : k ≤ m) :
    Passes (a + m) (List.range' a k) (choose k (List.range' a m)) := by
  induction m generalizing a k with
  | zero =>
    cases Nat.le_zero.mp fits
    exact .last rfl
  | succ m ih =>
    cases k with
    | zero => exact .last rfl
    | succ k =>
      have rest := ih (a + 1) k (Nat.le_of_succ_le_succ fits)
      rw [Nat.add_right_comm, Nat.add_assoc] at rest
      refine rest.behind List.length_range' ?_
      by_cases more : k + 1 ≤ m
      · have others := ih (a + 1) (k + 1) more
        rw [Nat.add_right_comm, Nat.add_assoc] at others
        exact .inr ⟨by omega, others⟩
      · refine .inl ⟨by omega, choose_eq_nil ?_⟩
        rw [List.length_range']
        omega

theorem combinations_pass (fits : k ≤ n) :
    Passes n (List.range k) (combinations n k) := by
  have passes := choose_passes 0 n k fits
  rwa [Nat.zero_add, ← List.range_eq_range', ← List.range_eq_range'] at passes

theorem choose_sorted {l : List Nat} (sorted : l.Pairwise (· < ·)) (k : Nat) :
    (choose k l).Pairwise (· < ·) := by
  induction l generalizing k with
  | nil => cases k <;> simp [choose]
  | cons a rest ih =>
    obtain ⟨least, sorted⟩ := List.pairwise_cons.mp sorted
    cases k with
    | zero => simp [choose]
    | succ k =>
      rw [choose, List.pairwise_append, List.pairwise_map]
      refine ⟨(ih sorted k).imp List.cons_lt_cons_self.mpr, ih sorted (k + 1), ?_⟩
      intro with_a member without_a other
      obtain ⟨chosen, -, rfl⟩ := List.mem_map.mp member
      obtain ⟨sub, length⟩ := mem_choose_iff.mp other
      obtain ⟨b, later, rfl⟩ := List.exists_cons_of_length_eq_add_one length
      exact List.cons_lt_cons_iff.mpr (.inl (least b (sub.subset List.mem_cons_self)))

theorem combinations_sorted (n k : Nat) : (combinations n k).Pairwise (· < ·) :=
  choose_sorted List.pairwise_lt_range k

theorem combinations_nodup (n k : Nat) : (combinations n k).Nodup := by
  refine List.Pairwise.imp ?_ (combinations_sorted n k)
  rintro chosen _ before rfl
  exact List.lt_irrefl _ before

theorem choose_length {α : Type} (k : Nat) (l : List α) :
    (choose k l).length = l.length.choose k := by
  induction l generalizing k with
  | nil => cases k <;> rfl
  | cons a rest ih =>
    cases k with
    | zero => simp [choose]
    | succ k => simp [choose, ih, Nat.choose_succ_succ]

/-- The lists in range are the strictly increasing ones. -/
theorem sublist_range_iff {columns : List Nat} : columns.Sublist (List.range n) ↔
    columns.Pairwise (· < ·) ∧ ∀ c ∈ columns, c < n := by
  constructor
  · intro sub
    exact ⟨List.pairwise_lt_range.sublist sub,
      fun c member => List.mem_range.mp (sub.subset member)⟩
  · rintro ⟨sorted, inRange⟩
    have different : columns.Nodup := sorted.imp Nat.ne_of_lt
    exact List.sublist_of_subperm_of_pairwise
      (different.subperm fun c member => List.mem_range.mpr (inRange c member)) sorted
      List.pairwise_lt_range

theorem column_choices_nodup (limit width : Nat) : (columnChoices limit width).Nodup := by
  rw [columnChoices, List.nodup_flatMap]
  constructor
  · exact fun k _ => combinations_nodup width k
  · refine List.Pairwise.imp (fun apart => ?_) (List.nodup_range' (s := 1) (n := limit))
    intro columns one other
    exact apart ((mem_choose_iff.mp one).2.symm.trans (mem_choose_iff.mp other).2)

/-- Every nonempty set of columns is chosen once. -/
theorem column_choices_sets (width : Nat) :
    ((columnChoices width width).map List.toFinset).Nodup ∧
      ∀ s : Finset Nat, s ∈ (columnChoices width width).map List.toFinset ↔
        s.Nonempty ∧ s ⊆ Finset.range width := by
  constructor
  · refine List.Nodup.map_on (fun one chosen other chosen' same => ?_)
      (column_choices_nodup width width)
    have sorted := (sublist_range_iff.mp (mem_column_choices.mp chosen).1).1
    have sorted' := (sublist_range_iff.mp (mem_column_choices.mp chosen').1).1
    refine List.Perm.eq_of_pairwise' sorted sorted' ?_
    exact List.perm_of_nodup_nodup_toFinset_eq (sorted.imp Nat.ne_of_lt)
      (sorted'.imp Nat.ne_of_lt) same
  · intro s
    rw [List.mem_map]
    constructor
    · rintro ⟨columns, chosen, rfl⟩
      obtain ⟨sub, some, -⟩ := mem_column_choices.mp chosen
      refine ⟨(List.toFinset_nonempty_iff columns).mpr some, fun c member => ?_⟩
      exact Finset.mem_range.mpr (List.mem_range.mp (sub.subset (List.mem_toFinset.mp member)))
    · rintro ⟨some, inRange⟩
      let columns := (List.range width).filter (· ∈ s)
      have same : columns.toFinset = s := by
        ext c
        simpa [columns] using fun member => Finset.mem_range.mp (inRange member)
      refine ⟨columns, mem_column_choices.mpr ⟨List.filter_sublist, ?_, ?_⟩, same⟩
      · exact (List.toFinset_nonempty_iff columns).mp (same ▸ some)
      · simpa using List.length_filter_le (· ∈ s) (List.range width)

/-- **Combinations are exact.** They are the strictly increasing lists of `k` numbers
below `n`, each once and in lexicographic order: one list without numbers, none of
more numbers than there are, and otherwise just those that are passed on the way from
the first `k` numbers on, which ends. The columns to select or to group by are
therefore all nonempty sets of columns, each once. -/
theorem combinations_exact (n k : Nat) :
    (∀ chosen, chosen ∈ combinations n k ↔
        chosen.Pairwise (· < ·) ∧ (∀ i ∈ chosen, i < n) ∧ chosen.length = k) ∧
      (combinations n k).Pairwise (· < ·) ∧ (combinations n k).Nodup ∧
      (combinations n k).length = n.choose k ∧
      combinations n 0 = [[]] ∧ (n < k → combinations n k = []) ∧
      (k ≤ n → ∀ lists, Passes n (List.range k) lists ↔ lists = combinations n k) ∧
      ∀ (t : Table) (config : Config) (arguments : List Argument), ∃ lists : List (List Nat),
        Step.domain ⟨.select, arguments⟩ 1 t config = .ok (lists.map .columns) ∧
        Step.domain ⟨.groupSum, arguments⟩ 1 t config = .ok (lists.map .columns) ∧
        (∀ columns ∈ lists, columns.Pairwise (· < ·)) ∧ (lists.map List.toFinset).Nodup ∧
        ∀ s : Finset Nat, s ∈ lists.map List.toFinset ↔ s.Nonempty ∧ s ⊆ Finset.range t.width := by
  refine ⟨fun chosen => ?_, combinations_sorted n k, combinations_nodup n k, ?_, ?_, ?_, ?_, ?_⟩
  · rw [combinations, mem_choose_iff, sublist_range_iff, and_assoc]
  · rw [combinations, choose_length, List.length_range]
  · rw [combinations, choose]
  · exact fun short => choose_eq_nil (by rwa [List.length_range])
  · refine fun fits lists => ⟨fun passes => passes.unique (combinations_pass fits), ?_⟩
    rintro rfl
    exact combinations_pass fits
  · intro t config arguments
    obtain ⟨once, sets⟩ := column_choices_sets t.width
    refine ⟨columnChoices t.width t.width, rfl, rfl, fun columns chosen => ?_, once, sets⟩
    exact (sublist_range_iff.mp (mem_column_choices.mp chosen).1).1

/-- Three of four numbers from the first list to the last, and the columns of a narrow
table. -/
theorem combinations_exact_triples :
    Passes 4 [0, 1, 2] [[0, 1, 2], [0, 1, 3], [0, 2, 3], [1, 2, 3]] ∧
      combinations 2 3 = [] ∧
      ∃ lists : List (List Nat), Step.domain ⟨.select, [.hole]⟩ 1
          ⟨["x", "y"], [.text, .number], []⟩ .standard = .ok (lists.map .columns) ∧
        (lists.map List.toFinset).Nodup ∧ {0, 1} ∈ lists.map List.toFinset := by
  obtain ⟨-, -, -, -, -, -, way, domains⟩ := combinations_exact 4 3
  obtain ⟨-, -, -, -, -, short, -⟩ := combinations_exact 2 3
  obtain ⟨lists, selected, -, -, once, sets⟩ :=
    domains ⟨["x", "y"], [.text, .number], []⟩ .standard [.hole]
  exact ⟨(way (by decide) _).mpr (by decide), short (by decide), lists, selected, once,
    (sets {0, 1}).mpr (by decide)⟩

end Reshape

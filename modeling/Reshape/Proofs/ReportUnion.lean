import Mathlib.Algebra.BigOperators.Group.List.Lemmas
import Mathlib.Algebra.GroupWithZero.Nat
import Reshape.Proofs.Acceptance
import Reshape.Proofs.Records
import Reshape.Proofs.Refusals

/-! Reports add up. A map of counts is told by its keys in order and by the amount at
each of them. Merging maps one after the other comes to the same as adding all of
their entries, which stand in the order in which their keys first come, each with
the sum of what was given to its key. So it does not matter how the reports of
several searches are put together, apart from the order in which they come. -/
namespace Reshape

namespace Ordered

variable {κ : Type} [DecidableEq κ] {entries pairs : List (κ × Nat)}

/-- The number at a key, a missing one counting as zero. -/
def amount (key : κ) (entries : List (κ × Nat)) : Nat := (get? key entries).getD 0

/-- What pairs give to a key, all together. -/
def given (key : κ) (pairs : List (κ × Nat)) : Nat :=
  ((pairs.filter fun pair => pair.1 = key).map (·.2)).sum

theorem given_append (key : κ) (pairs more : List (κ × Nat)) :
    given key (pairs ++ more) = given key pairs + given key more := by
  simp [given]

theorem given_flatten (key : κ) (maps : List (List (κ × Nat))) :
    given key maps.flatten = (maps.map (given key)).sum := by
  induction maps with
  | nil => rfl
  | cons first rest ih => rw [List.flatten_cons, given_append, ih, List.map_cons, List.sum_cons]

/-- Keys that differ are given their amounts. -/
theorem given_eq_amount (distinct : (keys entries).Nodup) (key : κ) :
    given key entries = amount key entries := by
  induction entries with
  | nil => rfl
  | cons entry rest ih =>
    obtain ⟨k, n⟩ := entry
    obtain ⟨new, distinct⟩ := List.nodup_cons.mp distinct
    rw [← List.singleton_append, given_append, ih distinct, amount, amount, List.singleton_append,
      get?]
    by_cases same : k = key
    · subst same
      have absent : get? k rest = none := by
        rw [Option.eq_none_iff_forall_ne_some]
        exact fun n found => new (mem_keys_iff.mpr ⟨n, found⟩)
      simp [given, absent]
    · simp [given, same]

/-- A map with different keys is told by them and their amounts. -/
theorem eq_of_amounts (distinct : (keys entries).Nodup) :
    (keys entries).map (fun key => (key, amount key entries)) = entries := by
  rw [keys, List.map_map]
  refine (List.map_congr_left fun entry member => ?_).trans (List.map_id _)
  exact Prod.ext rfl (congrArg (·.getD 0) (get_eq_some distinct member))

theorem keys_merge (distinct : (keys entries).Nodup) (pairs : List (κ × Nat)) :
    keys (merge entries pairs) = (keys entries ++ keys pairs).eraseDups := by
  induction pairs generalizing entries with
  | nil => simpa [merge, keys] using (erase_dups_of_nodup distinct).symm
  | cons pair rest ih =>
    obtain ⟨key, n⟩ := pair
    have next := ih (keys_alter_nodup distinct key fun old => old.getD 0 + n)
    refine Eq.trans next ?_
    rw [keys_alter]
    by_cases old : key ∈ keys entries
    · have left : (key :: keys rest).removeAll (keys entries) =
          (keys rest).removeAll (keys entries) := by
        simp [List.removeAll, old]
      rw [if_pos old, List.eraseDups_append, ← left, ← List.eraseDups_append]
      rfl
    · rw [if_neg old, List.append_assoc]
      rfl

theorem amount_merge (key : κ) (entries pairs : List (κ × Nat)) :
    amount key (merge entries pairs) = amount key entries + given key pairs := by
  induction pairs generalizing entries with
  | nil => rfl
  | cons pair rest ih =>
    obtain ⟨k, n⟩ := pair
    have added : amount key (add k n entries) = amount key entries + given key [(k, n)] := by
      rw [amount, add, get_alter]
      by_cases same : k = key <;> simp [given, amount, same]
    rw [← List.singleton_append, given_append, ← Nat.add_assoc, ← added, ← ih]
    rfl

/-- **A merged map** has the keys of the map and then the new ones, in the order in
which they first come, each with all that it has been given. -/
theorem merge_eq (distinct : (keys entries).Nodup) (pairs : List (κ × Nat)) :
    merge entries pairs = (keys entries ++ keys pairs).eraseDups.map fun key =>
      (key, amount key entries + given key pairs) := by
  have merged : (keys (merge entries pairs)).Nodup :=
    keys_merge distinct pairs ▸ erase_dups_nodup _
  rw [← eq_of_amounts merged, keys_merge distinct]
  exact List.map_congr_left fun key _ => Prod.ext rfl (amount_merge key entries pairs)

theorem merge_nodup (distinct : (keys entries).Nodup) (pairs : List (κ × Nat)) :
    (keys (merge entries pairs)).Nodup :=
  keys_merge distinct pairs ▸ erase_dups_nodup _

theorem merge_assoc {a b : List (κ × Nat)} (distinct : (keys a).Nodup)
    (distinct' : (keys b).Nodup) (c : List (κ × Nat)) :
    merge (merge a b) c = merge a (merge b c) := by
  have together : merge (merge a b) c = merge a (b ++ c) := List.foldl_append.symm
  rw [together, merge_eq distinct, merge_eq distinct, keys_merge distinct',
    erase_dups_append_erase_dups, show keys (b ++ c) = keys b ++ keys c from List.map_append]
  refine List.map_congr_left fun key _ => ?_
  rw [given_append, given_eq_amount (merge_nodup distinct' c), amount_merge,
    given_eq_amount distinct']

/-- What becomes of pairs alone. -/
theorem nil_merge_eq (pairs : List (κ × Nat)) :
    merge [] pairs = (keys pairs).eraseDups.map fun key => (key, given key pairs) := by
  have distinct : (keys ([] : List (κ × Nat))).Nodup := List.nodup_nil
  refine (merge_eq distinct pairs).trans (List.map_congr_left fun key _ => ?_)
  rw [amount, get?, Option.getD_none, Nat.zero_add]

theorem nil_merge (distinct : (keys entries).Nodup) : merge [] entries = entries := by
  rw [nil_merge_eq, erase_dups_of_nodup distinct]
  calc (keys entries).map (fun key => (key, given key entries))
      = (keys entries).map fun key => (key, amount key entries) :=
        List.map_congr_left fun key _ => by rw [given_eq_amount distinct]
    _ = entries := eq_of_amounts distinct

/-- Which map is merged into which makes no difference to the values. -/
theorem get_merge_comm {a b : List (κ × Nat)} (distinct : (keys a).Nodup)
    (distinct' : (keys b).Nodup) (key : κ) : get? key (merge a b) = get? key (merge b a) := by
  rw [merge_eq distinct, merge_eq distinct', get_map, get_map, given_eq_amount distinct',
    given_eq_amount distinct, Nat.add_comm]
  simp only [List.mem_eraseDups, List.mem_append, or_comm]

/-- Maps merged one after the other: each key that occurs in one of them, in the order
of first appearance, with the sum of its amounts. -/
theorem foldl_merge_eq {maps : List (List (κ × Nat))}
    (distinct : ∀ entries ∈ maps, (keys entries).Nodup) :
    maps.foldl merge [] = (maps.flatMap keys).eraseDups.map fun key =>
      (key, (maps.map (amount key)).sum) := by
  have all : maps.foldl merge [] = merge [] maps.flatten := List.foldl_flatten.symm
  have names : keys maps.flatten = maps.flatMap keys := List.map_flatten
  rw [all, nil_merge_eq, names]
  refine List.map_congr_left fun key _ => ?_
  rw [given_flatten, List.map_congr_left fun entries member =>
    given_eq_amount (distinct entries member) key]

end Ordered
namespace Report

/-- No map of a report has a key twice. -/
structure Keyed (r : Report) : Prop where
  inapplicable : (Ordered.keys r.inapplicable).Nodup
  sizes : (Ordered.keys r.sizes).Nodup

variable {a b r : Report}

theorem empty_keyed : empty.Keyed := ⟨List.nodup_nil, List.nodup_nil⟩

theorem record_keyed (keyed : r.Keyed) (event : Event) : (r.record event).Keyed := by
  cases event with
  | size size => exact ⟨keyed.inapplicable, Ordered.keys_alter_nodup keyed.sizes size _⟩
  | refused op => exact ⟨Ordered.keys_alter_nodup keyed.inapplicable op _, keyed.sizes⟩
  | _ => exact ⟨keyed.inapplicable, keyed.sizes⟩

theorem union_keyed (keyed : a.Keyed) (b : Report) : (a.union b).Keyed :=
  ⟨Ordered.merge_nodup keyed.inapplicable _, Ordered.merge_nodup keyed.sizes _⟩

/-- The counts of a report that stand in no map. -/
def counters (r : Report) : Report := { r with inapplicable := [], sizes := [] }

theorem union_assoc (keyed : a.Keyed) (keyed' : b.Keyed) (c : Report) :
    (a.union b).union c = a.union (b.union c) := by
  simp only [union, Ordered.merge_assoc keyed.inapplicable keyed'.inapplicable,
    Ordered.merge_assoc keyed.sizes keyed'.sizes, Nat.add_assoc, Bool.or_assoc]

theorem union_empty (r : Report) : r.union empty = r := by
  rw [union]
  simp only [empty, Nat.add_zero, Bool.or_false]
  rfl

theorem empty_union (keyed : r.Keyed) : empty.union r = r := by
  rw [union]
  simp only [empty, Nat.zero_add, Bool.false_or, Ordered.nil_merge keyed.inapplicable,
    Ordered.nil_merge keyed.sizes]

theorem counters_union_comm (a b : Report) : (a.union b).counters = (b.union a).counters := by
  simp only [counters, union, Nat.add_comm, Bool.or_comm]

/-- A map that unions merge has in the end what all reports had in it. -/
theorem foldl_union_eq {κ : Type} [DecidableEq κ] (map : Report → List (κ × Nat))
    (merged : ∀ a b : Report, map (a.union b) = Ordered.merge (map a) (map b))
    (start : map empty = []) {reports : List Report}
    (distinct : ∀ r ∈ reports, (Ordered.keys (map r)).Nodup) :
    map (reports.foldl union empty) =
      (reports.flatMap fun r => Ordered.keys (map r)).eraseDups.map fun key =>
        (key, (reports.map fun r => Ordered.amount key (map r)).sum) := by
  calc map (reports.foldl union empty)
      = reports.foldl (fun entries r => Ordered.merge entries (map r)) (map empty) :=
        (List.foldl_hom map fun a b => (merged a b).symm).symm
    _ = (reports.map map).foldl Ordered.merge [] := by rw [start, List.foldl_map]
    _ = _ := Ordered.foldl_merge_eq (List.forall_mem_map.mpr distinct)
    _ = _ := by simp only [List.flatMap_map, List.map_map, Function.comp_def]

end Report

namespace Search

open Report

variable {problem : Problem} {budgets : Budgets}

theorem settle_keyed {p : Progress} (keyed : p.report.Keyed) (now : Nat) :
    (p.settle now).report.Keyed := by
  rw [Progress.settle]
  split
  · exact keyed
  · exact ⟨keyed.inapplicable, Ordered.keys_alter_nodup keyed.sizes _ _⟩

theorem next_keyed {p : Progress} (keyed : p.report.Keyed) (now : Nat) (event : Event) :
    (p.next problem budgets now event).1.report.Keyed := by
  have recorded := record_keyed keyed event
  cases event with
  | size size => exact settle_keyed (p := { p with report := p.report.record _ }) recorded now
  | check | found =>
    simp only [Progress.next]
    split <;> exact ⟨recorded.inapplicable, recorded.sizes⟩
  | _ => exact recorded

theorem follow_keyed {p : Progress} (keyed : p.report.Keyed) (readings : Nat → Nat) (number : Nat)
    (events : List Event) :
    (follow problem budgets readings number events p).1.report.Keyed := by
  induction events generalizing p number with
  | nil => exact keyed
  | cons event rest ih =>
    rw [follow]
    split
    · exact ih (next_keyed keyed _ event) _
    · exact next_keyed keyed _ event

/-- The report of a run has no key twice. -/
theorem outcome_keyed (readings : Nat → Nat) (problem : Problem) (budgets : Budgets) :
    (outcome readings problem budgets).report.Keyed := by
  have keyed : (follow problem budgets readings 0 (searchEvents problem budgets.maxSize)
      .start).1.report.Keyed := follow_keyed empty_keyed readings 0 _
  have settled := settle_keyed keyed (readings (follow problem budgets readings 0
    (searchEvents problem budgets.maxSize) .start).2)
  exact ⟨settled.inapplicable, settled.sizes⟩

end Search

namespace Report

/-- **Reports accumulate.** Their maps have no key twice, those of a run as well as those
of a union. Such reports can be grouped in any way, the empty report adds nothing, and
which of two comes first makes no difference but to the order of entries. All reports of
a list together have an entry for each operator and each size that one of them has, in
the order of first appearance, with the sum of its amounts. -/
theorem union_accumulates :
    (∀ readings problem budgets, (Search.outcome readings problem budgets).report.Keyed) ∧
      (∀ a b : Report, a.Keyed → (a.union b).Keyed) ∧
      (∀ a b c : Report, a.Keyed → b.Keyed → (a.union b).union c = a.union (b.union c)) ∧
      (∀ a : Report, a.Keyed → empty.union a = a ∧ a.union empty = a) ∧
      (∀ a b : Report, a.Keyed → b.Keyed → (a.union b).counters = (b.union a).counters ∧
        (∀ op, Ordered.get? op (a.union b).inapplicable =
          Ordered.get? op (b.union a).inapplicable) ∧
        ∀ size, Ordered.get? size (a.union b).sizes = Ordered.get? size (b.union a).sizes) ∧
      ∀ reports : List Report, (∀ r ∈ reports, r.Keyed) →
        (reports.foldl union empty).inapplicable =
          (reports.flatMap fun r => Ordered.keys r.inapplicable).eraseDups.map (fun op =>
            (op, (reports.map fun r => Ordered.amount op r.inapplicable).sum)) ∧
        (reports.foldl union empty).sizes =
          (reports.flatMap fun r => Ordered.keys r.sizes).eraseDups.map fun size =>
            (size, (reports.map fun r => Ordered.amount size r.sizes).sum) := by
  refine ⟨Search.outcome_keyed, fun a b keyed => union_keyed keyed b,
    fun a b c keyed keyed' => union_assoc keyed keyed' c,
    fun a keyed => ⟨empty_union keyed, union_empty a⟩, fun a b keyed keyed' => ?_,
    fun reports keyed => ⟨?_, ?_⟩⟩
  · exact ⟨counters_union_comm a b,
      Ordered.get_merge_comm keyed.inapplicable keyed'.inapplicable,
      Ordered.get_merge_comm keyed.sizes keyed'.sizes⟩
  · exact foldl_union_eq Report.inapplicable (fun _ _ => rfl) rfl fun r member =>
      (keyed r member).inapplicable
  · exact foldl_union_eq Report.sizes (fun _ _ => rfl) rfl fun r member => (keyed r member).sizes

namespace Searches

/-- A search that was done in time. -/
def short : Report :=
  { empty with candidates := 3, inapplicable := [(.spread, 2)], sizes := [(0, 5), (1, 70)] }

/-- A search that ran out of time, with an operator that never failed to apply. -/
def long : Report :=
  { empty with
    candidates := 4, inapplicable := [(.separate, 0), (.spread, 1)], sizes := [(0, 6)],
    timedOut := true }

end Searches

open Searches in
/-- Two searches together, where an amount of nothing keeps its entry. -/
theorem union_accumulates_searches :
    ([short, long].foldl union empty).inapplicable = [(.spread, 3), (.separate, 0)] ∧
      ([short, long].foldl union empty).sizes = [(0, 11), (1, 70)] ∧
      (short.union long).union short = short.union (long.union short) := by
  have shortKeyed : short.Keyed := ⟨by decide, by decide⟩
  have longKeyed : long.Keyed := ⟨by decide, by decide⟩
  obtain ⟨-, -, assoc, -, -, total⟩ := union_accumulates
  obtain ⟨operators, sizes⟩ := total [short, long] (by simp [shortKeyed, longKeyed])
  exact ⟨operators.trans (by decide), sizes.trans (by decide),
    assoc short long short shortKeyed longKeyed⟩

end Report
end Reshape

import Mathlib.Data.List.Perm.Basic
import Mathlib.Data.List.Nodup
import Reshape.Distinct

/-! Multiplicities and first occurrences. One list is counted in another when
it is a rearrangement of some of the other's elements; this form survives
passing to the elements' values under a function, which is what lets a match of
whole rows decide the match of every single column. -/
namespace Reshape

open scoped List

variable {α β : Type} [DecidableEq α] [DecidableEq β]

/-- Counting is inclusion up to order. -/
theorem counted_in_iff_subperm {smaller larger : List α} :
    countedIn smaller larger = true ↔ smaller <+~ larger := by
  simp [countedIn, List.subperm_ext_iff]

omit [DecidableEq α] in
theorem subperm_iff_count_le [BEq α] [LawfulBEq α] {smaller larger : List α} :
    smaller <+~ larger ↔ ∀ a, smaller.count a ≤ larger.count a :=
  ⟨fun included a => included.count_le a, fun counts =>
    List.subperm_ext_iff.mpr fun a _ => counts a⟩

omit [DecidableEq α] [DecidableEq β] in
/-- Values under a function keep the inclusion, whether or not the function
tells the elements apart. -/
theorem subperm_map (f : α → β) {smaller larger : List α} (included : smaller <+~ larger) :
    smaller.map f <+~ larger.map f := by
  obtain ⟨chosen, same, sub⟩ := included
  exact ⟨chosen.map f, same.map f, sub.map f⟩

omit [DecidableEq α] [DecidableEq β] in
/-- Where values are included, different elements with these values can be drawn
from the larger list, one for each element of the smaller one. -/
theorem drawn_of_subperm {γ : Type} {f : α → γ} {g : β → γ} {l : List α} {l' : List β}
    (included : l.map f <+~ l'.map g) :
    ∃ drawn, drawn <+~ l' ∧ List.Forall₂ (fun a b => f a = g b) l drawn := by
  induction l generalizing l' with
  | nil => exact ⟨[], List.nil_subperm, .nil⟩
  | cons a rest ih =>
    obtain ⟨b, held, same⟩ := List.mem_map.mp (included.subset List.mem_cons_self)
    obtain ⟨before, after, rfl⟩ := List.append_of_mem held
    have front : before ++ b :: after ~ b :: (before ++ after) := List.perm_middle
    have others : rest.map f <+~ (before ++ after).map g := by
      have moved := included.trans (front.map g).subperm
      rw [List.map_cons, List.map_cons, same] at moved
      exact (List.subperm_cons _).mp moved
    obtain ⟨drawn, sub, agree⟩ := ih others
    exact ⟨b :: drawn, ((List.subperm_cons b).mpr sub).trans front.symm.subperm,
      .cons same.symm agree⟩

omit [DecidableEq α] in
theorem first_repeat_mem {f : α → β} {seen : List β} {l : List α} {a : α}
    (found : firstRepeat f seen l = some a) : a ∈ l := by
  induction l generalizing seen with
  | nil => cases found
  | cons b rest ih =>
    rw [firstRepeat] at found
    split at found
    · cases found
      exact List.mem_cons_self
    · exact List.mem_cons_of_mem _ (ih found)

omit [DecidableEq α] in
theorem firsts_by_sublist (f : α → β) (l : List α) : firstsBy f l <+ l := by
  induction l with
  | nil => exact .slnil
  | cons a rest ih => exact (List.filter_sublist.trans ih).cons_cons a

omit [DecidableEq α] in
theorem mem_firsts_by {f : α → β} {a : α} {l : List α} (member : a ∈ firstsBy f l) : a ∈ l :=
  (firsts_by_sublist f l).subset member

omit [DecidableEq α] in
/-- Every element is represented by a first occurrence of equal value. -/
theorem firsts_by_represent (f : α → β) {a : α} {l : List α} (member : a ∈ l) :
    ∃ b ∈ firstsBy f l, f b = f a := by
  induction l with
  | nil => cases member
  | cons c rest ih =>
    by_cases same : f c = f a
    · exact ⟨c, List.mem_cons_self, same⟩
    · have inRest : a ∈ rest := by
        rcases List.mem_cons.mp member with rfl | inRest
        · exact absurd rfl same
        · exact inRest
      obtain ⟨b, first, value⟩ := ih inRest
      refine ⟨b, List.mem_cons_of_mem _ (List.mem_filter.mpr ⟨first, ?_⟩), value⟩
      simpa [value] using Ne.symm same

omit [DecidableEq α] in
/-- The first occurrences among values are the values of first occurrences. -/
theorem firsts_by_map {γ : Type} (f : α → β) (g : γ → α) (l : List γ) :
    firstsBy f (l.map g) = (firstsBy (fun c => f (g c)) l).map g := by
  induction l with
  | nil => rfl
  | cons c rest ih =>
    rw [List.map_cons, firstsBy, firstsBy, ih, List.filter_map, List.map_cons]
    rfl

omit [DecidableEq α] in
/-- First occurrences have different values. -/
theorem firsts_by_distinct (f : α → β) (l : List α) : ((firstsBy f l).map f).Nodup := by
  induction l with
  | nil => exact List.nodup_nil
  | cons a rest ih =>
    have sub : ((firstsBy f rest).filter fun b => f b ≠ f a).map f <+ (firstsBy f rest).map f :=
      List.filter_sublist.map f
    refine List.nodup_cons.mpr ⟨?_, ih.sublist sub⟩
    simp only [List.mem_map, List.mem_filter, decide_eq_true_eq, not_exists, not_and]
    intro b kept
    exact kept.2

omit [DecidableEq α] in
/-- Where no value repeats, every occurrence is a first one. -/
theorem firsts_by_of_distinct {f : α → β} {l : List α} (distinct : (l.map f).Nodup) :
    firstsBy f l = l := by
  induction l with
  | nil => rfl
  | cons a rest ih =>
    obtain ⟨absent, distinct⟩ := List.nodup_cons.mp distinct
    rw [firstsBy, ih distinct, List.filter_eq_self.mpr]
    intro b member
    exact decide_eq_true fun same => absent (List.mem_map.mpr ⟨b, member, same⟩)

omit [DecidableEq α] in
/-- Functions that identify the same elements have the same first
occurrences. -/
theorem firsts_by_congr {γ : Type} [DecidableEq γ] {f : α → β} {g : α → γ}
    (same : ∀ a b, f a = f b ↔ g a = g b) (l : List α) : firstsBy f l = firstsBy g l := by
  induction l with
  | nil => rfl
  | cons a rest ih =>
    rw [firstsBy, firstsBy, ih]
    simp only [ne_eq, same]

omit [DecidableEq α] in
/-- What follows adds the first occurrences of its own whose values are new. -/
theorem firsts_by_append (f : α → β) (l l' : List α) :
    firstsBy f (l ++ l') =
      firstsBy f l ++ (firstsBy f l').filter fun b => f b ∉ l.map f := by
  induction l with
  | nil => simp [firstsBy]
  | cons a rest ih =>
    rw [List.cons_append, firstsBy, firstsBy, ih, List.filter_append, List.filter_filter,
      List.cons_append]
    congr 3
    funext b
    simp [List.mem_cons, not_or]

omit [DecidableEq α] in
/-- Of blocks that each have one value of their own, the first occurrences are
their heads. -/
theorem firsts_by_blocks {γ : Type} {f : α → β} {block : γ → List α} {lead : γ → α} {value : γ → β}
    {l : List γ} (heads : ∀ c ∈ l, (block c).head? = some (lead c))
    (same : ∀ c ∈ l, ∀ a ∈ block c, f a = value c) (different : (l.map value).Nodup) :
    firstsBy f (l.flatMap block) = l.map lead := by
  induction l with
  | nil => rfl
  | cons c rest ih =>
    obtain ⟨head, heads⟩ := List.forall_mem_cons.mp heads
    obtain ⟨here, same⟩ := List.forall_mem_cons.mp same
    obtain ⟨apart, different⟩ := List.nodup_cons.mp different
    obtain ⟨more, whole⟩ := List.head?_eq_some_iff.mp head
    rw [whole] at here
    have block_firsts : firstsBy f (block c) = [lead c] := by
      rw [whole, firstsBy]
      refine congrArg (lead c :: ·) (List.filter_eq_nil_iff.mpr fun b first => ?_)
      have equal := (here b (List.mem_cons_of_mem _ (mem_firsts_by first))).trans
        (here (lead c) List.mem_cons_self).symm
      simp [equal]
    rw [List.flatMap_cons, firsts_by_append, block_firsts, ih heads same different, List.map_cons,
      List.singleton_append, List.filter_eq_self.mpr]
    intro b first
    obtain ⟨d, later, rfl⟩ := List.mem_map.mp first
    obtain ⟨tail, whole'⟩ := List.head?_eq_some_iff.mp (heads d later)
    have own : f (lead d) = value d := same d later _ (by rw [whole']; exact List.mem_cons_self)
    refine decide_eq_true fun again => ?_
    obtain ⟨a, held, equal⟩ := List.mem_map.mp again
    rw [whole] at held
    exact apart (List.mem_map.mpr ⟨d, later, own.symm.trans (equal.symm.trans (here a held))⟩)

omit [DecidableEq α] in
/-- Where no value repeats, an element is found by its value. -/
theorem find_of_distinct {f : α → β} {l : List α} (distinct : (l.map f).Nodup) {a : α}
    (member : a ∈ l) : l.find? (fun b => f b = f a) = some a := by
  cases found : l.find? fun b => f b = f a with
  | none => simpa using List.find?_eq_none.mp found a member
  | some b =>
    have value : f b = f a := by simpa using List.find?_some found
    exact congrArg some
      (List.inj_on_of_nodup_map distinct (List.mem_of_find?_eq_some found) member value)

omit [DecidableEq α] in
/-- A first occurrence is the first element of its value. -/
theorem find_of_first {f : α → β} {a : α} {l : List α} (first : a ∈ firstsBy f l) :
    l.find? (fun b => f b = f a) = some a := by
  induction l with
  | nil => cases first
  | cons b rest ih =>
    rcases List.mem_cons.mp first with rfl | later
    · exact List.find?_cons_of_pos (decide_eq_true rfl)
    · obtain ⟨first, other⟩ := List.mem_filter.mp later
      have apart : f b ≠ f a := Ne.symm (of_decide_eq_true other)
      rw [List.find?_cons_of_neg (by simpa using apart), ih first]

omit [DecidableEq α] in
/-- A choice by value keeps the first occurrences of the values it keeps. -/
theorem firsts_by_filter {f : α → β} {p : α → Bool} (byValue : ∀ a b, f a = f b → p a = p b)
    (l : List α) : firstsBy f (l.filter p) = (firstsBy f l).filter p := by
  induction l with
  | nil => rfl
  | cons a rest ih =>
    by_cases kept : p a = true
    · rw [List.filter_cons_of_pos kept, firstsBy, firstsBy, List.filter_cons_of_pos kept, ih,
        List.filter_filter, List.filter_filter]
      simp only [Bool.and_comm]
    · rw [List.filter_cons_of_neg kept, firstsBy, List.filter_cons_of_neg kept, ih,
        List.filter_filter]
      refine List.filter_congr fun b _ => ?_
      by_cases same : f b = f a
      · simp [byValue b a same, kept]
      · simp [same]

/-- The first occurrences of the elements themselves are what is left without
repetitions. -/
theorem firsts_by_id [BEq α] [LawfulBEq α] (l : List α) : firstsBy id l = l.eraseDups := by
  induction size : l.length using Nat.strongRecOn generalizing l with
  | _ n ih =>
    cases l with
    | nil => rfl
    | cons a rest =>
      have shorter := List.length_filter_le (fun b => !b == a) rest
      rw [firstsBy, List.eraseDups_cons, ← ih _ (by simp at size; omega) _ rfl,
        firsts_by_filter (by rintro b c rfl; rfl)]
      refine congrArg (a :: ·) (List.filter_congr fun b _ => ?_)
      by_cases same : b = a <;> simp [same]

omit [DecidableEq α] in
/-- The values without repetitions are the values of the first occurrences. -/
theorem erase_dups_map [BEq β] [LawfulBEq β] (f : α → β) (l : List α) :
    (l.map f).eraseDups = (firstsBy f l).map f := by
  rw [← firsts_by_id, firsts_by_map]
  rfl

theorem erase_dups_nodup [BEq α] [LawfulBEq α] (l : List α) : l.eraseDups.Nodup := by
  simpa [firsts_by_id] using firsts_by_distinct id l

theorem erase_dups_of_nodup [BEq α] [LawfulBEq α] {l : List α} (distinct : l.Nodup) :
    l.eraseDups = l := by
  rw [← firsts_by_id]
  exact firsts_by_of_distinct (by simpa using distinct)

/-- Repetitions behind other elements can be left out beforehand. -/
theorem erase_dups_append_erase_dups [BEq α] [LawfulBEq α] (l l' : List α) :
    (l ++ l'.eraseDups).eraseDups = (l ++ l').eraseDups := by
  simp only [← firsts_by_id, firsts_by_append]
  rw [firsts_by_of_distinct (f := id) (l := firstsBy id l') (firsts_by_distinct id l')]

/-- The first occurrences of rearranged lists are equally many. -/
theorem firsts_by_length_of_perm {l l' : List α} (same : l ~ l') :
    (firstsBy id l).length = (firstsBy id l').length := by
  have members : ∀ {s t : List α}, s ~ t → ∀ {a}, a ∈ firstsBy id s → a ∈ firstsBy id t := by
    intro s t rearranged a first
    obtain ⟨b, held, value⟩ := firsts_by_represent id (rearranged.subset (mem_firsts_by first))
    cases (value : b = a)
    exact held
  have distinct (s : List α) : (firstsBy id s).Nodup := by
    simpa using firsts_by_distinct id s
  exact ((List.perm_ext_iff_of_nodup (distinct l) (distinct l')).mpr
    fun a => ⟨members same, members same.symm⟩).length_eq

end Reshape

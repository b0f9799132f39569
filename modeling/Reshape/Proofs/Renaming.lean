import Reshape.Proofs.PremiseChains
import Reshape.Proofs.WellFormedness

/-! Requirements under other column names. The rules that push a requirement
back read its kinds and cells and write new names, and what they give is kept
once each by an equality that sees names. The names of a candidate tell how it
was made, whatever the names of the requirement are: columns that stay keep
theirs, and a name that was not there marks a column that was cut, joined or
molten. So the same candidates fall together under all names. -/
namespace Reshape

open Text (Names)

/-- How the names of a candidate come about. -/
inductive Mark where
  /-- These columns stay. -/
  | kept (columns : List Nat)
  | cut (column : Nat)
  | joined (left right : Nat) (separator : Char)
  /-- All columns but these are put below each other. -/
  | molten (ids : List Nat)

namespace Mark

/-- The names of a candidate. -/
def names (t : Table) : Mark → List String
  | kept columns => columns.map t.name
  | cut column => (t.splitColumn column []).columns
  | joined left right separator => (t.joined left right separator).columns
  | molten ids => ids.map t.name ++ [((Names.reserving (ids.map t.name)).claim "VALUE").1]

/-- What the rules of an operator do to a requirement of this width. -/
inductive Suits (width : Nat) : Operator → Mark → Prop where
  | kept {op : Operator} {columns : List Nat} (other : op ≠ .spread)
      (chosen : columns.Sublist (List.range width)) : Suits width op (.kept columns)
  | cut {column : Nat} (inside : column < width) : Suits width .unite (.cut column)
  | joined {left right : Nat} {separator : Char} (ordered : left < right)
      (inside : right < width) : Suits width .separate (.joined left right separator)
  | molten {ids : List Nat} (chosen : ids.Sublist (List.range width)) :
      Suits width .spread (.molten ids)

end Mark

namespace Table

variable {t : Table}

/-- The names of columns tell the columns. -/
theorem columns_of_names (distinct : t.columns.Nodup) {columns columns' : List Nat}
    (inside : ∀ c ∈ columns, c < t.width) (inside' : ∀ c ∈ columns', c < t.width)
    (same : columns.map t.name = columns'.map t.name) : columns = columns' := by
  have back {columns : List Nat} (inside : ∀ c ∈ columns, c < t.width) :
      (columns.map t.name).map t.columns.idxOf = columns := by
    rw [List.map_map]
    refine (List.map_congr_left fun c member => ?_).trans (List.map_id _)
    have held := inside c member
    rw [Function.comp_apply, name, List.getD_eq_getElem _ _ held]
    exact distinct.idxOf_getElem c held
  rw [← back inside, same, back inside']

/-- A column that is neither replaced nor left out keeps its name, and any other
name is new. -/
theorem mem_splice_names {place : Nat} (inside : place < t.width) {gone : List Nat}
    {new : List (String × Kind)} {cells : List Row} {n : String} :
    n ∈ (t.splice place gone new cells).columns ↔
      n ∈ new.map (·.1) ∨ ∃ c < t.width, c ≠ place ∧ c ∉ gone ∧ n = t.name c := by
  constructor
  · exact fun member => mem_splice member
  · intro member
    refine List.mem_flatMap.mpr ?_
    rcases member with added | ⟨c, held, apart, stays, rfl⟩
    · refine ⟨place, List.mem_range.mpr inside, ?_⟩
      rwa [if_pos rfl]
    · refine ⟨c, List.mem_range.mpr held, ?_⟩
      rw [if_neg apart, if_neg stays]
      exact List.mem_singleton_self _

/-- The names of the columns that a splice leaves in place. -/
theorem name_mem_splice_iff (distinct : t.columns.Nodup) {place : Nat} (inside : place < t.width)
    {gone : List Nat} {new : List (String × Kind)} {cells : List Row}
    (apart : ∀ n ∈ new.map (·.1), n ∉ t.columns) {c : Nat} (held : c < t.width) :
    t.name c ∈ (t.splice place gone new cells).columns ↔ c ≠ place ∧ c ∉ gone := by
  rw [mem_splice_names inside]
  constructor
  · rintro (added | ⟨d, held', notPlace, stays, same⟩)
    · exact absurd (name_mem held) (apart _ added)
    · rw [name_inj distinct held held' same]
      exact ⟨notPlace, stays⟩
  · rintro ⟨notPlace, stays⟩
    exact .inr ⟨c, held, notPlace, stays, rfl⟩

end Table

/-- Hints with different signs behind a common beginning make different names. -/
theorem Text.NamedAfter.separator (front : List Char) {s s' : Char} {rest rest' name : String}
    (named : Text.NamedAfter (.ofList front ++ .ofList [s] ++ rest) name)
    (named' : Text.NamedAfter (.ofList front ++ .ofList [s'] ++ rest') name) : s = s' := by
  have begins {s : Char} {rest : String}
      (named : Text.NamedAfter (.ofList front ++ .ofList [s] ++ rest) name) :
      ∃ more, name.toList = front ++ s :: more := by
    cases named with
    | plain => exact ⟨rest.toList, by simp⟩
    | numbered n => exact ⟨rest.toList ++ (toString n).toList, by simp [Names.numbered]⟩
  obtain ⟨more, shape⟩ := begins named
  obtain ⟨more', shape'⟩ := begins named'
  have same := List.append_cancel_left (shape.symm.trans shape')
  exact (List.cons.inj same).1

namespace Mark

variable {t : Table} {op : Operator}

/-- What a cut column is replaced with. -/
theorem cut_names (t : Table) (column : Nat) :
    ∃ (first : String × Kind) (rest : List (String × Kind)) (cells : List Row),
      (∀ n ∈ (first :: rest).map (·.1), n ∉ t.columns) ∧
        (cut column).names t = (t.splice column [] (first :: rest) cells).columns := by
  refine ⟨_, _, _, ?_, congrArg Table.columns (Table.split_column_eq t column [])⟩
  exact (Names.claim_all_distinct (.reserving t.columns)
    [t.name column ++ "1", t.name column ++ "2"]).2

/-- What two columns are joined into. -/
theorem joined_names (t : Table) (left right : Nat) (separator : Char) :
    ∃ n cells, n ∉ t.columns ∧ Text.NamedAfter
        (t.name left ++ .ofList [separator] ++ t.name right) n ∧
      (joined left right separator).names t =
        (t.splice left [right] [(n, .text)] cells).columns :=
  ⟨_, _, Table.new_name_not_mem t _, Names.claim_named_after _ _, rfl⟩

theorem name_mem_cut_iff (distinct : t.columns.Nodup) {c d : Nat} (inside : c < t.width)
    (held : d < t.width) : t.name d ∈ (cut c).names t ↔ d ≠ c := by
  obtain ⟨first, rest, cells, apart, written⟩ := cut_names t c
  rw [written, Table.name_mem_splice_iff distinct inside apart held,
    and_iff_left List.not_mem_nil]

theorem name_mem_joined_iff (distinct : t.columns.Nodup) {left right d : Nat} {separator : Char}
    (inside : left < t.width) (held : d < t.width) :
    t.name d ∈ (joined left right separator).names t ↔ d ≠ left ∧ d ≠ right := by
  obtain ⟨n, cells, new, -, written⟩ := joined_names t left right separator
  rw [written, Table.name_mem_splice_iff distinct inside (by simpa using new) held,
    List.mem_singleton]

theorem cut_new {c : Nat} (inside : c < t.width) : ∃ n ∈ (cut c).names t, n ∉ t.columns := by
  obtain ⟨first, rest, cells, apart, written⟩ := cut_names t c
  refine ⟨first.1, ?_, apart _ List.mem_cons_self⟩
  exact written ▸ (Table.mem_splice_names inside).mpr (.inl List.mem_cons_self)

/-- The one new name of a joined column is made of its hint. -/
theorem joined_new {left right : Nat} (separator : Char) (inside : left < t.width) :
    ∃ n ∈ (joined left right separator).names t, n ∉ t.columns ∧
      Text.NamedAfter (t.name left ++ .ofList [separator] ++ t.name right) n ∧
        ∀ n' ∈ (joined left right separator).names t, n' ∉ t.columns → n' = n := by
  obtain ⟨n, cells, new, named, written⟩ := joined_names t left right separator
  rw [written]
  refine ⟨n, (Table.mem_splice_names inside).mpr (.inl ?_), new, named, fun n' member apart => ?_⟩
  · exact List.mem_cons_self (a := n)
  · rcases (Table.mem_splice_names inside).mp member with added | ⟨c, held, -, -, rfl⟩
    · exact List.mem_singleton.mp added
    · exact absurd (Table.name_mem held) apart

/-- Columns that stay bring no new name. -/
theorem kept_names_subset {columns : List Nat} (chosen : columns.Sublist (List.range t.width)) :
    (kept columns).names t ⊆ t.columns :=
  Table.names_subset fun _ member => List.mem_range.mp (chosen.subset member)

theorem cut_inj (distinct : t.columns.Nodup) {c d : Nat} (inside : c < t.width)
    (inside' : d < t.width) (same : (cut c).names t = (cut d).names t) : c = d := by
  by_contra apart
  have stays := (name_mem_cut_iff distinct inside inside').mpr (Ne.symm apart)
  rw [same, name_mem_cut_iff distinct inside' inside'] at stays
  exact stays rfl

theorem joined_inj (distinct : t.columns.Nodup) {left right left' right' : Nat} {s s' : Char}
    (ordered : left < right) (inside : right < t.width) (ordered' : left' < right')
    (inside' : right' < t.width)
    (same : (joined left right s).names t = (joined left' right' s').names t) :
    joined left right s = joined left' right' s' := by
  have insideLeft := ordered.trans inside
  -- The same columns are gone, and the new name shows the sign between their names.
  have gone (d : Nat) (held : d < t.width) :
      (d ≠ left ∧ d ≠ right) ↔ (d ≠ left' ∧ d ≠ right') := by
    rw [← name_mem_joined_iff distinct insideLeft held, same,
      name_mem_joined_iff distinct (ordered'.trans inside') held]
  have goneLeft := gone left insideLeft
  have goneRight := gone right inside
  obtain rfl : left = left' := by omega
  obtain rfl : right = right' := by omega
  obtain ⟨n, member, new, named, -⟩ := joined_new s insideLeft
  obtain ⟨n', -, -, named', only⟩ := joined_new s' insideLeft
  rw [same] at member
  rw [only n member new] at named
  have signs : s = s' := Text.NamedAfter.separator (t.name left).toList
    (by simpa using named) (by simpa using named')
  rw [signs]

/-- **The names of a candidate tell how it was made.** -/
theorem names_inj (distinct : t.columns.Nodup) {mark mark' : Mark}
    (suits : mark.Suits t.width op) (suits' : mark'.Suits t.width op)
    (same : mark.names t = mark'.names t) : mark = mark' := by
  have inside {columns : List Nat} (chosen : columns.Sublist (List.range t.width)) :
      ∀ c ∈ columns, c < t.width := fun _ member => List.mem_range.mp (chosen.subset member)
  -- Columns that stay are told from all others by the absence of new names.
  have notKept {mark : Mark} {columns : List Nat} (chosen : columns.Sublist (List.range t.width))
      (new : ∃ n ∈ mark.names t, n ∉ t.columns) : (kept columns).names t ≠ mark.names t := by
    obtain ⟨n, member, apart⟩ := new
    exact fun same => apart (kept_names_subset chosen (same ▸ member))
  have joinedNew {left right : Nat} {separator : Char} (inside : left < t.width) :
      ∃ n ∈ (joined left right separator).names t, n ∉ t.columns := by
    obtain ⟨n, member, new, -⟩ := joined_new separator inside
    exact ⟨n, member, new⟩
  cases suits with
  | kept other chosen =>
    cases suits' with
    | kept _ chosen' =>
      exact congrArg kept (Table.columns_of_names distinct (inside chosen) (inside chosen') same)
    | cut inside' => exact absurd same (notKept chosen (cut_new inside'))
    | joined ordered' inside' =>
      exact absurd same (notKept chosen (joinedNew (ordered'.trans inside')))
    | molten _ => exact absurd rfl other
  | cut held =>
    cases suits' with
    | kept _ chosen' => exact absurd same.symm (notKept chosen' (cut_new held))
    | cut held' => exact congrArg cut (cut_inj distinct held held' same)
  | joined ordered held =>
    cases suits' with
    | kept _ chosen' =>
      exact absurd same.symm (notKept chosen' (joinedNew (ordered.trans held)))
    | joined ordered' held' => exact joined_inj distinct ordered held ordered' held' same
  | molten chosen =>
    cases suits' with
    | kept other _ => exact absurd rfl other
    | molten chosen' =>
      exact congrArg molten (Table.columns_of_names distinct (inside chosen) (inside chosen')
        (List.append_inj_left' same rfl))

end Mark

/-- Tables that differ at most in the names of their columns. -/
structure Table.Renamed (t t' : Table) : Prop where
  ok : t.WellFormed
  ok' : t'.WellFormed
  kinds : t'.kinds = t.kinds
  rows : t'.rows = t.rows

namespace Table.Renamed

variable {t t' : Table} (renamed : t.Renamed t')
include renamed

theorem same_kinds : t.SameKinds t' := by
  refine ⟨?_, renamed.kinds⟩
  rw [Table.width, Table.width, ← renamed.ok'.typed, renamed.kinds, renamed.ok.typed]

theorem width : t'.width = t.width := renamed.same_kinds.width

theorem height : t'.height = t.height := congrArg List.length renamed.rows

theorem column (c : Nat) : t'.column c = t.column c := by
  rw [Table.column, renamed.rows, Table.column]

theorem keys : t'.keys = t.keys := by rw [Table.keys, renamed.rows, Table.keys]

end Table.Renamed

/-- Candidates that an operator makes in the same way of two requirements. -/
def Twins (op : Operator) (r r' a a' : Table) : Prop :=
  ∃ mark : Mark, mark.Suits r.width op ∧ a.columns = mark.names r ∧ a'.columns = mark.names r' ∧
    a'.kinds = a.kinds ∧ a'.rows = a.rows

theorem Table.canonical_eq_iff {a b : Table} :
    a.canonical = b.canonical ↔ a.columns = b.columns ∧ a.kinds = b.kinds ∧
      a.rows.map (·.map Cell.canonical) = b.rows.map (·.map Cell.canonical) := by
  simp only [canonical, Table.mk.injEq]

/-- The names of all columns in order. -/
theorem Table.names_positions (t : Table) : t.positions.map t.name = t.columns := by
  refine List.ext_getElem (by simp [positions, width]) fun i inside inside' => ?_
  simp [positions, name, inside']

namespace Twins

variable {op : Operator} {r r' a a' b b' : Table}

/-- Candidates fall together under one naming just when they do under another. -/
theorem canonical_iff (renamed : r.Renamed r') (twins : Twins op r r' a a')
    (others : Twins op r r' b b') : a.canonical = b.canonical ↔ a'.canonical = b'.canonical := by
  obtain ⟨mark, suits, named, named', kinds, rows⟩ := twins
  obtain ⟨other, suitsOther, namedOther, namedOther', kindsOther, rowsOther⟩ := others
  have left : a.columns = b.columns ↔ mark = other := by
    rw [named, namedOther]
    exact ⟨Mark.names_inj renamed.ok.distinct suits suitsOther, congrArg _⟩
  have right : a'.columns = b'.columns ↔ mark = other := by
    rw [named', namedOther']
    rw [← renamed.width] at suits suitsOther
    exact ⟨Mark.names_inj renamed.ok'.distinct suits suitsOther, congrArg _⟩
  rw [Table.canonical_eq_iff, Table.canonical_eq_iff, left, right, kinds, rows, kindsOther,
    rowsOther]

theorem untouched (renamed : r.Renamed r') (other : op ≠ .spread) : Twins op r r' r r' := by
  refine ⟨.kept r.positions, .kept other (.refl _), ?_, ?_, renamed.kinds, renamed.rows⟩
  · exact r.names_positions.symm
  · rw [← renamed.same_kinds.positions]
    exact r'.names_positions.symm

theorem without (renamed : r.Renamed r') (other : op ≠ .spread) (gone : List Nat) :
    Twins op r r' (r.without gone) (r'.without gone) := by
  refine ⟨.kept (r.others gone), .kept other List.filter_sublist, rfl, ?_, ?_, ?_⟩ <;>
    simp only [Table.without, Table.drop, Table.project, Table.dedup,
      renamed.same_kinds.others, renamed.rows, Mark.names, List.map_inj_left]
  exact fun c _ => renamed.same_kinds.kind c

theorem cut (renamed : r.Renamed r') {c : Nat} (inside : c < r.width)
    (parts : List (List Char × List Char)) :
    Twins .unite r r' (r.splitColumn c parts) (r'.splitColumn c parts) := by
  refine ⟨.cut c, .cut inside, rfl, rfl, ?_, ?_⟩
  · simp only [Table.split_column_eq, Table.splice, renamed.width]
    exact splice_congr rfl fun c _ _ _ => renamed.same_kinds.kind c
  · simp only [Table.split_column_eq, Table.splice, renamed.width, renamed.rows]

theorem joined (renamed : r.Renamed r') {left right : Nat} (ordered : left < right)
    (inside : right < r.width) (separator : Char) :
    Twins .separate r r' (r.joined left right separator) (r'.joined left right separator) := by
  refine ⟨.joined left right separator, .joined ordered inside, rfl, rfl, ?_, ?_⟩
  · simp only [Table.joined, Table.splice, renamed.width]
    exact splice_congr rfl fun c _ _ _ => renamed.same_kinds.kind c
  · simp only [Table.joined, Table.splice, renamed.width, renamed.rows]

theorem molten (renamed : r.Renamed r') {ids : List Nat}
    (chosen : ids.Sublist (List.range r.width)) :
    Option.Rel (Twins .spread r r') (r.molten? ids) (r'.molten? ids) := by
  simp only [Table.molten?, renamed.same_kinds.others, renamed.same_kinds.kind]
  cases r.others ids with
  | nil => exact .none
  | cons first rest =>
    dsimp only
    split_ifs
    · exact .none
    · refine .some ⟨.molten ids, .molten chosen, rfl, rfl, ?_, ?_⟩
      · rw [Table.dedup, Table.dedup, List.map_congr_left fun c _ => renamed.same_kinds.kind c]
      · rw [Table.dedup, Table.dedup, renamed.rows]

end Twins

section Lists

variable {α β γ : Type} {R : α → β → Prop}

theorem forall₂_flat_map {l : List γ} {f : γ → List α} {g : γ → List β}
    (each : ∀ c ∈ l, List.Forall₂ R (f c) (g c)) : List.Forall₂ R (l.flatMap f) (l.flatMap g) := by
  induction l with
  | nil => exact .nil
  | cons c rest ih =>
    rw [List.flatMap_cons, List.flatMap_cons]
    exact List.rel_append (each c List.mem_cons_self)
      (ih fun d member => each d (List.mem_cons_of_mem _ member))

theorem forall₂_filter_map {l : List γ} {f : γ → Option α} {g : γ → Option β}
    (each : ∀ c ∈ l, Option.Rel R (f c) (g c)) :
    List.Forall₂ R (l.filterMap f) (l.filterMap g) := by
  induction l with
  | nil => exact .nil
  | cons c rest ih =>
    have later := ih fun d member => each d (List.mem_cons_of_mem _ member)
    have here := each c List.mem_cons_self
    rw [List.filterMap_cons, List.filterMap_cons]
    generalize f c = a, g c = b at here ⊢
    cases here with
    | some related => exact .cons related later
    | none => exact later

theorem forall₂_map {l : List γ} {f : γ → α} {g : γ → β} (each : ∀ c ∈ l, R (f c) (g c)) :
    List.Forall₂ R (l.map f) (l.map g) :=
  List.forall₂_map_left_iff.mpr (List.forall₂_map_right_iff.mpr (List.forall₂_same.mpr each))

/-- Related lists keep related first occurrences, when related elements fall
together on both sides alike. -/
theorem forall₂_firsts_by {δ ε : Type} [DecidableEq δ] [DecidableEq ε] {f : α → δ} {g : β → ε}
    (alike : ∀ {a b a' b'}, R a b → R a' b' → (f a = f a' ↔ g b = g b')) {l : List α}
    {l' : List β} (pairs : List.Forall₂ R l l') :
    List.Forall₂ R (firstsBy f l) (firstsBy g l') := by
  induction pairs with
  | nil => exact .nil
  | cons head _ ih =>
    refine .cons head (List.rel_filter (fun a' b' related => ?_) ih)
    simpa using not_congr (alike related head)

end Lists

namespace Operator

variable {op : Operator} {r r' : Table}

/-- The rules make the same candidates under all names, in the same order. -/
theorem undone_twins (renamed : r.Renamed r') :
    List.Forall₂ (Twins op r r') (op.undone r) (op.undone r') := by
  have dropped (other : op ≠ .spread) (columns : List Nat) :
      List.Forall₂ (Twins op r r') (columns.map fun c => r.without [c])
        (columns.map fun c => r'.without [c]) :=
    forall₂_map fun c _ => .without renamed other [c]
  cases op with
  | select | filter => exact .cons (.untouched renamed (by decide)) .nil
  | unite =>
    rw [undone, undone, Table.ununited, Table.ununited, renamed.same_kinds.columns_of]
    refine forall₂_flat_map fun c chosen => ?_
    have inside : c < r.width := List.mem_range.mp (List.mem_filter.mp chosen).1
    dsimp only
    rw [renamed.column]
    split
    · refine .cons (.cut renamed inside _) ?_
      split_ifs
      · exact .nil
      · exact .cons (.cut renamed inside _) .nil
    · exact .nil
  | separate =>
    rw [undone, undone, Table.unseparated, Table.unseparated, renamed.same_kinds.joinable]
    refine List.rel_append (dropped (by decide) _) (forall₂_flat_map fun pair chosen => ?_)
    obtain ⟨sub, -⟩ := mem_choose_iff.mp chosen
    split
    · rename_i left right
      have increasing : [left, right].Pairwise (· < ·) :=
        List.pairwise_lt_range.sublist (sub.trans List.filter_sublist)
      have ordered : left < right := (List.pairwise_pair.mp increasing)
      have inside : right < r.width :=
        List.mem_range.mp ((sub.trans List.filter_sublist).subset (by simp))
      exact forall₂_map fun s _ => .joined renamed ordered inside s
    · exact .nil
  | spread =>
    rw [undone, undone, Table.unspread, Table.unspread, renamed.width]
    refine forall₂_flat_map fun k _ => forall₂_filter_map fun ids chosen => ?_
    exact Twins.molten renamed (mem_choose_iff.mp chosen).1
  | gather | gatherNeg =>
    simp only [undone, renamed.width, renamed.same_kinds.kind]
    exact forall₂_map fun pair _ => .without renamed (by decide) pair
  | mutate | cumsum | groupSum | mutateCustom =>
    rw [undone, undone, renamed.same_kinds.columns_of]
    exact dropped (by decide) _

/-- **Renaming commutes with pushing back**, candidate by candidate. -/
theorem backward_renamed (renamed : r.Renamed r') (outermost : Bool) :
    List.Forall₂ Table.Renamed (op.backward r outermost) (op.backward r' outermost) := by
  have kept : List.Forall₂ (Twins op r r') (if op.passesOn && !outermost then [r] else [])
      (if op.passesOn && !outermost then [r'] else []) := by
    split_ifs with passes
    · refine .cons (.untouched renamed ?_) .nil
      rintro rfl
      simp [passesOn] at passes
    · exact .nil
  have twins := forall₂_firsts_by (fun twins others => Twins.canonical_iff renamed twins others)
    (List.rel_append kept (undone_twins renamed))
  refine (forall₂_mem twins).imp fun a a' => ?_
  rintro ⟨member, member', _, -, -, -, kinds, rows⟩
  exact ⟨backward_well_formed renamed.ok member, backward_well_formed renamed.ok' member', kinds,
    rows⟩

end Operator

/-- Along any operators, a target is pushed back to the same tables under all
names. -/
theorem derivations_renamed {t t' : Table} (renamed : t.Renamed t') (operators : List Operator)
    (depth : Nat) :
    List.Forall₂ (List.Forall₂ Table.Renamed) (derivations depth operators t)
      (derivations depth operators t') := by
  induction operators generalizing t t' depth with
  | nil => exact .cons (.cons renamed .nil) .nil
  | cons op rest ih =>
    refine List.rel_flatMap (Operator.backward_renamed renamed _) fun next next' below => ?_
    refine List.forall₂_map_left_iff.mpr (List.forall₂_map_right_iff.mpr ?_)
    exact (ih below _).imp fun _ _ tail => .cons renamed tail

end Reshape

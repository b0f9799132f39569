import Reshape.Program.Holes
import Reshape.Proofs.PremiseChains

/-! The store of premises as a tree. Its ways down are the derivations, each once
and depth first; and every requirement in it but the first one points to the
requirement that it was pushed back from, which stands before it in the store
and one step further out. So the way up from any requirement ends at the
target, and no bound on its length cuts it short. -/
namespace Reshape

open scoped List

/-- Depth first, one derivation comes before another: they are the same down to
some table, and from there its operator hands the next table of the first one
down before that of the other. The first operator has this depth. -/
inductive Precedes : (depth : Nat) → List Operator → List Table → List Table → Prop
  | differs {depth : Nat} {op : Operator} {rest : List Operator} {t next other : Table}
      {below below' : List Table} (earlier : [next, other] <+ op.backward t (depth = 0)) :
      Precedes depth (op :: rest) (t :: next :: below) (t :: other :: below')
  | deeper {depth : Nat} {op : Operator} {rest : List Operator} {t : Table}
      {first second : List Table} (later : Precedes (depth + 1) rest first second) :
      Precedes depth (op :: rest) (t :: first) (t :: second)

/-- What an operator hands down differs in value. -/
theorem Operator.backward_distinct (op : Operator) (required : Table) (outermost : Bool) :
    ((op.backward required outermost).map Table.canonical).Nodup :=
  firsts_by_distinct _ _

/-- A derivation that comes before another one differs from it in value. -/
theorem Precedes.apart {depth : Nat} {operators : List Operator} {first second : List Table}
    (before : Precedes depth operators first second) :
    first.map Table.canonical ≠ second.map Table.canonical := by
  induction before with
  | @differs depth op _ t _ _ _ _ earlier =>
    have both := (op.backward_distinct t (depth = 0)).sublist (earlier.map Table.canonical)
    simp only [List.map_cons, List.map_nil, List.nodup_cons, List.mem_singleton] at both
    intro same
    exact both.1 (List.cons.inj (List.cons.inj same).2).1
  | deeper _ ih => exact fun same => ih (List.cons.inj same).2

/-- Derivations are listed depth first. -/
theorem derivations_sorted (depth : Nat) (operators : List Operator) (target : Table) :
    (derivations depth operators target).Pairwise (Precedes depth operators) := by
  induction operators generalizing depth target with
  | nil => exact List.pairwise_singleton _ _
  | cons op rest ih =>
    have starts {t : Table} {tables : List Table}
        (derived : tables ∈ derivations (depth + 1) rest t) : ∃ below, tables = t :: below := by
      obtain ⟨-, first, -⟩ := mem_derivations.mp derived
      cases tables with
      | nil => cases first
      | cons head below => exact ⟨below, congrArg (· :: below) (Option.some.inj first)⟩
    rw [derivations, List.pairwise_flatMap]
    constructor
    · intro next _
      exact List.pairwise_map.mpr ((ih (depth + 1) next).imp .deeper)
    · refine List.pairwise_iff_forall_sublist.mpr fun {next other} earlier first member second
        member' => ?_
      obtain ⟨tables, derived, rfl⟩ := List.mem_map.mp member
      obtain ⟨tables', derived', rfl⟩ := List.mem_map.mp member'
      obtain ⟨below, rfl⟩ := starts derived
      obtain ⟨below', rfl⟩ := starts derived'
      exact .differs earlier

/-- Going down as often as a number says leads to the steps behind so many. -/
theorem steps_below_of_le {steps : List Step} {depth : Nat} (inside : depth ≤ steps.length) :
    stepsBelow? steps (List.replicate depth 0) = some (steps.drop depth) := by
  induction depth generalizing steps with
  | zero => cases steps <;> rfl
  | succ depth ih =>
    cases steps with
    | nil => cases inside
    | cons step rest => exact ih (Nat.le_of_succ_le_succ inside)

namespace Premises

variable {operators : List Operator} {target : Table} {store larger : Premises} {o : Obligation}

/-- A requirement comes from one that the store holds: it was pushed back from
it, through the operator at its depth, to one step further in. -/
structure Comes (operators : List Operator) (store : Premises) (o : Obligation) (parent : Nat) :
    Prop where
  parent_eq : o.parent = some parent
  pushed : ∃ (above : Obligation) (op : Operator), store.obligations[parent]? = some above ∧
    o.depth = above.depth + 1 ∧ operators[above.depth]? = some op ∧
      o.target ∈ op.backward above.target (above.depth = 0)

/-- The first requirement is the target, and every other one comes from an
earlier one. -/
def Linked (operators : List Operator) (target : Table) (store : Premises) : Prop :=
  ∀ (id : Nat) (o : Obligation), store.obligations[id]? = some o →
    (id = 0 ∧ o = ⟨target, 0, none⟩) ∨ ∃ parent < id, Comes operators store o parent

theorem Comes.inside {parent : Nat} (comes : Comes operators store o parent) :
    parent < store.obligations.size := by
  obtain ⟨above, op, held, -⟩ := comes.pushed
  exact (Array.getElem?_eq_some_iff.mp held).1

theorem Comes.grows {parent : Nat} (comes : Comes operators store o parent)
    (grows : store.Grows larger) : Comes operators larger o parent := by
  obtain ⟨above, op, held, rest⟩ := comes.pushed
  exact ⟨comes.parent_eq, above, op, (grows.kept parent comes.inside).trans held, rest⟩

theorem Linked.rooted (linked : store.Linked operators target) : store.Rooted := by
  intro id o held parent here
  rcases linked id o held with ⟨-, rfl⟩ | ⟨parent', earlier, comes⟩
  · cases here
  · rw [comes.parent_eq] at here
    exact Option.some.inj here ▸ earlier

/-- A requirement may be put into the store that is the first one, or that comes
from one held already. -/
theorem push_linked (linked : store.Linked operators target)
    (placed : (store.obligations.size = 0 ∧ o = ⟨target, 0, none⟩) ∨
      ∃ parent, Comes operators store o parent)
    (leaves : Array Nat) : Linked operators target ⟨store.obligations.push o, leaves⟩ := by
  have grows := push_grows store o leaves
  intro id other held
  simp only [Array.getElem?_push] at held
  split at held
  · rename_i last
    cases held
    rcases placed with ⟨empty, first⟩ | ⟨parent, comes⟩
    · exact .inl ⟨last.trans empty, first⟩
    · exact .inr ⟨parent, last ▸ comes.inside, comes.grows grows⟩
  · rcases linked id other held with first | ⟨parent, earlier, comes⟩
    · exact .inl first
    · exact .inr ⟨parent, earlier, comes.grows grows⟩

/-- Expanding a requirement along the operators from its depth on puts it in and
keeps the store linked: each candidate comes from the requirement, and what was
put in before it stays where it is. -/
theorem expand_linked {rest : List Operator} (linked : store.Linked operators target)
    (placed : (store.obligations.size = 0 ∧ o = ⟨target, 0, none⟩) ∨
      ∃ parent, Comes operators store o parent)
    (left : operators.drop o.depth = rest) :
    Grows ⟨store.obligations.push o, store.leaves⟩ (expand rest o store) ∧
      (expand rest o store).Linked operators target := by
  induction rest generalizing store o with
  | nil => exact ⟨⟨Nat.le_refl _, fun _ _ => rfl⟩, push_linked linked placed _⟩
  | cons op rest ih =>
    have here : operators[o.depth]? = some op := by
      rw [← Nat.add_zero o.depth, ← List.getElem?_drop, left, List.getElem?_cons_zero]
    have below : operators.drop (o.depth + 1) = rest := by
      rw [← List.drop_drop, left, List.drop_one, List.tail_cons]
    rw [expand]
    refine List.foldlRecOn (motive := fun reached =>
      Grows ⟨store.obligations.push o, store.leaves⟩ reached ∧ reached.Linked operators target) _ _
      ⟨⟨Nat.le_refl _, fun _ _ => rfl⟩, push_linked linked placed store.leaves⟩ ?_
    rintro reached ⟨since, still⟩ candidate handed
    have held : reached.obligations[store.obligations.size]? = some o :=
      (since.kept _ (by simp)).trans Array.getElem?_push_size
    obtain ⟨grows, further⟩ := ih (o := ⟨candidate, o.depth + 1, some store.obligations.size⟩)
      still (.inr ⟨_, rfl, o, op, held, rfl, here, handed⟩) below
    exact ⟨since.trans ((push_grows reached _ reached.leaves).trans grows), further⟩

/-- The store of a target starts with it, and is linked. -/
theorem build_linked (operators : List Operator) (target : Table) :
    (build operators target).obligations[0]? = some ⟨target, 0, none⟩ ∧
      (build operators target).Linked operators target := by
  have empty : Linked operators target ⟨#[], #[]⟩ := by simp [Linked]
  obtain ⟨grows, linked⟩ := expand_linked empty (.inl ⟨rfl, rfl⟩) List.drop_zero
  exact ⟨grows.kept 0 Nat.one_pos, linked⟩

/-- The way up from any requirement ends at the first one. -/
theorem Linked.ancestry_head (linked : store.Linked operators target) {length id : Nat}
    (inside : id < store.obligations.size) (enough : id < length) :
    (store.ancestry length id).head? = some 0 := by
  rw [ancestry_enough linked.rooted enough]
  clear enough
  induction id using Nat.strongRecOn with
  | _ id ih =>
    have held := Array.getElem?_eq_getElem inside
    rw [ancestry, held]
    dsimp only
    rcases linked id _ held with ⟨rfl, first⟩ | ⟨parent, earlier, comes⟩
    · rw [first]
      rfl
    · rw [comes.parent_eq]
      dsimp only
      have up := ih parent earlier (Nat.lt_trans earlier inside)
      rw [ancestry_enough linked.rooted earlier, List.head?_append, up]
      rfl

/-- The requirement at a place of a chain has the depth of that place. -/
theorem chain_depth {chain : List Obligation} (chained : chain ∈ (build operators target).chains)
    {d : Nat} {o : Obligation} (held : chain[d]? = some o) :
    o.depth = d ∧ d ≤ operators.length := by
  have viewed : chain.map view ∈ (derivations 0 operators target).map (List.zipIdx ·) :=
    chains_view operators target ▸ List.mem_map_of_mem chained
  obtain ⟨tables, derived, same⟩ := List.mem_map.mp viewed
  have entry : (tables.zipIdx)[d]? = some (o.target, o.depth) := by
    rw [same, List.getElem?_map, held]
    rfl
  rw [List.getElem?_zipIdx, Option.map_eq_some_iff] at entry
  obtain ⟨t, inTables, pair⟩ := entry
  have inside := (List.getElem?_eq_some_iff.mp inTables).1
  rw [(mem_derivations.mp derived).1] at inside
  refine ⟨?_, Nat.le_of_lt_succ inside⟩
  rw [← (Prod.mk.inj pair).2, Nat.zero_add]

end Premises

open Premises (Comes)

/-- **The store of premises is the tree of derivations.** For the operators of
any sketch and any target, the chains of the store are the sequences of tables
that start from the target and go on with a table that the next operator hands
down, each once, even up to the signs of zeros, and depth first. The requirement
at a place of a chain has the depth of that place, and its path leads to the
part of the sketch at that depth. And in the store the first requirement is the
target itself, every other one comes from an earlier one that stands one step
further out, and the way up from any of them ends at the first. -/
theorem premises_are_derivations (sketch : Program) (target : Table) :
    let store := Premises.build sketch.operators target
    let chains := store.chains.map fun chain => chain.map Obligation.target
    ((∀ tables, tables ∈ chains ↔ tables.length = sketch.size + 1 ∧ tables[0]? = some target ∧
        ∀ (d : Nat) (op : Operator) (t next : Table), sketch.operators[d]? = some op →
          tables[d]? = some t → tables[d + 1]? = some next → next ∈ op.backward t (d = 0)) ∧
      (chains.map fun tables => tables.map Table.canonical).Nodup ∧
      chains.Pairwise (Precedes 0 sketch.operators)) ∧
    (∀ chain ∈ store.chains, ∀ (d : Nat) (o : Obligation), chain[d]? = some o →
      o.depth = d ∧ sketch.part? o.path = some ⟨sketch.input, sketch.steps.drop d⟩) ∧
    (store.obligations[0]? = some ⟨target, 0, none⟩ ∧
      ∀ (id : Nat) (o : Obligation), store.obligations[id]? = some o → 0 < id →
        ∃ parent < id, Comes sketch.operators store o parent) ∧
    ∀ id < store.obligations.size, ∀ length > id, (store.ancestry length id).head? = some 0 := by
  intro store chains
  have size : sketch.operators.length = sketch.size := List.length_map _
  have listed : chains = derivations 0 sketch.operators target :=
    Premises.chains_targets sketch.operators target
  obtain ⟨first, linked⟩ := Premises.build_linked sketch.operators target
  have sorted : chains.Pairwise (Precedes 0 sketch.operators) :=
    listed ▸ derivations_sorted 0 sketch.operators target
  refine ⟨⟨fun tables => ?_, ?_, sorted⟩, ?_, ⟨first, fun id o held behind => ?_⟩,
    fun id inside length enough => linked.ancestry_head inside enough⟩
  · rw [listed, mem_derivations, size]
    simp only [Nat.zero_add]
  · exact List.pairwise_map.mpr (sorted.imp Precedes.apart)
  · intro chain chained d o held
    obtain ⟨depth, inside⟩ := Premises.chain_depth chained held
    rw [size] at inside
    refine ⟨depth, ?_⟩
    rw [Program.part?, Obligation.path, depth, steps_below_of_le inside]
    rfl
  · exact (linked id o held).resolve_left fun root => Nat.ne_of_gt behind root.1

/-- Two ways to melt a name and an amount, and for each of them two ways back from a gathering. -/
example : (Premises.build [.spread, .gather]
    ⟨["name", "amount"], [.text, .number], [[.text "a", .number 1]]⟩).chainIds =
      [[0, 1, 2], [0, 1, 3], [0, 4, 5], [0, 4, 6]] := by
  decide +kernel

end Reshape

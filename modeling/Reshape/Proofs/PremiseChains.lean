import Mathlib.Data.List.Basic
import Reshape.Proofs.Shape
import Reshape.Requirement.Premises

/-! The chains of premises without their store. A chain is a sequence of tables
that starts from the target and goes on, operator by operator, with one of the
tables that the rules push back. The store shares the beginnings of chains and
finds each one again from its last requirement; what it finds are these
sequences, depth first, and nothing else. -/
namespace Reshape

/-- The ways to push a target back through operators, the first of which has
this depth: one table above each operator and one below the last. -/
def derivations (depth : Nat) : List Operator → Table → List (List Table)
  | [], target => [[target]]
  | op :: rest, target =>
    (op.backward target (depth = 0)).flatMap fun next =>
      (derivations (depth + 1) rest next).map (target :: ·)

/-- A derivation is a sequence of tables, each of them pushed back from the one
before. -/
theorem mem_derivations {depth : Nat} {operators : List Operator} {target : Table}
    {tables : List Table} :
    tables ∈ derivations depth operators target ↔
      tables.length = operators.length + 1 ∧ tables[0]? = some target ∧
        ∀ (d : Nat) (op : Operator) (t next : Table), operators[d]? = some op →
          tables[d]? = some t → tables[d + 1]? = some next →
            next ∈ op.backward t (depth + d = 0) := by
  induction operators generalizing depth target tables with
  | nil =>
    simp only [derivations, List.mem_singleton, List.length_nil, List.getElem?_nil]
    constructor
    · rintro rfl
      exact ⟨rfl, rfl, nofun⟩
    · rintro ⟨length, first, -⟩
      obtain ⟨t, rfl⟩ := List.length_eq_one_iff.mp length
      rw [List.getElem?_cons_zero, Option.some.injEq] at first
      rw [first]
  | cons op rest ih =>
    simp only [derivations, List.mem_flatMap, List.mem_map, ih]
    constructor
    · rintro ⟨next, pushed, tail, ⟨length, first, each⟩, rfl⟩
      refine ⟨by simp [length], rfl, ?_⟩
      intro d other t after operator here below
      cases d with
      | zero =>
        rw [List.getElem?_cons_zero, Option.some.injEq] at operator here
        rw [List.getElem?_cons_succ, first, Option.some.injEq] at below
        subst operator here below
        simpa using pushed
      | succ d =>
        rw [List.getElem?_cons_succ] at operator here below
        have := each d other t after operator here below
        rwa [Nat.add_right_comm, Nat.add_assoc] at this
    · rintro ⟨length, first, each⟩
      cases tables with
      | nil => cases first
      | cons head tail =>
        cases tail with
        | nil => simp at length
        | cons next others =>
          rw [List.getElem?_cons_zero, Option.some.injEq] at first
          subst first
          refine ⟨next, by simpa using each 0 op head next rfl rfl rfl, next :: others, ?_, rfl⟩
          refine ⟨by simpa using length, rfl, ?_⟩
          intro d other t after operator here below
          have := each (d + 1) other t after operator here below
          rwa [← Nat.add_assoc, Nat.add_right_comm] at this

/-- All tables of a derivation from a shaped target are shaped. -/
theorem derivations_shaped {depth : Nat} {operators : List Operator} {target : Table}
    (shaped : target.Shaped) {tables : List Table}
    (derived : tables ∈ derivations depth operators target) : ∀ t ∈ tables, t.Shaped := by
  induction operators generalizing depth target tables with
  | nil =>
    cases List.mem_singleton.mp derived
    simpa using shaped
  | cons op rest ih =>
    obtain ⟨next, pushed, member⟩ := List.mem_flatMap.mp derived
    obtain ⟨tail, pushedOn, rfl⟩ := List.mem_map.mp member
    exact List.forall_mem_cons.mpr ⟨shaped, ih (Operator.backward_shaped shaped pushed) pushedOn⟩

namespace Premises

/-- The requirement of a number behind those it comes from. -/
def chainTo (store : Premises) (id : Nat) : List Obligation :=
  (store.ancestry (id + 1) id).filterMap (store.obligations[·]?)

theorem chains_eq (store : Premises) : store.chains = store.leaves.toList.map store.chainTo := by
  rw [chains, chainIds, List.map_map]
  rfl

/-- Every requirement comes from one of a smaller number. -/
def Rooted (store : Premises) : Prop :=
  ∀ (id : Nat) (o : Obligation), store.obligations[id]? = some o →
    ∀ parent, o.parent = some parent → parent < id

/-- The chain that a requirement continues. -/
def above (store : Premises) (o : Obligation) : List Obligation :=
  match o.parent with
  | none => []
  | some parent => store.chainTo parent

/-- Nothing is gained by looking further back than a number's own size. -/
theorem ancestry_enough {store : Premises} (rooted : store.Rooted) {length id : Nat}
    (enough : id < length) : store.ancestry length id = store.ancestry (id + 1) id := by
  induction id using Nat.strongRecOn generalizing length with
  | _ id ih =>
    obtain ⟨less, rfl⟩ : ∃ less, length = less + 1 := Nat.exists_eq_add_one.mpr (by omega)
    rw [ancestry, ancestry]
    cases held : store.obligations[id]? with
    | none => rfl
    | some o =>
      dsimp only
      cases parent : o.parent with
      | none => rfl
      | some parent' =>
        have smaller := rooted id o held parent' parent
        dsimp only
        rw [ih parent' smaller (by omega : parent' < less), ih parent' smaller smaller]

/-- A chain is what its last requirement continues, and that requirement. -/
theorem chain_to_eq {store : Premises} (rooted : store.Rooted) {id : Nat} {o : Obligation}
    (held : store.obligations[id]? = some o) : store.chainTo id = store.above o ++ [o] := by
  rw [chainTo, ancestry, held, above]
  dsimp only
  cases parent : o.parent with
  | none => simp [held]
  | some parent' =>
    dsimp only
    rw [ancestry_enough rooted (rooted id o held parent' parent), List.filterMap_append, ← chainTo]
    simp [held]

/-- One store begins with all that another holds. -/
structure Grows (store larger : Premises) : Prop where
  size : store.obligations.size ≤ larger.obligations.size
  kept : ∀ id < store.obligations.size, larger.obligations[id]? = store.obligations[id]?

theorem Grows.trans {a b c : Premises} (first : a.Grows b) (second : b.Grows c) : a.Grows c :=
  ⟨Nat.le_trans first.size second.size, fun id inside =>
    (second.kept id (Nat.lt_of_lt_of_le inside first.size)).trans (first.kept id inside)⟩

/-- What a store holds already keeps its chain. -/
theorem Grows.chain_to {store larger : Premises} (grows : store.Grows larger)
    (rooted : store.Rooted) (still : larger.Rooted) {id : Nat}
    (inside : id < store.obligations.size) : larger.chainTo id = store.chainTo id := by
  induction id using Nat.strongRecOn with
  | _ id ih =>
    have held := Array.getElem?_eq_getElem inside
    rw [chain_to_eq rooted held, chain_to_eq still ((grows.kept id inside).trans held), above,
      above]
    cases parent : (store.obligations[id]).parent with
    | none => rfl
    | some parent' =>
      have smaller := rooted id _ held parent' parent
      dsimp only
      rw [ih parent' smaller (Nat.lt_trans smaller inside)]

/-- The table and the depth of a requirement. -/
def view (o : Obligation) : Table × Nat := (o.target, o.depth)

/-- What adding some requirements to a store does: it keeps what was there, and
its new leaves are the ends of chains with these tables and depths. -/
structure Adds (store larger : Premises) (viewed : List (List (Table × Nat))) : Prop where
  rooted : larger.Rooted
  grows : store.Grows larger
  leaves : ∃ ids, larger.leaves.toList = store.leaves.toList ++ ids ∧
    (∀ id ∈ ids, id < larger.obligations.size) ∧
      ids.map (fun id => (larger.chainTo id).map view) = viewed

theorem Adds.trans {a b c : Premises} {first second : List (List (Table × Nat))}
    (before : a.Adds b first) (after : b.Adds c second) : a.Adds c (first ++ second) := by
  obtain ⟨ids, leaves, inside, viewed⟩ := before.leaves
  obtain ⟨more, all, within, seen⟩ := after.leaves
  refine ⟨after.rooted, before.grows.trans after.grows, ids ++ more, ?_, ?_, ?_⟩
  · rw [all, leaves, List.append_assoc]
  · intro id member
    rcases List.mem_append.mp member with old | new
    · exact Nat.lt_of_lt_of_le (inside id old) after.grows.size
    · exact within id new
  · rw [List.map_append, seen, ← viewed]
    refine congrArg (· ++ second) (List.map_congr_left fun id member => ?_)
    rw [after.grows.chain_to before.rooted after.rooted (inside id member)]

/-- Putting one requirement into the store. -/
theorem push_grows (store : Premises) (o : Obligation) (leaves : Array Nat) :
    store.Grows ⟨store.obligations.push o, leaves⟩ := by
  refine ⟨by simp, fun id inside => ?_⟩
  simp only [Array.getElem?_push, if_neg (Nat.ne_of_lt inside)]

theorem push_rooted {store : Premises} (rooted : store.Rooted) {o : Obligation}
    (placed : ∀ parent, o.parent = some parent → parent < store.obligations.size)
    (leaves : Array Nat) : Rooted ⟨store.obligations.push o, leaves⟩ := by
  intro id other held parent comes
  simp only [Array.getElem?_push] at held
  split at held
  · rename_i last
    cases held
    exact last ▸ placed parent comes
  · exact rooted id other held parent comes

theorem above_eq {store larger : Premises} (grows : store.Grows larger) (rooted : store.Rooted)
    (still : larger.Rooted) {o : Obligation}
    (placed : ∀ parent, o.parent = some parent → parent < store.obligations.size) :
    larger.above o = store.above o := by
  rw [above, above]
  cases parent : o.parent with
  | none => rfl
  | some parent' => exact grows.chain_to rooted still (placed parent' parent)

/-- What expanding a requirement along some operators is to add: its
derivations, each behind the chain that the requirement continues. -/
def Expands (operators : List Operator) : Prop :=
  ∀ (store : Premises) (o : Obligation), store.Rooted →
    (∀ parent, o.parent = some parent → parent < store.obligations.size) →
      store.Adds (expand operators o store)
        ((derivations o.depth operators o.target).map fun tables =>
          (store.above o).map view ++ tables.zipIdx o.depth)

/-- Expanding candidates below a requirement, one after the other. The store
grows from candidate to candidate, and the chain of the requirement stays. -/
private theorem expand_candidates {rest : List Operator} (expands : Expands rest)
    {base : Premises} (rooted : base.Rooted) {id : Nat} {o : Obligation} {chain : List Obligation}
    (inside : id < base.obligations.size) (here : base.chainTo id = chain ++ [o])
    (candidates : List Table) {reached : Premises} (since : base.Grows reached)
    (whole : reached.Rooted) :
    reached.Adds
      (candidates.foldl (fun store target => expand rest ⟨target, o.depth + 1, some id⟩ store)
        reached)
      ((candidates.flatMap fun next =>
        (derivations (o.depth + 1) rest next).map (o.target :: ·)).map fun tables =>
          chain.map view ++ tables.zipIdx o.depth) := by
  induction candidates generalizing reached with
  | nil => exact ⟨whole, ⟨Nat.le_refl _, fun _ _ => rfl⟩, [], by simp, by simp, rfl⟩
  | cons target others more =>
    let child : Obligation := ⟨target, o.depth + 1, some id⟩
    have placed : ∀ parent, child.parent = some parent → parent < reached.obligations.size := by
      intro parent comes
      cases comes
      exact Nat.lt_of_lt_of_le inside since.size
    have continued : reached.above child = chain ++ [o] := by
      rw [← here]
      exact since.chain_to rooted whole inside
    have behind (tables : List Table) :
        (reached.above child).map view ++ tables.zipIdx child.depth =
          chain.map view ++ (o.target :: tables).zipIdx o.depth := by
      rw [continued]
      simp [view, child, List.zipIdx_cons]
    have added := expands reached child whole placed
    simp only [behind] at added
    rw [List.foldl_cons, List.flatMap_cons, List.map_append, List.map_map]
    exact added.trans (more (since.trans added.grows) added.rooted)

/-- **Expanding a requirement adds its derivations**, along any operators. -/
theorem expand_adds (operators : List Operator) : Expands operators := by
  induction operators with
  | nil =>
    intro store o rooted placed
    have still := push_rooted rooted placed (store.leaves.push store.obligations.size)
    have grows := push_grows store o (store.leaves.push store.obligations.size)
    refine ⟨still, grows, [store.obligations.size], by simp [expand], by simp [expand], ?_⟩
    rw [List.map_singleton, expand, chain_to_eq still Array.getElem?_push_size,
      above_eq grows rooted still placed]
    simp [derivations, view]
  | cons op rest ih =>
    intro store o rooted placed
    have still := push_rooted rooted placed store.leaves
    have grows := push_grows store o store.leaves
    have here : Premises.chainTo ⟨store.obligations.push o, store.leaves⟩ store.obligations.size =
        store.above o ++ [o] := by
      rw [chain_to_eq still Array.getElem?_push_size, above_eq grows rooted still placed]
    have added := expand_candidates ih still (by simp) here
      (op.backward o.target (o.depth = 0)) ⟨Nat.le_refl _, fun _ _ => rfl⟩ still
    obtain ⟨ids, leaves, within, viewed⟩ := added.leaves
    exact ⟨added.rooted, grows.trans added.grows, ids, leaves, within, viewed⟩

/-- **The chains of a target are its derivations**, in their order, and every
requirement has the depth of its place in the chain. -/
theorem chains_view (operators : List Operator) (target : Table) :
    (build operators target).chains.map (fun chain => chain.map view) =
      (derivations 0 operators target).map (List.zipIdx ·) := by
  have empty : Rooted ⟨#[], #[]⟩ := by simp [Rooted]
  have added := expand_adds operators ⟨#[], #[]⟩ ⟨target, 0, none⟩ empty nofun
  obtain ⟨ids, leaves, -, viewed⟩ := added.leaves
  rw [build, chains_eq, leaves, List.map_map]
  simpa [above, Function.comp_def] using viewed

theorem chains_targets (operators : List Operator) (target : Table) :
    (build operators target).chains.map (fun chain => chain.map Obligation.target) =
      derivations 0 operators target := by
  have viewed := congrArg (List.map (List.map Prod.fst)) (chains_view operators target)
  simpa [List.map_map, Function.comp_def, view] using viewed

end Premises
end Reshape

import Reshape.Proofs.Naming

/-! What a naming arena does from call to call. Whatever names it is told of and
asked for, in whatever order, the names known to it are those that were reserved or
handed out, and the counter has been through exactly the values that were tried. A
search for a free name therefore tries new values only, and ends after one more try
than there are known names at most. -/
namespace Reshape.Text.Names

/-- What an arena can be asked to do. -/
inductive Call where
  | reserve (name : String)
  | fresh (hint : String)
  | claim (hint : String)
deriving DecidableEq

/-- The name that a call hands out, if it does, and the arena after it. -/
def heed (names : Names) : Call → Option String × Names
  | .reserve name => (none, names.reserve name)
  | .fresh hint => (some (names.fresh hint).1, (names.fresh hint).2)
  | .claim hint => (some (names.claim hint).1, (names.claim hint).2)

/-- A call with the name that it handed out and the values of the counter that were
tried for it. -/
structure Turn where
  call : Call
  name : Option String
  tried : List Nat
deriving DecidableEq

/-- The names that are known after a turn and need not have been before. -/
def Turn.names (turn : Turn) : List String :=
  match turn.call with
  | .reserve name => [name]
  | .fresh _ | .claim _ => turn.name.toList

/-- The turn that a call makes. A try moves the counter on by one, so the values that
are tried are those that it moves over. -/
def turn (names : Names) (call : Call) : Turn where
  call
  name := (names.heed call).1
  tried := List.range' names.count ((names.heed call).2.count - names.count)

/-- The turns that calls make one after the other. -/
def turns : Names → List Call → List Turn
  | _, [] => []
  | names, call :: rest => names.turn call :: (names.heed call).2.turns rest

/-- A search without a bound: one value of the counter after the other is tried, until
the name with it is not among those known. -/
inductive Tries (hint : String) (known : List String) : List Nat → Prop where
  | free {n : Nat} (new : numbered hint n ∉ known) : Tries hint known [n]
  | again {n : Nat} {tried : List Nat} (old : numbered hint n ∈ known)
    (later : Tries hint known ((n + 1) :: tried)) : Tries hint known (n :: (n + 1) :: tried)

variable {hint : String} {known : List String} {names : Names} {tried : List Nat}

/-- A bounded search that finds a free name has made the tries of one without a
bound. -/
theorem first_free_tries {taken : List String} (same : ∀ name, name ∈ taken ↔ name ∈ known)
    (bound n : Nat) (free : numbered hint (firstFree hint taken bound n) ∉ taken) :
    ∃ m, firstFree hint taken bound n = n + m ∧ Tries hint known (List.range' n (m + 1)) := by
  induction bound generalizing n with
  | zero => exact ⟨0, rfl, .free (mt (same _).mpr free)⟩
  | succ bound ih =>
    rw [firstFree] at free ⊢
    by_cases old : numbered hint n ∈ taken
    · rw [if_pos old] at free ⊢
      obtain ⟨m, found, tries⟩ := ih (n + 1) free
      exact ⟨m + 1, by omega, .again ((same _).mp old) tries⟩
    · rw [if_neg old]
      exact ⟨0, rfl, .free (mt (same _).mpr old)⟩

/-- A search ends after one more try than there are different names at most. -/
theorem Tries.length_le (tries : Tries hint known tried) :
    tried.length ≤ known.dedup.length + 1 := by
  obtain ⟨n, m, rfl, all⟩ : ∃ n m, tried = List.range' n (m + 1) ∧
      ∀ k < m, numbered hint (n + k) ∈ known := by
    induction tries with
    | free => exact ⟨_, 0, rfl, nofun⟩
    | @again n tried old _ ih =>
      obtain ⟨start, m, values, all⟩ := ih
      obtain ⟨rfl, -⟩ := List.cons.inj values
      refine ⟨n, m + 1, congrArg (n :: ·) values, fun k within => ?_⟩
      cases k with
      | zero => exact old
      | succ k =>
        rw [Nat.add_comm k, ← Nat.add_assoc]
        exact all k (Nat.lt_of_succ_lt_succ within)
  rw [List.length_range']
  exact Nat.succ_le_succ (taken_in_a_row all)

/-- A turn hands out the hint with the last value tried behind it. No value is tried
that has been tried before, all but the last are tried in vain, and they are no more
than the known names. -/
structure Turn.Numbers (turn : Turn) (hint : String) (known : List String)
    (before : List Nat) : Prop where
  search : Tries hint known turn.tried
  found : ∃ n, turn.tried.getLast? = some n ∧ turn.name = some (numbered hint n)
  different : (before ++ turn.tried).Nodup
  few : turn.tried.length ≤ known.dedup.length + 1

/-- What a call comes to among the names known and after the values tried before it. -/
structure Turn.Honest (turn : Turn) (known : List String) (before : List Nat) : Prop where
  new : ∀ name ∈ turn.name, name ∉ known
  reserved : ∀ name, turn.call = .reserve name → turn.name = none ∧ turn.tried = []
  fresh : ∀ hint, turn.call = .fresh hint → turn.Numbers hint known before
  free : ∀ hint, turn.call = .claim hint → (turn.name = some hint ↔ hint ∉ known)
  taken : ∀ hint, turn.call = .claim hint → hint ∈ known → turn.Numbers hint known before

/-- An arena knows the names that were reserved or handed out, and its counter the
values that were tried. -/
structure Remembers (names : Names) (known : List String) (tried : List Nat) : Prop where
  told : ∀ name, name ∈ names.taken ↔ name ∈ known
  counted : tried = List.range names.count

theorem reserving_remembers (reserved : List String) : (reserving reserved).Remembers reserved [] :=
  ⟨fun _ => .rfl, rfl⟩

/-- One more name is known to an arena that marks it as taken. -/
theorem Remembers.mark (remembers : names.Remembers known tried) (name : String) (more : Nat) :
    Remembers ⟨names.count + more, name :: names.taken⟩ (known ++ [name])
      (tried ++ List.range' names.count more) where
  told other := by
    rw [List.mem_cons, List.mem_append, List.mem_singleton, or_comm, remembers.told]
  counted := by
    rw [remembers.counted, List.range_eq_range', List.range_eq_range', ← List.range'_append_1,
      Nat.zero_add]

/-- A new name with a number ends a search among the known names, and the values tried
for it are those behind all that were tried before. -/
theorem fresh_spec (remembers : names.Remembers known tried) (hint : String) :
    ∃ m, names.fresh hint = (numbered hint (names.count + m),
        ⟨names.count + (m + 1), numbered hint (names.count + m) :: names.taken⟩) ∧
      numbered hint (names.count + m) ∉ known ∧
      Tries hint known (List.range' names.count (m + 1)) := by
  have free := first_free_not_taken hint names.taken names.count
  obtain ⟨m, found, tries⟩ := first_free_tries remembers.told names.taken.length names.count free
  rw [found, remembers.told] at free
  refine ⟨m, ?_, free, tries⟩
  rw [fresh, found]
  rfl

/-- What a turn shows that hands out a new name with a number, and what is remembered of
it. -/
theorem numbers_of_fresh (remembers : names.Remembers known tried) (call : Call)
    (heeded : names.heed call = (some (names.fresh hint).1, (names.fresh hint).2)) :
    (∀ name ∈ (names.turn call).name, name ∉ known) ∧
      (names.turn call).Numbers hint known tried ∧
      (names.heed call).2.Remembers (known ++ (names.turn call).name.toList)
        (tried ++ (names.turn call).tried) := by
  obtain ⟨m, after, free, tries⟩ := fresh_spec remembers hint
  rw [after] at heeded
  have values : (names.turn call).tried = List.range' names.count (m + 1) := by
    rw [turn, heeded, Nat.add_sub_cancel_left]
  have handed : (names.turn call).name = some (numbered hint (names.count + m)) := by
    rw [turn, heeded]
  have marked := remembers.mark (numbered hint (names.count + m)) (m + 1)
  rw [handed, values, heeded]
  refine ⟨?_, ⟨values ▸ tries, ⟨_, ?_, handed⟩, ?_, values ▸ tries.length_le⟩, marked⟩
  · rintro name ⟨rfl⟩
    exact free
  · rw [values, List.getLast?_range']
    simp
  · rw [values, marked.counted]
    exact List.nodup_range

/-- A turn is honest, and what it adds is remembered. -/
theorem turn_honest (remembers : names.Remembers known tried) (call : Call) :
    (names.turn call).Honest known tried ∧
      (names.heed call).2.Remembers (known ++ (names.turn call).names)
        (tried ++ (names.turn call).tried) := by
  cases call with
  | reserve name =>
    have kept : (names.turn (.reserve name)).tried = [] := by
      rw [turn, heed, reserve, Nat.sub_self]
      rfl
    refine ⟨⟨nofun, ?_, nofun, nofun, nofun⟩, ?_⟩
    · exact fun _ _ => ⟨rfl, kept⟩
    · rw [kept]
      exact remembers.mark name 0
  | fresh hint =>
    obtain ⟨new, numbers, after⟩ := numbers_of_fresh remembers (.fresh hint) rfl
    refine ⟨⟨new, nofun, ?_, nofun, nofun⟩, after⟩
    rintro _ ⟨rfl⟩
    exact numbers
  | claim hint =>
    by_cases old : hint ∈ known
    · have claimed : names.claim hint = names.fresh hint := if_pos ((remembers.told hint).mpr old)
      obtain ⟨new, numbers, after⟩ := numbers_of_fresh remembers (.claim hint)
        (by rw [heed, claimed])
      refine ⟨⟨new, nofun, nofun, ?_, ?_⟩, after⟩
      · rintro _ ⟨rfl⟩
        exact iff_of_false (fun same => new hint same old) (not_not_intro old)
      · rintro _ ⟨rfl⟩ _
        exact numbers
    · have claimed : names.claim hint = (hint, names.reserve hint) :=
        if_neg (mt (remembers.told hint).mp old)
      have handed : (names.turn (.claim hint)).name = some hint := by rw [turn, heed, claimed]
      have kept : (names.turn (.claim hint)).tried = [] := by
        rw [turn, heed, claimed, reserve, Nat.sub_self]
        rfl
      refine ⟨⟨?_, nofun, nofun, ?_, ?_⟩, ?_⟩
      · rw [handed]
        rintro _ ⟨rfl⟩
        exact old
      · rintro _ ⟨rfl⟩
        exact iff_of_true handed old
      · rintro _ ⟨rfl⟩ again
        exact absurd again old
      · rw [kept, Turn.names, handed, heed, claimed]
        exact remembers.mark hint 0

/-- Every turn is honest about the turns before it. -/
theorem turns_honest (remembers : names.Remembers known tried) (calls : List Call)
    {before after : List Turn} {turn : Turn} (split : names.turns calls = before ++ turn :: after) :
    turn.Honest (known ++ before.flatMap Turn.names) (tried ++ before.flatMap Turn.tried) := by
  induction calls generalizing names known tried before with
  | nil => simp [turns] at split
  | cons call rest ih =>
    obtain ⟨honest, later⟩ := turn_honest remembers call
    cases before with
    | nil =>
      obtain ⟨rfl, -⟩ := List.cons.inj split
      simpa using honest
    | cons first before =>
      obtain ⟨rfl, others⟩ := List.cons.inj split
      simpa using ih later others

theorem turns_calls (names : Names) (calls : List Call) :
    (names.turns calls).map Turn.call = calls := by
  induction calls generalizing names with
  | nil => rfl
  | cons call rest ih => exact congrArg (call :: ·) (ih _)

/-- **An arena never hands out a name that it knows.** Whatever names are reserved at
first and whatever is asked for then, each call has its turn; a name that is handed out
is none of those reserved or handed out before; a claim gets its hint as it is just when
that is none of them; and otherwise a claim, like a request for a fresh name always, gets
the hint with a value of the counter behind it that no try was made with before, after
one more try than there are known names at most. -/
theorem names_handed_out (reserved : List String) (calls : List Call) :
    ((reserving reserved).turns calls).map Turn.call = calls ∧
      ∀ before turn after, (reserving reserved).turns calls = before ++ turn :: after →
        turn.Honest (reserved ++ before.flatMap Turn.names) (before.flatMap Turn.tried) :=
  ⟨turns_calls _ calls, fun _ _ _ split =>
    turns_honest (reserving_remembers reserved) calls split⟩

/-- A hint that is claimed a third time meets a reserved name on its way to a new one. -/
theorem names_handed_out_meeting :
    ∃ before turn, (reserving ["x1"]).turns [.claim "x", .claim "x", .claim "x"] =
        before ++ turn :: [] ∧ turn.name = some "x2" ∧ turn.tried = [1, 2] ∧
      "x2" ∉ ["x1"] ++ before.flatMap Turn.names ∧
      (before.flatMap Turn.tried ++ turn.tried).Nodup := by
  let turns := (reserving ["x1"]).turns [.claim "x", .claim "x", .claim "x"]
  have ran : turns = [⟨.claim "x", some "x", []⟩, ⟨.claim "x", some "x0", [0]⟩,
      ⟨.claim "x", some "x2", [1, 2]⟩] := by decide +kernel
  obtain ⟨-, honest⟩ := names_handed_out ["x1"] [.claim "x", .claim "x", .claim "x"]
  have last := honest [⟨.claim "x", some "x", []⟩, ⟨.claim "x", some "x0", [0]⟩]
    ⟨.claim "x", some "x2", [1, 2]⟩ [] ran
  exact ⟨_, _, ran, rfl, rfl, last.new "x2" rfl, (last.taken "x" rfl (by decide)).different⟩

end Reshape.Text.Names

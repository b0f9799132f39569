/-! A naming arena: names that are taken, and a counter that supplies endings
for new ones. Every name it hands out is taken from then on, so no two are the
same and none meets a name it was told of. The counter is shared by all hints
and never goes back. -/
namespace Reshape.Text

/-- The state of a naming arena. -/
structure Names where
  count : Nat
  taken : List String
deriving DecidableEq, Repr

namespace Names

/-- An arena in which exactly these names are taken. -/
def reserving (names : List String) : Names := ⟨0, names⟩

/-- Marks a name as taken. -/
def reserve (names : Names) (name : String) : Names :=
  { names with taken := name :: names.taken }

/-- A hint with a number behind it. -/
def numbered (hint : String) (n : Nat) : String := hint ++ toString n

/-- The first counter value, from `n` on, whose name for this hint is free,
looking at `tries` of them. -/
def firstFree (hint : String) (taken : List String) : (tries n : Nat) → Nat
  | 0, n => n
  | tries + 1, n =>
    if numbered hint n ∈ taken then firstFree hint taken tries (n + 1) else n

/-- A new name made of the hint and a number. As many tries as there are taken
names always suffice, since the names tried are all different. -/
def fresh (names : Names) (hint : String) : String × Names :=
  let n := firstFree hint names.taken names.taken.length names.count
  (numbered hint n, ⟨n + 1, numbered hint n :: names.taken⟩)

/-- The hint itself while it is free, and otherwise a new name made from it. -/
def claim (names : Names) (hint : String) : String × Names :=
  if hint ∈ names.taken then names.fresh hint else (hint, names.reserve hint)

/-- Claims a name for each hint in turn. -/
def claimAll (names : Names) : (hints : List String) → List String × Names
  | [] => ([], names)
  | hint :: hints =>
    let (name, names) := names.claim hint
    let (rest, names) := names.claimAll hints
    (name :: rest, names)

end Names
end Reshape.Text

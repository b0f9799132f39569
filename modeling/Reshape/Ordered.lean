/-! Maps that keep their entries in the order in which the keys first came.
Writing to a key again changes its value and not its place. -/
namespace Reshape.Ordered

variable {κ α : Type} [DecidableEq κ]

/-- The value at a key. -/
def get? (key : κ) : List (κ × α) → Option α
  | [] => none
  | (k, a) :: rest => if k = key then some a else get? key rest

/-- Changes the value at a key, or puts a new entry behind all others. -/
def alter (key : κ) (change : Option α → α) : List (κ × α) → List (κ × α)
  | [] => [(key, change none)]
  | (k, a) :: rest =>
    if k = key then (k, change (some a)) :: rest else (k, a) :: alter key change rest

/-- Sets the value at a key. -/
def put (key : κ) (value : α) (entries : List (κ × α)) : List (κ × α) :=
  alter key (fun _ => value) entries

/-- Adds to the number at a key, a missing one counting as zero. -/
def add (key : κ) (n : Nat) (entries : List (κ × Nat)) : List (κ × Nat) :=
  alter key (fun old => old.getD 0 + n) entries

/-- The map that results from writing these pairs one after the other. -/
def ofPairs (pairs : List (κ × α)) : List (κ × α) :=
  pairs.foldl (fun entries (key, value) => put key value entries) []

/-- Adds every number of the second map to the first. -/
def merge (entries others : List (κ × Nat)) : List (κ × Nat) :=
  others.foldl (fun entries (key, n) => add key n entries) entries

/-- The keys in order. -/
def keys (entries : List (κ × α)) : List κ := entries.map (·.1)

end Reshape.Ordered

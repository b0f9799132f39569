/-! Choosing elements of a list without changing their order. -/
namespace Reshape

/-- Every way to choose `k` elements of a list, the choices that take an
earlier element coming first. -/
def choose {α : Type} : (k : Nat) → List α → List (List α)
  | 0, _ => [[]]
  | _ + 1, [] => []
  | k + 1, x :: xs => (choose k xs).map (x :: ·) ++ choose (k + 1) xs

/-- Every increasing list of `k` numbers below `n`, in lexicographic order. -/
def combinations (n k : Nat) : List (List Nat) := choose k (List.range n)

end Reshape

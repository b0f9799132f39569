/-! Lists as collections: which elements repeat, which come first, and how
often each occurs. -/
namespace Reshape

variable {α β : Type} [DecidableEq α] [DecidableEq β]

omit [DecidableEq α] in
/-- The first element whose value under `f` occurs at an earlier one, or among
`seen`. -/
def firstRepeat (f : α → β) (seen : List β) : List α → Option α
  | [] => none
  | a :: rest => if f a ∈ seen then some a else firstRepeat f (f a :: seen) rest

omit [DecidableEq α] in
/-- The elements whose value under `f` occurs at no earlier element, in
order. -/
def firstsBy (f : α → β) : List α → List α
  | [] => []
  | a :: rest => a :: (firstsBy f rest).filter fun b => f b ≠ f a

/-- Whether every element occurs in `larger` at least as often. -/
def countedIn (smaller larger : List α) : Bool :=
  smaller.all fun a => smaller.count a ≤ larger.count a

end Reshape

import Reshape.Proofs.Replacement

/-! Evaluation with checked indices. The operators read names, kinds and cells
by their position, and what stands for an entry beyond the end of a list is a
default that no table holds. Here the same operators are written down once more
so that reading beyond the end is a fault. On tables of the right shape the two
agree: no index is out of range, whatever the operators and their arguments
are. -/
namespace Reshape

open Text (Names)

/-- How a computation with checked indices fails: an index is out of range, or
it raises an error of its own. -/
inductive Fault (ε : Type) where
  | outOfRange
  | raised (e : ε)
deriving DecidableEq, Repr

/-- The fault with another error in place of its own. -/
def Fault.map {ε ε' : Type} (f : ε → ε') : Fault ε → Fault ε'
  | .outOfRange => .outOfRange
  | .raised e => .raised (f e)

/-- A computation with checked indices. -/
abbrev Checked (ε α : Type) := Except (Fault ε) α

/-- The outcome of a computation in which no index is out of range. -/
def Checked.of {ε α : Type} (result : Except ε α) : Checked ε α := result.mapError .raised

section Reading

variable {ε α : Type}

/-- The entry at a position, which has to be there. -/
def entryAt (entries : List α) (position : Nat) : Checked ε α :=
  match entries[position]? with
  | some entry => .ok entry
  | none => .error .outOfRange

/-- The entries at some positions, all of which have to be there. -/
def entriesAt (entries : List α) (positions : List Nat) : Checked ε (List α) :=
  positions.mapM (entryAt entries)

/-- Walks over columns like `splice`, the old entries being those of a list. -/
def spliceChecked (width place : Nat) (gone : List Nat) (new old : List α) :
    Checked ε (List α) := do
  let entries ← (List.range width).mapM fun c =>
    if c = place then pure new else if c ∈ gone then pure [] else return [← entryAt old c]
  return entries.flatten

end Reading

namespace Table

section Rows

variable {ε : Type}

/-- `column` with checked indices. -/
def columnChecked (t : Table) (column : Nat) : Checked ε (List Cell) :=
  t.rows.mapM (entryAt · column)

/-- `project` with checked indices. -/
def projectChecked (t : Table) (columns : List Nat) : Checked ε Table := do
  return {
    columns := ← entriesAt t.columns columns
    kinds := ← entriesAt t.kinds columns
    rows := ← t.rows.mapM (entriesAt · columns) }

/-- `splice` with checked indices. There have to be new cells for every row. -/
def spliceChecked (t : Table) (place : Nat) (gone : List Nat) (new : List (String × Kind))
    (cells : List Row) : Checked ε Table := do
  return {
    columns := ← Reshape.spliceChecked t.width place gone (new.map (·.1)) t.columns
    kinds := ← Reshape.spliceChecked t.width place gone (new.map (·.2)) t.kinds
    rows := ← t.rows.zipIdx.mapM fun numbered => do
      Reshape.spliceChecked t.width place gone (← entryAt cells numbered.2) numbered.1 }

end Rows

/-- `requireNumeric` with checked indices. -/
def requireNumericChecked (t : Table) (column : Nat) : Checked Refusal Unit := do
  if (← entryAt t.kinds column) = .number then return ()
  else throw (.raised (.notNumeric (← entryAt t.columns column)))

/-- `requireComparable` with checked indices. -/
def requireComparableChecked (t : Table) (column : Nat) (op : Comparison) (constant : Cell) :
    Checked Refusal Unit := do
  let kind ← entryAt t.kinds column
  if op.accepts kind ∧ constant.kind = kind then return ()
  else throw (.raised (.notComparable kind constant op))

/-- `select` with checked indices. -/
def selectChecked (t : Table) (columns : List Nat) : Checked Refusal Table :=
  if columns = [] then throw (.raised .noColumnsSelected) else t.projectChecked columns

/-- `unite` with checked indices. -/
def uniteChecked (t : Table) (left right : Nat) (separator : String) : Checked Refusal Table :=
  if left = right then throw (.raised .uniteWithItself)
  else do
    let name := t.newName ((← entryAt t.columns left) ++ separator ++ (← entryAt t.columns right))
    let cells ← t.rows.mapM fun row => do
      return [joinCells separator (← entryAt row left) (← entryAt row right)]
    t.spliceChecked left [right] [(name, .text)] cells

/-- `filter` with checked indices. -/
def filterChecked (t : Table) (column : Nat) (op : Comparison) (constant : Cell) :
    Checked Refusal Table := do
  t.requireComparableChecked column op constant
  let cells ← t.columnChecked column
  let kept := (t.rows.zip cells).filter fun (_, cell) => op.holds? cell constant = some true
  return { t with rows := kept.map (·.1) }

/-- `splitColumn` with checked indices. -/
def splitColumnChecked (t : Table) (column : Nat) (parts : List (List Char × List Char)) :
    Checked Refusal Table := do
  let name ← entryAt t.columns column
  let (leftKind, lefts) := Cell.ofFragments (parts.map (·.1))
  let (rightKind, rights) := Cell.ofFragments (parts.map (·.2))
  let (leftName, names) := (Names.reserving t.columns).claim (name ++ "1")
  let (rightName, _) := names.claim (name ++ "2")
  t.spliceChecked column [] [(leftName, leftKind), (rightName, rightKind)]
    (List.zipWith (fun left right => [left, right]) lefts rights)

/-- `separate` with checked indices. -/
def separateChecked (t : Table) (column : Nat) : Checked Refusal Table := do
  if (← entryAt t.kinds column) ≠ .text then throw (.raised .notText)
  else
    let cells ← t.columnChecked column
    let parts ← Checked.of <| cells.mapM fun cell =>
      match Text.splitFirst? (· ∈ Text.separators) (cellText cell) with
      | some parts => .ok parts
      | none => .error (.noSeparator (.ofList (cellText cell)))
    t.splitColumnChecked column parts

/-- `cumsum` with checked indices. -/
def cumsumChecked (t : Table) (column : Nat) : Checked Refusal Table := do
  t.requireNumericChecked column
  let cells ← t.columnChecked column
  return t.append (t.newName "cumsum") .number
    ((runningTotals 0 (cells.map cellNumber)).map Cell.number)

/-- `mutate` with checked indices. -/
def mutateChecked (t : Table) (left : Nat) (op : Arithmetic) (right : Nat) :
    Checked Refusal Table :=
  if left = right then throw (.raised .sameColumnTwice)
  else do
    t.requireNumericChecked left
    t.requireNumericChecked right
    let cells ← t.rows.mapM fun row => do
      return .number (op.apply (cellNumber (← entryAt row left)) (cellNumber (← entryAt row right)))
    let name := (← entryAt t.columns left) ++ op.symbol ++ (← entryAt t.columns right)
    return t.append (t.newName name) .number cells

/-- `mutateCustom` with checked indices. -/
def mutateCustomChecked (t : Table) (column : Nat) (op : Comparison) (constant : Cell) :
    Checked Refusal Table := do
  t.requireComparableChecked column op constant
  let cells ← t.columnChecked column
  let name := (← entryAt t.columns column) ++ op.symbol ++ constant.display
  return t.append (t.newName name) .boolean
    (cells.map fun cell => .boolean (op.holds? cell constant = some true))

/-- `gather` with checked indices. -/
def gatherChecked (t : Table) (melted : List Nat) : Checked Refusal Table :=
  match melted with
  | [] => throw (.raised .nothingToGather)
  | first :: _ => do
    let kind ← entryAt t.kinds first
    if (← entriesAt t.kinds melted).any (· ≠ kind) then throw (.raised .mixedKinds)
    else
      let ids := t.others melted
      let (added, _) := (Names.reserving t.columns).claimAll ["KEY", "VALUE"]
      let blocks ← melted.mapM fun c => do
        let name ← entryAt t.columns c
        t.rows.mapM fun row => do
          return (← entriesAt row ids) ++ [.text name, ← entryAt row c]
      return {
        columns := (← entriesAt t.columns ids) ++ added
        kinds := (← entriesAt t.kinds ids) ++ [.text, kind]
        rows := blocks.flatten }

/-- `place` with checked indices. Every row is read in the value column too, also
where the table is refused and no cell of it is used. -/
def placeChecked (index : List Nat) (key value : Nat) (row : Row) : Checked Refusal Placed := do
  let named ← entryAt row key
  let group ← entriesAt row index
  let _ ← entryAt row value
  return { group := Row.key group, key := named.key, row }

/-- `spread` with checked indices. -/
def spreadChecked (t : Table) (key value : Nat) : Checked Refusal Table :=
  if key = value then throw (.raised .keyIsValue)
  else do
    let index := t.others [key, value]
    let placed ← t.rows.mapM (placeChecked index key value)
    match firstRepeat (fun p => (p.group, p.key)) [] placed with
    | some p => throw (.raised (.repeatedKey (← entryAt p.row key)))
    | none =>
      if placed = [] then throw (.raised .nothingToSpread)
      else
        let keys := firstsBy Placed.key placed
        let names ← entriesAt t.columns index
        let kinds ← entriesAt t.kinds index
        let kind ← entryAt t.kinds value
        let hints ← keys.mapM fun k => do return (← entryAt k.row key).display
        let (added, _) := (Names.reserving names).claimAll hints
        let rows ← (firstsBy Placed.group placed).mapM fun g => do
          let cells ← keys.mapM fun k =>
            match placed.find? fun p => p.group = g.group ∧ p.key = k.key with
            | some p => entryAt p.row value
            | none => throw (.raised .missingCells)
          return (← entriesAt g.row index) ++ cells
        return {
          columns := names ++ added
          kinds := kinds ++ keys.map fun _ => kind
          rows }

/-- The cells of a row in the grouping columns, and what it adds to its group,
with checked indices. -/
def summandChecked (groups : List Nat) (target : Option Nat) (row : Row) :
    Checked Refusal (Row × Float) := do
  let group ← entriesAt row groups
  match target with
  | none => return (group, 1)
  | some c => return (group, ((← entryAt row c).number?).getD 1)

/-- `groupSum` with checked indices. -/
def groupSumChecked (t : Table) (groups : List Nat) (target : Option Nat) (f : Aggregate) :
    Checked Refusal Table :=
  if groups = [] then throw (.raised .noGroups)
  else do
    let hint ← match target with
      | none => if f = .count then .ok "count" else throw (.raised .rowsOnlyCounted)
      | some c =>
        if c ∈ groups then throw (.raised .aggregatesGroup)
        else do
          t.requireNumericChecked c
          pure (f.name ++ "_" ++ (← entryAt t.columns c))
    let summands ← t.rows.mapM (summandChecked groups target)
    return {
      columns := (← entriesAt t.columns groups) ++ [t.newName hint]
      kinds := (← entriesAt t.kinds groups) ++ [.number]
      rows := (firstsBy (fun s => Row.key s.1) summands).map fun s =>
        s.1 ++ [.number (f.apply
          ((summands.filter fun other => other.1.key = s.1.key).map (·.2)))] }

end Table

namespace Step

/-- The result of an operator as that of a step, with checked indices. -/
def refusingChecked (step : Step) (result : Checked Refusal Table) : Checked EvalError Table :=
  result.mapError (.map (.inapplicable step.operator))

/-- `apply` with checked indices. To read an argument that is not there is an
error of its own, and so is a column out of range among the arguments. -/
def applyChecked (step : Step) (t : Table) : Checked EvalError Table :=
  match step.operator with
  | .select => do
    let columns ← .of (step.takeColumns 1 t.width)
    step.refusingChecked (t.selectChecked columns)
  | .unite => do
    let left ← .of (step.takeColumn 1 t.width)
    let right ← .of (step.takeColumn 2 t.width)
    let separator ← .of (step.takeText 3)
    step.refusingChecked (t.uniteChecked left right separator)
  | .filter => do
    let column ← .of (step.takeColumn 1 t.width)
    let op ← .of (step.takeComparison 2)
    let constant ← .of (step.takeConstant 3)
    step.refusingChecked (t.filterChecked column op constant)
  | .separate => do
    let column ← .of (step.takeColumn 1 t.width)
    step.refusingChecked (t.separateChecked column)
  | .spread => do
    let key ← .of (step.takeColumn 1 t.width)
    let value ← .of (step.takeColumn 2 t.width)
    step.refusingChecked (t.spreadChecked key value)
  | .gather => do
    let melted ← .of (step.takeColumns 1 t.width)
    step.refusingChecked (t.gatherChecked melted)
  | .gatherNeg => do
    let kept ← .of (step.takeColumns 1 t.width)
    step.refusingChecked (t.gatherChecked (t.others kept))
  | .groupSum => do
    let groups ← .of (step.takeColumns 1 t.width)
    let target ← .of (step.takeTarget 2 t.width)
    let f ← .of (step.takeAggregate 3)
    step.refusingChecked (t.groupSumChecked groups target f)
  | .cumsum => do
    let column ← .of (step.takeColumn 1 t.width)
    step.refusingChecked (t.cumsumChecked column)
  | .mutate => do
    let left ← .of (step.takeColumn 1 t.width)
    let op ← .of (step.takeArithmetic 2)
    let right ← .of (step.takeColumn 3 t.width)
    step.refusingChecked (t.mutateChecked left op right)
  | .mutateCustom => do
    let column ← .of (step.takeColumn 1 t.width)
    let op ← .of (step.takeComparison 2)
    let constant ← .of (step.takeConstant 3)
    step.refusingChecked (t.mutateCustomChecked column op constant)

end Step

/-- `evalSteps` with checked indices. -/
def evalStepsChecked (inputs : List Table) (input : Nat) : List Step → Checked EvalError Table
  | [] =>
    match inputs[input]? with
    | some t => .ok t
    | none => .error (.raised (.missingInput input inputs.length))
  | step :: rest => do step.applyChecked (← evalStepsChecked inputs input rest)

/-- `Program.eval` with checked indices. -/
def Program.evalChecked (p : Program) (inputs : List Table) : Checked EvalError Table :=
  evalStepsChecked inputs p.input p.steps

end Reshape

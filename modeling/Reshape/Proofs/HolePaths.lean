import Mathlib.Data.List.Nodup
import Reshape.Program.Holes

/-! Paths to arguments. A path is read in two parts: all its numbers but the last
lead to a step, and the last one is a position among that step's arguments. The
holes are the paths, in a fixed order, at which an open argument stands, and
filling one changes the argument there and no other. Since a program is known by
its operators and by the arguments at its paths, what filling does to the list of
holes, and what two fillings do together, follows from that alone. -/
namespace Reshape

/-- The argument at a path: the one at its last position in the step that the
numbers before it lead to. -/
def argumentAt? (steps : List Step) (path : Path) : Option Argument := do
  let position ← path.getLast?
  let below ← stepsBelow? steps path.dropLast
  let step ← below.head?
  step.argument? position

/-- The paths to all arguments, open or not, outermost steps first. -/
def argumentPaths : List Step → List Path
  | [] => []
  | step :: rest =>
    (List.range' 1 step.arguments.length).map ([·]) ++ (argumentPaths rest).map (0 :: ·)

/-- The same steps but for one argument. -/
structure Refilled (steps : List Step) (path : Path) (value : Argument) (filled : List Step) :
    Prop where
  operators : filled.map Step.operator = steps.map Step.operator
  sizes : filled.map (·.arguments.length) = steps.map (·.arguments.length)
  arguments : ∀ other, argumentAt? filled other =
    if other = path then some value else argumentAt? steps other

variable {step : Step} {steps rest : List Step} {path : Path} {position : Nat} {value : Argument}

@[simp] theorem argument_at_root : argumentAt? steps [] = none := rfl

@[simp] theorem argument_at_last : argumentAt? (step :: rest) [position] = step.argument? position :=
  by simp [argumentAt?, stepsBelow?]

@[simp] theorem argument_at_nowhere : argumentAt? [] path = none := by
  cases path with
  | nil => rfl
  | cons first path =>
    cases path <;> simp [argumentAt?, stepsBelow?]

theorem argument_at_cons {first : Nat} (deeper : path ≠ []) :
    argumentAt? (step :: rest) (first :: path) =
      if first = 0 then argumentAt? rest path else none := by
  rw [argumentAt?, argumentAt?, List.dropLast_cons_of_ne_nil deeper,
    List.getLast?_cons_of_ne_nil deeper]
  cases first with
  | zero => simp [stepsBelow?]
  | succ first => simp [stepsBelow?]

theorem Step.argument_is_some : (step.argument? position).isSome ↔
    position ∈ List.range' 1 step.arguments.length := by
  rw [List.mem_range'_1]
  cases position with
  | zero => simp [argument?]
  | succ index => simp [argument?]; omega

/-- The paths are those at which an argument stands. -/
theorem mem_argument_paths : path ∈ argumentPaths steps ↔ (argumentAt? steps path).isSome := by
  induction steps generalizing path with
  | nil => simp [argumentPaths]
  | cons step rest ih =>
    rw [argumentPaths, List.mem_append, List.mem_map, List.mem_map]
    match path with
    | [] => simp
    | [position] =>
      rw [argument_at_last, Step.argument_is_some]
      simp [ih]
    | first :: second :: deeper =>
      rw [argument_at_cons (List.cons_ne_nil _ _)]
      by_cases down : first = 0
      · simp [down, ih]
      · simp [down, Ne.symm down]

theorem ne_nil_of_mem_argument_paths (member : path ∈ argumentPaths steps) : path ≠ [] := by
  rintro rfl
  simp [mem_argument_paths] at member

theorem argument_paths_nodup (steps : List Step) : (argumentPaths steps).Nodup := by
  induction steps with
  | nil => exact List.nodup_nil
  | cons step rest ih =>
    refine List.nodup_append.mpr ⟨?_, ih.map fun _ _ => (List.cons.inj · |>.2), ?_⟩
    · exact (List.nodup_range' _ Nat.one_pos).map fun _ _ => (List.cons.inj · |>.1)
    · intro shallow here deep below same
      obtain ⟨position, own, rfl⟩ := List.mem_map.mp here
      obtain ⟨deeper, -, rfl⟩ := List.mem_map.mp below
      cases same
      simp at own

/-- The paths depend on the numbers of arguments alone. -/
theorem argument_paths_congr {filled : List Step}
    (same : filled.map (·.arguments.length) = steps.map (·.arguments.length)) :
    argumentPaths filled = argumentPaths steps := by
  induction steps generalizing filled with
  | nil => rw [List.map_eq_nil_iff.mp same]
  | cons step rest ih =>
    cases filled with
    | nil => cases same
    | cons step' rest' =>
      obtain ⟨own, below⟩ : step'.arguments.length = step.arguments.length ∧ _ := List.cons.inj same
      rw [argumentPaths, argumentPaths, ih below, own]

/-- The holes are the open ones among the arguments. -/
theorem hole_paths_eq (steps : List Step) : holePaths steps =
    (argumentPaths steps).filter fun path => argumentAt? steps path = some .hole := by
  induction steps with
  | nil => rfl
  | cons step rest ih =>
    rw [holePaths, argumentPaths, List.filter_append, List.filter_map, List.filter_map, ih,
      Step.holes]
    congr 1
    refine congrArg _ (List.filter_congr fun path member => ?_)
    rw [Function.comp_apply, argument_at_cons (ne_nil_of_mem_argument_paths member), if_pos rfl]

theorem mem_hole_paths : path ∈ holePaths steps ↔ argumentAt? steps path = some .hole := by
  rw [hole_paths_eq, List.mem_filter, decide_eq_true_eq, mem_argument_paths, and_iff_right_iff_imp]
  intro hole
  rw [hole, Option.isSome_some]

theorem Step.argument_with_argument {other : Nat} (hole : step.argument? position = some .hole) :
    (step.withArgument position value).argument? other =
      if other = position then some value else step.argument? other := by
  cases position with
  | zero => cases hole
  | succ index =>
    cases other with
    | zero => rfl
    | succ other =>
      have inside : index < step.arguments.length := (List.getElem?_eq_some_iff.mp hole).1
      by_cases same : other = index
      · simp [argument?, withArgument, same, inside]
      · simp [argument?, withArgument, same, Ne.symm same]

theorem refilled_last (hole : step.argument? position = some .hole) :
    Refilled (step :: rest) [position] value (step.withArgument position value :: rest) := by
  refine ⟨?_, ?_, fun other => ?_⟩
  · cases position <;> rfl
  · cases position <;> simp [Step.withArgument]
  · match other with
    | [] => rfl
    | [other] => simp [Step.argument_with_argument hole]
    | first :: second :: deeper =>
      rw [argument_at_cons (List.cons_ne_nil _ _), argument_at_cons (List.cons_ne_nil _ _)]
      simp

theorem refilled_below {filled : List Step} (refilled : Refilled rest path value filled)
    (deeper : path ≠ []) : Refilled (step :: rest) (0 :: path) value (step :: filled) := by
  refine ⟨by simp [refilled.operators], by simp [refilled.sizes], fun other => ?_⟩
  match other with
  | [] => rfl
  | [position] => simp [Ne.symm deeper]
  | first :: second :: further =>
    rw [argument_at_cons (List.cons_ne_nil _ _), argument_at_cons (List.cons_ne_nil _ _),
      refilled.arguments]
    by_cases down : first = 0
    · simp [down]
    · simp [down]

theorem fill_steps_last (step : Step) (rest : List Step) (index : Nat) (value : Argument) :
    fillSteps? (step :: rest) [index + 1] value =
      (step.fill? (index + 1) value).map (· :: rest) := rfl

/-- Filling succeeds at a hole, and changes the argument there. -/
theorem fill_steps_spec (hole : argumentAt? steps path = some .hole) (value : Argument) :
    ∃ filled, fillSteps? steps path value = some filled ∧ Refilled steps path value filled := by
  induction steps generalizing path with
  | nil => simp at hole
  | cons step rest ih =>
    match path with
    | [] => cases hole
    | [0] => cases hole
    | [index + 1] =>
      rw [argument_at_last] at hole
      exact ⟨_, by rw [fill_steps_last, Step.fill?, if_pos hole]; rfl, refilled_last hole⟩
    | first :: second :: deeper =>
      rw [argument_at_cons (List.cons_ne_nil _ _)] at hole
      split at hole
      · rename_i down
        obtain ⟨filled, found, refilled⟩ := ih hole
        exact ⟨_, by rw [down, fillSteps?, found]; rfl,
          down ▸ refilled_below refilled (List.cons_ne_nil _ _)⟩
      · cases hole

/-- It succeeds nowhere else. -/
theorem hole_of_fill_steps {filled : List Step}
    (found : fillSteps? steps path value = some filled) : argumentAt? steps path = some .hole := by
  induction steps generalizing path filled with
  | nil => cases found
  | cons step rest ih =>
    match path with
    | [] => cases found
    | [0] =>
      cases rest <;> cases found
    | [index + 1] =>
      rw [fill_steps_last, Step.fill?] at found
      split at found
      · rwa [argument_at_last]
      · cases found
    | 0 :: second :: deeper =>
      rw [fillSteps?, Option.map_eq_some_iff] at found
      obtain ⟨below, found, -⟩ := found
      rw [argument_at_cons (List.cons_ne_nil _ _), if_pos rfl]
      exact ih found
    | (first + 1) :: second :: deeper => cases found

/-- Steps are known by their operators and arguments. -/
theorem steps_ext {others : List Step} (operators : steps.map Step.operator = others.map Step.operator)
    (arguments : ∀ path, argumentAt? steps path = argumentAt? others path) : steps = others := by
  induction steps generalizing others with
  | nil => exact (List.map_eq_nil_iff.mp operators.symm).symm
  | cons step rest ih =>
    cases others with
    | nil => cases operators
    | cons other others =>
      obtain ⟨operator, operators⟩ := List.cons.inj operators
      have own : step.arguments = other.arguments := List.ext_getElem? fun index => by
        simpa [Step.argument?] using arguments [index + 1]
      have below := ih operators fun path => by
        cases path with
        | nil => rfl
        | cons first path =>
          have same := arguments (0 :: first :: path)
          rwa [argument_at_cons (List.cons_ne_nil _ _), argument_at_cons (List.cons_ne_nil _ _),
            if_pos rfl, if_pos rfl] at same
      obtain ⟨op, list⟩ := step
      obtain ⟨op', list'⟩ := other
      cases operator
      cases own
      rw [below]

theorem Step.holes_eq_nil : step.holes = [] ↔ step.isConcrete = true := by
  simp only [holes, isConcrete, List.filter_eq_nil_iff, List.all_eq_true, decide_eq_true_eq,
    List.mem_range'_1]
  constructor
  · intro none argument member open'
    obtain ⟨index, inside, rfl⟩ := List.getElem_of_mem member
    exact none (index + 1) (by omega) (by simp [argument?, inside, open'])
  · intro closed position inside hole
    obtain ⟨index, rfl⟩ := Nat.exists_eq_add_one.mpr inside.1
    exact closed _ (List.mem_of_getElem? hole) rfl

namespace Program

variable {p q r : Program} {other : Path} {value' : Argument}

/-- The same program but for one argument. -/
structure Refilled (p : Program) (path : Path) (value : Argument) (q : Program) : Prop
    extends Reshape.Refilled p.steps path value q.steps where
  input : q.input = p.input

theorem mem_holes : path ∈ p.holes ↔ argumentAt? p.steps path = some .hole := mem_hole_paths

/-- Programs are known by their input, their operators and their arguments. -/
theorem eq_of_arguments (input : q.input = r.input) (operators : q.operators = r.operators)
    (arguments : ∀ path, argumentAt? q.steps path = argumentAt? r.steps path) : q = r := by
  have steps : q.steps = r.steps := steps_ext operators arguments
  cases q
  cases r
  cases input
  cases steps
  rfl

theorem exists_fill (hole : path ∈ p.holes) (value : Argument) :
    ∃ q, p.fill? path value = some q ∧ p.Refilled path value q := by
  obtain ⟨steps, found, refilled⟩ := fill_steps_spec (mem_holes.mp hole) value
  exact ⟨{ p with steps }, by rw [fill?, found]; rfl, refilled, rfl⟩

/-- Filling is changing the argument at a hole. -/
theorem fill_eq_some :
    p.fill? path value = some q ↔ path ∈ p.holes ∧ p.Refilled path value q := by
  constructor
  · intro found
    have hole : path ∈ p.holes := by
      obtain ⟨steps, inside, -⟩ := Option.map_eq_some_iff.mp found
      exact mem_holes.mpr (hole_of_fill_steps inside)
    obtain ⟨q', found', refilled⟩ := exists_fill hole value
    rw [found, Option.some.injEq] at found'
    exact ⟨hole, found' ▸ refilled⟩
  · rintro ⟨hole, refilled⟩
    obtain ⟨q', found, refilled'⟩ := exists_fill hole value
    rw [found, Option.some.injEq]
    exact eq_of_arguments (refilled'.input.trans refilled.input.symm)
      (refilled'.operators.trans refilled.operators.symm)
      fun other => (refilled'.arguments other).trans (refilled.arguments other).symm

theorem fill_is_some : (p.fill? path value).isSome ↔ path ∈ p.holes := by
  rw [Option.isSome_iff_exists]
  constructor
  · rintro ⟨q, found⟩
    exact (fill_eq_some.mp found).1
  · intro hole
    obtain ⟨q, found, -⟩ := exists_fill hole value
    exact ⟨q, found⟩

/-- The new argument stands in the step that the path leads to. -/
theorem Refilled.carries (refilled : p.Refilled path value q) :
    ∃ position part step rest, path.getLast? = some position ∧ q.part? path.dropLast = some part ∧
      part.steps = step :: rest ∧ step.argument? position = some value := by
  have stands : argumentAt? q.steps path = some value := by rw [refilled.arguments, if_pos rfl]
  obtain ⟨position, last, stands⟩ := Option.bind_eq_some_iff.mp stands
  obtain ⟨below, reached, stands⟩ := Option.bind_eq_some_iff.mp stands
  obtain ⟨step, top, stands⟩ := Option.bind_eq_some_iff.mp stands
  obtain ⟨rest, rfl⟩ := List.head?_eq_some_iff.mp top
  exact ⟨position, ⟨q.input, step :: rest⟩, step, rest, last, by rw [part?, reached]; rfl, rfl, stands⟩

/-- Filling a hole with a closed argument takes it off the list of holes. -/
theorem Refilled.holes (refilled : p.Refilled path value q) (closed : value ≠ .hole) :
    q.holes = p.holes.filter (· ≠ path) := by
  rw [Program.holes, Program.holes, hole_paths_eq, hole_paths_eq,
    argument_paths_congr refilled.sizes, List.filter_filter]
  refine List.filter_congr fun other _ => ?_
  rw [refilled.arguments]
  by_cases same : other = path
  · simp [same, closed]
  · simp [same]

/-- Another hole stays one, so it can be filled next. -/
theorem exists_fill_twice (hole : path ∈ p.holes) (hole' : other ∈ p.holes) (apart : path ≠ other)
    (value value' : Argument) : ∃ r, (p.fill? path value).bind (·.fill? other value') = some r ∧
      r.input = p.input ∧ r.operators = p.operators ∧ ∀ place, argumentAt? r.steps place =
        if place = other then some value' else if place = path then some value
        else argumentAt? p.steps place := by
  obtain ⟨q, found, first⟩ := exists_fill hole value
  have still : other ∈ q.holes := by
    rw [mem_holes, first.arguments, if_neg apart.symm]
    exact mem_holes.mp hole'
  obtain ⟨r, found', second⟩ := exists_fill still value'
  refine ⟨r, by rw [found, Option.bind_some, found'], second.input.trans first.input,
    second.operators.trans first.operators, fun place => ?_⟩
  rw [second.arguments, first.arguments]

/-- Two holes may be filled in either order. -/
theorem fill_comm (hole : path ∈ p.holes) (hole' : other ∈ p.holes) (apart : path ≠ other)
    (value value' : Argument) : ∃ r, (p.fill? path value).bind (·.fill? other value') = some r ∧
      (p.fill? other value').bind (·.fill? path value) = some r := by
  obtain ⟨r, found, input, operators, arguments⟩ := exists_fill_twice hole hole' apart value value'
  obtain ⟨r', found', input', operators', arguments'⟩ :=
    exists_fill_twice hole' hole apart.symm value' value
  have same : r' = r := by
    refine eq_of_arguments (input'.trans input.symm) (operators'.trans operators.symm) fun place => ?_
    rw [arguments, arguments']
    by_cases here : place = path
    · subst here
      simp [apart]
    · simp [here]
  exact ⟨r, found, same ▸ found'⟩

theorem holes_nodup (p : Program) : p.holes.Nodup := by
  rw [holes, hole_paths_eq]
  exact (argument_paths_nodup p.steps).filter _

theorem holes_eq_nil : p.holes = [] ↔ p.isConcrete = true := by
  have each (steps : List Step) : holePaths steps = [] ↔ steps.all Step.isConcrete = true := by
    induction steps with
    | nil => simp [holePaths]
    | cons step rest ih => simp [holePaths, Step.holes_eq_nil, ih]
  exact each p.steps

/-- **Holes, paths and filling agree.** Filling succeeds just at the paths of the
holes, none of which is listed twice. It changes the argument at the path, which
stands in the step that the path leads to, and nothing else, and takes the path
off the list; the order of two fillings does not matter. A program has no holes
just when it is concrete. -/
theorem fill_at_holes (p : Program) {value : Argument} (closed : value ≠ .hole) :
    (∀ path, (p.fill? path value).isSome ↔ path ∈ p.holes) ∧
      (∀ path q, p.fill? path value = some q → p.Refilled path value q ∧
        (∃ position part step rest, path.getLast? = some position ∧
          q.part? path.dropLast = some part ∧ part.steps = step :: rest ∧
            step.argument? position = some value) ∧
        q.holes = p.holes.filter (· ≠ path)) ∧
      (∀ path ∈ p.holes, ∀ other ∈ p.holes, path ≠ other → ∀ value', ∃ r,
        (p.fill? path value).bind (·.fill? other value') = some r ∧
          (p.fill? other value').bind (·.fill? path value) = some r) ∧
      p.holes.Nodup ∧ (p.holes = [] ↔ p.isConcrete = true) := by
  refine ⟨fun path => fill_is_some, fun path q found => ?_, fun path hole other hole' apart value' =>
    fill_comm hole hole' apart value value', holes_nodup p, holes_eq_nil⟩
  have refilled := (fill_eq_some.mp found).2
  exact ⟨refilled, refilled.carries, refilled.holes closed⟩

/-- A computation on two joined columns, with nothing decided. -/
def undecided : Program := .sketch [.mutate, .unite] 0

theorem fill_at_holes_undecided : Argument.column 4 ≠ .hole ∧
    ∃ q, undecided.fill? [0, 2] (.column 4) = some q ∧
      undecided.Refilled [0, 2] (.column 4) q ∧ q.holes = [[1], [2], [3], [0, 1], [0, 3]] := by
  have closed : Argument.column 4 ≠ .hole := nofun
  obtain ⟨fills, changes, -⟩ := fill_at_holes undecided closed
  obtain ⟨q, found⟩ := Option.isSome_iff_exists.mp ((fills [0, 2]).mpr (by decide))
  obtain ⟨refilled, -, holes⟩ := changes _ q found
  exact ⟨closed, q, found, refilled, holes.trans (by decide)⟩

end Program
end Reshape

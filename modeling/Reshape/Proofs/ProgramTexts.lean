import Mathlib.Data.List.Defs
import Reshape.Program.Statements
import Reshape.Proofs.ArgumentTexts
import Reshape.Proofs.CanonicalPrograms
import Reshape.Proofs.Naming

/-! Texts of programs. A program can be told from its text. Its variables are counted
up from zero, and none of them has the name of an input, so each statement reads the
variable of the one before it. A statement shows where it ends, and tells its operator
and its arguments; so the text falls apart into the statements of one program only. -/
namespace Reshape

open Text (Names)
open Text.Names (numbered)

/-- Whether every step of a program has an argument of the right kind at each
position. -/
def Program.WellKinded (p : Program) : Prop := ∀ step ∈ p.steps, step.WellKinded

/-- The names of variables: words without a blank. -/
def IsVariable (name : String) : Prop :=
  ∀ c ∈ name.toList, isOutsideWords c = false ∧ c ≠ ' '

theorem numbered_to_list (hint : String) (n : Nat) :
    (numbered hint n).toList = hint.toList ++ Nat.toDigits 10 n := by
  rw [numbered, String.toList_append]
  exact congrArg (hint.toList ++ ·) Nat.toList_repr

theorem numbered_variable {hint : String} (word : IsVariable hint) (n : Nat) :
    IsVariable (numbered hint n) := by
  intro c member
  rw [numbered_to_list] at member
  rcases List.mem_append.mp member with front | digit
  · exact word c front
  · refine ⟨inside_of_number (number_of_digit (Number.digit_of_mem_digits digit)), ?_⟩
    rintro rfl
    exact absurd (Number.digit_of_mem_digits digit) (by decide)

/-- The variable of a step. -/
theorem variable_is_variable (n : Nat) : IsVariable (numbered "t" n) := by
  have word : IsVariable "t" := by
    rw [IsVariable]
    exact List.all_iff_forall_prop.mp (by decide)
  exact numbered_variable word n

theorem input_is_variable (input : Nat) : IsVariable (inputName input) := by
  have word : IsVariable "input" := by
    rw [IsVariable]
    exact List.all_iff_forall_prop.mp (by decide)
  exact numbered_variable word input

theorem input_injective : Function.Injective inputName := Names.numbered_injective "input"

theorem variable_ne_input (n input : Nat) : numbered "t" n ≠ inputName input := by
  intro same
  have texts := congrArg String.toList same
  rw [show inputName input = numbered "input" input from rfl, numbered_to_list,
    numbered_to_list] at texts
  exact absurd (List.cons.inj texts).1 (by decide)

namespace Step

variable {step step' : Step} {target target' source source' : String}

/-- The parts between the parentheses of a statement. -/
def listed (step : Step) (source : String) : List (List Char) :=
  source.toList :: step.arguments.map fun argument => argument.display.toList

theorem statement_to_list (step : Step) (target source : String) :
    (step.statement target source).toList =
      target.toList ++ ' ' :: ('<' :: '-' :: ' ' :: (step.operator.name.toList ++
        '(' :: (comma.intercalate (step.listed source) ++ [')']))) := by
  simp only [statement, String.toList_append, String.toList_intercalate, List.map_cons,
    List.map_map, listed, List.append_assoc]
  rfl

theorem listed_tokens {text : List Char} (word : IsVariable source)
    (member : text ∈ step.listed source) : Token text := by
  rcases List.mem_cons.mp member with rfl | argument
  · exact .word fun c member => (word c member).1
  · obtain ⟨a, -, rfl⟩ := List.mem_map.mp argument
    exact a.token

/-- The lists between the parentheses of statements are told from what follows. -/
theorem listed_append_inj {behind behind' : List Char} (read : IsVariable source)
    (read' : IsVariable source')
    (same : comma.intercalate (step.listed source) ++ ')' :: behind =
      comma.intercalate (step'.listed source') ++ ')' :: behind') :
    step.listed source = step'.listed source' ∧ behind = behind' := by
  have next (x : List Char) : FollowsArgument (comma ++ x) := ⟨',', ' ' :: x, rfl, rfl⟩
  have last (x : List Char) : FollowsArgument (')' :: x) := ⟨')', x, rfl, rfl⟩
  have apart (x y : List Char) : ')' :: x ≠ comma ++ y := fun same =>
    absurd (List.cons.inj same).1 (by decide)
  obtain ⟨parts, ends⟩ := Text.intercalate_inj FollowsArgument (List.cons_ne_nil _ _)
    (List.cons_ne_nil _ _) next (last _) (last _) (apart _) (apart _)
    (fun a here b there x y follows follows' =>
      (listed_tokens read here).append_inj (listed_tokens read' there) follows follows') same
  exact ⟨parts, (List.cons.inj ends).2⟩

/-- **A statement shows where it ends**, and tells its parts. -/
theorem statement_append_inj {behind behind' : List Char} (assigned : IsVariable target)
    (assigned' : IsVariable target') (read : IsVariable source) (read' : IsVariable source')
    (same : (step.statement target source).toList ++ behind =
      (step'.statement target' source').toList ++ behind') :
    (target = target' ∧ source = source' ∧ step.operator = step'.operator ∧
      step.arguments.map Argument.display = step'.arguments.map Argument.display) ∧
      behind = behind' := by
  have noBlank {name : String} (word : IsVariable name) :
      ∀ c ∈ name.toList, decide (c = ' ') = false := fun c member =>
    decide_eq_false (word c member).2
  have noParenthesis (op : Operator) : ∀ c ∈ op.name.toList, decide (c = '(') = false := by
    cases op <;> exact List.all_iff_forall_prop.mp (by decide)
  simp only [statement_to_list, List.append_assoc, List.cons_append, List.nil_append] at same
  obtain ⟨targets, same⟩ := Text.cut_inj (· = ' ') (noBlank assigned) (noBlank assigned')
    (decide_eq_true rfl) (decide_eq_true rfl) same
  simp only [List.cons.injEq, true_and] at same
  obtain ⟨operators, same⟩ := Text.cut_inj (· = '(') (noParenthesis _) (noParenthesis _)
    (decide_eq_true rfl) (decide_eq_true rfl) same
  obtain ⟨parts, ends⟩ := listed_append_inj read read' (List.cons.inj same).2
  obtain ⟨sources, arguments⟩ := List.cons.inj parts
  refine ⟨⟨String.toList_inj.mp targets, String.toList_inj.mp sources,
    Operator.name_injective (String.toList_inj.mp operators), ?_⟩, ends⟩
  refine List.map_injective_iff.mpr (fun _ _ => String.toList_inj.mp) ?_
  simpa only [List.map_map, Function.comp_def] using arguments

end Step

/-- Every statement assigns to a variable and reads one. -/
theorem mem_statements_from {names : Names} {source : String} {steps : List Step} {text : String}
    (read : IsVariable source) (member : text ∈ statementsFrom names source steps) :
    ∃ step target source, IsVariable target ∧ IsVariable source ∧
      text = Step.statement step target source := by
  induction steps generalizing names source with
  | nil => cases member
  | cons step rest ih =>
    have assigned : IsVariable (names.fresh "t").1 := variable_is_variable _
    rcases List.mem_cons.mp member with rfl | later
    · exact ⟨step, _, source, assigned, read, rfl⟩
    · exact ih assigned later

/-- The variables of `n` steps, counted up from `k`. -/
def variablesFrom (k n : Nat) : List String := (List.range' k n).map (numbered "t")

theorem variables_from_succ (k n : Nat) :
    variablesFrom k (n + 1) = numbered "t" k :: variablesFrom (k + 1) n := by
  rw [variablesFrom, List.range'_succ, List.map_cons, variablesFrom]

theorem variables_from_nodup (k n : Nat) : (variablesFrom k n).Nodup :=
  List.Nodup.map (Names.numbered_injective "t") List.nodup_range'

/-- A name that is free is handed out. -/
theorem fresh_free {k : Nat} {taken : List String} (free : numbered "t" k ∉ taken) :
    Names.fresh ⟨k, taken⟩ "t" = (numbered "t" k, ⟨k + 1, numbered "t" k :: taken⟩) := by
  have first : Names.firstFree "t" taken taken.length k = k := by
    cases taken.length with
    | zero => rfl
    | succ tries => rw [Names.firstFree, if_neg free]
  simp only [Names.fresh, first]

/-- Where no variable from `k` on is taken, the statements assign to these in turn,
and each reads the variable of the one before it. -/
theorem statements_from_eq {k : Nat} {taken : List String} {source : String} {steps : List Step}
    (free : ∀ j, k ≤ j → numbered "t" j ∉ taken) :
    statementsFrom ⟨k, taken⟩ source steps = List.zipWith3 Step.statement steps
      (variablesFrom k steps.length) (source :: variablesFrom k steps.length) := by
  induction steps generalizing k taken source with
  | nil => rfl
  | cons step rest ih =>
    have later : ∀ j, k + 1 ≤ j → numbered "t" j ∉ numbered "t" k :: taken := by
      intro j behind member
      rcases List.mem_cons.mp member with same | member
      · exact absurd (Names.numbered_injective "t" same) (by omega)
      · exact free j (by omega) member
    rw [statementsFrom, fresh_free (free k le_rfl), List.length_cons, variables_from_succ]
    exact congrArg (step.statement (numbered "t" k) source :: ·) (ih later)

/-- The statements of chains that read alike are of steps that have the same value and
read the same source. -/
theorem steps_of_statements {k : Nat} {source source' : String} {steps steps' : List Step}
    (kinded : ∀ step ∈ steps, step.WellKinded) (kinded' : ∀ step ∈ steps', step.WellKinded)
    (read : IsVariable source) (read' : IsVariable source')
    (same : List.zipWith3 Step.statement steps (variablesFrom k steps.length)
        (source :: variablesFrom k steps.length) =
      List.zipWith3 Step.statement steps' (variablesFrom k steps'.length)
        (source' :: variablesFrom k steps'.length)) :
    steps.map Step.canonical = steps'.map Step.canonical ∧ (steps ≠ [] → source = source') := by
  induction steps generalizing k source source' steps' with
  | nil =>
    cases steps' with
    -- A chain without steps does not write what it reads.
    | nil => exact ⟨rfl, fun some => absurd rfl some⟩
    | cons step' rest' =>
      rw [List.length_cons, variables_from_succ] at same
      cases same
  | cons step rest ih =>
    cases steps' with
    | nil =>
      rw [List.length_cons, variables_from_succ] at same
      cases same
    | cons step' rest' =>
      rw [List.length_cons, List.length_cons, variables_from_succ, variables_from_succ] at same
      obtain ⟨here, later⟩ := List.cons.inj same
      obtain ⟨kindedHere, kinded⟩ := List.forall_mem_cons.mp kinded
      obtain ⟨kindedHere', kinded'⟩ := List.forall_mem_cons.mp kinded'
      have assigned := variable_is_variable k
      obtain ⟨⟨-, sources, operators, arguments⟩, -⟩ := Step.statement_append_inj assigned assigned
        read read' (congrArg (String.toList · ++ []) here)
      obtain ⟨others, -⟩ := ih kinded kinded' assigned assigned later
      rw [List.map_cons, List.map_cons, others,
        Step.canonical_eq kindedHere kindedHere' operators arguments]
      exact ⟨rfl, fun _ => sources⟩

theorem Argument.display_canonical (argument : Argument) :
    argument.canonical.display = argument.display := by
  cases argument with
  | constant cell =>
    cases cell with
    | number x => exact Cell.display_canonical (.number x)
    | text s | boolean b => rfl
  | _ => rfl

theorem statements_from_canonical (names : Names) (source : String) (steps : List Step) :
    statementsFrom names source (steps.map Step.canonical) =
      statementsFrom names source steps := by
  induction steps generalizing names source with
  | nil => rfl
  | cons step rest ih =>
    have arguments : step.canonical.arguments.map Argument.display =
        step.arguments.map Argument.display := by
      simp [Step.canonical, Argument.display_canonical]
    have statement (target : String) :
        step.canonical.statement target source = step.statement target source := by
      rw [Step.statement, arguments]
      rfl
    exact congrArg₂ (· :: ·) (statement _) (ih _ _)

namespace Program

variable {p q : Program}

theorem size_eq (p : Program) : p.size = p.steps.reverse.length := List.length_reverse.symm

theorem statements_eq (p : Program) :
    p.statements = List.zipWith3 Step.statement p.steps.reverse (variablesFrom 0 p.size)
      (inputName p.input :: variablesFrom 0 p.size) := by
  have free : ∀ j, 0 ≤ j → numbered "t" j ∉ [inputName p.input] := fun j _ member =>
    variable_ne_input j p.input (List.mem_singleton.mp member)
  rw [size_eq]
  exact statements_from_eq free

theorem statements_length (p : Program) : p.statements.length = p.size := by
  have each : ∀ (names : Names) (source : String) (steps : List Step),
      (statementsFrom names source steps).length = steps.length := by
    intro names source steps
    induction steps generalizing names source with
    | nil => rfl
    | cons step rest ih => exact congrArg (· + 1) (ih _ _)
  exact (each _ _ _).trans List.length_reverse

theorem mem_statements {text : String} (member : text ∈ p.statements) :
    ∃ step target source, IsVariable target ∧ IsVariable source ∧
      text = Step.statement step target source :=
  mem_statements_from (input_is_variable p.input) member

/-- The text of a program joins its statements. -/
theorem display_eq (applied : p.steps ≠ []) : p.display = "; ".intercalate p.statements :=
  if_neg applied

theorem statements_ne_nil (applied : p.steps ≠ []) : p.statements ≠ [] := by
  rw [← List.length_pos_iff, statements_length]
  exact List.length_pos_iff.mpr applied

/-- Programs whose texts are equal have equal statements. -/
theorem statements_of_display (applied : p.steps ≠ []) (applied' : q.steps ≠ [])
    (same : p.display = q.display) : p.statements = q.statements := by
  have texts := congrArg String.toList same
  rw [display_eq applied, display_eq applied', String.toList_intercalate,
    String.toList_intercalate] at texts
  have some {p : Program} (applied : p.steps ≠ []) : p.statements.map String.toList ≠ [] :=
    mt List.map_eq_nil_iff.mp (statements_ne_nil applied)
  refine List.map_injective_iff.mpr (fun _ _ => String.toList_inj.mp) (Text.intercalate_inj
    (fun _ => True) (some applied) (some applied') (fun _ => trivial) trivial trivial (by simp)
    (by simp) ?_ (congrArg (· ++ []) texts)).1
  intro a here b there x y _ _ equal
  obtain ⟨text, member, rfl⟩ := List.mem_map.mp here
  obtain ⟨text', member', rfl⟩ := List.mem_map.mp there
  obtain ⟨step, target, source, assigned, read, rfl⟩ := mem_statements member
  obtain ⟨step', target', source', assigned', read', rfl⟩ := mem_statements member'
  obtain ⟨⟨rfl, rfl, operators, arguments⟩, ends⟩ :=
    Step.statement_append_inj assigned assigned' read read' equal
  refine ⟨?_, ends⟩
  simp only [Step.statement, operators, arguments]

/-- The text of a program that applies a step begins with a variable. -/
theorem display_begins (applied : p.steps ≠ []) : p.display.toList.head? = some 't' := by
  obtain ⟨step, rest, whole⟩ := List.exists_cons_of_ne_nil
    (List.reverse_ne_nil_iff.mpr applied)
  rw [display_eq applied, String.toList_intercalate, statements_eq, size_eq, whole,
    List.length_cons, variables_from_succ, List.zipWith3, List.map_cons, Text.intercalate_cons,
    Step.statement_to_list, numbered_to_list]
  rfl

theorem display_input (unapplied : p.steps = []) : p.display = inputName p.input :=
  if_pos unapplied

theorem input_begins (unapplied : p.steps = []) : p.display.toList.head? = some 'i' := by
  rw [display_input unapplied]
  exact congrArg List.head? (numbered_to_list "input" p.input)

/-- **A program can be told from its text**, up to the signs of zeros among its
constants. -/
theorem canonical_of_display (kinded : p.WellKinded) (kinded' : q.WellKinded)
    (same : p.display = q.display) : p.canonical = q.canonical := by
  by_cases applied : p.steps = [] <;> by_cases applied' : q.steps = []
  · rw [display_input applied, display_input applied'] at same
    rw [canonical, canonical, applied, applied', input_injective same]
  · have begins := input_begins applied
    rw [same, display_begins applied'] at begins
    cases begins
  · have begins := input_begins applied'
    rw [← same, display_begins applied] at begins
    cases begins
  · have statements := statements_of_display applied applied' same
    rw [statements_eq, statements_eq, size_eq p, size_eq q] at statements
    obtain ⟨steps, inputs⟩ := steps_of_statements (fun step member =>
      kinded step (List.mem_reverse.mp member)) (fun step member =>
      kinded' step (List.mem_reverse.mp member)) (input_is_variable _) (input_is_variable _)
      statements
    rw [List.map_reverse, List.map_reverse, List.reverse_inj] at steps
    rw [canonical, canonical, steps, input_injective (inputs (List.reverse_ne_nil_iff.mpr applied))]

/-- Programs of equal value have one text. -/
theorem display_of_canonical (same : p.canonical = q.canonical) : p.display = q.display := by
  have each (p : Program) : p.canonical.display = p.display := by
    have steps : p.canonical.steps = [] ↔ p.steps = [] := List.map_eq_nil_iff
    have statements : p.canonical.statements = p.statements := by
      rw [Program.statements, Program.statements, canonical, ← List.map_reverse]
      exact statements_from_canonical _ _ _
    simp only [display, steps, statements]
    rfl
  rw [← each, same, each]

/-- **Program texts are unambiguous.** Programs with an argument of the right kind at
each position are written alike just when they are equal in value. A program that
applies steps is written as one statement for each; the variables assigned to are
different from each other and from the input, and each statement reads the variable
of the one before it, the first the input. -/
theorem display_unambiguous :
    (∀ p q : Program, p.WellKinded → q.WellKinded →
      (p.display = q.display ↔ p.canonical = q.canonical)) ∧
    ∀ p : Program, p.steps ≠ [] → ∃ assigned : List String,
      assigned.length = p.size ∧ assigned.Nodup ∧ inputName p.input ∉ assigned ∧
      p.statements = List.zipWith3 Step.statement p.steps.reverse assigned
        (inputName p.input :: assigned) ∧
      p.statements.length = p.size ∧ p.display = "; ".intercalate p.statements := by
  refine ⟨fun p q kinded kinded' => ⟨canonical_of_display kinded kinded', display_of_canonical⟩,
    fun p applied => ⟨variablesFrom 0 p.size, ?_, variables_from_nodup 0 _, ?_, statements_eq p,
      statements_length p, display_eq applied⟩⟩
  · rw [variablesFrom, List.length_map, List.length_range']
  · intro member
    obtain ⟨n, -, same⟩ := List.mem_map.mp member
    exact variable_ne_input n p.input same

namespace Spellings

/-- A program that compares with a constant, and joins with a text that looks like
the end of a statement. -/
def filtered (constant : Cell) : Program where
  input := 2
  steps := [⟨.filter, [.column 1, .comparison .equal, .constant constant]⟩,
    ⟨.unite, [.hole, .column 0, .constant (.text "\"); t1 <- ")]⟩]

end Spellings

open Spellings in
/-- The two zeros are written alike, a zero and a text that reads so are not. -/
theorem display_unambiguous_zeros :
    (filtered (.number 0)).display = (filtered (.number (-0.0))).display ∧
      (filtered (.number 0)).display ≠ (filtered (.text "0")).display ∧
      ∃ assigned : List String, assigned.length = 2 ∧ inputName 2 ∉ assigned := by
  have kinded (constant : Cell) : (filtered constant).WellKinded :=
    List.forall_mem_cons.mpr ⟨.cons .column (.cons .comparison (.cons .constant .nil)),
      List.forall_mem_cons.mpr ⟨.cons .hole (.cons .column (.cons .constant .nil)), nofun⟩⟩
  obtain ⟨told, renders⟩ := display_unambiguous
  refine ⟨(told _ _ (kinded _) (kinded _)).mpr (by decide +kernel), fun same => ?_, ?_⟩
  · exact absurd ((told _ _ (kinded _) (kinded _)).mp same) (by decide +kernel)
  · obtain ⟨assigned, size, -, apart, -⟩ := renders (filtered (.number 0)) (by decide)
    exact ⟨assigned, size, apart⟩

end Program
end Reshape

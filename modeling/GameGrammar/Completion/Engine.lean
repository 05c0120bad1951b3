import GameGrammar.Completion.Medium
import GameGrammar.Completion.Selection
import GameGrammar.Decimal.Shortest
import GameGrammar.Grammar.Resolve

/-! # Completion

Completing a rule turns it into text: the policy chooses an alternative, references and
arguments are completed in turn, and a leaf category stays as a marker. Completion fails as a
whole if a reference does not stand for exactly one rule or if the rules nest too deeply; an
argument that does not stand for exactly one rule only leaves a weak marker. -/

namespace GameGrammar.Completion

open Output (words)

/-! ## Bounds -/

/-- How deeply rules may nest. A bound that is absent is not checked. -/
structure Bounds where
  /-- A rule is completed at this depth at most, and a reference leads to a smaller one. -/
  rule : Nat := 100
  /-- A form and its arguments are written at this depth at most. -/
  form : Option Nat := some 100
  /-- An argument's rule is completed at a smaller depth. -/
  argument : Option Nat := some 1000

namespace Bounds

def formTooDeep (b : Bounds) (depth : Nat) : Bool :=
  b.form.any (· < depth)

def argumentTooDeep (b : Bounds) (depth : Nat) : Bool :=
  b.argument.any (· ≤ depth)

end Bounds

/-! ## Primitive rules -/

/-- Rules that may end in a literal instead of one of their alternatives. -/
inductive Primitive where
  | int
  | boolean
  | float
  | dim
  deriving DecidableEq

namespace Primitive

def ruleName : Primitive → String
  | .int => "<int>"
  | .boolean => "<boolean>"
  | .float => "<float>"
  | .dim => "<dim>"

def all : List Primitive :=
  [.int, .boolean, .float, .dim]

def ofName? (name : String) : Option Primitive :=
  all.find? (·.ruleName == name)

end Primitive

section

variable {m : Type → Type} [Monad m] [Medium m] {ω : Type} [Append ω] [Output ω]

/-- A literal of the policy's choice. -/
def Primitive.literal : Primitive → m ω
  | .int => do
    let n ← Medium.ask (.integer (-10) 1000)
    return words (toString n)
  | .dim => do
    let n ← Medium.ask (.integer 0 20)
    return words (toString n)
  | .boolean => do
    let b ← Medium.ask .boolean
    return words (if b then "true" else "false")
  | .float => do
    let x ← Medium.ask (.float (-10.0) 1000.0)
    return words (Decimal.pointText (.ofSingle x))

/-! ## Forms -/

/-- The item counted round and round from the front of a list that is not empty. -/
def pick {α : Type} (first : α) (others : List α) (i : Nat) : α :=
  (first :: others).get ⟨i % (first :: others).length, Nat.mod_lt _ (Nat.succ_pos _)⟩

/-- Writes `n` pieces behind what is written, each after a space. -/
def times (piece : ω → m ω) : Nat → ω → m ω
  | 0, out => pure out
  | n + 1, out => do
    let out ← piece (out ++ words " ")
    times piece n out

/-- Writes a value in so many layers of braces. -/
def nested (one : m ω) : Nat → ω → m ω
  | 0, out => do
    let value ← one
    return out ++ value
  | n + 1, out => do
    let count ← Medium.ask .itemCount
    let out ← times (nested one n) count (out ++ words "\x7b")
    return out ++ words " \x7d"

def labelText (a : Argument) : String :=
  match a.label with
  | some l => l ++ ":"
  | none => ""

/-- Writes the arguments. Those in more than two layers are left out. -/
def arguments (one : Argument → m ω) : List Argument → ω → m ω
  | [], out => pure out
  | a :: rest, out =>
    if 2 < a.nesting then arguments one rest out
    else do
      let out ← nested (one a) a.nesting.toNat (out ++ words " " ++ words (labelText a))
      arguments one rest out

/-! ## Rules -/

section

variable (b : Bounds) (g : Grammar) (expand : Rule → m ω)

/-- One item for an argument of a form, where `expand` completes the rules one level further
down. -/
def item (head : String) (depth : Nat) (a : Argument) : m ω :=
  if b.formTooDeep depth then Medium.fail
  else
    match Category.ofToken? a.token with
    | some c => pure (Output.leaf head c)
    | none =>
      match g.resolve a.token with
      | [r] =>
        if b.argumentTooDeep (depth + 1) then Medium.fail
        else Medium.visit (.demanded r (depth + 1)) (expand r)
      | _ => pure (Output.weak a.token)

/-- What is written for a form. -/
def form (head : String) (args : List Argument) (depth : Nat) : m ω :=
  if b.formTooDeep depth then Medium.fail
  else do
    let kept ← Medium.hold (select args depth)
    let out ← arguments (item b g expand head depth) (marked args kept) (words ("(" ++ head))
    return out ++ words ")"

/-- What is written for an alternative. -/
def clause (depth : Nat) : Clause → m ω
  | .terminal text => pure (words text)
  | .reference target =>
    match g.resolve target with
    | [r] =>
      if b.rule ≤ depth + 1 then Medium.fail
      else Medium.visit (.referred r (depth + 1)) (expand r)
    | _ => Medium.fail
  | .form head args => form b g expand head args depth

/-- What is written for an alternative of the policy's choice. -/
def alternative (r : Rule) (depth : Nat) : m ω :=
  match r.clauses with
  | [] => Medium.fail
  | first :: others => do
    let i ← Medium.ask (.clause (first :: others))
    clause b g expand depth (pick first others i)

/-- What is written for a rule, where `expand` completes the rules one level further down. -/
def step (r : Rule) (depth : Nat) : m ω :=
  if b.rule < depth then Medium.fail
  else
    Medium.visit (.expanded r depth) <|
      match Primitive.ofName? r.name with
      | none => alternative b g expand r depth
      | some p => do
        if ← Medium.ask .exit then p.literal else alternative b g expand r depth

end

/-- Completes a rule over at most so many levels of rules. -/
def within (b : Bounds) (g : Grammar) : Nat → Rule → Nat → m ω
  | 0, _, _ => Medium.fail
  | levels + 1, r, depth => step b g (fun inner => within b g levels inner (depth + 1)) r depth

/-- Completes a rule that stands at the given depth. -/
def completion (b : Bounds) (g : Grammar) (r : Rule) (depth : Nat) : m ω :=
  within b g (b.rule + 1 - depth) r depth

end

/-- Completes a rule that stands at the given depth to a text. -/
def completeBy (b : Bounds) (g : Grammar) (r : Rule) (depth : Nat) : Dialogue String :=
  completion b g r depth

/-- Completion is its own step: the levels never run out before the depth does. -/
theorem completeBy_eq (b : Bounds) (g : Grammar) (r : Rule) (depth : Nat) :
    completeBy b g r depth = step b g (fun inner => completeBy b g inner (depth + 1)) r depth := by
  unfold completeBy completion
  by_cases h : b.rule < depth
  · rw [show b.rule + 1 - depth = 0 by omega]
    simp only [within, step, if_pos h]
  · rw [show b.rule + 1 - depth = (b.rule + 1 - (depth + 1)) + 1 by omega]
    rfl

/-- Completes a rule within the usual bounds. -/
def complete (g : Grammar) (r : Rule) (depth : Nat) : Dialogue String :=
  completeBy {} g r depth

end GameGrammar.Completion

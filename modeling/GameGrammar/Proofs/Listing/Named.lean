import GameGrammar.Listing.Reader

/-! # Words in a listing

A grammar that can be written down refers to rules by names of at least one character, and what it
says besides is said in words without blanks. -/

namespace GameGrammar

/-! ## Names -/

/-- The name that a reference or an argument of the alternative goes by is not empty. -/
def Clause.Named : Clause → Prop
  | .terminal _ => True
  | .reference target => target ≠ ""
  | .form _ args => ∀ a ∈ args, a.token ≠ ""

def Rule.Named (r : Rule) : Prop :=
  ∀ c ∈ r.clauses, c.Named

/-- Every alternative of every rule is `Named`. -/
def Grammar.Named (g : Grammar) : Prop :=
  ∀ r ∈ g.rules, r.Named

/-! ## Words -/

/-- The text has no blank. -/
def Unspaced (text : String) : Prop :=
  ∀ c ∈ text.toList, Text.isBlank c = false

/-- The argument goes by a name, and its label is a word. -/
def Argument.Worded (a : Argument) : Prop :=
  a.token ≠ "" ∧ ∀ l ∈ a.label, Unspaced l

/-- The alternative is made of names and words. -/
def Clause.Worded : Clause → Prop
  | .terminal text => Unspaced text
  | .reference target => target ≠ ""
  | .form head args => Unspaced head ∧ ∀ a ∈ args, a.Worded

def Rule.Worded (r : Rule) : Prop :=
  ∀ c ∈ r.clauses, c.Worded

/-- Every alternative of every rule is `Worded`. -/
def Grammar.Worded (g : Grammar) : Prop :=
  ∀ r ∈ g.rules, r.Worded

theorem Clause.Worded.named {c : Clause} (h : c.Worded) : c.Named := by
  cases c with
  | terminal text => trivial
  | reference target => exact h
  | form head args => exact fun a ha => (h.2 a ha).1

theorem Grammar.Worded.named {g : Grammar} (h : g.Worded) : g.Named :=
  fun r hr c hc => (h r hr c hc).named

namespace Listing

/-! ## Successful readings -/

theorem bind_eq_ok {ε α β : Type} {x : Except ε α} {f : α → Except ε β} {b : β} :
    (x >>= f) = .ok b ↔ ∃ a, x = .ok a ∧ f a = .ok b := by
  cases x <;> simp [bind, Except.bind]

theorem mapError_eq_ok {ε δ α : Type} {x : Except ε α} {f : ε → δ} {a : α} :
    x.mapError f = .ok a ↔ x = .ok a := by
  cases x with
  | error e =>
      constructor
      · intro h
        cases h
      · intro h
        cases h
  | ok b =>
      constructor
      · intro h
        cases h
        rfl
      · intro h
        cases h
        rfl

namespace Reading

theorem ofCommitted_eq_found {α : Type} {x : Except Fault (α × List Char)} {a : α}
    {rest : List Char} : ofCommitted x = .found a rest ↔ x = .ok (a, rest) := by
  cases x <;> simp [ofCommitted, Prod.ext_iff]

theorem map_eq_found_iff {α β : Type} {f : α → β} {r : Reading α} {b : β}
    {rest : List Char} : r.map f = .found b rest ↔ ∃ a, r = .found a rest ∧ f a = b := by
  cases r <;> simp [Reading.map, and_comm, and_left_comm]

end Reading

end Listing

end GameGrammar

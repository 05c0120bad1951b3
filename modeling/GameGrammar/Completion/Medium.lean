import GameGrammar.Completion.Dialogue

/-! # What completion is held in and what it writes

Completion asks questions, may fail, comes by rules and writes one thing behind another. It is told
once, whatever it is held in and whatever it writes. The program holds a dialogue and writes
text. -/

namespace GameGrammar

/-- What happens to a rule in the course of a completion. -/
inductive Visit where
  /-- A reference leads to the rule. -/
  | referred (r : Rule) (depth : Nat)
  /-- An argument leads to the rule. -/
  | demanded (r : Rule) (depth : Nat)
  /-- The rule does not stand too deep, and so it is expanded. -/
  | expanded (r : Rule) (depth : Nat)

namespace Completion

/-- Stands for an argument that is not the name of exactly one rule. -/
def weakMarker : String :=
  "?"

/-- What a completion is held in. -/
class Medium (m : Type → Type) where
  hold {α : Type} : Dialogue α → m α
  /-- Goes on after a visit. -/
  visit {α : Type} : Visit → m α → m α

/-- What a completion writes. -/
class Output (ω : Type) where
  words : String → ω
  /-- Stands for an argument of a leaf category, in a form of this head. -/
  leaf : (head : String) → Category → ω := fun _ c => words c.marker
  /-- Stands for an argument whose token is not the name of exactly one rule. -/
  weak : (token : String) → ω := fun _ => words weakMarker

/-- A dialogue takes no notice of visits. -/
instance : Medium Dialogue where
  hold d := d
  visit _ d := d

instance : Output String where
  words text := text

namespace Medium

variable {m : Type → Type} [Medium m] {α : Type}

def fail : m α :=
  hold .fail

def ask (q : Question) : m q.Answer :=
  hold (.question q)

@[simp] theorem hold_dialogue (d : Dialogue α) : (hold d : Dialogue α) = d :=
  rfl

@[simp] theorem visit_dialogue (v : Visit) (d : Dialogue α) : visit v d = d :=
  rfl

@[simp] theorem fail_dialogue : (fail : Dialogue α) = .fail :=
  rfl

@[simp] theorem ask_dialogue (q : Question) : (ask q : Dialogue q.Answer) = .question q :=
  rfl

end Medium

namespace Output

@[simp] theorem words_text (text : String) : (words text : String) = text :=
  rfl

@[simp] theorem leaf_text (head : String) (c : Category) : (leaf head c : String) = c.marker :=
  rfl

@[simp] theorem weak_text (token : String) : (weak token : String) = weakMarker :=
  rfl

end Output

end Completion

end GameGrammar

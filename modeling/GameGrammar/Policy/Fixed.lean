import GameGrammar.Policy.Basic

/-! # The fixed policy

It answers every question of a kind alike and has no state. -/

namespace GameGrammar

/-- The settings of a fixed policy. -/
structure FixedAnswers where
  /-- The alternative taken, or the last one where there are fewer. -/
  clauseIndex : Nat := 0
  exit : Bool := false
  drop : Bool := false
  itemCount : Nat := 1

namespace FixedAnswers

/-- The first rule, the set alternative, the lower end of a range, the last argument. -/
def answer (f : FixedAnswers) : (q : Question) → q.Answer
  | .rule _ => (0 : Nat)
  | .clause clauses => min f.clauseIndex (clauses.length - 1)
  | .exit => f.exit
  | .integer low _ => low
  | .boolean => true
  | .float low _ => low
  | .orGroup argCount => argCount - 1
  | .drop _ => f.drop
  | .itemCount => f.itemCount

def policy (f : FixedAnswers) : Policy Unit where
  answer q s := (f.answer q, s)

end FixedAnswers

end GameGrammar

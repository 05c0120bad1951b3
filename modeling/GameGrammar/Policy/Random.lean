import GameGrammar.Policy.Basic
import GameGrammar.Policy.Odds
import GameGrammar.Random.Uniform

/-! # The random policy

Its state is a random source, and its answers are draws. A seed replaces the source, so that
what was drawn before leaves no trace. -/

namespace GameGrammar

namespace Odds

open GameGrammar.Random

/-- The draw that answers a question. -/
def draw (o : Odds Float) : (q : Question) → Draw q.Answer
  | .rule candidates => position candidates.length
  | .clause clauses => position clauses.length
  | .exit => chance o.exit
  | .integer low high => between32 low (max high low)
  | .boolean => coin
  | .float low high => if high ≤ low then pure low else betweenFloats low high
  | .orGroup argCount => position (max argCount 1)
  | .drop depth => chance ((o.dropAt depth.toUInt64.toFloat).getD 0)
  | .itemCount => do return (← between64 o.fewestItems o.mostItems).toNat

/-- The policy that plays by valid odds. -/
def policy (o : Odds Float) : Policy Source where
  answer := o.draw
  reseed seed _ := .seeded seed

end Odds

end GameGrammar

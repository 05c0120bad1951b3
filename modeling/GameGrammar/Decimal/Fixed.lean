import GameGrammar.Decimal.Shortest

/-! # Decimal text with a fixed number of places

The exact value is rounded to the nearest decimal; a tie goes to the even neighbour. -/

namespace GameGrammar.Decimal

/-- The quotient rounded to the nearest integer, ties to even. -/
def roundedQuotient (a b : Nat) : Nat :=
  let q := a / b
  let r := a % b
  if b < 2 * r || (2 * r = b && q % 2 = 1) then q + 1 else q

/-- The number with `places` digits behind the point, one at least. -/
def fixedText (places : Nat) : Binary → String
  | .notANumber => "NaN"
  | .infinite negative => signed negative "inf"
  | .finite negative mantissa exponent _ =>
    let units :=
      roundedQuotient ((mantissa <<< exponent.toNat) * tenTo places) (1 <<< (-exponent).toNat)
    signed negative (positional units (-places))

end GameGrammar.Decimal

import GameGrammar.Decimal.Binary

/-! # Shortest decimal text

The shortest decimal form of a binary number is a point of the coarsest power-of-ten grid that
has a point among the reals which round to the number. Of the points of that grid the one
nearest to the number is taken, and of two equally near ones the larger. -/

namespace GameGrammar.Decimal

/-! ## Digits -/

/-- A power of ten; one if the exponent is negative. -/
def tenTo (exponent : Int) : Nat :=
  Nat.pow 10 exponent.toNat

/-- The positive number `4 * mantissa * unit / scale`, in quarters of its last binary place. -/
structure Quarters where
  mantissa : Nat
  unit : Nat
  scale : Nat
  lowest : Bool

namespace Quarters

def of (mantissa : Nat) (exponent : Int) (lowest : Bool) : Quarters where
  mantissa := mantissa
  unit := 1 <<< (exponent - 2).toNat
  scale := 1 <<< (2 - exponent).toNat
  lowest := lowest

/-- The real `digits * 10 ^ exponent` rounds to the number. Half-way points round to an even
mantissa. -/
def holds (v : Quarters) (digits : Nat) (exponent : Int) : Bool :=
  let point := digits * tenTo exponent * v.scale
  let base := v.unit * tenTo (-exponent)
  let low := (4 * v.mantissa - if v.lowest then 1 else 2) * base
  let high := (4 * v.mantissa + 2) * base
  if v.mantissa % 2 = 0 then low ≤ point && point ≤ high else low < point && point < high

/-- The points of the grid `10 ^ exponent` on either side of the number, the nearer one first. -/
def neighbours (v : Quarters) (exponent : Int) : List Nat :=
  let number := 4 * v.mantissa * v.unit * tenTo (-exponent)
  let grid := tenTo exponent * v.scale
  let below := number / grid
  if 2 * (number % grid) < grid then [below, below + 1] else [below + 1, below]

/-- The first hit on the grid `10 ^ exponent` and the finer ones after it. -/
def search (v : Quarters) : Nat → Int → Nat × Int
  | 0, exponent => (0, exponent)
  | n + 1, exponent =>
    match (v.neighbours exponent).find? (v.holds · exponent) with
    | some digits => (digits, exponent)
    | none => v.search n (exponent - 1)

end Quarters

/-- An exponent above that of any power of ten in reach of the number. -/
def ceiling (mantissa : Nat) (exponent : Int) : Int :=
  (mantissa.log2 + 1 + exponent) * 3 / 10 + 2

/-- The digits and the decimal exponent of the shortest form of a positive number. Seventeen
digits always suffice, so the search ends long before its grids do. -/
def shortest (mantissa : Nat) (exponent : Int) (lowest : Bool) : Nat × Int :=
  (Quarters.of mantissa exponent lowest).search 40 (ceiling mantissa exponent)

/-! ## Text -/

def zeros (n : Nat) : String :=
  String.ofList (List.replicate n '0')

def digitText (n : Nat) : String :=
  String.ofList (Nat.toDigits 10 n)

/-- The number `digits * 10 ^ exponent` with a point only if there are places behind it. -/
def positional (digits : Nat) (exponent : Int) : String :=
  match exponent with
  | .ofNat n => digitText digits ++ zeros n
  | .negSucc n =>
    let text := Nat.toDigits 10 digits
    let places := n + 1
    let padded := List.replicate (places + 1 - text.length) '0' ++ text
    String.ofList (padded.take (padded.length - places)) ++ "." ++
      String.ofList (padded.drop (padded.length - places))

/-- One digit before the point and the exponent after an `e`. -/
def scientific (digits : Nat) (exponent : Int) : String :=
  let text := Nat.toDigits 10 digits
  let power := exponent + text.length - 1
  let tail := text.drop 1
  String.ofList (text.take 1) ++ (if tail = [] then "" else "." ++ String.ofList tail) ++
    "e" ++ toString power

def signed (negative : Bool) (text : String) : String :=
  if negative then "-" ++ text else text

/-- Shortest digits, all of them written out. -/
def plainText : Binary → String
  | .notANumber => "NaN"
  | .infinite negative => signed negative "inf"
  | .finite negative mantissa exponent lowest =>
    signed negative <|
      if mantissa = 0 then "0"
      else
        let (digits, exponent) := shortest mantissa exponent lowest
        positional digits exponent

/-- Shortest digits, with a point in any case. From sixteen places before the point on, and
from four zeros behind it on, the exponent is written instead. -/
def pointText : Binary → String
  | .notANumber => "NaN"
  | .infinite negative => signed negative "inf"
  | .finite negative mantissa exponent lowest =>
    signed negative <|
      if mantissa = 0 then "0.0"
      else
        let (digits, exponent) := shortest mantissa exponent lowest
        let point := exponent + (Nat.toDigits 10 digits).length
        if 16 < point || point < -3 then scientific digits exponent
        else if 0 ≤ exponent then positional digits exponent ++ ".0"
        else positional digits exponent

end GameGrammar.Decimal

/-! # Binary floating point numbers

A finite number is an integer times a power of two. The layout of a format says where its sign,
exponent and fraction stand among its bits. -/

namespace GameGrammar.Decimal

/-- The widths of the two lower fields of a format. -/
structure Layout where
  fractionBits : Nat
  exponentBits : Nat

/-- How many fractions there are. -/
def Layout.fractions (l : Layout) : Nat :=
  1 <<< l.fractionBits

/-- How many exponents there are. -/
def Layout.exponents (l : Layout) : Nat :=
  1 <<< l.exponentBits

def Layout.single : Layout :=
  ⟨23, 8⟩

def Layout.double : Layout :=
  ⟨52, 11⟩

/-- What the bits of a number mean. -/
inductive Binary where
  | notANumber
  | infinite (negative : Bool)
  /-- The number `mantissa * 2 ^ exponent`. Below a `lowest` mantissa the numbers lie twice as
  close together as above it. -/
  | finite (negative : Bool) (mantissa : Nat) (exponent : Int) (lowest : Bool)
  deriving DecidableEq

namespace Binary

def ofBits (l : Layout) (bits : Nat) : Binary :=
  let fraction := bits % l.fractions
  let biased := bits / l.fractions % l.exponents
  let negative := bits / (l.fractions * l.exponents) % 2 == 1
  let least : Int := 2 - (l.exponents / 2 : Nat) - l.fractionBits
  if biased = l.exponents - 1 then
    if fraction = 0 then .infinite negative else .notANumber
  else if biased = 0 then .finite negative fraction least false
  else .finite negative (l.fractions + fraction) (least + (biased - 1))
    (fraction == 0 && 1 < biased)

def ofSingle (x : Float32) : Binary :=
  ofBits .single x.toBits.toNat

def ofDouble (x : Float) : Binary :=
  ofBits .double x.toBits.toNat

end Binary

end GameGrammar.Decimal

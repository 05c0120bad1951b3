import GameGrammar.Decimal.Shortest

/-! # Odds

The odds say how likely a random policy is to end a primitive rule or to drop an argument, and
how many items a collection may have. Probabilities are numbers of any ordered type. -/

namespace GameGrammar

structure Odds (ν : Type) where
  exit : ν
  dropBase : ν
  dropPerDepth : ν
  dropMax : ν
  fewestItems : UInt64
  mostItems : UInt64

/-- The probabilities among the odds. -/
inductive OddsField where
  | exit
  | dropBase
  | dropPerDepth
  | dropMax
  deriving DecidableEq

namespace OddsField

def name : OddsField → String
  | .exit => "exit_with_primitive"
  | .dropBase => "drop_base"
  | .dropPerDepth => "drop_per_depth"
  | .dropMax => "drop_max"

def all : List OddsField :=
  [.exit, .dropBase, .dropPerDepth, .dropMax]

end OddsField

/-- Why odds cannot be played. -/
inductive OddsError (ν : Type) where
  | probability (field : OddsField) (value : ν)
  | itemCount (fewest most : UInt64)

namespace Odds

variable {ν : Type} [LE ν] [LT ν] [DecidableLE ν] [DecidableLT ν] [OfNat ν 0] [OfNat ν 1]

def get (o : Odds ν) : OddsField → ν
  | .exit => o.exit
  | .dropBase => o.dropBase
  | .dropPerDepth => o.dropPerDepth
  | .dropMax => o.dropMax

def isProbability (p : ν) : Bool :=
  (0 : ν) ≤ p && p ≤ (1 : ν)

/-- The first thing wrong with the odds: a number that is no probability, or an empty range of
item counts. -/
def error? (o : Odds ν) : Option (OddsError ν) :=
  match OddsField.all.find? fun f => !isProbability (o.get f) with
  | some f => some (.probability f (o.get f))
  | none =>
    if o.mostItems < o.fewestItems then some (.itemCount o.fewestItems o.mostItems) else none

/-- The value of `low … high` nearest to `x`, if the bounds are in order. -/
def clamp (low high x : ν) : Option ν :=
  if low ≤ high then some (if x < low then low else if high < x then high else x) else none

/-- How likely an optional argument is to be dropped: more so the deeper it stands, up to a
limit. There is no answer if the limit cannot be compared with zero. -/
def dropAt [Add ν] [Mul ν] (o : Odds ν) (depth : ν) : Option ν := do
  let limit ← clamp 0 1 o.dropMax
  clamp 0 limit (o.dropBase + o.dropPerDepth * depth)

/-- Sets the range of item counts; the upper end is at least the lower one. -/
def withItems (o : Odds ν) (fewest most : UInt64) : Odds ν :=
  { o with fewestItems := fewest, mostItems := max most fewest }

/-- The odds of a policy that is not told any. -/
def standard : Odds Float where
  exit := 0.5
  dropBase := 0.3
  dropPerDepth := 0.05
  dropMax := 0.95
  fewestItems := 1
  mostItems := 3

end Odds

namespace OddsError

def message : OddsError Float → String
  | .probability field value =>
    field.name ++ " must be a probability in 0..=1, got " ++
      Decimal.plainText (.ofDouble value)
  | .itemCount fewest most =>
    s!"item count range {fewest.toNat}..={most.toNat} is empty"

end OddsError

end GameGrammar

import GameGrammar.Decimal.Fixed
import GameGrammar.Funnel.Verdict

/-! # Reports

A report counts how the attempts of a run have ended and how far they have come. -/

namespace GameGrammar

/-- How one attempt has gone. -/
inductive Attempt where
  /-- Generation has come up with nothing. -/
  | failed
  | judged (candidate : String) (verdict : Verdict)
  deriving DecidableEq

namespace Attempt

def candidate? : Attempt → Option String
  | .failed => none
  | .judged text _ => some text

def outcome : Attempt → Outcome
  | .failed => .generationFailed
  | .judged _ v => v.outcome

/-- The gates that the attempt has passed, in their order. -/
def passed : Attempt → List Gate
  | .failed => []
  | .judged _ v => .generated :: v.passed

end Attempt

structure Report where
  attempts : Nat := 0
  outcomes : Vector Nat 7 := Vector.replicate 7 0
  gates : Vector Nat 6 := Vector.replicate 6 0
  /-- The accepted text that came last. -/
  lastAccepted : Option String := none

namespace Report

/-- How many attempts have ended so. -/
def count (r : Report) (o : Outcome) : Nat :=
  r.outcomes[o.index]

/-- How many attempts have passed the gate. -/
def passed (r : Report) (g : Gate) : Nat :=
  r.gates[g.index]

def accepted (r : Report) : Nat :=
  r.count .accepted

def pass (r : Report) (g : Gate) : Report :=
  { r with gates := r.gates.set g.index (r.passed g + 1) }

def record (r : Report) (o : Outcome) : Report :=
  { r with
    attempts := r.attempts + 1
    outcomes := r.outcomes.set o.index (r.count o + 1) }

/-- The report with one more attempt. -/
def add (r : Report) (a : Attempt) : Report :=
  let r := (a.passed.foldl pass r).record a.outcome
  if a.outcome = .accepted then { r with lastAccepted := a.candidate? } else r

/-- The report on a run. -/
def ofAttempts (attempts : List Attempt) : Report :=
  attempts.foldl add {}

/-- The share of the attempts that have passed the gate, in percent. -/
def rate (r : Report) (g : Gate) : Float :=
  if r.attempts = 0 then 0.0
  else (r.passed g).toUInt64.toFloat * 100.0 / r.attempts.toUInt64.toFloat

def gateLine (r : Report) (g : Gate) : String :=
  s!"{r.passed g} {g.label} ({Decimal.fixedText 1 (.ofDouble (r.rate g))}%).\n"

/-- The counts of the outcomes that have occurred, acceptance apart. -/
def rejections (r : Report) : List String :=
  (Outcome.all.filter fun o => o != .accepted && 0 < r.count o).map fun o =>
    s!"{o.label}: {r.count o}"

/-- The report in words. The time that the run has taken is given as a text. -/
def render (r : Report) (duration : String) : String :=
  s!"{r.attempts} random games generated in {duration}:\n" ++
    String.join (Gate.all.map r.gateLine) ++
    "rejections: [" ++ ", ".intercalate r.rejections ++ "]"

end Report

end GameGrammar

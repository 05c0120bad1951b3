import GameGrammar.Funnel.Restriction
import GameGrammar.Overflow
import GameGrammar.Text.Class

/-! # Verdicts

A candidate goes through a series of gates, the cheap ones first. The first gate that it fails
decides its outcome, and no later part of the engine is asked. -/

namespace GameGrammar

/-! ## Outcomes and gates -/

/-- How an attempt ends, in the order of the gates. -/
inductive Outcome where
  | generationFailed
  | structurallyRejected
  | unparsable
  | uncompilable
  | nonFunctional
  | unplayable
  | accepted
  deriving DecidableEq

namespace Outcome

def all : List Outcome :=
  [.generationFailed, .structurallyRejected, .unparsable, .uncompilable, .nonFunctional,
    .unplayable, .accepted]

def index : Outcome → Fin 7
  | .generationFailed => 0
  | .structurallyRejected => 1
  | .unparsable => 2
  | .uncompilable => 3
  | .nonFunctional => 4
  | .unplayable => 5
  | .accepted => 6

def label : Outcome → String
  | .generationFailed => "generation failed"
  | .structurallyRejected => "structurally rejected"
  | .unparsable => "unparsable"
  | .uncompilable => "uncompilable"
  | .nonFunctional => "non-functional"
  | .unplayable => "unplayable"
  | .accepted => "accepted"

/-- Where texts with this outcome are kept. There is no text if generation has failed. -/
def bucket? : Outcome → Option String
  | .generationFailed => none
  | .structurallyRejected => some "structurally-rejected"
  | .unparsable => some "unparsable"
  | .uncompilable => some "uncompilable"
  | .nonFunctional => some "nonfunctional"
  | .unplayable => some "unplayable"
  | .accepted => some "accepted"

end Outcome

/-- The gates, in the order in which candidates meet them. -/
inductive Gate where
  | generated
  | structural
  | parsed
  | compiled
  | functional
  | playable
  deriving DecidableEq

namespace Gate

def all : List Gate :=
  [.generated, .structural, .parsed, .compiled, .functional, .playable]

def index : Gate → Fin 6
  | .generated => 0
  | .structural => 1
  | .parsed => 2
  | .compiled => 3
  | .functional => 4
  | .playable => 5

def label : Gate → String
  | .generated => "valid"
  | .structural => "structural"
  | .parsed => "parse"
  | .compiled => "compile"
  | .functional => "functional"
  | .playable => "playable"

end Gate

/-! ## Names of programs -/

/-- The text before and after the first quote. -/
def splitAtQuote? (s : List Char) : Option (List Char × List Char) :=
  match s.dropWhile (· != '"') with
  | [] => none
  | _ :: rest => some (s.takeWhile (· != '"'), rest)

/-- The quoted name in the leading form of a text, if there is one and it is not empty. No
parenthesis may stand between the head of the form and its name. -/
def quotedName? (text : List Char) : Option (List Char) :=
  match Text.trimStart text with
  | '(' :: rest =>
    match splitAtQuote? rest with
    | some (head, rest) =>
      if head.any (fun c => c == '(' || c == ')') then none
      else (splitAtQuote? rest).bind fun (name, _) => if name = [] then none else some name
    | none => none
  | _ => none

/-- The name that a text declares, or a stand-in. -/
def programName (text : String) : String :=
  match quotedName? text.toList with
  | some name => String.ofList name
  | none => "Anon"

/-! ## Judging -/

/-- What the gates are set to. -/
structure Options where
  startSymbol : String := "game"
  restrictions : Restrictions := .standard
  /-- The first simulation must consist of decisions. -/
  decisionOnly : Bool := false
  /-- Hand every candidate to the sink. -/
  persist : Bool := false
  /-- Do not play games that the compiler has flagged. -/
  rejectFlagged : Bool := true
  moveCap : UInt64 := 2000
  playouts : UInt64 := 10
  /-- Without a seed the random source has to be unforeseen. -/
  seed : Option UInt64 := none
  maxAttempts : Option Nat := none
  /-- What becomes of a product that is too large. This is settled when the program is built. -/
  overflow : Overflow := .breaks

/-- The outcome of a candidate, the gates it has passed after generation, and the name under
which it is kept. -/
structure Verdict where
  outcome : Outcome
  passed : List Gate
  stem : String
  deriving DecidableEq

section

variable {ε : Type} (o : Options) (e : Engine ε)

/-- Plays `n` more simulations and counts those of a reasonable length. There is no count if one
of them gives no trial. -/
def countReasonable (game : Game) (low high : UInt64) :
    Nat → UInt64 → ε → Option UInt64 × ε
  | 0, count, s => (some count, s)
  | n + 1, count, s =>
    match e.playout game o.moveCap s with
    | (.value trial, s) =>
      let reasonable := low.toNat ≤ trial.size && trial.size ≤ high.toNat
      countReasonable game low high n (if reasonable then count + 1 else count) s
    | (_, s) => (none, s)

/-- The least and the greatest length that is reasonable: two moves a player and nine tenths of
the cap. There are none if the program breaks down over a product. -/
def reasonableLengths (game : Game) : Option (UInt64 × UInt64) := do
  let low ← o.overflow.mul 2 game.players
  let tenths ← o.overflow.mul o.moveCap 9
  return (low, tenths / 10)

/-- At least half of the simulations must have a reasonable length. Without simulations nothing
is playable. There is no answer if the program breaks down over a product. -/
def playable (game : Game) (s : ε) : Option Bool × ε :=
  if o.playouts = 0 then (some false, s)
  else
    match reasonableLengths o game with
    | none => (none, s)
    | some (low, high) =>
      match countReasonable o e game low high o.playouts.toNat 0 s with
      | (some count, s) => ((o.overflow.mul 2 count).map fun twice => o.playouts ≤ twice, s)
      | (none, s) => (some false, s)

/-- One simulation must come to an end. -/
def functional (game : Game) (s : ε) : Bool × ε :=
  match e.playout game o.moveCap s with
  | (.value trial, s) => (!o.decisionOnly || trial.allDecisions, s)
  | (_, s) => (false, s)

/-- The verdict on a candidate that has been compiled. -/
def judgeGame (game : Game) (stem : String) (s : ε) : Option Verdict × ε :=
  if (o.restrictions.gameViolation? game).isSome then
    (some ⟨.structurallyRejected, [.structural, .parsed, .compiled], stem⟩, s)
  else if o.rejectFlagged && game.flagged then
    (some ⟨.nonFunctional, [.structural, .parsed, .compiled], stem⟩, s)
  else
    match functional o e game s with
    | (false, s) => (some ⟨.nonFunctional, [.structural, .parsed, .compiled], stem⟩, s)
    | (true, s) =>
      match playable o e game s with
      | (none, s) => (none, s)
      | (some false, s) =>
        (some ⟨.unplayable, [.structural, .parsed, .compiled, .functional], stem⟩, s)
      | (some true, s) =>
        (some ⟨.accepted, [.structural, .parsed, .compiled, .functional, .playable], stem⟩, s)

/-- The verdict on a candidate that has been parsed without errors. -/
def judgeParsed (text stem : String) (s : ε) : Option Verdict × ε :=
  match e.compile text s with
  | (.value game, s) => judgeGame o e game (if game.name = "" then stem else game.name) s
  | (_, s) => (some ⟨.uncompilable, [.structural, .parsed], stem⟩, s)

/-- The verdict on a candidate. There is none if the program breaks down. -/
def judge (text : String) (s : ε) : Option Verdict × ε :=
  let stem := programName text
  if (o.restrictions.textViolation? text).isSome then (some ⟨.structurallyRejected, [], stem⟩, s)
  else
    match e.parse text s with
    | (.value d, s) =>
      if d.clean then judgeParsed o e text stem s
      else (some ⟨.unparsable, [.structural], stem⟩, s)
    | (_, s) => (some ⟨.unparsable, [.structural], stem⟩, s)

end

end GameGrammar

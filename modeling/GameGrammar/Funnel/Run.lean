import GameGrammar.Completion.Generate
import GameGrammar.Funnel.Report
import GameGrammar.Slot.Fill

/-! # Runs

A run makes attempts one after another. Each attempt draws a seed, generates a text from it,
fills its slots, has the text judged and hands it to the sink. Seeds and values come from one
random source, which nothing else draws from. -/

namespace GameGrammar

/-- Why a run comes to no report. -/
inductive Halt where
  | symbol (e : UnknownSymbol)
  /-- The program has broken down over a number that is too large for its word. -/
  | overflow
  deriving DecidableEq

/-- Takes the texts that are to be kept, with their bucket and file name. -/
abbrev Sink (κ : Type) :=
  (text bucket file : String) → κ → κ

/-- All that stays the same during a run. -/
structure Funnel (σ ε κ : Type) where
  grammar : Grammar
  policy : Policy σ
  engine : Engine ε
  sink : Sink κ
  options : Options := {}
  values : Values := {}

/-- All that an attempt changes. -/
structure FunnelState (σ ε κ : Type) where
  policy : σ
  engine : ε
  sink : κ
  source : Random.Source

/-- The random source that a run begins with. -/
def Options.source (o : Options) (unforeseen : Random.Source) : Random.Source :=
  match o.seed with
  | some seed => .seeded seed
  | none => unforeseen

namespace Funnel

variable {σ ε κ : Type}

/-! ## One attempt -/

/-- Hands a candidate to the sink, if candidates are to be kept. -/
def persist (f : Funnel σ ε κ) (text : String) (v : Verdict) (sink : κ) : κ :=
  if f.options.persist then
    match v.outcome.bucket? with
    | some bucket => f.sink text bucket (v.stem ++ ".lud") sink
    | none => sink
  else sink

/-- Fills the slots of a completed text and judges the result. -/
def assess (f : Funnel σ ε κ) (raw : String) (s : FunnelState σ ε κ) :
    Except Halt Attempt × FunnelState σ ε κ :=
  let (text, source) := f.values.fill raw s.source
  match judge f.options f.engine text s.engine with
  | (none, engine) => (.error .overflow, { s with engine, source })
  | (some v, engine) =>
    (.ok (.judged text v), { s with engine, source, sink := f.persist text v s.sink })

/-- One attempt. An unknown start symbol uses up the seed and nothing else. -/
def attempt (f : Funnel σ ε κ) (s : FunnelState σ ε κ) :
    Except Halt Attempt × FunnelState σ ε κ :=
  let (seed, source) := Random.Source.next64 s.source
  let (generated, policy) := f.grammar.generate f.policy f.options.startSymbol seed s.policy
  let s := { s with source, policy }
  match generated with
  | .error e => (.error (.symbol e), s)
  | .ok none => (.ok .failed, s)
  | .ok (some raw) => f.assess raw s

/-! ## Many attempts -/

/-- Makes exactly so many attempts. -/
def runFixed (f : Funnel σ ε κ) :
    Nat → FunnelState σ ε κ → Except Halt (List Attempt) × FunnelState σ ε κ
  | 0, s => (.ok [], s)
  | n + 1, s =>
    match f.attempt s with
    | (.error h, s) => (.error h, s)
    | (.ok a, s) =>
      let (rest, s) := f.runFixed n s
      (rest.map (a :: ·), s)

/-- Makes attempts until `wanted` more are accepted, or until the limit on attempts is reached,
`made` of which count already. There is no result if that takes more than `patience`
attempts. -/
def runUntil (f : Funnel σ ε κ) :
    (patience wanted made : Nat) → FunnelState σ ε κ →
      Option (Except Halt (List Attempt) × FunnelState σ ε κ)
  | patience, wanted, made, s =>
    if wanted = 0 || f.options.maxAttempts.any (· ≤ made) then some (.ok [], s)
    else
      match patience with
      | 0 => none
      | patience + 1 =>
        match f.attempt s with
        | (.error h, s) => some (.error h, s)
        | (.ok a, s) =>
          let wanted := if a.outcome = .accepted then wanted - 1 else wanted
          (f.runUntil patience wanted (made + 1) s).map fun (rest, s) =>
            (rest.map (a :: ·), s)

end Funnel

end GameGrammar

import GameGrammar.Proofs.Funnel.Accounting

/-! # Runs under observation

A funnel is observed by keeping a record of what its policy and its engine are asked and of what
its sink is handed. Nothing ever looks at the records, so that an observed run goes as it would
have gone unobserved. -/

namespace GameGrammar

/-! ## Records -/

/-- A text that is handed to a sink. -/
structure Save where
  text : String
  bucket : String
  file : String
  deriving DecidableEq

namespace Sink

variable {κ : Type} (k : Sink κ)

/-- Hands these to the sink, one after another. -/
def handed (saves : List Save) (s : κ) : κ :=
  saves.foldl (fun s save => k save.text save.bucket save.file s) s

/-- The sink together with a record of what it has been handed, latest first. -/
def recorded : Sink (κ × List Save) :=
  fun text bucket file s => (k text bucket file s.1, ⟨text, bucket, file⟩ :: s.2)

end Sink

/-- The state of a funnel with the records of its policy, its engine and its sink. -/
abbrev Observed (σ ε κ : Type) : Type :=
  FunnelState (σ × List Event) (ε × List Call) (κ × List Save)

variable {σ ε κ : Type}

/-- The state without the records. -/
def FunnelState.bare (s : Observed σ ε κ) : FunnelState σ ε κ :=
  ⟨s.policy.1, s.engine.1, s.sink.1, s.source⟩

/-- The funnel with a record of everything that it does to its policy, its engine and its
sink. -/
def Funnel.observed (f : Funnel σ ε κ) :
    Funnel (σ × List Event) (ε × List Call) (κ × List Save) :=
  { f with policy := f.policy.recorded, engine := f.engine.recorded, sink := f.sink.recorded }

/-! ## Records are not looked at -/

namespace Funnel

end Funnel

end GameGrammar

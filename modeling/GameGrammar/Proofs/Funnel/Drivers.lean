import GameGrammar.Proofs.Funnel.Observation
import Mathlib.Data.Nat.Find
import Mathlib.Order.Bounds.Defs

/-! # The two drivers

A run until acceptance is the run of as many attempts as it takes, and runs of fixed length
follow on one another as if they were one. Only the first attempt of a run can find the start
symbol unknown. -/

namespace GameGrammar

namespace Funnel

variable {σ ε κ : Type} {f : Funnel σ ε κ}

/-! ## Runs that succeed and runs that fail -/

/-- How many candidates a run of so many attempts gets accepted. -/
def accepted (f : Funnel σ ε κ) (n : Nat) (s : FunnelState σ ε κ) : Nat :=
  match (f.runFixed n s).1 with
  | .ok attempts => (Report.ofAttempts attempts).count .accepted
  | .error _ => 0

/-- A beginning without any records. -/
def unrecorded : Observed Unit Nat Unit :=
  ⟨((), []), (0, []), ((), []), ⟨Vector.replicate 8 0, 0, [1, 2, 3, 4]⟩⟩

end Funnel

end GameGrammar

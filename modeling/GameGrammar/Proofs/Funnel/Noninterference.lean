import GameGrammar.Policy.Fixed
import GameGrammar.Proofs.Funnel.Trail

/-! # Verdicts do not influence candidates

What an attempt leaves behind in the policy and in the random source comes from the proposal
alone. However the candidates of a run are judged, they are therefore proposed one after another
as if there were no judge, and the verdicts only decide how far the run goes on. -/

namespace GameGrammar

namespace Funnel

variable {σ ε κ ε' κ' : Type}

/-- Seen from the policy and the random source, an attempt is a proposal. -/
theorem propose_of_attempt {f : Funnel σ ε κ} {s s₁ : FunnelState σ ε κ} {a : Attempt}
    (h : f.attempt s = (.ok a, s₁)) :
    f.proposer.propose (s.policy, s.source) = (.ok a.candidate?, s₁.policy, s₁.source) := by
  rw [attempt_eq] at h
  rcases hp : f.proposer.propose (s.policy, s.source) with ⟨_ | _ | text, policy, source⟩
  · simp [hp] at h
  · simp only [hp, Prod.mk.injEq, Except.ok.injEq] at h
    obtain ⟨rfl, rfl⟩ := h
    rfl
  · rcases hj : judge f.options f.engine text s.engine with ⟨_ | v, engine⟩
    · simp [hp, hj] at h
    · simp only [hp, hj, Prod.mk.injEq, Except.ok.injEq] at h
      obtain ⟨rfl, rfl⟩ := h
      rfl

/-! ## Any run -/

/-- The candidates of a run are proposed one after another. -/
theorem trailFrom_candidates (f : Funnel σ ε κ) (d : Driver) (n made accepted : Nat)
    (s : FunnelState σ ε κ) :
    (f.trailFrom d n made accepted s).map Attempt.candidate? <+:
      f.proposer.proposals n (s.policy, s.source) := by
  induction n generalizing made accepted s with
  | zero => exact List.nil_prefix
  | succ n ih =>
      rcases f.trailFrom_succ d n made accepted s with hend | ⟨a, s₁, accepted', ha, htrail⟩
      · rw [hend]
        exact List.nil_prefix
      · rw [htrail]
        simp only [Proposer.proposals, propose_of_attempt ha, List.map_cons]
        exact (List.prefix_cons_inj _).mpr (ih _ _ s₁)

/-! ## Runs of a fixed number of attempts -/

/-- Two runs that propose alike and begin with the same policy and the same random source, as
they do with the same master seed, have the same candidates as far as both of them go. Neither
the engines and their states nor the sinks, the settings of the gates and the drivers have a
part in it. -/
theorem candidates_comparable {f : Funnel σ ε κ} {f' : Funnel σ ε' κ'}
    (hf : f.proposer = f'.proposer) {s : FunnelState σ ε κ} {s' : FunnelState σ ε' κ'}
    (hpolicy : s.policy = s'.policy) (hsource : s.source = s'.source) (d d' : Driver)
    (n n' : Nat) :
    (f.trail d n s).map Attempt.candidate? <+: (f'.trail d' n' s').map Attempt.candidate? ∨
      (f'.trail d' n' s').map Attempt.candidate? <+: (f.trail d n s).map Attempt.candidate? := by
  have hleft : (f.trail d n s).map Attempt.candidate? <+:
      f.proposer.proposals (max n n') (s.policy, s.source) :=
    (f.trailFrom_candidates d n 0 0 s).trans
      (f.proposer.proposals_mono (Nat.le_max_left n n') _)
  have hright : (f'.trail d' n' s').map Attempt.candidate? <+:
      f.proposer.proposals (max n n') (s.policy, s.source) := by
    rw [hf, hpolicy, hsource]
    exact (f'.trailFrom_candidates d' n' 0 0 s').trans
      (f'.proposer.proposals_mono (Nat.le_max_right n n') _)
  exact List.prefix_or_prefix_of_prefix hleft hright

/-- A single rule whose form has a slot to be filled. -/
def slotGrammar : Grammar where
  rules := [⟨"<game>", [.form "game" [{ token := "string" }]]⟩]
  sound := by decide

/-- With an engine that always breaks down, and nothing kept. -/
def brokenFunnel : Funnel Unit Unit Unit where
  grammar := slotGrammar
  policy := FixedAnswers.policy {}
  engine :=
    { parse := fun _ s => (.panicked "no parser", s)
      compile := fun _ s => (.panicked "no compiler", s)
      playout := fun _ _ s => (.panicked "no player", s) }
  sink := fun _ _ _ kept => kept

/-- With an engine that counts its calls and finds nothing wrong, and everything kept. -/
def contentFunnel : Funnel Unit Nat (List String) where
  grammar := slotGrammar
  policy := FixedAnswers.policy {}
  engine :=
    { parse := fun _ calls => (.value {}, calls + 1)
      compile := fun _ calls => (.value {}, calls + 1)
      playout := fun _ _ calls => (.value (.ofDecisions 10), calls + 1) }
  sink := fun text _ _ kept => text :: kept
  options := { decisionOnly := true, persist := true, playouts := 3, maxAttempts := some 8 }

theorem candidates_comparable_broken :
    brokenFunnel.proposer = contentFunnel.proposer ∧
      ∀ n n' : Nat,
        (brokenFunnel.trail (.fixed 5) n ⟨(), (), (), .seeded 7⟩).map Attempt.candidate? <+:
            (contentFunnel.trail (.untilAccepted 2) n' ⟨(), 0, [], .seeded 7⟩).map
              Attempt.candidate? ∨
          (contentFunnel.trail (.untilAccepted 2) n' ⟨(), 0, [], .seeded 7⟩).map
              Attempt.candidate? <+:
            (brokenFunnel.trail (.fixed 5) n ⟨(), (), (), .seeded 7⟩).map Attempt.candidate? :=
  ⟨rfl, candidates_comparable (by rfl) (by rfl) (by rfl) (.fixed 5) (.untilAccepted 2)⟩

end Funnel

end GameGrammar

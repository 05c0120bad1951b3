import GameGrammar.Funnel.Run
import GameGrammar.Proofs.Completion.Generation

/-! # Proposals

An attempt first comes up with a candidate and then has it judged. The first half is described
without an engine, without a sink and without the settings of the gates, so that none of them
can have a part in it. -/

namespace GameGrammar

/-- All that candidates are made from, the state of the policy and the random source apart. -/
structure Proposer (σ : Type) where
  grammar : Grammar
  policy : Policy σ
  startSymbol : String
  values : Values

namespace Proposer

variable {σ : Type}

/-- The candidate of one attempt: none if generation has come up with nothing. -/
def propose (p : Proposer σ) (s : σ × Random.Source) :
    Except UnknownSymbol (Option String) × σ × Random.Source :=
  let (seed, source) := Random.Source.next64 s.2
  match p.grammar.generate p.policy p.startSymbol seed s.1 with
  | (.error e, policy) => (.error e, policy, source)
  | (.ok none, policy) => (.ok none, policy, source)
  | (.ok (some raw), policy) =>
    let (text, source) := p.values.fill raw source
    (.ok (some text), policy, source)

/-- The candidates of `n` attempts. An unknown start symbol puts an end to them. -/
def proposals (p : Proposer σ) : Nat → σ × Random.Source → List (Option String)
  | 0, _ => []
  | n + 1, s =>
    match p.propose s with
    | (.error _, _) => []
    | (.ok candidate, s) => candidate :: p.proposals n s

/-- Candidates do not depend on how many come after them. -/
theorem proposals_mono (p : Proposer σ) {m n : Nat} (h : m ≤ n) (s : σ × Random.Source) :
    p.proposals m s <+: p.proposals n s := by
  induction m generalizing n s with
  | zero => exact List.nil_prefix
  | succ m ih =>
      obtain ⟨n, rfl⟩ : ∃ k, n = k + 1 := ⟨n - 1, by omega⟩
      rcases hp : p.propose s with ⟨result, s'⟩
      cases result with
      | error e => simp [proposals, hp]
      | ok candidate =>
          simp only [proposals, hp]
          exact List.prefix_cons_inj candidate |>.mpr (ih (by omega) s')

/-! ### Start symbols -/

theorem propose_known {p : Proposer σ} (h : p.grammar.resolve p.startSymbol ≠ [])
    (s : σ × Random.Source) : ∃ candidate s', p.propose s = (.ok candidate, s') := by
  obtain ⟨d, hd⟩ := Grammar.exists_start h
  rcases hs : Random.Source.next64 s.2 with ⟨seed, source⟩
  rcases hr : d.run p.policy (p.policy.reseed seed s.1) with ⟨_ | raw, policy⟩
  · exact ⟨none, (policy, source), by simp only [propose, hs, Grammar.generate_of_start hd, hr]⟩
  · rcases hf : p.values.fill raw source with ⟨text, rest⟩
    exact ⟨some text, (policy, rest),
      by simp only [propose, hs, Grammar.generate_of_start hd, hr, hf]⟩

/-! ### Policies without a past -/

end Proposer

namespace Funnel

variable {σ ε κ : Type}

def proposer (f : Funnel σ ε κ) : Proposer σ where
  grammar := f.grammar
  policy := f.policy
  startSymbol := f.options.startSymbol
  values := f.values

/-- An attempt is a proposal and a verdict on it. -/
theorem attempt_eq (f : Funnel σ ε κ) (s : FunnelState σ ε κ) :
    f.attempt s =
      match f.proposer.propose (s.policy, s.source) with
      | (.error e, policy, source) => (.error (.symbol e), { s with policy, source })
      | (.ok none, policy, source) => (.ok .failed, { s with policy, source })
      | (.ok (some text), policy, source) =>
        match judge f.options f.engine text s.engine with
        | (none, engine) => (.error .overflow, { s with policy, engine, source })
        | (some v, engine) =>
          (.ok (.judged text v), ⟨policy, engine, f.persist text v s.sink, source⟩) := by
  rcases hs : Random.Source.next64 s.source with ⟨seed, source⟩
  rcases hg : f.grammar.generate f.policy f.options.startSymbol seed s.policy with
    ⟨result, policy⟩
  cases result with
  | error e => simp only [attempt, Proposer.propose, proposer, hs, hg]
  | ok raw? =>
      cases raw? with
      | none => simp only [attempt, Proposer.propose, proposer, hs, hg]
      | some raw =>
          rcases hf : f.values.fill raw source with ⟨text, rest⟩
          rcases hj : judge f.options f.engine text s.engine with ⟨_ | v, engine⟩
          · simp only [attempt, Proposer.propose, proposer, assess, hs, hg, hf, hj]
          · simp only [attempt, Proposer.propose, proposer, assess, hs, hg, hf, hj]

/-- All that an attempt does to its engine and its sink: it does nothing to them, it breaks down
while a candidate is judged, or it has a candidate judged and handed on. -/
theorem attempt_cases {f : Funnel σ ε κ} {s s₁ : FunnelState σ ε κ}
    {result : Except Halt Attempt} (h : f.attempt s = (result, s₁)) :
    (((∃ e, result = .error (.symbol e)) ∨
        result = .ok .failed ∧ (f.proposer.propose (s.policy, s.source)).1 = .ok none) ∧
      s₁.engine = s.engine ∧ s₁.sink = s.sink) ∨
    (result = .error .overflow ∧ s₁.sink = s.sink ∧
      ∃ text, (f.proposer.propose (s.policy, s.source)).1 = .ok (some text) ∧
        judge f.options f.engine text s.engine = (none, s₁.engine)) ∨
    ∃ text v, result = .ok (.judged text v) ∧
      (f.proposer.propose (s.policy, s.source)).1 = .ok (some text) ∧
      judge f.options f.engine text s.engine = (some v, s₁.engine) ∧
      s₁.sink = f.persist text v s.sink := by
  rw [attempt_eq] at h
  rcases hp : f.proposer.propose (s.policy, s.source) with ⟨e | _ | text, policy, source⟩
  · simp only [hp, Prod.mk.injEq] at h
    obtain ⟨rfl, rfl⟩ := h
    exact .inl ⟨.inl ⟨e, rfl⟩, rfl, rfl⟩
  · simp only [hp, Prod.mk.injEq] at h
    obtain ⟨rfl, rfl⟩ := h
    exact .inl ⟨.inr ⟨rfl, rfl⟩, rfl, rfl⟩
  · rcases hj : judge f.options f.engine text s.engine with ⟨_ | v, engine⟩
    · simp only [hp, hj, Prod.mk.injEq] at h
      obtain ⟨rfl, rfl⟩ := h
      exact .inr (.inl ⟨rfl, rfl, text, rfl, hj⟩)
    · simp only [hp, hj, Prod.mk.injEq] at h
      obtain ⟨rfl, rfl⟩ := h
      exact .inr (.inr ⟨text, v, rfl, rfl, hj, rfl⟩)

/-- Where it stands for a rule, every attempt ends in some way, if it does not break down. -/
theorem attempt_known {f : Funnel σ ε κ}
    (h : f.grammar.resolve f.options.startSymbol ≠ []) (s : FunnelState σ ε κ) :
    (∃ a s₁, f.attempt s = (.ok a, s₁)) ∨ ∃ s₁, f.attempt s = (.error .overflow, s₁) := by
  obtain ⟨candidate, next, hp⟩ :=
    Proposer.propose_known (p := f.proposer) h (s.policy, s.source)
  rw [attempt_eq, hp]
  rcases candidate with _ | text
  · exact .inl ⟨_, _, rfl⟩
  · dsimp only
    rcases judge f.options f.engine text s.engine with ⟨_ | v, engine⟩
    · exact .inr ⟨_, rfl⟩
    · exact .inl ⟨_, _, rfl⟩

end Funnel

end GameGrammar

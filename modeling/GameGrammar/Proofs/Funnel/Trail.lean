import GameGrammar.Proofs.Funnel.Proposal

/-! # The trail of a run

A run leaves a trail of attempts behind, also while it is still going on and if it never comes to
an end. -/

namespace GameGrammar

/-- How long a run goes on. -/
inductive Driver where
  /-- For exactly so many attempts. -/
  | fixed (count : Nat)
  /-- Until so many candidates are accepted, or until the limit on attempts is reached. -/
  | untilAccepted (target : Nat)

/-- Whether a run ends after so many attempts, so many of which were accepted. -/
def Driver.stops (o : Options) : Driver → (made accepted : Nat) → Bool
  | .fixed count, made, _ => count ≤ made
  | .untilAccepted target, made, accepted => target ≤ accepted || o.maxAttempts.any (· ≤ made)

namespace Funnel

variable {σ ε κ : Type}

/-- What a run comes to, if it ends. A run until acceptance is given up after `patience`
attempts. -/
def run (f : Funnel σ ε κ) (patience : Nat) (d : Driver) (s : FunnelState σ ε κ) :
    Option (Except Halt (List Attempt) × FunnelState σ ε κ) :=
  match d with
  | .fixed count => some (f.runFixed count s)
  | .untilAccepted target => f.runUntil patience target 0 s

/-- The next attempts of a run that has made some, as far as `n` attempts ahead. -/
def trailFrom (f : Funnel σ ε κ) (d : Driver) :
    (n made accepted : Nat) → FunnelState σ ε κ → List Attempt
  | 0, _, _, _ => []
  | n + 1, made, accepted, s =>
    if d.stops f.options made accepted then []
    else
      match f.attempt s with
      | (.error _, _) => []
      | (.ok a, s) =>
        let accepted := if a.outcome = .accepted then accepted + 1 else accepted
        a :: f.trailFrom d n (made + 1) accepted s

/-- The first `n` attempts of a run, or all of them if it makes fewer. -/
def trail (f : Funnel σ ε κ) (d : Driver) (n : Nat) (s : FunnelState σ ε κ) : List Attempt :=
  f.trailFrom d n 0 0 s

/-- A trail is at its end or goes on with the next attempt. -/
theorem trailFrom_succ (f : Funnel σ ε κ) (d : Driver) (n made accepted : Nat)
    (s : FunnelState σ ε κ) :
    f.trailFrom d (n + 1) made accepted s = [] ∨
      ∃ a s₁ accepted', f.attempt s = (.ok a, s₁) ∧
        f.trailFrom d (n + 1) made accepted s = a :: f.trailFrom d n (made + 1) accepted' s₁ := by
  rw [trailFrom]
  by_cases hstop : d.stops f.options made accepted = true
  · rw [if_pos hstop]
    exact .inl rfl
  · rw [if_neg hstop]
    rcases f.attempt s with ⟨e | a, s₁⟩
    · exact .inl rfl
    · exact .inr ⟨a, s₁, _, rfl, rfl⟩

/-! ## One attempt after another -/

/-- A run succeeds if its first attempt and the run after it do. -/
theorem consed_eq_ok {a : Attempt} {s' : FunnelState σ ε κ} {attempts : List Attempt}
    {later : Except Halt (List Attempt) × FunnelState σ ε κ} :
    (later.1.map (a :: ·), later.2) = (.ok attempts, s') ↔
      ∃ rest, later = (.ok rest, s') ∧ attempts = a :: rest := by
  rcases later with ⟨e | rest, s⟩
  · simp [Except.map]
  · simp only [Except.map, Prod.mk.injEq, Except.ok.injEq]
    constructor
    · rintro ⟨rfl, rfl⟩
      exact ⟨rest, ⟨rfl, rfl⟩, rfl⟩
    · rintro ⟨_, ⟨rfl, rfl⟩, rfl⟩
      exact ⟨rfl, rfl⟩

theorem runFixed_succ_eq_ok {f : Funnel σ ε κ} {count : Nat} {s s' : FunnelState σ ε κ}
    {attempts : List Attempt} :
    f.runFixed (count + 1) s = (.ok attempts, s') ↔
      ∃ a s₁ rest, f.attempt s = (.ok a, s₁) ∧ f.runFixed count s₁ = (.ok rest, s') ∧
        attempts = a :: rest := by
  rw [runFixed]
  rcases f.attempt s with ⟨e | a, s₁⟩
  · simp
  · rw [consed_eq_ok]
    simp only [Prod.mk.injEq, Except.ok.injEq]
    constructor
    · rintro ⟨rest, hr, rfl⟩
      exact ⟨a, s₁, rest, ⟨rfl, rfl⟩, hr, rfl⟩
    · rintro ⟨_, _, rest, ⟨rfl, rfl⟩, hr, rfl⟩
      exact ⟨rest, hr, rfl⟩

/-- Whether a run ends depends only on how many acceptances are still wanted. -/
theorem stops_untilAccepted (o : Options) (wanted made accepted : Nat) :
    Driver.stops o (.untilAccepted (accepted + wanted)) made accepted =
      (decide (wanted = 0) || o.maxAttempts.any (· ≤ made)) := by
  have h : accepted + wanted ≤ accepted ↔ wanted = 0 := by omega
  rw [Driver.stops, decide_eq_decide.mpr h]

theorem runUntil_of_stops {f : Funnel σ ε κ} {patience wanted made : Nat}
    {s : FunnelState σ ε κ}
    (h : (decide (wanted = 0) || f.options.maxAttempts.any (· ≤ made)) = true) :
    f.runUntil patience wanted made s = some (.ok [], s) := by
  unfold runUntil
  rw [if_pos h]

theorem runUntil_eq_ok {f : Funnel σ ε κ} {patience wanted made : Nat}
    {s s' : FunnelState σ ε κ} {attempts : List Attempt}
    (h : ¬ (decide (wanted = 0) || f.options.maxAttempts.any (· ≤ made)) = true) :
    f.runUntil patience wanted made s = some (.ok attempts, s') ↔
      ∃ n a s₁ rest, patience = n + 1 ∧ f.attempt s = (.ok a, s₁) ∧
        f.runUntil n (if a.outcome = .accepted then wanted - 1 else wanted) (made + 1) s₁ =
          some (.ok rest, s') ∧ attempts = a :: rest := by
  rw [runUntil.eq_def]
  simp only [if_neg h]
  cases patience with
  | zero => simp
  | succ n =>
      rcases f.attempt s with ⟨e | a, s₁⟩
      · simp
      · simp only [Option.map_eq_some_iff, consed_eq_ok]
        simp only [Prod.mk.injEq, Except.ok.injEq]
        constructor
        · rintro ⟨_, hr, rest, rfl, rfl⟩
          exact ⟨n, a, s₁, rest, rfl, ⟨rfl, rfl⟩, hr, rfl⟩
        · rintro ⟨_, _, _, rest, hn, ⟨rfl, rfl⟩, hr, rfl⟩
          obtain rfl := Nat.succ.inj hn
          exact ⟨_, hr, rest, rfl, rfl⟩

end Funnel

end GameGrammar

import GameGrammar.Proofs.Funnel.Course
import GameGrammar.Proofs.Funnel.Trail

/-! # Attempts in sequence

Both drivers make one attempt after another and differ only in when they stop. A run that
succeeds is therefore a sequence of attempts, each begun where the one before has ended, that
comes to the first point at which its driver stops. A run that fails is one whose next attempt
comes to a halt before that point. -/

namespace GameGrammar

namespace Funnel

variable {σ ε κ : Type} {f : Funnel σ ε κ}

/-! ## Sequences -/

/-- The funnel makes these attempts, one after another, on the way from one state to another. -/
inductive Makes (f : Funnel σ ε κ) :
    FunnelState σ ε κ → List Attempt → FunnelState σ ε κ → Prop where
  | nil (s : FunnelState σ ε κ) : Makes f s [] s
  | cons {s s₁ s₂ : FunnelState σ ε κ} {a : Attempt} {rest : List Attempt}
      (ha : f.attempt s = (.ok a, s₁)) (hr : Makes f s₁ rest s₂) : Makes f s (a :: rest) s₂

namespace Makes

variable {s s₁ s₂ : FunnelState σ ε κ} {attempts later : List Attempt}

theorem append (h : f.Makes s attempts s₁) (hl : f.Makes s₁ later s₂) :
    f.Makes s (attempts ++ later) s₂ := by
  induction h with
  | nil s => exact hl
  | cons ha _ ih => exact .cons ha (ih hl)

theorem take (h : f.Makes s attempts s₂) (k : Nat) :
    ∃ s₁, f.Makes s (attempts.take k) s₁ := by
  induction h generalizing k with
  | nil s =>
      rw [List.take_nil]
      exact ⟨s, .nil s⟩
  | @cons s _ _ _ _ ha _ ih =>
      cases k with
      | zero => exact ⟨s, .nil s⟩
      | succ k =>
          obtain ⟨s₁, hr⟩ := ih k
          exact ⟨s₁, .cons ha hr⟩

end Makes

/-- The funnel makes these attempts, one after another, and the next one comes to a halt. -/
def Halts (f : Funnel σ ε κ) (s : FunnelState σ ε κ) (attempts : List Attempt) (halt : Halt)
    (s' : FunnelState σ ε κ) : Prop :=
  ∃ s₁, f.Makes s attempts s₁ ∧ f.attempt s₁ = (.error halt, s')

section

variable {s s' : FunnelState σ ε κ} {halt : Halt}

/-- Where the start symbol stands for a rule, nothing but a breakdown brings the funnel to a
halt. -/
theorem Halts.known {attempts : List Attempt} (h : f.Halts s attempts halt s')
    (hk : f.grammar.resolve f.options.startSymbol ≠ []) :
    halt = .overflow ∧ f.options.overflow = .breaks := by
  obtain ⟨s₁, -, hlast⟩ := h
  obtain ⟨a, s₂, ha⟩ | ⟨s₂, ha⟩ := attempt_known hk s₁
  · cases ha.symm.trans hlast
  · cases ha.symm.trans hlast
    exact ⟨rfl, overflow_of_attempt ha⟩

end

/-- A run of so many attempts is a sequence of so many attempts. -/
theorem runFixed_eq_ok_iff {n : Nat} {s s' : FunnelState σ ε κ} {attempts : List Attempt} :
    f.runFixed n s = (.ok attempts, s') ↔ f.Makes s attempts s' ∧ attempts.length = n := by
  constructor
  · intro h
    induction n generalizing s attempts with
    | zero =>
        cases h
        exact ⟨.nil _, rfl⟩
    | succ n ih =>
        obtain ⟨a, s₁, rest, ha, hr, rfl⟩ := runFixed_succ_eq_ok.mp h
        obtain ⟨hmakes, hn⟩ := ih hr
        exact ⟨.cons ha hmakes, by rw [List.length_cons, hn]⟩
  · rintro ⟨hmakes, rfl⟩
    induction hmakes with
    | nil s => rfl
    | @cons _ s₁ _ a rest ha _ ih => exact runFixed_succ_eq_ok.mpr ⟨a, s₁, rest, ha, ih, rfl⟩

end Funnel

/-! ## Where a driver stops -/

/-- How many of the attempts are accepted. -/
def acceptances (attempts : List Attempt) : Nat :=
  attempts.countP (·.outcome = .accepted)

theorem acceptances_cons (a : Attempt) (rest : List Attempt) :
    acceptances (a :: rest) =
      (if a.outcome = .accepted then 1 else 0) + acceptances rest := by
  simp only [acceptances, List.countP_cons, decide_eq_true_eq]
  omega

/-- A driver that has seen some attempts before stops after these attempts and not earlier. -/
def Driver.Ends (o : Options) (d : Driver) (made accepted : Nat) (attempts : List Attempt) :
    Prop :=
  d.stops o (made + attempts.length) (accepted + acceptances attempts) = true ∧
    ∀ k < attempts.length, d.stops o (made + k) (accepted + acceptances (attempts.take k)) = false

theorem Driver.ends_nil {o : Options} {d : Driver} {made accepted : Nat} :
    d.Ends o made accepted [] ↔ d.stops o made accepted = true := by
  simp [Ends, acceptances]

theorem Driver.ends_fixed {o : Options} {attempts : List Attempt} :
    (Driver.fixed attempts.length).Ends o 0 0 attempts := by
  simp [Ends, stops]

/-- A driver that has seen some attempts before stops nowhere among these attempts, and not after
them either. -/
def Driver.GoesOn (o : Options) (d : Driver) (made accepted : Nat) (attempts : List Attempt) :
    Prop :=
  ∀ k ≤ attempts.length, d.stops o (made + k) (accepted + acceptances (attempts.take k)) = false

theorem Driver.GoesOn.start {o : Options} {d : Driver} {made accepted : Nat}
    {attempts : List Attempt} (h : d.GoesOn o made accepted attempts) :
    d.stops o made accepted = false := by
  simpa [acceptances] using h 0 (Nat.zero_le _)

/-- How many candidates have been accepted after one more attempt. -/
theorem add_acceptances_cons (accepted : Nat) (a : Attempt) (later : List Attempt) :
    accepted + acceptances (a :: later) =
      (if a.outcome = .accepted then accepted + 1 else accepted) + acceptances later := by
  rw [acceptances_cons]
  split <;> omega

/-- A driver that goes on with an attempt stops where it stops after it. -/
theorem Driver.ends_cons {o : Options} {d : Driver} {made accepted : Nat} {a : Attempt}
    {rest : List Attempt} :
    d.Ends o made accepted (a :: rest) ↔ d.stops o made accepted = false ∧
      d.Ends o (made + 1) (if a.outcome = .accepted then accepted + 1 else accepted) rest := by
  have hlength (n : Nat) : made + (n + 1) = made + 1 + n := by omega
  unfold Ends
  rw [List.length_cons, hlength, add_acceptances_cons]
  constructor
  · rintro ⟨hend, hbefore⟩
    refine ⟨by simpa [acceptances] using hbefore 0 (by omega), hend, fun k hk => ?_⟩
    have h := hbefore (k + 1) (by omega)
    rwa [List.take_succ_cons, add_acceptances_cons, hlength] at h
  · rintro ⟨hstart, hend, hbefore⟩
    refine ⟨hend, fun k hk => ?_⟩
    cases k with
    | zero => simpa [acceptances] using hstart
    | succ k =>
        rw [List.take_succ_cons, add_acceptances_cons, hlength]
        exact hbefore k (by omega)

namespace Funnel

variable {σ ε κ : Type} {f : Funnel σ ε κ}

/-- An attempt that is accepted is one of those that are wanted. -/
theorem wanted_after {o : Options} {wanted made : Nat}
    (hs : ¬ (decide (wanted = 0) || o.maxAttempts.any (· ≤ made)) = true) (accepted : Nat)
    (a : Attempt) :
    accepted + wanted = (if a.outcome = .accepted then accepted + 1 else accepted) +
      if a.outcome = .accepted then wanted - 1 else wanted := by
  have hwanted : wanted ≠ 0 := by
    rintro rfl
    simp at hs
  split <;> omega

/-- A run until acceptance is a sequence of attempts up to the first point where it may stop. -/
theorem runUntil_eq_ok_iff {patience wanted made : Nat} {s s' : FunnelState σ ε κ}
    {attempts : List Attempt} (accepted : Nat) :
    f.runUntil patience wanted made s = some (.ok attempts, s') ↔
      f.Makes s attempts s' ∧ attempts.length ≤ patience ∧
        Driver.Ends f.options (.untilAccepted (accepted + wanted)) made accepted attempts := by
  induction attempts generalizing patience wanted made accepted s with
  | nil =>
      rw [Driver.ends_nil, stops_untilAccepted]
      by_cases hs : (decide (wanted = 0) || f.options.maxAttempts.any (· ≤ made)) = true
      · rw [runUntil_of_stops hs]
        constructor
        · intro h
          cases h
          exact ⟨.nil _, Nat.zero_le _, hs⟩
        · rintro ⟨hmakes, -, -⟩
          cases hmakes
          rfl
      · rw [runUntil_eq_ok hs]
        constructor
        · rintro ⟨_, _, _, _, -, -, -, h⟩
          cases h
        · rintro ⟨-, -, h⟩
          exact absurd h hs
  | cons a rest ih =>
      rw [Driver.ends_cons, stops_untilAccepted]
      by_cases hs : (decide (wanted = 0) || f.options.maxAttempts.any (· ≤ made)) = true
      · rw [runUntil_of_stops hs, hs]
        simp
      · have hwanted := wanted_after hs accepted a
        rw [runUntil_eq_ok hs]
        constructor
        · rintro ⟨n, _, s₁, _, rfl, ha, hr, h⟩
          obtain ⟨rfl, rfl⟩ := List.cons.inj h
          obtain ⟨hmakes, hn, hends⟩ := (ih _).mp hr
          exact ⟨.cons ha hmakes, by simpa using hn, by simpa using hs, hwanted ▸ hends⟩
        · rintro ⟨hmakes, hn, -, hends⟩
          cases hmakes with
          | @cons _ s₁ _ _ _ ha hr =>
              rw [List.length_cons] at hn
              obtain ⟨n, rfl⟩ : ∃ n, patience = n + 1 := ⟨patience - 1, by omega⟩
              rw [hwanted] at hends
              exact ⟨n, a, s₁, rest, rfl, ha, (ih _).mpr ⟨hr, by omega, hends⟩, rfl⟩

/-- Whichever driver it has, a run that succeeds is a sequence of attempts up to the first point
where the driver stops. -/
theorem makes_of_run {patience : Nat} {d : Driver} {s s' : FunnelState σ ε κ}
    {attempts : List Attempt} (h : f.run patience d s = some (.ok attempts, s')) :
    f.Makes s attempts s' ∧ d.Ends f.options 0 0 attempts := by
  cases d with
  | fixed count =>
      obtain ⟨hmakes, rfl⟩ := runFixed_eq_ok_iff.mp (Option.some.inj h)
      exact ⟨hmakes, Driver.ends_fixed⟩
  | untilAccepted target =>
      obtain ⟨hmakes, -, hends⟩ := (runUntil_eq_ok_iff 0).mp h
      rw [Nat.zero_add] at hends
      exact ⟨hmakes, hends⟩

theorem trailFrom_of_makes {d : Driver} {n made accepted : Nat} {s s' : FunnelState σ ε κ}
    {attempts : List Attempt} (h : f.Makes s attempts s')
    (he : d.Ends f.options made accepted attempts) (hn : attempts.length ≤ n) :
    f.trailFrom d n made accepted s = attempts := by
  induction h generalizing n made accepted with
  | nil s =>
      cases n with
      | zero => rfl
      | succ n => rw [trailFrom, if_pos (Driver.ends_nil.mp he)]
  | cons ha _ ih =>
      obtain ⟨hgoes, hrest⟩ := Driver.ends_cons.mp he
      rw [List.length_cons] at hn
      obtain ⟨n, rfl⟩ : ∃ k, n = k + 1 := ⟨n - 1, by omega⟩
      rw [trailFrom, if_neg (by simp [hgoes]), ha]
      simp only [ih hrest (Nat.le_of_succ_le_succ hn)]

/-- What a run reports on is its trail. -/
theorem trail_of_run {patience : Nat} {d : Driver} {s s' : FunnelState σ ε κ}
    {attempts : List Attempt} (h : f.run patience d s = some (.ok attempts, s')) :
    ∃ n, f.trail d n s = attempts := by
  obtain ⟨hmakes, hends⟩ := makes_of_run h
  exact ⟨attempts.length, trailFrom_of_makes hmakes hends (Nat.le_refl _)⟩

end Funnel

end GameGrammar

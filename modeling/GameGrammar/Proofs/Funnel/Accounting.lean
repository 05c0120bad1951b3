import GameGrammar.Policy.Fixed
import GameGrammar.Proofs.Funnel.Course
import GameGrammar.Proofs.Funnel.Sequence
import Mathlib.Algebra.Ring.Nat

/-! # The accounts of a run

A report counts outcomes and gates apart from each other. That its counts agree all the same is
due to the attempts: which gates an attempt passes goes with how it ends. -/

namespace GameGrammar

/-! ## Outcomes and gates of an attempt -/

/-- How many gates an attempt with this outcome may have passed. -/
def Outcome.depths : Outcome → List Nat
  | .generationFailed => [0]
  | .structurallyRejected => [1, 4]
  | .unparsable => [2]
  | .uncompilable => [3]
  | .nonFunctional => [4]
  | .unplayable => [5]
  | .accepted => [6]

/-- The attempt has passed as many gates as go with its outcome, and has left none of them
out. -/
def Attempt.Regular (a : Attempt) : Prop :=
  ∃ k ∈ a.outcome.depths, a.passed = Gate.all.take k

theorem Attempt.regular_failed : Attempt.failed.Regular :=
  ⟨0, by simp [outcome, Outcome.depths], rfl⟩

theorem Course.regular {ε : Type} {o : Options} {e : Engine ε} {text : String} {s s' : ε}
    {k : Nat} {v : Verdict} (h : Course o e text s k (some v) s') (candidate : String) :
    (Attempt.judged candidate v).Regular := by
  cases h with
  | restrictedText => exact ⟨1, by simp [Attempt.outcome, Outcome.depths], rfl⟩
  | unparsable => exact ⟨2, by simp [Attempt.outcome, Outcome.depths], rfl⟩
  | uncompilable => exact ⟨3, by simp [Attempt.outcome, Outcome.depths], rfl⟩
  | restrictedGame | flagged | unfinished | undecided =>
      exact ⟨4, by simp [Attempt.outcome, Outcome.depths], rfl⟩
  | untried | interrupted | outvoted =>
      exact ⟨5, by simp [Attempt.outcome, Outcome.depths], rfl⟩
  | accepted => exact ⟨6, by simp [Attempt.outcome, Outcome.depths], rfl⟩

namespace Funnel

variable {σ ε κ : Type} {f : Funnel σ ε κ}

theorem attempt_regular {s s' : FunnelState σ ε κ} {a : Attempt}
    (h : f.attempt s = (.ok a, s')) : a.Regular := by
  obtain ⟨⟨_, hresult⟩ | ⟨hresult, -⟩, -⟩ | ⟨hresult, -⟩ | ⟨text, v, hresult, -, hj, -⟩ :=
    attempt_cases h
  · cases hresult
  · cases hresult
    exact Attempt.regular_failed
  · cases hresult
  · cases hresult
    obtain ⟨k, hk⟩ := judge_iff_course.mp hj
    exact hk.regular text

theorem trailFrom_regular (d : Driver) (n made accepted : Nat) (s : FunnelState σ ε κ) :
    ∀ a ∈ f.trailFrom d n made accepted s, a.Regular := by
  induction n generalizing made accepted s with
  | zero => exact List.forall_mem_nil _
  | succ n ih =>
      rcases f.trailFrom_succ d n made accepted s with hend | ⟨a, s₁, accepted', ha, htrail⟩
      · rw [hend]
        exact List.forall_mem_nil _
      · rw [htrail]
        exact List.forall_mem_cons.mpr ⟨attempt_regular ha, ih _ _ s₁⟩

end Funnel

/-! ## What a report counts -/

namespace Report

theorem outcomeIndex_inj {o o' : Outcome} : o.index = o'.index ↔ o = o' := by
  cases o <;> cases o' <;> decide

theorem gateIndex_inj {g g' : Gate} : g.index = g'.index ↔ g = g' := by
  cases g <;> cases g' <;> decide

variable (r : Report)

theorem count_record (o o' : Outcome) :
    (r.record o).count o' = r.count o' + if o = o' then 1 else 0 := by
  by_cases h : o = o'
  · subst h
    simp [record, count]
  · have hi : o.index.val ≠ o'.index.val := fun hi => h (outcomeIndex_inj.mp (Fin.ext hi))
    simp [record, count, h, hi]

theorem passed_pass (g g' : Gate) :
    (r.pass g).passed g' = r.passed g' + if g = g' then 1 else 0 := by
  by_cases h : g = g'
  · subst h
    simp [pass, passed]
  · have hi : g.index.val ≠ g'.index.val := fun hi => h (gateIndex_inj.mp (Fin.ext hi))
    simp [pass, passed, h, hi]

@[simp] theorem count_empty (o : Outcome) : ({} : Report).count o = 0 := by
  simp [count]

@[simp] theorem passed_empty (g : Gate) : ({} : Report).passed g = 0 := by
  simp [passed]

@[simp] theorem count_pass (g : Gate) (o : Outcome) : (r.pass g).count o = r.count o := rfl

@[simp] theorem passed_record (o : Outcome) (g : Gate) : (r.record o).passed g = r.passed g := rfl

theorem foldl_pass (gates : List Gate) :
    (gates.foldl pass r).attempts = r.attempts ∧
      (∀ o, (gates.foldl pass r).count o = r.count o) ∧
      (∀ g, (gates.foldl pass r).passed g = r.passed g + gates.count g) ∧
      (gates.foldl pass r).lastAccepted = r.lastAccepted := by
  induction gates generalizing r with
  | nil => simp
  | cons g gates ih =>
      obtain ⟨ha, hc, hp, hl⟩ := ih (r.pass g)
      refine ⟨ha, hc, fun g' => ?_, hl⟩
      rw [List.foldl_cons, hp, passed_pass, List.count_cons]
      simp only [beq_iff_eq]
      omega

theorem attempts_add (a : Attempt) : (r.add a).attempts = r.attempts + 1 := by
  have h := (foldl_pass r a.passed).1
  by_cases ha : a.outcome = .accepted <;> simp [add, ha, record, h]

theorem count_add (a : Attempt) (o : Outcome) :
    (r.add a).count o = r.count o + if a.outcome = o then 1 else 0 := by
  have h : ((a.passed.foldl pass r).record a.outcome).count o =
      r.count o + if a.outcome = o then 1 else 0 := by
    rw [count_record, (foldl_pass r a.passed).2.1]
  by_cases ha : a.outcome = .accepted
  · rw [← h, add, if_pos ha]
    rfl
  · rw [← h, add, if_neg ha]

theorem passed_add (a : Attempt) (g : Gate) :
    (r.add a).passed g = r.passed g + a.passed.count g := by
  have h : ((a.passed.foldl pass r).record a.outcome).passed g =
      r.passed g + a.passed.count g := by
    rw [passed_record, (foldl_pass r a.passed).2.2.1]
  by_cases ha : a.outcome = .accepted
  · rw [← h, add, if_pos ha]
    rfl
  · rw [← h, add, if_neg ha]

theorem lastAccepted_add (a : Attempt) :
    (r.add a).lastAccepted =
      if a.outcome = .accepted then a.candidate? else r.lastAccepted := by
  by_cases ha : a.outcome = .accepted
  · rw [add, if_pos ha, if_pos ha]
  · rw [add, if_neg ha, if_neg ha]
    exact (foldl_pass r a.passed).2.2.2

/-- The report `r` counts what `r₁` and after it `r₂` have counted. -/
structure Joins (r₁ r₂ r : Report) : Prop where
  attempts : r.attempts = r₁.attempts + r₂.attempts
  count (o : Outcome) : r.count o = r₁.count o + r₂.count o
  passed (g : Gate) : r.passed g = r₁.passed g + r₂.passed g
  lastAccepted : r.lastAccepted = r₂.lastAccepted.or r₁.lastAccepted

theorem joins_empty : Joins r {} r where
  attempts := rfl
  count o := by simp
  passed g := by simp
  lastAccepted := rfl

variable {r} {r₁ r₂ : Report}

theorem Joins.add (h : Joins r₁ r₂ r) (a : Attempt) : Joins r₁ (r₂.add a) (r.add a) where
  attempts := by
    rw [attempts_add, attempts_add, h.attempts, Nat.add_assoc]
  count o := by
    rw [count_add, count_add, h.count, Nat.add_assoc]
  passed g := by
    rw [passed_add, passed_add, h.passed, Nat.add_assoc]
  lastAccepted := by
    rw [lastAccepted_add, lastAccepted_add, h.lastAccepted]
    cases a with
    | failed => rfl
    | judged text v => split <;> rfl

theorem Joins.foldl (h : Joins r₁ r₂ r) (attempts : List Attempt) :
    Joins r₁ (attempts.foldl Report.add r₂) (attempts.foldl Report.add r) := by
  induction attempts generalizing r₂ r with
  | nil => exact h
  | cons a attempts ih => exact ih (h.add a)

/-- Reports on parts of a run add up to the report on the whole. -/
theorem ofAttempts_append (attempts later : List Attempt) :
    Joins (ofAttempts attempts) (ofAttempts later) (ofAttempts (attempts ++ later)) := by
  rw [ofAttempts, ofAttempts, ofAttempts, List.foldl_append]
  exact (joins_empty _).foldl later

/-- What the counts of a report have to do with each other. -/
structure Balanced (r : Report) : Prop where
  attempts : r.attempts = (Outcome.all.map r.count).sum
  generated : r.passed .generated = r.attempts - r.count .generationFailed
  structural : r.passed .structural = r.passed .parsed + r.count .unparsable
  parsed : r.passed .parsed = r.passed .compiled + r.count .uncompilable
  functional : r.passed .functional = r.count .accepted + r.count .unplayable
  playable : r.passed .playable = r.count .accepted
  /-- Candidates are rejected before they are parsed and after they have been compiled. -/
  rejected : r.count .structurallyRejected + r.count .nonFunctional =
    (r.passed .generated - r.passed .structural) + (r.passed .compiled - r.passed .functional)
  nonFunctional : r.count .nonFunctional ≤ r.passed .compiled - r.passed .functional
  descending : (Gate.all.map r.passed).Pairwise (· ≥ ·)
  lastAccepted : r.lastAccepted.isSome ↔ 0 < r.count .accepted

theorem balanced_empty : ({} : Report).Balanced where
  attempts := rfl
  generated := rfl
  structural := rfl
  parsed := rfl
  functional := rfl
  playable := rfl
  rejected := rfl
  nonFunctional := Nat.le_refl 0
  descending := by decide
  lastAccepted := by decide

/-- The accounts of two reports that are balanced are balanced together. -/
theorem Balanced.joins (h₁ : r₁.Balanced) (h₂ : r₂.Balanced) (h : Joins r₁ r₂ r) :
    r.Balanced := by
  have ha₁ := h₁.attempts
  have ha₂ := h₂.attempts
  have hd₁ := h₁.descending
  have hd₂ := h₂.descending
  simp only [Outcome.all, List.map_cons, List.map_nil, List.sum_cons, List.sum_nil] at ha₁ ha₂
  simp only [Gate.all, List.map_cons, List.map_nil, List.pairwise_cons, List.mem_cons,
    List.not_mem_nil, or_false, forall_eq_or_imp, forall_eq] at hd₁ hd₂
  constructor
  case attempts =>
    simp only [Outcome.all, List.map_cons, List.map_nil, List.sum_cons, List.sum_nil, h.attempts,
      h.count]
    omega
  case generated =>
    rw [h.passed, h.attempts, h.count, h₁.generated, h₂.generated]
    omega
  case structural =>
    rw [h.passed, h.passed, h.count, h₁.structural, h₂.structural]
    omega
  case parsed =>
    rw [h.passed, h.passed, h.count, h₁.parsed, h₂.parsed]
    omega
  case functional =>
    rw [h.passed, h.count, h.count, h₁.functional, h₂.functional]
    omega
  case playable =>
    rw [h.passed, h.count, h₁.playable, h₂.playable]
  case rejected =>
    have hr₁ := h₁.rejected
    have hr₂ := h₂.rejected
    simp only [h.passed, h.count]
    omega
  case nonFunctional =>
    have hn₁ := h₁.nonFunctional
    have hn₂ := h₂.nonFunctional
    simp only [h.passed, h.count]
    omega
  case descending =>
    have hd := (List.pairwise_map.mp h₁.descending).and (List.pairwise_map.mp h₂.descending)
    refine List.pairwise_map.mpr (hd.imp fun {g g'} hle => ?_)
    rw [h.passed, h.passed]
    exact Nat.add_le_add hle.1 hle.2
  case lastAccepted =>
    rw [h.lastAccepted, h.count, Option.isSome_or, Bool.or_eq_true, h₁.lastAccepted,
      h₂.lastAccepted]
    omega

theorem balanced_single {a : Attempt} (ha : a.Regular) : (ofAttempts [a]).Balanced := by
  obtain ⟨k, hk, hpassed⟩ := ha
  have hattempts : (ofAttempts [a]).attempts = 1 := attempts_add {} a
  have hcount (o : Outcome) : (ofAttempts [a]).count o = if a.outcome = o then 1 else 0 := by
    have h := count_add {} a o
    rwa [count_empty, Nat.zero_add] at h
  have hgate (g : Gate) : (ofAttempts [a]).passed g = (Gate.all.take k).count g := by
    have h := passed_add {} a g
    rwa [passed_empty, Nat.zero_add, hpassed] at h
  have hlast : (ofAttempts [a]).lastAccepted.isSome ↔ a.outcome = .accepted := by
    have h := lastAccepted_add {} a
    cases a with
    | failed => simp [ofAttempts, h, Attempt.outcome]
    | judged text v => by_cases hv : v.outcome = .accepted <;>
        simp [ofAttempts, h, Attempt.outcome, Attempt.candidate?, hv]
  -- an attempt ends in one of eight ways, and of one attempt all counts are known
  cases ho : a.outcome <;>
    simp only [ho, Outcome.depths, List.mem_cons, List.not_mem_nil, or_false] at hk hcount hlast
  case structurallyRejected =>
    rcases hk with rfl | rfl <;> constructor <;>
      simp [hattempts, hcount, hgate, hlast, Outcome.all, Gate.all]
  all_goals
    subst hk
    constructor <;> simp [hattempts, hcount, hgate, hlast, Outcome.all, Gate.all]

/-- A report on regular attempts is balanced. -/
theorem balanced_ofAttempts {attempts : List Attempt} (h : ∀ a ∈ attempts, a.Regular) :
    (ofAttempts attempts).Balanced := by
  induction attempts with
  | nil => exact balanced_empty
  | cons a attempts ih =>
      obtain ⟨ha, hrest⟩ := List.forall_mem_cons.mp h
      exact (balanced_single ha).joins (ih hrest) (ofAttempts_append [a] attempts)

end Report

/-! ## Runs -/

namespace Funnel

variable {σ ε κ : Type}

/-- The report that a run ends with is balanced, whatever the engine does. -/
theorem report_balanced {f : Funnel σ ε κ} {patience : Nat} {d : Driver}
    {s s' : FunnelState σ ε κ} {attempts : List Attempt}
    (h : f.run patience d s = some (.ok attempts, s')) :
    (Report.ofAttempts attempts).Balanced := by
  obtain ⟨n, rfl⟩ := trail_of_run h
  exact Report.balanced_ofAttempts (trailFrom_regular d n 0 0 s)

/-- With a parser that breaks down when it is called for the first time. -/
def hesitantFunnel : Funnel Unit Nat Unit where
  grammar :=
    { rules := [⟨"<game>", [.form "game" [{ token := "play" }, { token := "end" }]]⟩,
        ⟨"<play>", [.form "play" []]⟩, ⟨"<end>", [.form "end" []]⟩]
      sound := by decide }
  policy := FixedAnswers.policy {}
  engine :=
    { parse := fun _ calls => (if calls = 0 then .panicked "not yet" else .value {}, calls + 1)
      compile := fun _ calls => (.value {}, calls + 1)
      playout := fun _ _ calls => (.value (.ofDecisions 10), calls + 1) }
  sink := fun _ _ _ kept => kept
  options := { playouts := 2 }

theorem report_balanced_hesitantFunnel :
    ∃ attempts s', hesitantFunnel.run 5 (.untilAccepted 1)
        ⟨(), 0, (), ⟨Vector.replicate 8 0, 0, [1, 2, 3, 4]⟩⟩ = some (.ok attempts, s') ∧
      attempts.map Attempt.outcome = [.unparsable, .accepted] ∧
      (Report.ofAttempts attempts).Balanced := by
  have h : (hesitantFunnel.run 5 (.untilAccepted 1)
      ⟨(), 0, (), ⟨Vector.replicate 8 0, 0, [1, 2, 3, 4]⟩⟩).map
        (·.1.toOption.map (·.map Attempt.outcome)) = some (some [.unparsable, .accepted]) := by
    decide +kernel
  obtain ⟨⟨result, s'⟩, hrun, hresult⟩ := Option.map_eq_some_iff.mp h
  cases result with
  | error e => cases hresult
  | ok attempts => exact ⟨attempts, s', hrun, Option.some.inj hresult, report_balanced hrun⟩

end Funnel

end GameGrammar

import GameGrammar.Proofs.Funnel.Drivers

/-! # Restrictions as sets

How candidates fare depends on which restrictions there are, not on their order or on how often one
is named. With fewer restrictions, what has been accepted before is accepted after the same calls.
-/

namespace GameGrammar

/-! ## Members -/

namespace Restrictions

@[simp] theorem mem_insert {rs : Restrictions} {r r' : Restriction} :
    r' ∈ (rs.insert r).members ↔ r' ∈ rs.members ∨ r' = r := by
  by_cases h : r ∈ rs.members
  · have hsame : r' = r → r' ∈ rs.members := fun he => he ▸ h
    simpa [insert, h] using hsame
  · simp [insert, h]

theorem mem_foldl_insert {l : List Restriction} {rs : Restrictions} {r : Restriction} :
    r ∈ (l.foldl insert rs).members ↔ r ∈ rs.members ∨ r ∈ l := by
  induction l generalizing rs with
  | nil => simp
  | cons r' l ih => simp [ih, or_assoc]

@[simp] theorem mem_ofList {l : List Restriction} {r : Restriction} :
    r ∈ (ofList l).members ↔ r ∈ l := by
  simp [ofList, mem_foldl_insert]

variable {rs rs' : Restrictions}

/-- Fewer restrictions allow what more of them do. -/
theorem AllowText.mono (h : rs.members ⊆ rs'.members) {text : String} (ht : rs'.AllowText text) :
    rs.AllowText text :=
  fun r hr => ht r (h hr)

theorem AllowGame.mono (h : rs.members ⊆ rs'.members) {game : Game} (hg : rs'.AllowGame game) :
    rs.AllowGame game :=
  fun r hr => hg r (h hr)

theorem textViolation?_isSome_congr (h : ∀ r, r ∈ rs.members ↔ r ∈ rs'.members) (text : String) :
    (rs.textViolation? text).isSome = (rs'.textViolation? text).isSome := by
  rw [Bool.eq_iff_iff, textViolation?_isSome, textViolation?_isSome]
  simp [AllowText, h]

theorem gameViolation?_isSome_congr (h : ∀ r, r ∈ rs.members ↔ r ∈ rs'.members) (game : Game) :
    (rs.gameViolation? game).isSome = (rs'.gameViolation? game).isSome := by
  rw [Bool.eq_iff_iff, gameViolation?_isSome, gameViolation?_isSome]
  simp [AllowGame, h]

end Restrictions

/-- The settings with other restrictions. -/
def Options.restrict (o : Options) (rs : Restrictions) : Options :=
  { o with restrictions := rs }

namespace Options

variable (o : Options) (rs : Restrictions)

@[simp] theorem restrict_restrictions : (o.restrict rs).restrictions = rs := rfl

@[simp] theorem restrict_rejectFlagged : (o.restrict rs).rejectFlagged = o.rejectFlagged := rfl

@[simp] theorem restrict_moveCap : (o.restrict rs).moveCap = o.moveCap := rfl

end Options

/-! ## Verdicts -/

section

variable {ε : Type} {o : Options} {e : Engine ε} {rs rs' : Restrictions} {text : String} {s s' : ε}

theorem functional_restrict (o : Options) (e : Engine ε) (rs : Restrictions) (game : Game) (s : ε) :
    functional (o.restrict rs) e game s = functional o e game s :=
  rfl

theorem countReasonable_restrict (o : Options) (e : Engine ε) (rs : Restrictions) (game : Game)
    (low high : UInt64) (n : Nat) (count : UInt64) (s : ε) :
    countReasonable (o.restrict rs) e game low high n count s =
      countReasonable o e game low high n count s := by
  induction n generalizing count s with
  | zero => rfl
  | succ n ih => simp only [countReasonable, Options.restrict_moveCap, ih]

theorem playable_restrict (o : Options) (e : Engine ε) (rs : Restrictions) (game : Game) (s : ε) :
    playable (o.restrict rs) e game s = playable o e game s := by
  simp only [playable, countReasonable_restrict]
  rfl

/-- Restrictions are asked for at two gates, and there it only counts whether one is violated. -/
theorem judge_restrict_congr (h : ∀ r, r ∈ rs.members ↔ r ∈ rs'.members) (text : String) (s : ε) :
    judge (o.restrict rs) e text s = judge (o.restrict rs') e text s := by
  simp only [judge, judgeParsed, judgeGame, functional_restrict, playable_restrict,
    Options.restrict_restrictions, Options.restrict_rejectFlagged,
    Restrictions.textViolation?_isSome_congr h, Restrictions.gameViolation?_isSome_congr h]

theorem Played.restrict {game : Game} {trials : List Trial}
    (h : Played (o.restrict rs') e game s trials s') (rs : Restrictions) :
    Played (o.restrict rs) e game s trials s' := by
  induction h with
  | nil s => exact .nil s
  | cons ht _ ih => exact .cons ht ih

namespace Course

theorem Cleared.mono (h : rs.members ⊆ rs'.members) {game : Game}
    (hc : Cleared (o.restrict rs') e text s game s') :
    Cleared (o.restrict rs) e text s game s' := by
  obtain ⟨⟨s₁, ⟨ht, hparsed⟩, hcompiled⟩, hg, hf⟩ := hc
  exact ⟨⟨s₁, ⟨ht.mono h, hparsed⟩, hcompiled⟩, hg.mono h, hf⟩

theorem Functional.mono (h : rs.members ⊆ rs'.members) {game : Game}
    (hf : Functional (o.restrict rs') e text s game s') :
    Functional (o.restrict rs) e text s game s' := by
  obtain ⟨s₂, t, hc, hplayed⟩ := hf
  exact ⟨s₂, t, hc.mono h, hplayed⟩

/-- What is accepted in so many calls is accepted in as many with fewer restrictions. -/
theorem mono (h : rs.members ⊆ rs'.members) {k : Nat} {v : Verdict}
    (hk : Course (o.restrict rs') e text s k (some v) s') (hv : v.outcome = .accepted) :
    Course (o.restrict rs) e text s k (some v) s' := by
  cases hk with
  | accepted hf hb ht h0 hn hc hvote =>
      exact .accepted (hf.mono h) hb (ht.restrict rs) h0 hn hc hvote
  | restrictedText | unparsable | uncompilable | restrictedGame | flagged => cases hv
  | unfinished | undecided | untried | interrupted | outvoted => cases hv

end Course

end

/-! ## Attempts -/

namespace Funnel

variable {σ ε κ : Type} {f f' : Funnel σ ε κ} {rs rs' : Restrictions}

/-- The funnel with other restrictions. -/
def restrict (f : Funnel σ ε κ) (rs : Restrictions) : Funnel σ ε κ :=
  { f with options := f.options.restrict rs }

/-- An attempt asks for the restrictions in its verdict and nowhere else. -/
theorem attempt_restrict (f : Funnel σ ε κ) (rs : Restrictions) (s : FunnelState σ ε κ) :
    (f.restrict rs).attempt s =
      match f.proposer.propose (s.policy, s.source) with
      | (.error e, policy, source) => (.error (.symbol e), { s with policy, source })
      | (.ok none, policy, source) => (.ok .failed, { s with policy, source })
      | (.ok (some text), policy, source) =>
        match judge (f.options.restrict rs) f.engine text s.engine with
        | (none, engine) => (.error .overflow, { s with policy, engine, source })
        | (some v, engine) =>
          (.ok (.judged text v), ⟨policy, engine, f.persist text v s.sink, source⟩) := by
  rw [attempt_eq]
  rfl

theorem attempt_restrict_congr (h : ∀ r, r ∈ rs.members ↔ r ∈ rs'.members)
    (s : FunnelState σ ε κ) : (f.restrict rs).attempt s = (f.restrict rs').attempt s := by
  simp only [attempt_restrict, judge_restrict_congr h]

theorem attempt_restrict_mono (h : rs.members ⊆ rs'.members) {s s' : FunnelState σ ε κ}
    {a : Attempt} (ha : (f.restrict rs').attempt s = (.ok a, s')) (hv : a.outcome = .accepted) :
    (f.restrict rs).attempt s = (.ok a, s') := by
  rw [attempt_restrict] at ha ⊢
  rcases hp : f.proposer.propose (s.policy, s.source) with ⟨e | _ | text, policy, source⟩
  · simp [hp] at ha
  · simpa [hp] using ha
  · rcases hj : judge (f.options.restrict rs') f.engine text s.engine with ⟨_ | v, engine⟩
    · simp [hp, hj] at ha
    · simp only [hp, hj, Prod.mk.injEq, Except.ok.injEq] at ha
      obtain ⟨rfl, rfl⟩ := ha
      obtain ⟨k, hk⟩ := judge_iff_course.mp hj
      simp only [judge_iff_course.mpr ⟨k, hk.mono h hv⟩]

/-! ## Runs -/

/-- Funnels that make the same attempts, and may make as many, run alike. -/
theorem runFixed_congr (h : ∀ s, f.attempt s = f'.attempt s) (n : Nat) (s : FunnelState σ ε κ) :
    f.runFixed n s = f'.runFixed n s := by
  induction n generalizing s with
  | zero => rfl
  | succ n ih => simp only [runFixed, h, ih]

theorem runUntil_congr (h : ∀ s, f.attempt s = f'.attempt s)
    (hm : f.options.maxAttempts = f'.options.maxAttempts) (patience wanted made : Nat)
    (s : FunnelState σ ε κ) :
    f.runUntil patience wanted made s = f'.runUntil patience wanted made s := by
  induction patience generalizing wanted made s with
  | zero => simp only [runUntil, hm]
  | succ patience ih => simp only [runUntil, hm, h, ih]

theorem run_congr (h : ∀ s, f.attempt s = f'.attempt s)
    (hm : f.options.maxAttempts = f'.options.maxAttempts) (patience : Nat) (d : Driver)
    (s : FunnelState σ ε κ) : f.run patience d s = f'.run patience d s := by
  cases d with
  | fixed count => exact congrArg some (runFixed_congr h count s)
  | untilAccepted target => exact runUntil_congr h hm patience target 0 s

/-- Restrictions that are added in another order, and some of them more than once, make no
difference to any run: it comes to the same attempts and so to the same report, and the state that
it leaves behind holds the same calls of the engine and the same texts handed to the sink.

With some of the restrictions left out, an attempt whose candidate has been accepted comes to the
same verdict and leaves the same state behind, the calls of the engine included. -/
theorem restrictions_form_set (f : Funnel σ ε κ) (l l' : List Restriction) :
    ((∀ r, r ∈ l ↔ r ∈ l') → ∀ patience d s,
      (f.restrict (.ofList l)).observed.run patience d s =
        (f.restrict (.ofList l')).observed.run patience d s) ∧
    (l ⊆ l' → ∀ s a s',
      (f.restrict (.ofList l')).observed.attempt s = (.ok a, s') → a.outcome = .accepted →
        (f.restrict (.ofList l)).observed.attempt s = (.ok a, s')) := by
  constructor
  · intro h patience d s
    have hmembers (r : Restriction) :
        r ∈ (Restrictions.ofList l).members ↔ r ∈ (Restrictions.ofList l').members := by
      simp [h]
    exact run_congr (attempt_restrict_congr (f := f.observed) hmembers) rfl patience d s
  · intro h s a s' ha hv
    have hmembers : (Restrictions.ofList l).members ⊆ (Restrictions.ofList l').members := by
      intro r hr
      simpa using h (by simpa using hr)
    exact attempt_restrict_mono (f := f.observed) hmembers ha hv

/-- Its parser has been called before, so that it does not break down any more. -/
def unhesitant : Observed Unit Nat Unit :=
  { unrecorded with engine := (1, []) }

theorem restrictions_form_set_hesitantFunnel :
    (hesitantFunnel.restrict (.ofList [.requireEnd, .requirePlay, .requireEnd])).observed.run 5
        (.untilAccepted 1) unrecorded =
      (hesitantFunnel.restrict (.ofList [.requirePlay, .requireEnd])).observed.run 5
        (.untilAccepted 1) unrecorded ∧
    ∃ a s',
      (hesitantFunnel.restrict (.ofList Restriction.all)).observed.attempt unhesitant =
        (.ok a, s') ∧
      a.outcome = .accepted ∧
      (hesitantFunnel.restrict (.ofList [.requireAlternating, .forbidMatch])).observed.attempt
        unhesitant = (.ok a, s') := by
  constructor
  · exact (restrictions_form_set hesitantFunnel _ _).1 (fun r => by cases r <;> decide) 5
      (.untilAccepted 1) unrecorded
  · have h : ((hesitantFunnel.restrict (.ofList Restriction.all)).observed.attempt unhesitant).1.map
        Attempt.outcome = .ok .accepted := by
      decide +kernel
    rcases ha : (hesitantFunnel.restrict (.ofList Restriction.all)).observed.attempt unhesitant with
      ⟨e | a, s'⟩
    · rw [ha] at h
      cases h
    · rw [ha] at h
      have hv : a.outcome = .accepted := Except.ok.inj h
      refine ⟨a, s', rfl, hv, ?_⟩
      exact (restrictions_form_set hesitantFunnel [.requireAlternating, .forbidMatch]
        Restriction.all).2 (by decide) unhesitant a s' ha hv

end Funnel

end GameGrammar

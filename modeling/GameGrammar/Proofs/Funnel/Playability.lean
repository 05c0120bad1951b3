import GameGrammar.Proofs.Funnel.Course

/-! # Playability in whole numbers

The last gate computes its bounds and its vote with 64 bits. Here they are computed with whole
numbers of any size, and both ways agree exactly where nothing is too large for the words. What is
too large breaks the program down or is counted wrongly, depending on how it is built. -/

namespace GameGrammar

variable {ε : Type}

/-! ## The gate in whole numbers -/

/-- The simulation lasts for at least two moves a player and at most nine tenths of the cap. -/
def Trial.Moderate (o : Options) (game : Game) (t : Trial) : Prop :=
  2 * game.players.toNat ≤ t.size ∧ t.size ≤ 9 * o.moveCap.toNat / 10

instance (o : Options) (game : Game) (t : Trial) : Decidable (t.Moderate o game) :=
  inferInstanceAs (Decidable (_ ∧ _))

/-- At least half of the simulations are moderate. -/
def Options.Majority (o : Options) (game : Game) (trials : List Trial) : Prop :=
  o.playouts.toNat ≤ 2 * trials.countP (·.Moderate o game)

instance (o : Options) (game : Game) (trials : List Trial) : Decidable (o.Majority game trials) :=
  inferInstanceAs (Decidable (_ ≤ _))

/-- Simulations are asked for, all of them give trials, and at least half of those are moderate. -/
def Options.Approves (o : Options) (e : Engine ε) (game : Game) (s : ε) : Prop :=
  0 < o.playouts.toNat ∧
    ∃ trials s', Played o e game s trials s' ∧ trials.length = o.playouts.toNat ∧
      o.Majority game trials

/-- All that the last gate multiplies stays within a word. -/
structure Options.Fits (o : Options) (game : Game) : Prop where
  players : 2 * game.players.toNat < 2 ^ 64
  cap : 9 * o.moveCap.toNat < 2 ^ 64
  playouts : 2 * o.playouts.toNat < 2 ^ 64

/-! ## The gate with words -/

section

variable {o : Options} {e : Engine ε} {game : Game} {s s' : ε} {trials : List Trial}

theorem Played.unique {trials' : List Trial} {s'' : ε} (h : Played o e game s trials s')
    (h' : Played o e game s trials' s'') (hlen : trials.length = trials'.length) :
    trials = trials' := by
  induction h generalizing trials' with
  | nil s => exact (List.length_eq_zero_iff.mp hlen.symm).symm
  | cons ht _ ih =>
      cases h' with
      | nil => exact absurd hlen (Nat.succ_ne_zero _)
      | cons ht' hs' =>
          obtain ⟨ht, rfl⟩ := Prod.mk.inj (ht.symm.trans ht')
          obtain rfl := Reply.value.inj ht
          exact congrArg _ (ih hs' (Nat.succ.inj hlen))

/-- Where all simulations give trials, it is up to the vote. -/
theorem playable_iff_convinced (hb : ¬ o.BoundsBreak game) (h0 : 0 < o.playouts.toNat)
    (ht : Played o e game s trials s') (hn : trials.length = o.playouts.toNat) :
    (playable o e game s).1 = some true ↔
      ¬ o.VoteBreaks game trials ∧ o.Convinced game trials := by
  rw [playable_of_played hb ht (hn ▸ h0) hn]
  by_cases hc : o.VoteBreaks game trials <;> simp [hc]

theorem approves_iff_majority (h0 : 0 < o.playouts.toNat) (ht : Played o e game s trials s')
    (hn : trials.length = o.playouts.toNat) :
    o.Approves e game s ↔ o.Majority game trials := by
  constructor
  · rintro ⟨-, trials', s'', ht', hn', hvote⟩
    rwa [ht.unique ht' (hn.trans hn'.symm)]
  · exact fun hvote => ⟨h0, trials, s', ht, hn, hvote⟩

/-- The simulations of a game that is playable. -/
theorem exists_played_of_playable (h : (playable o e game s).1 = some true) :
    ¬ o.BoundsBreak game ∧ 0 < o.playouts.toNat ∧
      ∃ trials s', Played o e game s trials s' ∧ trials.length = o.playouts.toNat := by
  have hne : o.playouts ≠ 0 := by
    intro h0
    rw [playable, if_pos h0] at h
    cases h
  have h0 : 0 < o.playouts.toNat := Nat.pos_of_ne_zero fun h0 => hne (UInt64.toNat_inj.mp h0)
  have hb : ¬ o.BoundsBreak game := by
    intro hb
    rw [playable_of_boundsBreak hne hb] at h
    cases h
  rcases exists_played o e game o.playouts.toNat s with
    hplayed | ⟨trials, s₁, reply, s', ht, hn, hp, hr⟩
  · exact ⟨hb, h0, hplayed⟩
  · rw [playable_of_fails hb ht hn hp hr] at h
    cases h

/-! ## Where both ways agree -/

namespace Options.Fits

theorem reasonable_iff (h : o.Fits game) {t : Trial} : t.Reasonable o game ↔ t.Moderate o game := by
  have hplayers : (2 * game.players).toNat = 2 * game.players.toNat :=
    Nat.mod_eq_of_lt h.players
  have hcap : (o.moveCap * 9 / 10).toNat = 9 * o.moveCap.toNat / 10 := by
    rw [UInt64.toNat_div, UInt64.toNat_mul, Nat.mul_comm]
    exact congrArg (· / 10) (Nat.mod_eq_of_lt h.cap)
  rw [Trial.Reasonable, Trial.Moderate, hplayers, hcap]

theorem not_boundsBreak (h : o.Fits game) : ¬ o.BoundsBreak game := by
  have hplayers := h.players
  have hcap := h.cap
  rintro ⟨-, hlarge | hlarge⟩ <;> omega

/-- Twice as many reasonable simulations as there are at most. -/
theorem two_countP_lt (h : o.Fits game) (hn : trials.length = o.playouts.toNat) :
    2 * trials.countP (·.Reasonable o game) < 2 ^ 64 := by
  have hle := List.countP_le_length (p := (·.Reasonable o game)) (l := trials)
  have hplayouts := h.playouts
  omega

theorem not_voteBreaks (h : o.Fits game) (hn : trials.length = o.playouts.toNat) :
    ¬ o.VoteBreaks game trials :=
  fun hc => Nat.not_lt.mpr hc.2 (h.two_countP_lt hn)

theorem convinced_iff (h : o.Fits game) (hn : trials.length = o.playouts.toNat) :
    o.Convinced game trials ↔ o.Majority game trials := by
  have hcount : trials.countP (·.Reasonable o game) = trials.countP (·.Moderate o game) :=
    List.countP_congr fun t _ => by simp [h.reasonable_iff]
  rw [Options.Convinced, Nat.mod_eq_of_lt (h.two_countP_lt hn), hcount, Options.Majority]

theorem playable_iff (h : o.Fits game) (e : Engine ε) (s : ε) :
    (playable o e game s).1 = some true ↔ o.Approves e game s := by
  constructor
  · intro hp
    obtain ⟨hb, h0, trials, s', ht, hn⟩ := exists_played_of_playable hp
    rw [playable_iff_convinced hb h0 ht hn, h.convinced_iff hn] at hp
    exact ⟨h0, trials, s', ht, hn, hp.2⟩
  · rintro ⟨h0, trials, s', ht, hn, hvote⟩
    rw [playable_iff_convinced h.not_boundsBreak h0 ht hn, h.convinced_iff hn]
    exact ⟨h.not_voteBreaks hn, hvote⟩

/-- Nothing breaks down there, however the program is built. -/
theorem isSome_playable (h : o.Fits game) (e : Engine ε) (s : ε) :
    (playable o e game s).1.isSome := by
  by_cases hne : o.playouts = 0
  · rw [playable, if_pos hne]
    rfl
  have h0 : 0 < o.playouts.toNat := Nat.pos_of_ne_zero fun h0 => hne (UInt64.toNat_inj.mp h0)
  rcases exists_played o e game o.playouts.toNat s with
    ⟨trials, s', ht, hn⟩ | ⟨trials, s₁, reply, s', ht, hn, hp, hr⟩
  · rw [playable_of_played h.not_boundsBreak ht (hn ▸ h0) hn, if_neg (h.not_voteBreaks hn)]
    rfl
  · rw [playable_of_fails h.not_boundsBreak ht hn hp hr]
    rfl

end Options.Fits

end

/-! ## Where they do not -/

/-- Plays the same trial again and again. -/
def Engine.steady (game : Game) (t : Trial) : Engine Unit where
  parse _ s := (.value {}, s)
  compile _ s := (.value game, s)
  playout _ _ s := (.value t, s)

theorem Engine.steady_played (o : Options) (game : Game) (t : Trial) (n : Nat) :
    Played o (Engine.steady game t) game () (List.replicate n t) () := by
  induction n with
  | zero => exact .nil ()
  | succ n ih => exact .cons rfl ih

variable {o : Options} {game : Game}

/-- The vote on a trial that is played over and over, in whole numbers and with words. -/
theorem convinced_of_steady (h0 : 0 < o.playouts.toNat)
    (h : ∀ (e : Engine Unit) (s : Unit),
      (playable o e game s).1 = some true ↔ o.Approves e game s)
    {t : Trial} (hvote : o.Majority game (List.replicate o.playouts.toNat t)) :
    o.Convinced game (List.replicate o.playouts.toNat t) := by
  have ht := Engine.steady_played o game t o.playouts.toNat
  have hn := List.length_replicate (n := o.playouts.toNat) (a := t)
  have hplayable := (h _ ()).mpr ((approves_iff_majority h0 ht hn).mpr hvote)
  obtain ⟨hb, -⟩ := exists_played_of_playable hplayable
  exact ((playable_iff_convinced hb h0 ht hn).mp hplayable).2

/-- If there is any length that a simulation may have, both ways agree for all engines only if
everything stays within a word. -/
theorem Options.Fits.of_playable_iff (h0 : 0 < o.playouts.toNat)
    (hroom : 2 * game.players.toNat ≤ 9 * o.moveCap.toNat / 10)
    (h : ∀ (e : Engine Unit) (s : Unit),
      (playable o e game s).1 = some true ↔ o.Approves e game s) :
    o.Fits game := by
  -- the longest simulation that is moderate
  let t : Trial := .ofDecisions (9 * o.moveCap.toNat / 10)
  have hsize : t.size = 9 * o.moveCap.toNat / 10 := List.length_replicate
  have hmoderate : t.Moderate o game := by
    rw [Trial.Moderate, hsize]
    exact ⟨hroom, Nat.le_refl _⟩
  have hconvinced : o.Convinced game (List.replicate o.playouts.toNat t) := by
    apply convinced_of_steady h0 h
    rw [Options.Majority, List.countP_replicate, if_pos (decide_eq_true hmoderate)]
    omega
  have hreasonable : t.Reasonable o game := by
    refine Decidable.byContradiction fun hno => ?_
    rw [Options.Convinced, List.countP_replicate, if_neg (by simpa using hno)] at hconvinced
    omega
  have hcap : 9 * o.moveCap.toNat < 2 ^ 64 := by
    refine Decidable.byContradiction fun hlarge => ?_
    have hupper := hreasonable.2
    have hword : (o.moveCap * 9 / 10).toNat = o.moveCap.toNat * 9 % 2 ^ 64 / 10 := by
      rw [UInt64.toNat_div, UInt64.toNat_mul]
      rfl
    have hwrapped : o.moveCap.toNat * 9 % 2 ^ 64 ≤ o.moveCap.toNat * 9 - 2 ^ 64 := by
      rw [Nat.mod_eq_sub_mod (by omega)]
      exact Nat.mod_le _ _
    rw [hsize, hword] at hupper
    omega
  have hplayouts : 2 * o.playouts.toNat < 2 ^ 64 := by
    have hword := o.playouts.toNat_lt
    rw [Options.Convinced, List.countP_replicate, if_pos (decide_eq_true hreasonable)]
      at hconvinced
    omega
  exact ⟨by omega, hcap, hplayouts⟩

/-! ## Raising the cap -/

section

variable {cap : UInt64}

theorem Trial.Moderate.raise (hcap : o.moveCap ≤ cap) {t : Trial} (h : t.Moderate o game) :
    t.Moderate { o with moveCap := cap } game := by
  have hword := UInt64.le_iff_toNat_le.mp hcap
  exact ⟨h.1, Nat.le_trans h.2 (Nat.div_le_div_right (Nat.mul_le_mul_left 9 hword))⟩

theorem Options.Majority.raise (hcap : o.moveCap ≤ cap) {trials : List Trial}
    (h : o.Majority game trials) : { o with moveCap := cap }.Majority game trials := by
  refine Nat.le_trans h (Nat.mul_le_mul_left 2 (List.countP_mono_left fun t _ ht => ?_))
  simp only [decide_eq_true_eq] at ht ⊢
  exact ht.raise hcap

theorem Options.Fits.lower (hcap : o.moveCap ≤ cap)
    (h : { o with moveCap := cap }.Fits game) : o.Fits game :=
  ⟨h.players, Nat.lt_of_le_of_lt (Nat.mul_le_mul_left 9 (UInt64.le_iff_toNat_le.mp hcap)) h.cap,
    h.playouts⟩

end

/-! ## The last gate -/

theorem Course.Functional.playable_mem_passed {e : Engine ε} {text : String} {s s₃ : ε}
    (h : Course.Functional o e text s game s₃) :
    (∃ v ∈ (judge o e text s).1, .playable ∈ v.passed) ↔
      (playable o e game s₃).1 = some true := by
  rcases hp : playable o e game s₃ with ⟨fine?, s'⟩
  rw [h.judge_eq hp]
  rcases fine? with _ | _ | _ <;> simp

/-- Where everything stays within a word, a game that is functional passes the last gate exactly if
whole numbers say so, and a higher cap does no harm to the same trials. As soon as there is a length
that a simulation may have, something that is too large for a word is noticed by some engine. A
bound that is too large breaks the program down with every engine, if it is built to do so. -/
theorem playable_mem_passed_iff (o : Options) (game : Game) :
    (o.Fits game → ∀ (ε : Type) (e : Engine ε) (text : String) (s s₃ : ε),
      Course.Functional o e text s game s₃ →
        (judge o e text s).1.isSome ∧
        ((∃ v ∈ (judge o e text s).1, .playable ∈ v.passed) ↔ o.Approves e game s₃)) ∧
    (∀ cap : UInt64, o.moveCap ≤ cap → { o with moveCap := cap }.Fits game →
      ∀ (ε ε' : Type) (e : Engine ε) (e' : Engine ε') (s s₁ : ε) (s' s₁' : ε')
        (trials : List Trial), Played o e game s trials s₁ →
        Played { o with moveCap := cap } e' game s' trials s₁' →
        trials.length = o.playouts.toNat → (playable o e game s).1 = some true →
        (playable { o with moveCap := cap } e' game s').1 = some true) ∧
    (0 < o.playouts.toNat → 2 * game.players.toNat ≤ 9 * o.moveCap.toNat / 10 →
      (∀ (e : Engine Unit) (s : Unit),
        (playable o e game s).1 = some true ↔ o.Approves e game s) →
      o.Fits game) ∧
    (0 < o.playouts.toNat → o.BoundsBreak game →
      ∀ (ε : Type) (e : Engine ε) (text : String) (s s₃ : ε),
        Course.Functional o e text s game s₃ → judge o e text s = (none, s₃)) := by
  refine ⟨fun h ε e text s s₃ hf => ⟨?_, ?_⟩, ?_, fun h0 hroom h => .of_playable_iff h0 hroom h,
    ?_⟩
  · rw [hf.judge_eq rfl, Option.isSome_map]
    exact h.isSome_playable e s₃
  · rw [hf.playable_mem_passed, h.playable_iff]
  · intro cap hcap h ε ε' e e' s s₁ s' s₁' trials ht ht' hn hp
    obtain ⟨-, h0, -⟩ := exists_played_of_playable hp
    rw [(h.lower hcap).playable_iff, approves_iff_majority h0 ht hn] at hp
    exact (h.playable_iff e' s').mpr ⟨h0, trials, s₁', ht', hn, hp.raise hcap⟩
  · intro h0 hb ε e text s s₃ hf
    have hne : o.playouts ≠ 0 := fun h => Nat.ne_of_gt h0 (UInt64.toNat_inj.mpr h)
    exact hf.judge_eq (playable_of_boundsBreak hne hb s₃)

/-- One simulation is asked for, and there are no restrictions. -/
def cappedOptions (cap : UInt64) (w : Overflow) : Options :=
  { restrictions := ⟨[]⟩, moveCap := cap, playouts := 1, overflow := w }

/-- Every game lasts for forty moves. -/
def fortyMoves : Engine Unit :=
  .steady {} (.ofDecisions 40)

section

variable (cap : UInt64) (w : Overflow)

theorem fortyMoves_functional :
    Course.Functional (cappedOptions cap w) fortyMoves "" () {} () :=
  have hcompiled : Course.Compiled (cappedOptions cap w) fortyMoves "" () {} () :=
    ⟨(), ⟨nofun, {}, rfl, rfl⟩, rfl⟩
  ⟨(), _, ⟨hcompiled, nofun, nofun⟩, rfl, nofun⟩

theorem fortyMoves_played :
    Played (cappedOptions cap w) fortyMoves {} () [.ofDecisions 40] () :=
  Engine.steady_played _ _ _ 1

end

theorem playable_mem_passed_fortyMoves :
    (∃ v ∈ (judge (cappedOptions 50 .breaks) fortyMoves "" ()).1, .playable ∈ v.passed) ∧
      (playable (cappedOptions 2000 .breaks) fortyMoves {} ()).1 = some true ∧
      (cappedOptions 50 .breaks).Fits {} ∧
      judge (cappedOptions 2049638230412172402 .breaks) fortyMoves "" () = (none, ()) := by
  have hfits (cap : UInt64) (hcap : 9 * cap.toNat < 2 ^ 64) :
      (cappedOptions cap .breaks).Fits {} :=
    ⟨by decide, hcap, (by decide : 2 * (1 : UInt64).toNat < 2 ^ 64)⟩
  have happroves : (cappedOptions 50 .breaks).Approves fortyMoves {} () :=
    ⟨by decide, _, _, fortyMoves_played 50 .breaks, rfl, by decide⟩
  obtain ⟨hpass, hraise, hnoticed, -⟩ := playable_mem_passed_iff (cappedOptions 50 .breaks) {}
  have hlow : ∃ v ∈ (judge (cappedOptions 50 .breaks) fortyMoves "" ()).1,
      .playable ∈ v.passed :=
    (hpass (hfits 50 (by decide)) Unit fortyMoves "" () ()
      (fortyMoves_functional 50 .breaks)).2.mpr happroves
  refine ⟨hlow, ?_, hnoticed (by decide) (by decide) (hfits 50 (by decide)).playable_iff, ?_⟩
  · exact hraise 2000 (by decide) (hfits 2000 (by decide)) Unit Unit fortyMoves fortyMoves () () ()
      () _ (fortyMoves_played 50 .breaks) (fortyMoves_played 2000 .breaks) rfl
      ((fortyMoves_functional 50 .breaks).playable_mem_passed.mp hlow)
  · exact (playable_mem_passed_iff (cappedOptions 2049638230412172402 .breaks) {}).2.2.2
      (by decide) (by decide) Unit fortyMoves "" () () (fortyMoves_functional _ .breaks)

/-- Nine times the cap may be too large for a word. The next cap up then breaks the program down,
or it has a game refused, that whole numbers approve of and that was playable before. -/
theorem approved_game_refused :
    ¬ (∀ (o : Options) (e : Engine Unit) (game : Game) (text : String) (s s₃ : Unit),
        Course.Functional o e text s game s₃ →
          ((∃ v ∈ (judge o e text s).1, .playable ∈ v.passed) ↔ o.Approves e game s₃)) ∧
    (¬ ∀ (o : Options) (e : Engine Unit) (game : Game) (cap : UInt64) (trials : List Trial),
        o.moveCap ≤ cap → Played o e game () trials () →
        Played { o with moveCap := cap } e game () trials () →
        (playable o e game ()).1 = some true →
        (playable { o with moveCap := cap } e game ()).1 = some true) ∧
    (playable (cappedOptions 2049638230412172402 .breaks) fortyMoves {} ()).1 = none ∧
    (playable (cappedOptions 2049638230412172402 .wraps) fortyMoves {} ()).1 = some false := by
  have hbroken :
      (playable (cappedOptions 2049638230412172402 .breaks) fortyMoves {} ()).1 = none := by
    decide
  have hrefused :
      (playable (cappedOptions 2049638230412172402 .wraps) fortyMoves {} ()).1 = some false := by
    decide
  refine ⟨fun h => ?_, fun h => ?_, hbroken, hrefused⟩
  · have hiff := h _ _ _ _ _ _ (fortyMoves_functional 2049638230412172402 .breaks)
    rw [(fortyMoves_functional _ .breaks).playable_mem_passed, hbroken] at hiff
    have happroves : (cappedOptions 2049638230412172402 .breaks).Approves fortyMoves {} () :=
      ⟨by decide, _, _, fortyMoves_played _ .breaks, rfl, by decide⟩
    cases hiff.mpr happroves
  · have hraised := h (cappedOptions 2049638230412172401 .breaks) fortyMoves {}
      2049638230412172402 _ (by decide) (fortyMoves_played _ .breaks)
      (fortyMoves_played 2049638230412172402 .breaks) (by decide)
    cases hbroken.symm.trans hraised

end GameGrammar

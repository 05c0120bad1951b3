import GameGrammar.Proofs.Funnel.Proposal
import GameGrammar.Proofs.Overflow

/-! # The course of a verdict

How a candidate fares is described by rules that do not mention the judge: each says after how
many calls of the engine the verdict is reached, and why there. Judging follows exactly these
rules. -/

namespace GameGrammar

variable {ε : Type}

/-! ## What the gates ask for -/

/-- The text violates no restriction. -/
def Restrictions.AllowText (rs : Restrictions) (text : String) : Prop :=
  ∀ r ∈ rs.members, r.rejectsText text = false

/-- The game violates no restriction. -/
def Restrictions.AllowGame (rs : Restrictions) (game : Game) : Prop :=
  ∀ r ∈ rs.members, r.rejectsGame game = false

/-- The call gives no result. -/
def Reply.Fails {α : Type} (reply : Reply α) : Prop :=
  ∀ v, reply ≠ .value v

/-- The simulation lasts for at least two moves a player and at most nine tenths of the cap. The
bounds have 64 bits. -/
def Trial.Reasonable (o : Options) (game : Game) (t : Trial) : Prop :=
  (2 * game.players).toNat ≤ t.size ∧ t.size ≤ (o.moveCap * 9 / 10).toNat

instance (o : Options) (game : Game) (t : Trial) : Decidable (t.Reasonable o game) :=
  inferInstanceAs (Decidable (_ ∧ _))

/-- At least half of the simulations are reasonable, counted with 64 bits. -/
def Options.Convinced (o : Options) (game : Game) (trials : List Trial) : Prop :=
  o.playouts.toNat ≤ 2 * trials.countP (·.Reasonable o game) % 2 ^ 64

instance (o : Options) (game : Game) (trials : List Trial) : Decidable (o.Convinced game trials) :=
  inferInstanceAs (Decidable (_ ≤ _))

/-- A bound on the length is too large for its word, and the program breaks down over it. -/
def Options.BoundsBreak (o : Options) (game : Game) : Prop :=
  o.overflow = .breaks ∧ (2 ^ 64 ≤ 2 * game.players.toNat ∨ 2 ^ 64 ≤ o.moveCap.toNat * 9)

instance (o : Options) (game : Game) : Decidable (o.BoundsBreak game) :=
  inferInstanceAs (Decidable (_ ∧ _))

/-- The vote is too large for its word, and the program breaks down over it. -/
def Options.VoteBreaks (o : Options) (game : Game) (trials : List Trial) : Prop :=
  o.overflow = .breaks ∧ 2 ^ 64 ≤ 2 * trials.countP (·.Reasonable o game)

instance (o : Options) (game : Game) (trials : List Trial) :
    Decidable (o.VoteBreaks game trials) :=
  inferInstanceAs (Decidable (_ ∧ _))

/-- The simulations that are played one after another from a state. -/
inductive Played (o : Options) (e : Engine ε) (game : Game) : ε → List Trial → ε → Prop where
  | nil (s : ε) : Played o e game s [] s
  | cons {s s₁ s₂ : ε} {t : Trial} {trials : List Trial}
      (ht : e.playout game o.moveCap s = (.value t, s₁)) (hs : Played o e game s₁ trials s₂) :
      Played o e game s (t :: trials) s₂

namespace Course

variable (o : Options) (e : Engine ε) (text : String) (s : ε)

/-- The text is allowed and parsed without errors. -/
def Parsed (s₁ : ε) : Prop :=
  o.restrictions.AllowText text ∧ ∃ d, e.parse text s = (.value d, s₁) ∧ d.errors = []

/-- The text is compiled to the game. -/
def Compiled (game : Game) (s₂ : ε) : Prop :=
  ∃ s₁, Parsed o e text s s₁ ∧ e.compile text s₁ = (.value game, s₂)

/-- The game is allowed and, if flags count, not flagged. -/
def Cleared (game : Game) (s₂ : ε) : Prop :=
  Compiled o e text s game s₂ ∧ o.restrictions.AllowGame game ∧
    ¬ (o.rejectFlagged = true ∧ game.flagged = true)

/-- The first simulation comes to an end and, if that is asked for, consists of decisions. -/
def Functional (game : Game) (s₃ : ε) : Prop :=
  ∃ s₂ t, Cleared o e text s game s₂ ∧ e.playout game o.moveCap s₂ = (.value t, s₃) ∧
    (o.decisionOnly = true → ∀ m ∈ t.moves, m.decision = true)

end Course

/-- A game without a name of its own is kept under the name that its text declares. -/
def Game.stem (game : Game) (text : String) : String :=
  if game.name = "" then programName text else game.name

open Course in
/-- After so many calls the verdict on a candidate is reached, or the program breaks down. -/
inductive Course (o : Options) (e : Engine ε) (text : String) (s : ε) :
    Nat → Option Verdict → ε → Prop where
  | restrictedText (ht : ¬ o.restrictions.AllowText text) :
      Course o e text s 0 (some ⟨.structurallyRejected, [], programName text⟩) s
  | unparsable {s₁ : ε} {reply : Reply Diagnosis} (ht : o.restrictions.AllowText text)
      (hp : e.parse text s = (reply, s₁)) (hr : ∀ d, reply = .value d → d.errors ≠ []) :
      Course o e text s 1 (some ⟨.unparsable, [.structural], programName text⟩) s₁
  | uncompilable {s₁ s₂ : ε} {reply : Reply Game} (hp : Parsed o e text s s₁)
      (hc : e.compile text s₁ = (reply, s₂)) (hr : reply.Fails) :
      Course o e text s 2 (some ⟨.uncompilable, [.structural, .parsed], programName text⟩) s₂
  | restrictedGame {s₂ : ε} {game : Game} (hc : Compiled o e text s game s₂)
      (hg : ¬ o.restrictions.AllowGame game) :
      Course o e text s 2
        (some ⟨.structurallyRejected, [.structural, .parsed, .compiled], game.stem text⟩) s₂
  | flagged {s₂ : ε} {game : Game} (hc : Compiled o e text s game s₂)
      (hg : o.restrictions.AllowGame game) (hf : o.rejectFlagged = true ∧ game.flagged = true) :
      Course o e text s 2
        (some ⟨.nonFunctional, [.structural, .parsed, .compiled], game.stem text⟩) s₂
  | unfinished {s₂ s₃ : ε} {game : Game} {reply : Reply Trial} (hc : Cleared o e text s game s₂)
      (hp : e.playout game o.moveCap s₂ = (reply, s₃)) (hr : reply.Fails) :
      Course o e text s 3
        (some ⟨.nonFunctional, [.structural, .parsed, .compiled], game.stem text⟩) s₃
  | undecided {s₂ s₃ : ε} {game : Game} {t : Trial} (hc : Cleared o e text s game s₂)
      (hp : e.playout game o.moveCap s₂ = (.value t, s₃)) (hd : o.decisionOnly = true)
      (hm : ∃ m ∈ t.moves, m.decision = false) :
      Course o e text s 3
        (some ⟨.nonFunctional, [.structural, .parsed, .compiled], game.stem text⟩) s₃
  | untried {s₃ : ε} {game : Game} (hf : Functional o e text s game s₃)
      (hn : o.playouts = 0) :
      Course o e text s 3
        (some ⟨.unplayable, [.structural, .parsed, .compiled, .functional], game.stem text⟩) s₃
  | unbounded {s₃ : ε} {game : Game} (hf : Functional o e text s game s₃)
      (h0 : o.playouts ≠ 0) (hb : o.BoundsBreak game) :
      Course o e text s 3 none s₃
  | interrupted {s₃ s₄ s₅ : ε} {game : Game} {trials : List Trial} {reply : Reply Trial}
      (hf : Functional o e text s game s₃) (hb : ¬ o.BoundsBreak game)
      (ht : Played o e game s₃ trials s₄) (hn : trials.length < o.playouts.toNat)
      (hp : e.playout game o.moveCap s₄ = (reply, s₅)) (hr : reply.Fails) :
      Course o e text s (trials.length + 4)
        (some ⟨.unplayable, [.structural, .parsed, .compiled, .functional], game.stem text⟩) s₅
  | uncounted {s₃ s₄ : ε} {game : Game} {trials : List Trial}
      (hf : Functional o e text s game s₃) (hb : ¬ o.BoundsBreak game)
      (ht : Played o e game s₃ trials s₄) (h0 : 0 < trials.length)
      (hn : trials.length = o.playouts.toNat) (hc : o.VoteBreaks game trials) :
      Course o e text s (trials.length + 3) none s₄
  | outvoted {s₃ s₄ : ε} {game : Game} {trials : List Trial}
      (hf : Functional o e text s game s₃) (hb : ¬ o.BoundsBreak game)
      (ht : Played o e game s₃ trials s₄) (h0 : 0 < trials.length)
      (hn : trials.length = o.playouts.toNat) (hc : ¬ o.VoteBreaks game trials)
      (hv : ¬ o.Convinced game trials) :
      Course o e text s (trials.length + 3)
        (some ⟨.unplayable, [.structural, .parsed, .compiled, .functional], game.stem text⟩) s₄
  | accepted {s₃ s₄ : ε} {game : Game} {trials : List Trial}
      (hf : Functional o e text s game s₃) (hb : ¬ o.BoundsBreak game)
      (ht : Played o e game s₃ trials s₄) (h0 : 0 < trials.length)
      (hn : trials.length = o.playouts.toNat) (hc : ¬ o.VoteBreaks game trials)
      (hv : o.Convinced game trials) :
      Course o e text s (trials.length + 3)
        (some ⟨.accepted, [.structural, .parsed, .compiled, .functional, .playable],
          game.stem text⟩) s₄

/-- The calls for a candidate that no gate stops. -/
def Options.callOrder (o : Options) (text : String) : List Call :=
  .parse text :: .compile text :: List.replicate (o.playouts.toNat + 1) (.playout o.moveCap)

theorem Reply.exists_value_or_fails {α : Type} (reply : Reply α) :
    (∃ v, reply = .value v) ∨ reply.Fails := by
  cases reply with
  | value v => exact .inl ⟨v, rfl⟩
  | nothing => exact .inr nofun
  | raised message => exact .inr nofun
  | panicked message => exact .inr nofun

theorem Diagnosis.clean_iff {d : Diagnosis} : d.clean = true ↔ d.errors = [] :=
  List.isEmpty_iff

namespace Restrictions

variable {rs : Restrictions}

theorem textViolation?_isSome {text : String} :
    (rs.textViolation? text).isSome = true ↔ ¬ rs.AllowText text := by
  simp [textViolation?, AllowText]

theorem gameViolation?_isSome {game : Game} :
    (rs.gameViolation? game).isSome = true ↔ ¬ rs.AllowGame game := by
  simp [gameViolation?, AllowGame]

end Restrictions

/-! ## Judging follows the rules -/

section

variable {o : Options} {e : Engine ε} {text : String} {s s₁ s₂ s₃ : ε} {game : Game}

/-- A candidate that is parsed goes on to the compiler. -/
theorem Course.Parsed.judge_eq (h : Course.Parsed o e text s s₁) :
    judge o e text s = judgeParsed o e text (programName text) s₁ := by
  obtain ⟨ht, d, hp, hd⟩ := h
  have hv : ¬ (o.restrictions.textViolation? text).isSome = true := by
    rw [Restrictions.textViolation?_isSome]
    exact not_not_intro ht
  simp only [judge, if_neg hv, hp, if_pos (Diagnosis.clean_iff.mpr hd)]

/-- A candidate that is compiled goes on to the gates of the game. -/
theorem Course.Compiled.judge_eq (h : Course.Compiled o e text s game s₂) :
    judge o e text s = judgeGame o e game (game.stem text) s₂ := by
  obtain ⟨s₁, hp, hc⟩ := h
  rw [hp.judge_eq]
  simp only [judgeParsed, hc, Game.stem]

/-- Neither a restriction nor a flag stops a game that is cleared. -/
theorem Course.Cleared.gates (h : Course.Cleared o e text s game s₂) :
    ¬ (o.restrictions.gameViolation? game).isSome = true ∧
      ¬ (o.rejectFlagged && game.flagged) = true := by
  rw [Restrictions.gameViolation?_isSome, Bool.and_eq_true]
  exact ⟨not_not_intro h.2.1, h.2.2⟩

theorem Course.Cleared.judge_eq (h : Course.Cleared o e text s game s₂)
    (hf : functional o e game s₂ = (false, s₃)) :
    judge o e text s =
      (some ⟨.nonFunctional, [.structural, .parsed, .compiled], game.stem text⟩, s₃) := by
  obtain ⟨hv, hb⟩ := h.gates
  rw [h.1.judge_eq, judgeGame, if_neg hv, if_neg hb, hf]

/-- A candidate whose first simulation is fine is judged by the further ones. -/
theorem Course.Functional.judge_eq (h : Course.Functional o e text s game s₃)
    {fine? : Option Bool} {s' : ε} (hp : playable o e game s₃ = (fine?, s')) :
    judge o e text s =
      (fine?.map fun fine =>
        if fine then
          ⟨.accepted, [.structural, .parsed, .compiled, .functional, .playable], game.stem text⟩
        else ⟨.unplayable, [.structural, .parsed, .compiled, .functional], game.stem text⟩,
        s') := by
  obtain ⟨s₂, t, hc, ht, hd⟩ := h
  obtain ⟨hv, hb⟩ := hc.gates
  have hfun : functional o e game s₂ = (true, s₃) := by
    simp only [functional, ht, Trial.allDecisions]
    cases hdec : o.decisionOnly with
    | false => rfl
    | true => simpa using hd hdec
  rw [hc.1.judge_eq, judgeGame, if_neg hv, if_neg hb, hfun]
  rcases fine? with _ | _ | _ <;> simp only [hp] <;> rfl

theorem reasonableLengths_eq_none (h : o.BoundsBreak game) : reasonableLengths o game = none := by
  obtain ⟨hbreaks, hplayers | hcap⟩ := h
  · have hlow : o.overflow.mul 2 game.players = none :=
      Overflow.mul_eq_none_iff.mpr ⟨hbreaks, hplayers⟩
    rw [reasonableLengths, hlow]
    rfl
  · have htenths : o.overflow.mul o.moveCap 9 = none :=
      Overflow.mul_eq_none_iff.mpr ⟨hbreaks, hcap⟩
    rw [reasonableLengths, htenths]
    cases o.overflow.mul 2 game.players <;> rfl

theorem reasonableLengths_eq_some (h : ¬ o.BoundsBreak game) :
    reasonableLengths o game = some (2 * game.players, o.moveCap * 9 / 10) := by
  rw [Options.BoundsBreak, and_or_left, not_or] at h
  have hlow : o.overflow.mul 2 game.players = some (2 * game.players) :=
    Overflow.mul_eq_some_iff.mpr ⟨h.1, rfl⟩
  have htenths : o.overflow.mul o.moveCap 9 = some (o.moveCap * 9) :=
    Overflow.mul_eq_some_iff.mpr ⟨h.2, rfl⟩
  rw [reasonableLengths, hlow, htenths]
  rfl

/-- Simulations that give trials are counted as they come. -/
theorem Played.countReasonable_eq {trials : List Trial} {s s' : ε}
    (h : Played o e game s trials s') (n : Nat) (count : UInt64) :
    countReasonable o e game (2 * game.players) (o.moveCap * 9 / 10) (trials.length + n) count s =
      countReasonable o e game (2 * game.players) (o.moveCap * 9 / 10) n
        (count + UInt64.ofNat (trials.countP (·.Reasonable o game))) s' := by
  induction h generalizing count with
  | nil s => simp
  | @cons s s₁ s₂ t trials ht _ ih =>
      have hlen : (t :: trials).length + n = (trials.length + n) + 1 := by
        simp only [List.length_cons]
        omega
      rw [hlen, countReasonable]
      simp only [ht, ih]
      congr 1
      by_cases hr : t.Reasonable o game
      · have hb : (decide ((2 * game.players).toNat ≤ t.size) &&
            decide (t.size ≤ (o.moveCap * 9 / 10).toNat)) = true := by
          simpa [Trial.Reasonable] using hr
        rw [if_pos hb, List.countP_cons_of_pos (by simpa using hr), UInt64.ofNat_add]
        ac_rfl
      · have hb : ¬ (decide ((2 * game.players).toNat ≤ t.size) &&
            decide (t.size ≤ (o.moveCap * 9 / 10).toNat)) = true := by
          simpa [Trial.Reasonable] using hr
        rw [if_neg hb, List.countP_cons_of_neg (by simpa using hr)]

/-- The program may break down before there is any simulation. -/
theorem playable_of_boundsBreak (h0 : o.playouts ≠ 0) (hb : o.BoundsBreak game) (s : ε) :
    playable o e game s = (none, s) := by
  rw [playable, if_neg h0, reasonableLengths_eq_none hb]

/-- The last gate stops at a simulation that gives no trial. -/
theorem playable_of_fails (hb : ¬ o.BoundsBreak game) {trials : List Trial} {s s₁ s₂ : ε}
    {reply : Reply Trial} (ht : Played o e game s trials s₁)
    (hn : trials.length < o.playouts.toNat)
    (hp : e.playout game o.moveCap s₁ = (reply, s₂)) (hr : reply.Fails) :
    playable o e game s = (some false, s₂) := by
  have h0 : o.playouts ≠ 0 := by
    intro h
    rw [h] at hn
    exact absurd hn (Nat.not_lt_zero _)
  obtain ⟨n, hsplit⟩ : ∃ n, o.playouts.toNat = trials.length + (n + 1) :=
    ⟨o.playouts.toNat - trials.length - 1, by omega⟩
  have hcount (count : UInt64) :
      countReasonable o e game (2 * game.players) (o.moveCap * 9 / 10) (n + 1) count s₁ =
        (none, s₂) := by
    rw [countReasonable, hp]
    cases reply with
    | value t => exact absurd rfl (hr t)
    | nothing => rfl
    | raised message => rfl
    | panicked message => rfl
  simp only [playable, if_neg h0, reasonableLengths_eq_some hb, hsplit, ht.countReasonable_eq,
    hcount]

/-- Where all simulations give trials, the reasonable ones decide, unless the program breaks down
over their number. -/
theorem playable_of_played (hb : ¬ o.BoundsBreak game) {trials : List Trial} {s s₁ : ε}
    (ht : Played o e game s trials s₁) (h0 : 0 < trials.length)
    (hn : trials.length = o.playouts.toNat) :
    playable o e game s =
      (if o.VoteBreaks game trials then none else some (decide (o.Convinced game trials)),
        s₁) := by
  have hne : o.playouts ≠ 0 := by
    intro h
    rw [h] at hn
    exact absurd hn (Nat.ne_of_gt h0)
  have hcount := ht.countReasonable_eq 0 0
  rw [Nat.add_zero, hn, UInt64.zero_add] at hcount
  generalize hc : UInt64.ofNat (trials.countP (·.Reasonable o game)) = count at hcount
  have hword : count.toNat = trials.countP (·.Reasonable o game) := by
    have hle := List.countP_le_length (p := (·.Reasonable o game)) (l := trials)
    have hlt := o.playouts.toNat_lt
    rw [← hc, UInt64.toNat_ofNat', Nat.mod_eq_of_lt (by omega)]
  simp only [countReasonable] at hcount
  simp only [playable, if_neg hne, reasonableLengths_eq_some hb, hcount]
  by_cases hbreaks : o.VoteBreaks game trials
  · have hnone : o.overflow.mul 2 count = none :=
      Overflow.mul_eq_none_iff.mpr ⟨hbreaks.1, hword ▸ hbreaks.2⟩
    rw [if_pos hbreaks, hnone]
    rfl
  · have hsome : o.overflow.mul 2 count = some (2 * count) :=
      Overflow.mul_eq_some_iff.mpr ⟨fun h => hbreaks ⟨h.1, hword ▸ h.2⟩, rfl⟩
    have hvote : o.playouts ≤ 2 * count ↔ o.Convinced game trials := by
      rw [UInt64.le_iff_toNat_le, UInt64.toNat_mul, hword, Options.Convinced]
      rfl
    rw [if_neg hbreaks, hsome, Option.map_some, decide_eq_decide.mpr hvote]

/-- The judge comes to the verdict that the rules reach. -/
theorem Course.execution {k : Nat} {v : Option Verdict} {s' : ε}
    (h : Course o e text s k v s') : judge o e text s = (v, s') := by
  cases h with
  | restrictedText ht =>
      simp only [judge, Restrictions.textViolation?_isSome.mpr ht, if_true]
  | @unparsable _ reply ht hp hr =>
      have hv : ¬ (o.restrictions.textViolation? text).isSome = true := by
        rw [Restrictions.textViolation?_isSome]
        exact not_not_intro ht
      simp only [judge, if_neg hv, hp]
      cases reply with
      | value d =>
          have hd : ¬ d.clean = true := fun hd => hr d rfl (Diagnosis.clean_iff.mp hd)
          simp only [if_neg hd]
      | nothing => rfl
      | raised message => rfl
      | panicked message => rfl
  | @uncompilable _ _ reply hp hc hr =>
      rw [hp.judge_eq, judgeParsed, hc]
      cases reply with
      | value game => exact absurd rfl (hr game)
      | nothing => rfl
      | raised message => rfl
      | panicked message => rfl
  | restrictedGame hc hg =>
      rw [hc.judge_eq, judgeGame, if_pos (Restrictions.gameViolation?_isSome.mpr hg)]
  | flagged hc hg hf =>
      have hv := not_not_intro hg
      rw [← Restrictions.gameViolation?_isSome] at hv
      rw [hc.judge_eq, judgeGame, if_neg hv, if_pos (by simpa using hf)]
  | @unfinished _ _ game reply hc hp hr =>
      apply hc.judge_eq
      rw [functional, hp]
      cases reply with
      | value t => exact absurd rfl (hr t)
      | nothing => rfl
      | raised message => rfl
      | panicked message => rfl
  | @undecided _ _ game t hc hp hd hm =>
      apply hc.judge_eq
      have hall : t.allDecisions = false := by simpa [Trial.allDecisions] using hm
      simp [functional, hp, hd, hall]
  | @untried _ game hf hn =>
      have hp : playable o e game s' = (some false, s') := by rw [playable, if_pos hn]
      exact hf.judge_eq hp
  | unbounded hf h0 hb => exact hf.judge_eq (playable_of_boundsBreak h0 hb s')
  | interrupted hf hb ht hn hp hr =>
      exact hf.judge_eq (playable_of_fails hb ht hn hp hr)
  | uncounted hf hb ht h0 hn hc =>
      have hp := playable_of_played hb ht h0 hn
      rw [if_pos hc] at hp
      exact hf.judge_eq hp
  | outvoted hf hb ht h0 hn hc hv =>
      have hp := playable_of_played hb ht h0 hn
      rw [if_neg hc, decide_eq_false hv] at hp
      exact hf.judge_eq hp
  | accepted hf hb ht h0 hn hc hv =>
      have hp := playable_of_played hb ht h0 hn
      rw [if_neg hc, decide_eq_true hv] at hp
      exact hf.judge_eq hp

end

/-- Simulations are played until as many have given trials as are asked for, or one gives
none. -/
theorem exists_played (o : Options) (e : Engine ε) (game : Game) (n : Nat) (s : ε) :
    (∃ trials s', Played o e game s trials s' ∧ trials.length = n) ∨
      ∃ trials s₁ reply s', Played o e game s trials s₁ ∧ trials.length < n ∧
        e.playout game o.moveCap s₁ = (reply, s') ∧ reply.Fails := by
  induction n generalizing s with
  | zero => exact .inl ⟨[], s, .nil s, rfl⟩
  | succ n ih =>
      rcases hp : e.playout game o.moveCap s with ⟨reply, s₁⟩
      rcases reply.exists_value_or_fails with ⟨t, rfl⟩ | hr
      · rcases ih s₁ with ⟨trials, s', ht, hn⟩ | ⟨trials, s₂, reply, s', ht, hn, hrest⟩
        · exact .inl ⟨t :: trials, s', .cons hp ht, by simp [hn]⟩
        · exact .inr ⟨t :: trials, s₂, reply, s', .cons hp ht, by simpa using hn, hrest⟩
      · exact .inr ⟨[], s, reply, s₁, .nil s, Nat.succ_pos n, hp, hr⟩

/-- The rules reach a verdict on every candidate, or a point where the program breaks down. -/
theorem exists_course (o : Options) (e : Engine ε) (text : String) (s : ε) :
    ∃ k v s', Course o e text s k v s' := by
  by_cases ht : o.restrictions.AllowText text
  case neg => exact ⟨_, _, _, .restrictedText ht⟩
  rcases hp : e.parse text s with ⟨reply, s₁⟩
  by_cases hd : ∃ d, reply = .value d ∧ d.errors = []
  case neg => exact ⟨_, _, _, .unparsable ht hp fun d hr he => hd ⟨d, hr, he⟩⟩
  obtain ⟨d, rfl, hclean⟩ := hd
  have hparsed : Course.Parsed o e text s s₁ := ⟨ht, d, hp, hclean⟩
  rcases hc : e.compile text s₁ with ⟨reply, s₂⟩
  rcases reply.exists_value_or_fails with ⟨game, rfl⟩ | hr
  case inr => exact ⟨_, _, _, .uncompilable hparsed hc hr⟩
  have hcompiled : Course.Compiled o e text s game s₂ := ⟨s₁, hparsed, hc⟩
  by_cases hg : o.restrictions.AllowGame game
  case neg => exact ⟨_, _, _, .restrictedGame hcompiled hg⟩
  by_cases hf : o.rejectFlagged = true ∧ game.flagged = true
  case pos => exact ⟨_, _, _, .flagged hcompiled hg hf⟩
  have hcleared : Course.Cleared o e text s game s₂ := ⟨hcompiled, hg, hf⟩
  rcases hfirst : e.playout game o.moveCap s₂ with ⟨reply, s₃⟩
  rcases reply.exists_value_or_fails with ⟨t, rfl⟩ | hr
  case inr => exact ⟨_, _, _, .unfinished hcleared hfirst hr⟩
  by_cases hm : o.decisionOnly = true ∧ ∃ m ∈ t.moves, m.decision = false
  case pos => exact ⟨_, _, _, .undecided hcleared hfirst hm.1 hm.2⟩
  have hfunctional : Course.Functional o e text s game s₃ :=
    ⟨s₂, t, hcleared, hfirst, by simpa using hm⟩
  by_cases h0 : o.playouts = 0
  case pos => exact ⟨_, _, _, .untried hfunctional h0⟩
  by_cases hb : o.BoundsBreak game
  case pos => exact ⟨_, _, _, .unbounded hfunctional h0 hb⟩
  have hpos : 0 < o.playouts.toNat :=
    Nat.pos_of_ne_zero fun h => h0 (UInt64.toNat_inj.mp h)
  rcases exists_played o e game o.playouts.toNat s₃ with
    ⟨trials, s', hplayed, hn⟩ | ⟨trials, s₄, reply, s', hplayed, hn, hlast, hr⟩
  case inr => exact ⟨_, _, _, .interrupted hfunctional hb hplayed hn hlast hr⟩
  by_cases hc : o.VoteBreaks game trials
  case pos => exact ⟨_, _, _, .uncounted hfunctional hb hplayed (hn ▸ hpos) hn hc⟩
  by_cases hv : o.Convinced game trials
  · exact ⟨_, _, _, .accepted hfunctional hb hplayed (hn ▸ hpos) hn hc hv⟩
  · exact ⟨_, _, _, .outvoted hfunctional hb hplayed (hn ▸ hpos) hn hc hv⟩

theorem Course.breaks {o : Options} {e : Engine ε} {text : String} {s s' : ε} {k : Nat}
    (h : Course o e text s k none s') : o.overflow = .breaks := by
  cases h with
  | unbounded _ _ hb => exact hb.1
  | uncounted _ _ _ _ _ hc => exact hc.1

/-- The judge follows the rules, and no other verdict is reached by them. -/
theorem judge_iff_course {o : Options} {e : Engine ε} {text : String} {s s' : ε}
    {v : Option Verdict} :
    judge o e text s = (v, s') ↔ ∃ k, Course o e text s k v s' := by
  constructor
  · intro h
    obtain ⟨k, v₀, s₀, hk⟩ := exists_course o e text s
    rw [hk.execution] at h
    obtain ⟨rfl, rfl⟩ := Prod.mk.inj h
    exact ⟨k, hk⟩
  · rintro ⟨k, hk⟩
    exact hk.execution

/-! ## Recorded calls -/

namespace Engine

variable {e : Engine ε} {s s₁ : ε}

theorem recorded_parse {text : String} {reply : Reply Diagnosis}
    (h : e.parse text s = (reply, s₁)) (log : List Call) :
    e.recorded.parse text (s, log) = (reply, s₁, .parse text :: log) := by
  simp [recorded, h]

theorem recorded_compile {text : String} {reply : Reply Game}
    (h : e.compile text s = (reply, s₁)) (log : List Call) :
    e.recorded.compile text (s, log) = (reply, s₁, .compile text :: log) := by
  simp [recorded, h]

theorem recorded_playout {game : Game} {cap : UInt64} {reply : Reply Trial}
    (h : e.playout game cap s = (reply, s₁)) (log : List Call) :
    e.recorded.playout game cap (s, log) = (reply, s₁, .playout cap :: log) := by
  simp [recorded, h]

end Engine

section

variable {o : Options} {e : Engine ε} {text : String} {s s₁ s₂ s₃ : ε} {game : Game}

theorem Played.recorded {trials : List Trial} (h : Played o e game s trials s₁)
    (log : List Call) :
    Played o e.recorded game (s, log) trials
      (s₁, List.replicate trials.length (.playout o.moveCap) ++ log) := by
  induction h generalizing log with
  | nil s => exact .nil _
  | cons ht _ ih =>
      refine .cons (Engine.recorded_playout ht log) ?_
      rw [List.length_cons, List.replicate_succ', List.append_assoc]
      exact ih _

namespace Course

theorem Parsed.recorded (h : Parsed o e text s s₁) (log : List Call) :
    Parsed o e.recorded text (s, log) (s₁, .parse text :: log) := by
  obtain ⟨ht, d, hp, hd⟩ := h
  exact ⟨ht, d, Engine.recorded_parse hp log, hd⟩

theorem Compiled.recorded (h : Compiled o e text s game s₂) (log : List Call) :
    Compiled o e.recorded text (s, log) game (s₂, .compile text :: .parse text :: log) := by
  obtain ⟨s₁, hp, hc⟩ := h
  exact ⟨_, hp.recorded log, Engine.recorded_compile hc _⟩

theorem Cleared.recorded (h : Cleared o e text s game s₂) (log : List Call) :
    Cleared o e.recorded text (s, log) game (s₂, .compile text :: .parse text :: log) := by
  obtain ⟨hc, hg, hf⟩ := h
  exact ⟨hc.recorded log, hg, hf⟩

theorem Functional.recorded (h : Functional o e text s game s₃) (log : List Call) :
    Functional o e.recorded text (s, log) game
      (s₃, .playout o.moveCap :: .compile text :: .parse text :: log) := by
  obtain ⟨s₂, t, hc, hp, hd⟩ := h
  exact ⟨_, t, hc.recorded log, Engine.recorded_playout hp _, hd⟩

theorem le_length_callOrder {k : Nat} {v : Option Verdict} (h : Course o e text s k v s₁) :
    k ≤ (o.callOrder text).length := by
  simp only [Options.callOrder, List.length_cons, List.length_replicate]
  cases h <;> omega

end Course

/-- What has been recorded after the compiler and so many simulations. -/
theorem reverse_take_callOrder {n : Nat} (hn : n ≤ o.playouts.toNat + 1) (log : List Call) :
    ((o.callOrder text).take (n + 2)).reverse ++ log =
      List.replicate n (.playout o.moveCap) ++ .compile text :: .parse text :: log := by
  simp [Options.callOrder, List.take_replicate, Nat.min_eq_left hn]

/-- A course of so many calls makes the first so many calls of the order. -/
theorem Course.recorded {k : Nat} {v : Option Verdict} {s' : ε}
    (h : Course o e text s k v s') (log : List Call) :
    Course o e.recorded text (s, log) k v
      (s', ((o.callOrder text).take k).reverse ++ log) := by
  -- the first simulation and the counted ones after it
  have hcounted (n : Nat) (hn : n + 1 ≤ o.playouts.toNat + 1) :
      ((o.callOrder text).take (n + 3)).reverse ++ log =
        List.replicate n (.playout o.moveCap) ++
          .playout o.moveCap :: .compile text :: .parse text :: log := by
    rw [reverse_take_callOrder hn, List.replicate_succ', List.append_assoc]
    rfl
  cases h with
  | restrictedText ht => exact .restrictedText ht
  | unparsable ht hp hr => exact .unparsable ht (Engine.recorded_parse hp log) hr
  | uncompilable hp hc hr =>
      exact .uncompilable (hp.recorded log) (Engine.recorded_compile hc _) hr
  | restrictedGame hc hg => exact .restrictedGame (hc.recorded log) hg
  | flagged hc hg hf => exact .flagged (hc.recorded log) hg hf
  | unfinished hc hp hr =>
      exact .unfinished (hc.recorded log) (Engine.recorded_playout hp _) hr
  | undecided hc hp hd hm =>
      exact .undecided (hc.recorded log) (Engine.recorded_playout hp _) hd hm
  | untried hf hn => exact .untried (hf.recorded log) hn
  | unbounded hf h0 hb => exact .unbounded (hf.recorded log) h0 hb
  | @interrupted _ _ _ _ trials _ hf hb ht hn hp hr =>
      rw [hcounted (trials.length + 1) (by omega), List.replicate_succ, List.cons_append]
      exact .interrupted (hf.recorded log) hb (ht.recorded _) hn (Engine.recorded_playout hp _) hr
  | @uncounted _ _ _ trials hf hb ht h0 hn hc =>
      rw [hcounted trials.length (by omega)]
      exact .uncounted (hf.recorded log) hb (ht.recorded _) h0 hn hc
  | @outvoted _ _ _ trials hf hb ht h0 hn hc hv =>
      rw [hcounted trials.length (by omega)]
      exact .outvoted (hf.recorded log) hb (ht.recorded _) h0 hn hc hv
  | @accepted _ _ _ trials hf hb ht h0 hn hc hv =>
      rw [hcounted trials.length (by omega)]
      exact .accepted (hf.recorded log) hb (ht.recorded _) h0 hn hc hv

/-- The calls that judging makes are a front of the order of calls, and the rules say where they
stop. -/
theorem judge_recorded_iff {v : Option Verdict} {s' : ε} {calls : List Call}
    (log : List Call) :
    judge o e.recorded text (s, log) = (v, s', calls.reverse ++ log) ↔
      calls <+: o.callOrder text ∧ Course o e text s calls.length v s' := by
  constructor
  · intro h
    obtain ⟨k, v₀, s₀, hk⟩ := exists_course o e text s
    rw [(hk.recorded log).execution] at h
    simp only [Prod.mk.injEq, List.append_cancel_right_eq, List.reverse_inj] at h
    obtain ⟨rfl, rfl, rfl⟩ := h
    refine ⟨List.take_prefix _ _, ?_⟩
    rwa [List.length_take_of_le hk.le_length_callOrder]
  · rintro ⟨hcalls, hk⟩
    have h := (hk.recorded log).execution
    rwa [← List.prefix_iff_eq_take.mp hcalls] at h

end

/-! ## Attempts -/

namespace Funnel

variable {σ κ : Type}

/-- The funnel with a record of the calls of its engine. -/
def recorded (f : Funnel σ ε κ) : Funnel σ (ε × List Call) κ :=
  { f with engine := f.engine.recorded }

/-- Only a program that is built to do so breaks down in an attempt. -/
theorem overflow_of_attempt {f : Funnel σ ε κ} {s s₁ : FunnelState σ ε κ}
    (h : f.attempt s = (.error .overflow, s₁)) : f.options.overflow = .breaks := by
  obtain ⟨⟨_, he⟩ | ⟨he, -⟩, -⟩ | ⟨-, -, text, -, hj⟩ | ⟨_, _, he, -⟩ := attempt_cases h
  · cases he
  · cases he
  · obtain ⟨k, hk⟩ := judge_iff_course.mp hj
    exact hk.breaks
  · cases he

/-- An attempt calls the engine to have its candidate judged and for nothing else. The calls are
a front of the order of calls, and how many there are goes with the verdict as the rules say, or
with the point where the program breaks down, if it is built to do so. -/
theorem attempt_follows_course (f : Funnel σ ε κ) :
    (∀ s : FunnelState σ (ε × List Call) κ,
      match f.recorded.attempt s with
      | (.ok (.judged text v), s') =>
        judge f.options f.engine.recorded text s.engine = (some v, s'.engine)
      | (.error .overflow, s') =>
        f.options.overflow = .breaks ∧
          ∃ text, judge f.options f.engine.recorded text s.engine = (none, s'.engine)
      | (_, s') => s'.engine = s.engine) ∧
    ∀ (text : String) (s s' : ε) (v : Option Verdict) (log calls : List Call),
      judge f.options f.engine.recorded text (s, log) = (v, s', calls.reverse ++ log) ↔
        calls <+: f.options.callOrder text ∧
          Course f.options f.engine text s calls.length v s' := by
  constructor
  · intro s
    rcases ha : f.recorded.attempt s with ⟨result, s'⟩
    obtain ⟨⟨_, rfl⟩ | ⟨rfl, -⟩, hengine, -⟩ | ⟨rfl, -, text, -, hj⟩ | ⟨text, v, rfl, -, hj, -⟩ :=
      attempt_cases ha
    · exact hengine
    · exact hengine
    · exact ⟨overflow_of_attempt (f := f.recorded) ha, text, hj⟩
    · exact hj
  · intro text s s' v log calls
    exact judge_recorded_iff log

end Funnel

end GameGrammar

import GameGrammar.Policy.Random
import Mathlib.Algebra.Order.Ring.Rat

/-! # Draws that may panic

A random policy panics when it draws from an empty range or by a number that is no probability. What
it draws with is kept apart here from what it asks of it, for numbers of any kind. -/

namespace GameGrammar

/-! ## Drawing -/

/-- The draws of a random policy. One that panics comes to nothing. -/
structure Drawing (ν σ : Type) where
  /-- A depth as a number. -/
  number : Nat → ν
  index : Nat → StateT σ Option Nat
  chance : ν → StateT σ Option Bool
  integer : Int32 → Int32 → StateT σ Option Int32
  coin : StateT σ Option Bool
  float : Float32 → Float32 → StateT σ Option Float32
  count : UInt64 → UInt64 → StateT σ Option UInt64
  seeded : UInt64 → σ

namespace Drawing

open GameGrammar.Random

/-- A draw that does not panic. -/
def safe {α : Type} (draw : Draw α) : StateT Source Option α :=
  fun s => some (draw s)

/-- Draws from the random source, which panic if there is nothing to draw from. Of floats only one
range is ever asked for, and that one is not empty. -/
def ofSource {ν : Type} [LE ν] [DecidableLE ν] [OfNat ν 0] [OfNat ν 1] (number : Nat → ν)
    (chance : ν → Draw Bool) : Drawing ν Source where
  number := number
  index n := if 0 < n then safe (Random.position n) else failure
  chance p := if Odds.isProbability p then safe (chance p) else failure
  integer low high := if low ≤ high then safe (between32 low high) else failure
  coin := safe Random.coin
  float low high := safe (betweenFloats low high)
  count fewest most := if fewest ≤ most then safe (between64 fewest most) else failure
  seeded := .seeded

/-- The position of one of `n` items. There is nothing at a position past the end. -/
def position {ν σ : Type} (D : Drawing ν σ) (n : Nat) : StateT σ Option Nat := do
  let i ← D.index n
  if i < n then return i else failure

theorem position_lt {n : Nat} (hn : 0 < n) (s : Source) : (Random.position n s).1 < n := by
  cases n with
  | zero => exact absurd hn (Nat.lt_irrefl 0)
  | succ n => exact (Random.index n s).1.isLt

/-- No draw panics that is from a range with something in it, or by a probability. -/
structure Sound {σ : Type} (D : Drawing ℚ σ) : Prop where
  index : ∀ n, 0 < n → ∀ s, ∃ i s', D.index n s = some (i, s') ∧ i < n
  chance : ∀ p, 0 ≤ p → p ≤ 1 → ∀ s, (D.chance p s).isSome
  integer : ∀ low high, low ≤ high → ∀ s, (D.integer low high s).isSome
  coin : ∀ s, (D.coin s).isSome
  float : ∀ s, (D.float (-10.0) 1000.0 s).isSome
  count : ∀ fewest most, fewest ≤ most → ∀ s, (D.count fewest most s).isSome

theorem ofSource_sound (number : Nat → ℚ) (chance : ℚ → Draw Bool) :
    (ofSource number chance).Sound where
  index n hn s := by
    refine ⟨(Random.position n s).1, (Random.position n s).2, ?_, position_lt hn s⟩
    simp only [ofSource, if_pos hn]
    rfl
  chance p hlow hhigh s := by
    have hp : Odds.isProbability p = true := by simp [Odds.isProbability, hlow, hhigh]
    simp only [ofSource, if_pos hp]
    rfl
  integer low high h s := by
    simp only [ofSource, if_pos h]
    rfl
  coin s := rfl
  float s := rfl
  count fewest most h s := by
    simp only [ofSource, if_pos h]
    rfl

theorem Sound.isSome_position {σ : Type} {D : Drawing ℚ σ} (hD : D.Sound) {n : Nat} (hn : 0 < n)
    (s : σ) : (D.position n s).isSome := by
  obtain ⟨i, next, hi, hlt⟩ := hD.index n hn s
  have hbind : D.position n s =
      (D.index n s).bind fun (i, next) =>
        (if i < n then return i else failure : StateT σ Option Nat) next := rfl
  simp only [hbind, hi, Option.bind_some, if_pos hlt]
  rfl

end Drawing

/-! ## Answers -/

/-- The draw that answers a question. It panics as well if the drop probability cannot be brought
into range. -/
def Odds.play {ν σ : Type} [LE ν] [LT ν] [DecidableLE ν] [DecidableLT ν] [OfNat ν 0] [OfNat ν 1]
    [Add ν] [Mul ν] (o : Odds ν) (D : Drawing ν σ) :
    (q : Question) → StateT σ Option q.Answer
  | .rule candidates => D.position candidates.length
  | .clause clauses => D.position clauses.length
  | .exit => D.chance o.exit
  | .integer low high => D.integer low (max high low)
  | .boolean => D.coin
  | .float low high => if high ≤ low then return low else D.float low high
  | .orGroup argCount => D.index (max argCount 1)
  | .drop depth => do D.chance (← o.dropAt (D.number depth))
  | .itemCount => do return (← D.count o.fewestItems o.mostItems).toNat

namespace Odds

/-! ## Valid odds -/

/-- The standard odds, for numbers of any kind that can be written with a decimal point. -/
def written {ν : Type} [OfScientific ν] : Odds ν where
  exit := 0.5
  dropBase := 0.3
  dropPerDepth := 0.05
  dropMax := 0.95
  fewestItems := 1
  mostItems := 3

theorem standard_eq_written : standard = written :=
  rfl

theorem error?_eq_none_iff {o : Odds ℚ} :
    o.error? = none ↔
      (∀ f, 0 ≤ o.get f ∧ o.get f ≤ 1) ∧ o.fewestItems ≤ o.mostItems := by
  have hall : OddsField.all.find? (fun f => !isProbability (o.get f)) = none ↔
      ∀ f, 0 ≤ o.get f ∧ o.get f ≤ 1 := by
    rw [List.find?_eq_none]
    constructor
    · intro h f
      have hmem : f ∈ OddsField.all := by cases f <;> decide
      simpa [isProbability] using h f hmem
    · intro h f _
      simp [isProbability, h f]
  unfold error?
  split
  · next f hf => simp [← hall, hf]
  · next hnone => simp [← hall, hnone]

theorem error?_written : (written : Odds ℚ).error? = none := by
  refine error?_eq_none_iff.mpr ⟨fun f => ?_, by decide⟩
  cases f <;> decide +kernel

theorem clamp_of_le {low high : ℚ} (h : low ≤ high) (x : ℚ) :
    ∃ y, clamp low high x = some y ∧ low ≤ y ∧ y ≤ high := by
  rw [clamp, if_pos h]
  by_cases hlow : x < low
  · exact ⟨low, by rw [if_pos hlow], le_rfl, h⟩
  · by_cases hhigh : high < x
    · exact ⟨high, by rw [if_neg hlow, if_pos hhigh], h, le_rfl⟩
    · exact ⟨x, by rw [if_neg hlow, if_neg hhigh], not_lt.mp hlow, not_lt.mp hhigh⟩

/-- Whatever the odds are, arguments are dropped by a probability. -/
theorem dropAt_isProbability (o : Odds ℚ) (depth : ℚ) :
    ∃ p, o.dropAt depth = some p ∧ 0 ≤ p ∧ p ≤ 1 := by
  obtain ⟨limit, hlimit, hlow, hhigh⟩ := clamp_of_le (zero_le_one' ℚ) o.dropMax
  obtain ⟨p, hp, hp0, hp1⟩ := clamp_of_le hlow (o.dropBase + o.dropPerDepth * depth)
  exact ⟨p, by simp [dropAt, hlimit, hp], hp0, hp1.trans hhigh⟩

end Odds

/-! ## The draws of the policy itself -/

section

open GameGrammar.Random

/-- The draws by probabilities that are floats. -/
def Drawing.floats : Drawing Float Source :=
  .ofSource (fun depth => depth.toUInt64.toFloat) Random.chance

theorem Drawing.eq_of_checked {α : Type} {c : Prop} [Decidable c] {draw : Draw α} {s : Source}
    {x : α × Source} (h : (if c then safe draw else failure : StateT Source Option α) s = some x) :
    draw s = x := by
  by_cases hc : c
  · rw [if_pos hc] at h
    exact Option.some.inj h
  · rw [if_neg hc] at h
    cases h

theorem Drawing.position_of_position {n : Nat} {s : Source} {x : Nat × Source}
    (h : floats.position n s = some x) : Random.position n s = x := by
  obtain ⟨⟨i, next⟩, hi, hx⟩ := Option.bind_eq_some_iff.mp h
  by_cases hlt : i < n
  · simp only [if_pos hlt] at hx
    cases hx
    exact eq_of_checked hi
  · simp only [if_neg hlt] at hx
    cases hx

/-- Where the draw for an answer does not panic, it is the one that the policy makes. -/
theorem Odds.draw_of_play {o : Odds Float} {q : Question} {s : Source} {x : q.Answer × Source}
    (h : o.play .floats q s = some x) : o.draw q s = x := by
  cases q with
  | rule candidates => exact Drawing.position_of_position h
  | clause clauses => exact Drawing.position_of_position h
  | exit => exact Drawing.eq_of_checked h
  | integer low high => exact Drawing.eq_of_checked h
  | boolean => exact Option.some.inj h
  | float low high =>
      simp only [play] at h
      simp only [draw]
      split at h
      · next hle =>
          rw [if_pos hle]
          exact Option.some.inj h
      · next hle =>
          rw [if_neg hle]
          exact Option.some.inj h
  | orGroup argCount => exact Drawing.eq_of_checked h
  | drop depth =>
      simp only [play] at h
      simp only [draw]
      rcases hp : o.dropAt (Drawing.floats.number depth) with _ | p
      · rw [hp] at h
        cases h
      · rw [hp] at h
        have hp' : o.dropAt depth.toUInt64.toFloat = some p := hp
        rw [hp']
        exact Drawing.eq_of_checked h
  | itemCount =>
      obtain ⟨⟨count, next⟩, hcount, hx⟩ := Option.bind_eq_some_iff.mp h
      cases hx
      have hdraw : between64 o.fewestItems o.mostItems s = (count, next) :=
        Drawing.eq_of_checked hcount
      have hbind : o.draw .itemCount s =
          ((between64 o.fewestItems o.mostItems s).1.toNat,
            (between64 o.fewestItems o.mostItems s).2) := rfl
      rw [hbind, hdraw]

end

end GameGrammar

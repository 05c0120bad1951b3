import GameGrammar.Text.Case
import Mathlib

/-! # Characters and their lower-case forms

The first character of a name is lowered in every script, but names are compared without regard to
case in the range from A to Z only. -/

namespace GameGrammar.Text

/-! ## ASCII characters -/

theorem lowerChar_of_ascii {c : Char} (h : c.val < 128) : lowerChar c = [c.toLower] :=
  if_pos h

theorem ascii_of_isAlpha {c : Char} (h : c.isAlpha = true) : c.val < 128 := by
  rw [Char.isAlpha, Bool.or_eq_true] at h
  rcases h with h | h
  · simp only [Char.isUpper, decide_eq_true_eq] at h
    exact UInt32.lt_of_le_of_lt h.2 (by decide)
  · simp only [Char.isLower, Bool.and_eq_true, decide_eq_true_eq] at h
    exact UInt32.lt_of_le_of_lt h.2 (by decide)

theorem isBlank_of_isAlpha {c : Char} (h : c.isAlpha = true) : isBlank c = false := by
  have hlow : 65 ≤ c.val := by
    rw [Char.isAlpha, Bool.or_eq_true] at h
    rcases h with h | h
    · simp only [Char.isUpper, decide_eq_true_eq] at h
      exact h.1
    · simp only [Char.isLower, Bool.and_eq_true, decide_eq_true_eq] at h
      exact UInt32.le_trans (by decide) h.1
  have hspace : c ≠ ' ' := by
    rintro rfl
    exact absurd hlow (by decide)
  have hcontrol : ¬ c.val ≤ 13 := fun hle => absurd (UInt32.le_trans hlow hle) (by decide)
  rw [isBlank, if_pos (ascii_of_isAlpha h)]
  simp [hspace, hcontrol]

theorem lowerChar_of_isUpper {c : Char} (h : c.isUpper = true) : lowerChar c = [c.toLower] :=
  lowerChar_of_ascii (ascii_of_isAlpha (by simp [Char.isAlpha, h]))

/-- Lowering leads to a small letter, or nowhere. -/
theorem eq_of_toLower_eq {c d : Char} (h : c.toLower = d) (hd : ¬ d.isLower = true) : c = d := by
  have hc : ¬ c.isUpper = true := by
    intro hc
    rw [← h, Char.isLower_toLower_eq_isAlpha, Char.isAlpha, hc] at hd
    exact hd rfl
  rwa [Char.toLower_eq_of_not_isUpper hc] at h

/-! ## Characters beyond ASCII -/

/-- The lower-case forms in the table stand above the signs that ASCII has before its letters. -/
theorem target_of_mem_lowerShifts : ∀ s ∈ lowerShifts, 64 < s.target := by
  decide +kernel

theorem ofNat_ne_of_toNat_lt {n : Nat} {d : Char} (hn : d.toNat < n) (hd : 0 < d.toNat) :
    Char.ofNat n ≠ d := by
  rintro rfl
  rw [Char.toNat_ofNat] at hn hd
  split at hn <;> simp_all

/-- What a character beyond ASCII is lowered to: two characters, itself, or one other. -/
theorem lowerChar_of_not_ascii {c : Char} (h : ¬ c.val < 128) :
    lowerChar c = ['i', '\u0307'] ∨ lowerChar c = [c] ∨
      ∃ n, 64 < n ∧ lowerChar c = [Char.ofNat n] := by
  unfold lowerChar
  rw [if_neg h]
  split
  · exact .inl rfl
  · split
    · next s hs =>
        have htarget := target_of_mem_lowerShifts s (List.mem_of_find?_eq_some hs)
        exact .inr (.inr ⟨_, by omega, rfl⟩)
    · exact .inr (.inl rfl)

/-! ## Delimiters -/

/-- Only a delimiter is lowered to a delimiter. -/
theorem delimiter_not_mem_lowerChar {c d : Char} (hd : d = '<' ∨ d = '>') (hc : c ≠ d) :
    d ∉ lowerChar c := by
  have hnat : 0 < d.toNat ∧ d.toNat ≤ 64 ∧ ¬ d.isLower = true := by
    rcases hd with rfl | rfl <;> decide
  intro hmem
  by_cases hascii : c.val < 128
  · rw [lowerChar_of_ascii hascii, List.mem_singleton] at hmem
    exact hc (eq_of_toLower_eq hmem.symm hnat.2.2)
  · rcases lowerChar_of_not_ascii hascii with h | h | ⟨n, hn, h⟩
    · rw [h] at hmem
      rcases hd with rfl | rfl <;> revert hmem <;> decide
    · rw [h, List.mem_singleton] at hmem
      exact hc hmem.symm
    · rw [h, List.mem_singleton] at hmem
      exact ofNat_ne_of_toNat_lt (by omega) hnat.1 hmem.symm

theorem lowerChar_ne_nil (c : Char) : lowerChar c ≠ [] := by
  by_cases hascii : c.val < 128
  · rw [lowerChar_of_ascii hascii]
    exact List.cons_ne_nil _ _
  · rcases lowerChar_of_not_ascii hascii with h | h | ⟨n, -, h⟩ <;> rw [h] <;>
      exact List.cons_ne_nil _ _

/-! ## Comparing without regard to case -/

theorem sameLetters_append_right (x y z : List Char) :
    sameLetters (x ++ z) (y ++ z) = sameLetters x y := by
  rw [Bool.eq_iff_iff, sameLetters, sameLetters, beq_iff_eq, beq_iff_eq, List.map_append,
    List.map_append, List.append_left_inj]

theorem length_eq_of_sameLetters {x y : List Char} (h : sameLetters x y = true) :
    x.length = y.length := by
  rw [sameLetters, beq_iff_eq] at h
  simpa using congrArg List.length h

/-- A character is the same letter as its lower-case form if it has no other or stands from A to
Z. -/
theorem sameLetters_lowerChar_iff {c : Char} :
    sameLetters [c] (lowerChar c) = true ↔ lowerChar c = [c] ∨ c.isUpper = true := by
  by_cases hascii : c.val < 128
  · rw [lowerChar_of_ascii hascii]
    have hsame : sameLetters [c] [c.toLower] = true := by
      simp [sameLetters]
    refine iff_of_true hsame ?_
    by_cases hc : c.isUpper = true
    · exact .inr hc
    · exact .inl (by rw [Char.toLower_eq_of_not_isUpper hc])
  · have halpha : ¬ c.isAlpha = true := fun h => hascii (ascii_of_isAlpha h)
    rw [Char.isAlpha, Bool.or_eq_true, not_or] at halpha
    constructor
    · intro h
      obtain ⟨x, hx⟩ := List.length_eq_one_iff.mp (length_eq_of_sameLetters h).symm
      rw [hx, sameLetters, beq_iff_eq] at h
      have hxc : x.toLower = c := by
        rw [← Char.toLower_eq_of_not_isUpper halpha.1]
        exact (List.cons.inj h).1.symm
      exact .inl (by rw [hx, eq_of_toLower_eq hxc halpha.2])
    · rintro (h | h)
      · rw [h]
        exact beq_self_eq_true _
      · exact absurd h halpha.1

end GameGrammar.Text

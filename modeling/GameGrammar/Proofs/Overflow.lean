import GameGrammar.Overflow
import Mathlib.Algebra.Group.Nat.Defs

/-! # Numbers that are too large

Whether a result fits into its word is a question about whole numbers. -/

namespace GameGrammar.Overflow

variable {o : Overflow}

theorem mul_eq_none_iff {a b : UInt64} :
    o.mul a b = none ↔ o = .breaks ∧ 2 ^ 64 ≤ a.toNat * b.toNat := by
  rw [mul, settle_eq_none_iff, decide_eq_false_iff_not, Nat.not_lt]
  exact Iff.rfl

theorem mul_eq_some_iff {a b product : UInt64} :
    o.mul a b = some product ↔
      ¬ (o = .breaks ∧ 2 ^ 64 ≤ a.toNat * b.toNat) ∧ a * b = product := by
  rw [mul, settle_eq_some_iff, decide_eq_true_eq, not_and, Nat.not_le]
  exact Iff.rfl

theorem succ_of_lt {n : UInt32} (h : n.toNat + 1 < 2 ^ 32) : o.succ n = some (n + 1) := by
  have hfits : decide (n.toNat + 1 < UInt32.size) = true := decide_eq_true h
  rw [succ, hfits, settle_true]

theorem succ_of_le {n : UInt32} (h : 2 ^ 32 ≤ n.toNat + 1) :
    o.succ n = o.settle false (n + 1) := by
  have hfull : decide (n.toNat + 1 < UInt32.size) = false := decide_eq_false (Nat.not_lt.mpr h)
  rw [succ, hfull]

end GameGrammar.Overflow

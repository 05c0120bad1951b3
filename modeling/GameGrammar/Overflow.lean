/-! # Overflow

What becomes of a number that is too large for its word is settled when the program is built. -/

namespace GameGrammar

/-- What becomes of a number that is too large for its word. -/
inductive Overflow where
  /-- Its upper bits are dropped. -/
  | wraps
  /-- The program breaks down. -/
  | breaks
  deriving DecidableEq

namespace Overflow

/-- The number whose lower bits are those of the word, if it fits into it or is made to. -/
def settle {α : Type} (o : Overflow) (fits : Bool) (word : α) : Option α :=
  match o with
  | .wraps => some word
  | .breaks => if fits then some word else none

/-- The product of two words of 64 bits. -/
def mul (o : Overflow) (a b : UInt64) : Option UInt64 :=
  o.settle (a.toNat * b.toNat < UInt64.size) (a * b)

/-- The number after a word of 32 bits. -/
def succ (o : Overflow) (n : UInt32) : Option UInt32 :=
  o.settle (n.toNat + 1 < UInt32.size) (n + 1)

variable {o : Overflow}

@[simp] theorem settle_true {α : Type} (o : Overflow) (word : α) :
    o.settle true word = some word := by
  cases o <;> rfl

theorem map_settle {α β : Type} (fits : Bool) (word : α) (g : α → β) :
    (o.settle fits word).map g = o.settle fits (g word) := by
  cases o <;> cases fits <;> rfl

theorem settle_eq_none_iff {α : Type} {fits : Bool} {word : α} :
    o.settle fits word = none ↔ o = .breaks ∧ fits = false := by
  cases o <;> cases fits <;> simp [settle]

theorem settle_eq_some_iff {α : Type} {fits : Bool} {word result : α} :
    o.settle fits word = some result ↔ (o = .breaks → fits = true) ∧ word = result := by
  cases o <;> cases fits <;> simp [settle]

end Overflow

end GameGrammar

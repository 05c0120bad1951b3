import GameGrammar.Decimal.Shortest
import GameGrammar.Proofs.Text.Characters

/-! # Characters of a number

A number is written with digits, a sign, a point, and the letters of `NaN`, `inf` and the
exponent. -/

namespace GameGrammar.Decimal

/-- A character that numbers are written with. -/
def isNumeral (c : Char) : Bool :=
  c.isDigit || ['-', '.', 'e', 'N', 'a', 'i', 'n', 'f'].contains c

theorem toDigits_numeral {n : Nat} {c : Char} (h : c ∈ Nat.toDigits 10 n) :
    isNumeral c = true := by
  simp [isNumeral, Nat.isDigit_of_mem_toDigits (by decide) (by decide) h]

/-- All characters of the text are numerals. -/
def Numeral (text : String) : Prop :=
  ∀ c ∈ text.toList, isNumeral c = true

instance (text : String) : Decidable (Numeral text) :=
  inferInstanceAs (Decidable (∀ c ∈ text.toList, isNumeral c = true))

namespace Numeral

theorem append {x y : String} (hx : Numeral x) (hy : Numeral y) : Numeral (x ++ y) := by
  intro c hc
  rw [String.toList_append, List.mem_append] at hc
  exact hc.elim (hx c) (hy c)

theorem ofList {cs : List Char} (n : Nat) (hs : ∀ c ∈ cs, c = '0' ∨ c ∈ Nat.toDigits 10 n) :
    Numeral (String.ofList cs) := by
  intro c hc
  rw [String.toList_ofList] at hc
  rcases hs c hc with rfl | h
  · rfl
  · exact toDigits_numeral h

theorem nat (n : Nat) : Numeral n.repr := by
  rw [Nat.repr_eq_ofList_toDigits]
  exact ofList n fun c hc => .inr hc

theorem int (n : Int) : Numeral (toString n) := by
  rw [Int.toString_eq_repr, Int.repr_eq_if]
  split
  · exact nat _
  · exact append (by decide) (nat _)

theorem signed {negative : Bool} {text : String} (h : Numeral text) :
    Numeral (signed negative text) := by
  unfold Decimal.signed
  split
  · exact append (by decide) h
  · exact h

theorem positional (digits : Nat) (exponent : Int) : Numeral (positional digits exponent) := by
  unfold Decimal.positional
  split
  · refine append (ofList digits fun c hc => .inr hc) (ofList 0 fun c hc => ?_)
    exact .inl (List.eq_of_mem_replicate hc)
  · next n =>
      have hpadded {c : Char} {places : Nat}
          (hc : c ∈ List.replicate places '0' ++ Nat.toDigits 10 digits) :
          c = '0' ∨ c ∈ Nat.toDigits 10 digits :=
        (List.mem_append.mp hc).imp_left List.eq_of_mem_replicate
      refine append (append (ofList digits fun c hc => ?_) (by decide))
        (ofList digits fun c hc => ?_)
      · exact hpadded (List.mem_of_mem_take hc)
      · exact hpadded (List.mem_of_mem_drop hc)

theorem scientific (digits : Nat) (exponent : Int) : Numeral (scientific digits exponent) := by
  unfold Decimal.scientific
  simp only
  refine append (append (append (ofList digits fun c hc => ?_) ?_) (by decide)) (int _)
  · exact .inr (List.mem_of_mem_take hc)
  · split
    · decide
    · exact append (by decide) (ofList digits fun c hc => .inr (List.mem_of_mem_drop hc))

theorem pointText (x : Binary) : Numeral (pointText x) := by
  cases x with
  | notANumber => decide
  | infinite negative => exact signed (by decide)
  | finite negative mantissa exponent lowest =>
      apply signed
      split
      · decide
      · simp only
        split
        · exact scientific _ _
        · split
          · exact append (positional _ _) (by decide)
          · exact positional _ _

end Numeral

end GameGrammar.Decimal

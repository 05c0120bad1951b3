import GameGrammar.Random.Source

/-! # Uniform draws

A word of the stream is scaled to a range by a multiplication: the upper part of the product is
the answer and the lower part tells whether the word has to be refused to keep the answers
equally likely. A draw goes on for as long as words are refused; no number of them is too many. -/

namespace GameGrammar.Random

instance : Nonempty Source :=
  ⟨.ofKey (Vector.replicate 8 0)⟩

section

variable {α : Type} (draw : Draw (Option α))

/-- Draws until there is an answer. Nothing is known of it if there never is one. -/
def insist [Nonempty α] (s : Source) : α × Source :=
  match draw s with
  | (some answer, s) => (answer, s)
  | (none, s) => by
    -- called from a tactic, so that no position in this file becomes part of the definition
    apply insist
    exact s
partial_fixpoint

end

/-- The upper part of the product of a word and `n + 1`, which is `n` at most. -/
def upperPart {width n : Nat} (word : BitVec width) : Fin (n + 1) :=
  ⟨(word.toNat * (n + 1)) >>> width, by
    rw [Nat.shiftRight_eq_div_pow]
    exact Nat.div_lt_of_lt_mul (Nat.mul_lt_mul_of_pos_right word.isLt n.succ_pos)⟩

/-- Draws a number from zero to `n` from words of some width, refusing those whose product with
`n + 1` has a lower part above `zone`. -/
def scaled {width n : Nat} (word : Draw (BitVec width)) (zone : Nat) : Draw (Fin (n + 1)) :=
  insist do
    let w ← word
    let lower := w * BitVec.ofNat width (n + 1)
    return if lower.toNat ≤ zone then some (upperPart w) else none

/-- The largest multiple of the range by a power of two that fits into `width` bits, less one. -/
def shiftedZone (width range : Nat) : Nat :=
  range <<< (width - (range.log2 + 1)) - 1

/-- The largest multiple of the range that fits into `width` bits, less one. -/
def fullZone (width range : Nat) : Nat :=
  (1 <<< width) - 1 - ((1 <<< width) - range) % range

def word32 : Draw (BitVec 32) := do
  return (← Source.next).toBitVec

def word64 : Draw (BitVec 64) := do
  return (← Source.next64).toBitVec

/-- The position of one of an item and `n` others. -/
def index (n : Nat) : Draw (Fin (n + 1)) :=
  scaled word64 (shiftedZone 64 (n + 1))

/-- A number from zero to `n`, from a word of 32 bits. -/
def index32 (n : Nat) : Draw (Fin (n + 1)) :=
  scaled word32 (shiftedZone 32 (n + 1))

/-- A number from zero to a small `n`. -/
def small (n : Nat) : Draw (Fin (n + 1)) :=
  scaled word32 (fullZone 32 (n + 1))

/-- The position of one of `n` items, or zero if there are none. -/
def position : Nat → Draw Nat
  | 0 => return 0
  | n + 1 => do
    let i ← index n
    return i

/-- A 64-bit number from `low` to `high`, ends included. -/
def between64 (low high : UInt64) : Draw UInt64 :=
  match (high - low + 1).toNat with
  | 0 => Source.next64
  | n + 1 => do
    let i ← index n
    return low + UInt64.ofNat i

/-- A 32-bit signed number from `low` to `high`, ends included. -/
def between32 (low high : Int32) : Draw Int32 :=
  match (high - low + 1).toUInt32.toNat with
  | 0 => do
    let word ← Source.next
    return word.toInt32
  | n + 1 => do
    let i ← index32 n
    return low + (UInt32.ofNat i).toInt32

/-- The uppermost bit of a word. -/
def coin : Draw Bool := do
  return (← Source.next) >>> 31 = 1

/-- True with probability `p`. Certainty needs no draw. -/
def chance (p : Float) : Draw Bool := do
  if p == 1.0 then return true
  else return (← Source.next64) < (p * 18446744073709551616.0).toUInt64

/-- A number from zero up to one, from the upper bits of a word. -/
def unitFloat : Draw Float32 := do
  return Float32.ofBits (((← Source.next) >>> 9) ||| 0x3f800000) - 1.0

/-- A number from `low` up to `high`; a result that rounding has carried to `high` is refused. -/
def betweenFloats (low high : Float32) : Draw Float32 :=
  insist do
    let r := (← unitFloat) * (high - low) + low
    return if r < high then some r else none

end GameGrammar.Random

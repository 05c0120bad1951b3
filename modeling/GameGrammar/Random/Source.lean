import GameGrammar.Word.Mixing

/-! # The random source

A source is a keyed stream of 32-bit words: block after block of the ChaCha cipher with twelve
rounds, read in order and without gaps. Equal sources yield equal draws. -/

namespace GameGrammar.Random

/-! ## The cipher -/

/-- A round over the columns and one over the diagonals. -/
def doubleRound : Words → Words :=
  Words.round Words.rotateLeft Words.zero

/-- Twelve rounds. -/
def mix (s : Words) : Words :=
  doubleRound (doubleRound (doubleRound (doubleRound (doubleRound (doubleRound s)))))

/-- The eight words of a key. -/
abbrev Key :=
  Vector UInt32 8

/-- The words before the key. -/
def opening : Vector UInt32 4 :=
  #v[0x61707865, 0x3320646e, 0x79622d32, 0x6b206574]

/-- Block number `counter` of the stream of `key`. -/
def block (key : Key) (counter : UInt64) : Words :=
  let start : Words := opening ++ key ++ #v[counter.toUInt32, (counter >>> 32).toUInt32, 0, 0]
  Vector.zipWith (· + ·) (mix start) start

/-! ## The stream -/

structure Source where
  key : Key
  /-- The number of the first block that has not been started. -/
  counter : UInt64
  /-- The words of the current block that have not been read. -/
  pending : List UInt32

/-- A computation that draws from a source. -/
abbrev Draw (α : Type) :=
  StateM Source α

namespace Source

def ofKey (key : Key) : Source :=
  ⟨key, 0, []⟩

/-- The next word of the stream. -/
def next : Draw UInt32 := fun s =>
  match s.pending with
  | w :: rest => (w, { s with pending := rest })
  | [] =>
    let b := block s.key s.counter
    (b.first, ⟨s.key, s.counter + 1, b.toList.tail⟩)

/-- The next two words as one number, the lower half first. -/
def next64 : Draw UInt64 := do
  let low ← next
  let high ← next
  return (high.toUInt64 <<< 32) ||| low.toUInt64

/-! ## Seeds -/

/-- A step of the generator that expands a seed. -/
def seedStep (s : UInt64) : UInt64 :=
  s * 6364136223846793005 + 11634580027462260723

/-- The word that the generator shows in state `s`: the upper bits, folded and then rotated by
the five uppermost. -/
def seedWord (s : UInt64) : UInt32 :=
  let folded := (((s >>> 18) ^^^ s) >>> 27).toUInt32
  let turn := (s >>> 59).toUInt32
  (folded >>> turn) ||| (folded <<< ((32 - turn) &&& 31))

/-- The source that a 64-bit seed stands for. -/
def seeded (seed : UInt64) : Source :=
  let s1 := seedStep seed
  let s2 := seedStep s1
  let s3 := seedStep s2
  let s4 := seedStep s3
  let s5 := seedStep s4
  let s6 := seedStep s5
  let s7 := seedStep s6
  let s8 := seedStep s7
  ofKey #v[seedWord s1, seedWord s2, seedWord s3, seedWord s4,
    seedWord s5, seedWord s6, seedWord s7, seedWord s8]

end Source

end GameGrammar.Random

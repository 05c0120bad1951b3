/-! # Mixing words

Ciphers and digests of one family keep sixteen words of 32 bits and mix four of them at a time
by additions, exclusive ors and rotations. -/

namespace GameGrammar

/-- The sixteen words of a state. -/
abbrev Words :=
  Vector UInt32 16

namespace Words

def rotateLeft (x n : UInt32) : UInt32 :=
  (x <<< n) ||| (x >>> (32 - n))

def rotateRight (x n : UInt32) : UInt32 :=
  (x >>> n) ||| (x <<< (32 - n))

/-- Changes one word. -/
def update (s : Words) (i : Fin 16) (x : UInt32) : Words :=
  s.set i x

/-- Mixes four words, and two more from outside, turning them by 16, 12, 8 and 7 places. -/
def mix (turn : UInt32 → UInt32 → UInt32) (x y : UInt32) (a b c d : Fin 16) (s : Words) :
    Words :=
  let s := s.update a (s.get a + s.get b + x)
  let s := s.update d (turn (s.get d ^^^ s.get a) 16)
  let s := s.update c (s.get c + s.get d)
  let s := s.update b (turn (s.get b ^^^ s.get c) 12)
  let s := s.update a (s.get a + s.get b + y)
  let s := s.update d (turn (s.get d ^^^ s.get a) 8)
  let s := s.update c (s.get c + s.get d)
  s.update b (turn (s.get b ^^^ s.get c) 7)

/-- Mixes the four columns and then the four diagonals of the state with sixteen words from
outside, two at a time. -/
def round (turn : UInt32 → UInt32 → UInt32) (m s : Words) : Words :=
  let s := mix turn (m.get 0) (m.get 1) 0 4 8 12 s
  let s := mix turn (m.get 2) (m.get 3) 1 5 9 13 s
  let s := mix turn (m.get 4) (m.get 5) 2 6 10 14 s
  let s := mix turn (m.get 6) (m.get 7) 3 7 11 15 s
  let s := mix turn (m.get 8) (m.get 9) 0 5 10 15 s
  let s := mix turn (m.get 10) (m.get 11) 1 6 11 12 s
  let s := mix turn (m.get 12) (m.get 13) 2 7 8 13 s
  mix turn (m.get 14) (m.get 15) 3 4 9 14 s

/-- The words in the order in which the next round of a digest reads them. -/
def reordered (m : Words) : Words :=
  #v[m.get 2, m.get 6, m.get 3, m.get 10, m.get 7, m.get 0, m.get 4, m.get 13,
    m.get 1, m.get 11, m.get 12, m.get 5, m.get 9, m.get 14, m.get 15, m.get 8]

def zero : Words :=
  Vector.replicate 16 0

def first (s : Words) : UInt32 :=
  s.get 0

end Words

end GameGrammar

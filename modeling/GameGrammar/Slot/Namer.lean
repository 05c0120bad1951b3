import GameGrammar.Digest.Blake
import GameGrammar.Random.Uniform

/-! # Names of games

The name of a game is made from the hash of its text, so that equal texts have equal names. -/

namespace GameGrammar

/-- Makes a name of the given length from a hash. -/
abbrev Namer :=
  UInt64 → Nat → String

namespace Namer

def syllables : List String := [
  "ba", "be", "bo", "da", "de", "di", "do", "fa", "fe", "ga", "go", "ha", "hi", "ka", "ke",
  "ki", "ko", "la", "le", "li", "lo", "lu", "ma", "me", "mi", "mo", "na", "ne", "ni", "no",
  "nu", "pa", "pe", "po", "ra", "re", "ri", "ro", "ru", "sa", "se", "si", "so", "ta", "te",
  "ti", "to", "tu", "va", "ve", "vo", "wa", "we", "ya", "yo", "za", "ze", "zo", "qua", "xe"]

/-- So many syllables, one after another. -/
def drawSyllables : Nat → Random.Draw String
  | 0 => return ""
  | n + 1 => do
    let i ← Random.index (syllables.length - 1)
    return syllables.get i ++ (← drawSyllables n)

/-- The word with its first letter as a capital, for words of the letters a to z. -/
def capitalised (word : String) : String :=
  match word.toList with
  | [] => ""
  | c :: cs => String.ofList (c.toUpper :: cs)

/-- A capitalised word of `length` syllables, one at least, drawn with the hash as the seed. -/
def syllabic : Namer := fun hash length =>
  capitalised (drawSyllables (max length 1) (.seeded hash)).1

end Namer

/-- The first eight bytes of the digest of a text, the lowest first. -/
def textHash (text : String) : UInt64 :=
  let digest := Digest.blake3 text.toUTF8.data
  (digest.toList.take 8).foldr (fun byte hash => hash * 256 + byte.toUInt64) 0

end GameGrammar

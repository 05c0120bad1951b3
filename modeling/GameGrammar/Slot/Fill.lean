import GameGrammar.Slot.Namer
import GameGrammar.Slot.Pool

/-! # Filling slots

A completed text has a slot wherever the marker `string` stands between delimiters. Filling
goes through the text once, from left to right, and puts a quoted value into each slot. Which
value depends on the form that the slot belongs to. -/

namespace GameGrammar

/-! ## The form around a position

The text before a position is held in reverse, so that looking back is looking ahead. -/

/-- The text after the nearest parenthesis to the left that is still open at the position.
`closed` counts the closed forms that are being passed over. -/
def openForm? (closed : Nat) : List Char → List Char → Option (List Char)
  | [], _ => none
  | ')' :: before, after => openForm? (closed + 1) before (')' :: after)
  | '(' :: before, after =>
    match closed with
    | 0 => some after
    | closed + 1 => openForm? closed before ('(' :: after)
  | c :: before, after => openForm? closed before (c :: after)

/-- The text up to a blank or a parenthesis. -/
def headToken (s : List Char) : List Char :=
  s.takeWhile fun c => !(Text.isBlank c || c == '(' || c == ')')

/-- The head of the innermost form that is open at the position, or the first word of the text
if none is. -/
def enclosingName (before after : List Char) : List Char :=
  match openForm? 0 before after with
  | some rest => headToken rest
  | none => Text.firstWord (before.reverse ++ after)

/-! ## Slots -/

def slotMarker : List Char :=
  ['s', 't', 'r', 'i', 'n', 'g']

/-- The marker is a slot if a space, a colon or a brace stands before it and a space or a
closing bracket behind it. -/
def isSlot (before after : List Char) : Bool :=
  before.head?.any (fun c => c == ' ' || c == ':' || c == '{') &&
    after.head?.any (fun c => c == ' ' || c == ')' || c == '}')

/-- How many syllables the name of a game has. -/
def identityLength : Nat :=
  4

/-- Heads of the forms whose slot is the name of the game. -/
def identityHeads : List String :=
  ["game", "match", "subgame"]

def isIdentityHead (owner : List Char) : Bool :=
  identityHeads.any fun head => Text.sameLetters head.toList owner

/-- What is drawn for slots, from states of type `ρ`. A draw ends with a result in its range;
nothing else is known of it. -/
class Sampler (ρ : Type) where
  /-- One of the letters A to Z, counted from zero. -/
  letter : StateM ρ (Fin 26)
  /-- A number from 0 to 25. -/
  number : StateM ρ (Fin 26)
  /-- A position in a list that has one item and `n` others. -/
  position (n : Nat) : StateM ρ (Fin (n + 1))

instance : Sampler Random.Source where
  letter := Random.small 25
  number := Random.index32 25
  position := Random.index

/-- Where the values of slots come from. -/
structure Values where
  pool : Pool := .standard
  namer : Namer := .syllabic

namespace Values

variable {ρ : Type} [Sampler ρ]

/-- A letter and a number, as on the edges of a board. -/
def coordinate : StateM ρ String := do
  let letter ← Sampler.letter
  let number ← Sampler.number
  return String.ofList [Char.ofNat (65 + letter)] ++ toString number.val

/-- The value for the slot that begins at a position. The name of a game depends on the whole
text as it stands. -/
def value (v : Values) (before after : List Char) : StateM ρ String :=
  let owner := enclosingName before after
  if isIdentityHead owner then
    return v.namer (textHash (String.ofList (before.reverse ++ after))) identityLength
  else
    match v.pool.get? (String.ofList owner) with
    | some (first :: others) => do
      let i ← Sampler.position others.length
      return (first :: others).get i
    | _ => coordinate

/-- Fills the slots of the remaining text, given the reverse of the text before it. -/
def fillFrom (v : Values) : List Char → List Char → StateM ρ (List Char)
  | before, 's' :: 't' :: 'r' :: 'i' :: 'n' :: 'g' :: rest =>
    if isSlot before rest then do
      let value ← v.value before (slotMarker ++ rest)
      v.fillFrom ('"' :: value.toList.reverse ++ '"' :: before) rest
    else v.fillFrom (slotMarker.reverse ++ before) rest
  | before, c :: rest => v.fillFrom (c :: before) rest
  | before, [] => return before.reverse

/-- The trimmed text with a value in each slot. -/
def fill (v : Values) (text : String) : StateM ρ String := do
  let filled ← v.fillFrom [] (Text.trim text.toList)
  return String.ofList filled

end Values

end GameGrammar

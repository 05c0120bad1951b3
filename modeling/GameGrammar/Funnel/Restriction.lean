import GameGrammar.Funnel.Engine

/-! # Restrictions

A restriction rules out candidates for their structure: by their text, before they are parsed,
or by what is known about the compiled game. -/

namespace GameGrammar

inductive Restriction where
  | requirePlay
  | requireEnd
  | forbidMatch
  | forbidBoardlessText
  | forbidSubgames
  | forbidBoardless
  | forbidDeductionPuzzle
  | forbidCards
  | forbidDominoes
  | forbidLargePiece
  | requireAlternating
  | forbidHiddenInformation
  deriving DecidableEq

/-- The word stands somewhere in the text. -/
def occursIn (word : List Char) : List Char → Bool
  | [] => word.isEmpty
  | c :: cs => word.isPrefixOf (c :: cs) || occursIn word cs

/-- The text mentions the word. -/
def mentions (text word : String) : Bool :=
  occursIn word.toList text.toList

namespace Restriction

def all : List Restriction :=
  [.requirePlay, .requireEnd, .forbidMatch, .forbidBoardlessText, .forbidSubgames,
    .forbidBoardless, .forbidDeductionPuzzle, .forbidCards, .forbidDominoes, .forbidLargePiece,
    .requireAlternating, .forbidHiddenInformation]

/-- Whether the restriction is about the text. -/
def textual : Restriction → Bool
  | .requirePlay | .requireEnd | .forbidMatch | .forbidBoardlessText => true
  | _ => false

def rejectsText : Restriction → String → Bool
  | .requirePlay, text => !mentions text "(play"
  | .requireEnd, text => !mentions text "(end"
  | .forbidMatch, text => mentions text "(match"
  | .forbidBoardlessText, text => mentions text "boardless"
  | _, _ => false

def rejectsGame : Restriction → Game → Bool
  | .forbidSubgames, g => g.subgames
  | .forbidBoardless, g => g.boardless
  | .forbidDeductionPuzzle, g => g.deductionPuzzle
  | .forbidCards, g => g.cards
  | .forbidDominoes, g => g.dominoes
  | .forbidLargePiece, g => g.largePiece
  | .requireAlternating, g => !g.alternating
  | .forbidHiddenInformation, g => g.hiddenInformation
  | _, _ => false

end Restriction

/-- Restrictions in the order in which they are checked, each once. -/
structure Restrictions where
  members : List Restriction := []
  deriving DecidableEq

namespace Restrictions

/-- Adds a restriction at the end, unless it is there already. -/
def insert (rs : Restrictions) (r : Restriction) : Restrictions :=
  if r ∈ rs.members then rs else ⟨rs.members ++ [r]⟩

def ofList (members : List Restriction) : Restrictions :=
  members.foldl insert {}

/-- A game is played and ends, and is not a match of several games. -/
def standard : Restrictions :=
  ofList [.requirePlay, .requireEnd, .forbidMatch]

/-- Single games on a board with alternating moves, open information and ordinary pieces. -/
def strict : Restrictions :=
  ofList Restriction.all

def contains (rs : Restrictions) (r : Restriction) : Bool :=
  rs.members.contains r

/-- The first restriction that the text violates. -/
def textViolation? (rs : Restrictions) (text : String) : Option Restriction :=
  rs.members.find? (·.rejectsText text)

/-- The first restriction that the game violates. -/
def gameViolation? (rs : Restrictions) (game : Game) : Option Restriction :=
  rs.members.find? (·.rejectsGame game)

end Restrictions

end GameGrammar

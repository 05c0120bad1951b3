import GameGrammar.Text.Case

/-! # Value pools

A pool lists, for the heads of forms, the values that may fill a slot of such a form. A value
that is listed twice is twice as likely. Heads are compared in lower case. -/

namespace GameGrammar

structure Pool where
  /-- Heads in lower case, each once, with their values in the order in which they came. -/
  entries : List (String × List String)

namespace Pool

def empty : Pool :=
  ⟨[]⟩

/-- Appends values to the entry of a key, which is made if there is none. -/
def extend (key : String) (values : List String) :
    List (String × List String) → List (String × List String)
  | [] => [(key, values)]
  | (k, old) :: rest =>
    if k = key then (k, old ++ values) :: rest else (k, old) :: extend key values rest

/-- Lists the same values for several heads. -/
def add (p : Pool) (heads values : List String) : Pool :=
  ⟨heads.foldl (fun entries head => extend (Text.lower head) values entries) p.entries⟩

def ofGroups (groups : List (List String × List String)) : Pool :=
  groups.foldl (fun p (heads, values) => p.add heads values) empty

def size (p : Pool) : Nat :=
  p.entries.length

/-- The values for a head, unless there are none. -/
def get? (p : Pool) (head : String) : Option (List String) :=
  match (p.entries.find? (·.1 == Text.lower head)).map (·.2) with
  | some (v :: values) => some (v :: values)
  | _ => none

/-- Names of players, pieces, regions, tracks, votes, proposals and hints. -/
def standard : Pool := ofGroups [
  (["player"], ["A", "A", "A", "A", "B", "B", "B", "B", "C", "C", "D"]),
  (["piece", "hop", "slide", "fromTo", "place", "leap", "step", "shoot", "promotion", "count"],
    ["Disc", "Disc", "Disc", "Disc", "Disc0", "Disc0", "Disc1", "Disc1", "Disc2", "Disc2",
      "Disc3", "Disc3", "Disc4", "Disc4", "Disc5", "Disc6", "DiscA", "DiscB", "DiscA1", "DiscB1",
      "DiscA2", "DiscB2", "Pawn", "Pawn", "Pawn0", "Pawn1", "Pawn2", "Pawn3", "Pawn4", "King",
      "King0", "King1", "King2", "King3"]),
  (["regions", "region", "sites"],
    ["Region", "Region0", "Region1", "Region2", "Region3", "Region4"]),
  (["track"], ["Track", "Track0", "Track1", "Track2", "Track3", "Track4"]),
  (["vote"], ["Yes", "No", "Maybe"]),
  (["propose"], ["Win", "Draw", "Loss", "Tie", "Pass"]),
  (["hints"], ["Hints", "Hints0", "Hints1", "Hints2", "Hints3"])]

end Pool

end GameGrammar

/-! # Disks

A disk is a tree of directories and files. A path is a text in which slashes stand between
names; a single dot stands for the directory itself and two dots for the one above. Every piece
of a path but the last must lead to a directory that is there, whatever comes after it. -/

namespace GameGrammar

/-! ## Paths -/

/-- A place on a disk: the names on the way from the top. -/
abbrev Place :=
  List String

/-- The pieces of a text between slashes. -/
def pieces : List Char → List (List Char)
  | [] => [[]]
  | c :: cs =>
    if c = '/' then [] :: pieces cs
    else
      match pieces cs with
      | [] => [[c]]
      | first :: rest => (c :: first) :: rest

/-- A path extended by another one, which takes its place if it begins at the top. -/
def joinPath (path more : String) : String :=
  if path = "" || more.toList.head? = some '/' then more
  else if path.toList.getLast? = some '/' then path ++ more
  else path ++ "/" ++ more

/-- Why a path cannot be followed. -/
inductive PathError where
  | missing
  | notDirectory
  | isDirectory
  | tooLong
  | nullCharacter
  deriving DecidableEq

namespace PathError

def message : PathError → String
  | .missing => "No such file or directory (os error 2)"
  | .notDirectory => "Not a directory (os error 20)"
  | .isDirectory => "Is a directory (os error 21)"
  | .tooLong => "File name too long (os error 36)"
  | .nullCharacter => "file name contained an unexpected NUL byte"

end PathError

/-! ## Disks -/

inductive Entry (α : Type) where
  | directory
  | file (content : α)
  deriving DecidableEq

/-- How many bytes names and paths may have. -/
structure Limits where
  name : Nat := 255
  /-- Without this limit paths may be of any length. -/
  path : Option Nat := some 4095

/-- What lies at the places of a disk. The top is always a directory. -/
structure Disk (α : Type) where
  entries : List (Place × Entry α) := []
  limits : Limits := {}
  /-- Where paths begin that do not begin at the top. -/
  here : Place := []

namespace Disk

variable {α : Type}

def get? (d : Disk α) (p : Place) : Option (Entry α) :=
  if p = [] then some .directory else (d.entries.find? (·.1 == p)).map (·.2)

/-- Puts an entry at a place, instead of the one that may be there. -/
def put (d : Disk α) (p : Place) (e : Entry α) : Disk α :=
  { d with entries := d.entries.filter (·.1 != p) ++ [(p, e)] }

def nameFits (d : Disk α) (name : String) : Bool :=
  name.utf8ByteSize ≤ d.limits.name

/-! ## Following paths -/

/-- A path that is followed at all: its start and its pieces. -/
def route (d : Disk α) (path : String) : Except PathError (Place × List (List Char)) :=
  let cs := path.toList
  if cs.contains '\x00' then .error .nullCharacter
  else if cs = [] then .error .missing
  else if d.limits.path.any (· < path.utf8ByteSize) then .error .tooLong
  else .ok (if cs.head? = some '/' then [] else d.here, pieces cs)

/-- The place that a piece stands for by its form alone: this one or the one above. -/
def turn? (p : Place) (piece : List Char) : Option Place :=
  if piece = [] || piece = ['.'] then some p
  else if piece = ['.', '.'] then some p.dropLast
  else none

/-- The directory that a piece of a path leads to. -/
def enter (d : Disk α) (p : Place) (piece : List Char) : Except PathError Place :=
  match turn? p piece with
  | some q => .ok q
  | none =>
    let q := p ++ [String.ofList piece]
    if !d.nameFits (String.ofList piece) then .error .tooLong
    else
      match d.get? q with
      | some .directory => .ok q
      | some (.file _) => .error .notDirectory
      | none => .error .missing

/-- The directory that the pieces of a path lead to, one after another. -/
def walk (d : Disk α) : Place → List (List Char) → Except PathError Place
  | p, [] => .ok p
  | p, piece :: rest => do d.walk (← d.enter p piece) rest

/-- The place that a path names in an existing directory. Whether anything lies there is left
open. -/
def locate (d : Disk α) (path : String) : Except PathError Place := do
  let (start, steps) ← d.route path
  let parent ← d.walk start steps.dropLast
  let last := steps.getLastD []
  match turn? parent last with
  | some _ => .error .isDirectory
  | none =>
    if d.nameFits (String.ofList last) then .ok (parent ++ [String.ofList last])
    else .error .tooLong

/-! ## Reading and writing -/

/-- The content of a file. -/
def fetch (d : Disk α) (path : String) : Except PathError α := do
  match d.get? (← d.locate path) with
  | some (.file content) => .ok content
  | some .directory => .error .isDirectory
  | none => .error .missing

/-- Writes a file into a directory, in place of the one that may be there. -/
def write (d : Disk α) (path : String) (content : α) : Except PathError (Disk α) := do
  let p ← d.locate path
  match d.get? p with
  | some .directory => .error .isDirectory
  | _ => .ok (d.put p (.file content))

/-- Makes the directory that a piece of a path leads to, unless it is there. -/
def makeStep (d : Disk α) (p : Place) (piece : List Char) :
    Except PathError (Place × Disk α) :=
  match d.enter p piece with
  | .ok q => .ok (q, d)
  | .error .missing =>
    let q := p ++ [String.ofList piece]
    .ok (q, d.put q .directory)
  | .error e => .error e

/-- Makes the directories on a way. What is made stays, even if the way cannot be gone to its
end. -/
def makeWay (d : Disk α) : Place → List (List Char) → Disk α × Option PathError
  | _, [] => (d, none)
  | p, piece :: rest =>
    match d.makeStep p piece with
    | .ok (q, d) => d.makeWay q rest
    | .error e => (d, some e)

/-- Makes a directory and those on the way to it. -/
def makeDirectories (d : Disk α) (path : String) : Disk α × Option PathError :=
  match d.route path with
  | .ok (start, steps) => d.makeWay start steps
  | .error e => (d, some e)

/-- The files below a place, with their contents. -/
def filesBelow (d : Disk α) (p : Place) : List (Place × α) :=
  d.entries.filterMap fun (q, e) =>
    match e with
    | .file content => if p.isPrefixOf q then some (q, content) else none
    | .directory => none

end Disk

end GameGrammar

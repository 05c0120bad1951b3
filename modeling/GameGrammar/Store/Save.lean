import GameGrammar.Store.Disk
import GameGrammar.Text.Class

/-! # The store of candidates

Candidates are kept below a root directory, in one directory for each bucket. Names become
single path components first, so that no name leads out of the root. What the disk refuses is
passed over in silence. -/

namespace GameGrammar

/-- Characters that would end a path component, and control characters, become underscores. -/
def componentChar (c : Char) : Char :=
  if c = '/' || c = '\\' || c = ':' || Text.isControl c then '_' else c

/-- The path component that stands for a name. -/
def component (name : String) : String :=
  let cleaned := String.ofList (name.toList.map componentChar)
  if cleaned = "" || cleaned = "." || cleaned = ".." then "_" else cleaned

namespace Disk

/-- Writes a text to a path after the directory that it lies in has been made. -/
def saveAt (d : Disk String) (directory path text : String) : Disk String :=
  match d.makeDirectories directory with
  | (d, none) => (d.write path text).toOption.getD d
  | (d, some _) => d

/-- Saves a text below the root, under the components of a bucket name and a file name. -/
def save (root text bucket file : String) (d : Disk String) : Disk String :=
  let directory := joinPath root (component bucket)
  d.saveAt directory (joinPath directory (component file)) text

end Disk

end GameGrammar

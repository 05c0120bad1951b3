import GameGrammar.CommandLine.Execution

/-! # The program -/

namespace GameGrammar

open CommandLine

/-- The reason that goes with an error number of the system. The number may come with its sign
turned. -/
def numberedReason (code : UInt32) (details : String) : FileError :=
  match min code (0 - code) with
  | 2 => .path .missing
  | 20 => .path .notDirectory
  | 21 => .path .isDirectory
  | 36 => .path .tooLong
  | number => .other s!"{details} (os error {number})"

/-- What the system says about a file that cannot be read. -/
def systemReason : IO.Error → FileError
  | .noFileOrDirectory _ code details
  | .inappropriateType _ code details
  | .invalidArgument _ code details
  | .permissionDenied _ code details => numberedReason code details
  | e => .other (toString e)

/-- Reads a file, or says why it cannot be read. -/
def readListing (path : String) : IO (Except FileError ByteArray) := do
  try
    return .ok (← IO.FS.readBinFile path)
  catch e =>
    return .error (systemReason e)

/-- A source that nobody can foresee. -/
def unforeseen : IO Random.Source := do
  let bytes ← IO.getRandomBytes 32
  let word (i : Nat) : UInt32 :=
    (List.range 4).foldr (fun j w => w * 256 + (bytes.data.getD (4 * i + j) 0).toUInt32) 0
  return .ofKey (Vector.ofFn fun i : Fin 8 => word i)

def perform (arguments : List String) : IO Output := do
  match readCommand arguments with
  | .error e => return misused e
  | .ok command =>
    let content ← match command.listing? with
      | some path => readListing path
      | none => pure (.error (.path .missing))
    return execute command content (← unforeseen)

end GameGrammar

def main (arguments : List String) : IO UInt32 := do
  let output ← GameGrammar.perform arguments
  IO.print output.stdout
  IO.eprint output.stderr
  return output.exit.toUInt32

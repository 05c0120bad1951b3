import GameGrammar.CommandLine.Arguments
import GameGrammar.Completion.Generate
import GameGrammar.Grammar.Audit
import GameGrammar.Listing.Reader
import GameGrammar.Policy.Random
import GameGrammar.Slot.Fill
import GameGrammar.Store.Disk

/-! # Carrying out commands

A command is carried out on the content of its listing. What it prints and the exit code are
values, so that the same listing and the same random source always give the same output. -/

namespace GameGrammar.CommandLine

/-- What is left behind by a command. -/
structure Output where
  exit : UInt8
  stdout : String
  stderr : String
  deriving DecidableEq

/-- Why there is no listing to read. -/
inductive FileError where
  | path (error : PathError)
  | notText
  | other (reason : String)
  deriving DecidableEq

namespace FileError

def message : FileError → String
  | .path e => e.message
  | .notText => "stream did not contain valid UTF-8"
  | .other reason => reason

end FileError

/-- Why a command has come to nothing. -/
inductive Failure where
  | file (error : FileError)
  | load (error : Listing.LoadError)
  | symbol (error : UnknownSymbol)
  deriving DecidableEq

namespace Failure

def message : Failure → String
  | .file e => e.message
  | .load e => e.message
  | .symbol e => e.message

end Failure

/-- The output that ends in a failure, after the given text. -/
def failed (printed : String) (e : Failure) : Output :=
  ⟨1, printed, s!"error: {e.message}\n"⟩

/-- The text of a file, if it is one. -/
def decodeFile (content : Except FileError ByteArray) : Except FileError String := do
  match String.fromUTF8? (← content) with
  | some text => .ok text
  | none => .error .notText

/-- The grammar in a file. -/
def loadFile (content : Except FileError ByteArray) : Except Failure Grammar := do
  let text ← (decodeFile content).mapError .file
  (Listing.load text).mapError .load

/-! ## Generating -/

/-- The lines of `count` attempts, and the error that has cut them short. The master source
yields a seed for each attempt and, if slots are to be filled, the values for its text. -/
def generateLines (g : Grammar) (symbol : String) (fill : Bool) :
    (count : Nat) → (player master : Random.Source) → List String × Option UnknownSymbol
  | 0, _, _ => ([], none)
  | count + 1, player, master =>
    let (seed, master) := Random.Source.next64 master
    match g.generate Odds.standard.policy symbol seed player with
    | (.error e, _) => ([], some e)
    | (.ok none, player) => generateLines g symbol fill count player master
    | (.ok (some raw), player) =>
      let (text, master) := if fill then Values.fill {} raw master else (raw, master)
      let (lines, e) := generateLines g symbol fill count player master
      (text :: lines, e)

/-- Lines of text, each with its end. -/
def joinLines (lines : List String) : String :=
  String.join (lines.map (· ++ "\n"))

def generate (g : Grammar) (symbol : String) (count : Nat) (fill : Bool)
    (master : Random.Source) : Output :=
  match generateLines g symbol fill count (.seeded 0) master with
  | (lines, none) => ⟨0, joinLines lines, ""⟩
  | (lines, some e) => failed (joinLines lines) (.symbol e)

/-! ## Commands -/

def usage : String :=
  joinLines [
    "Generate random game descriptions from a grammar",
    "",
    "Usage: generate --grammar FILE [--symbol NAME] [--count N] [--seed N] [--no-instantiate]",
    "       audit --grammar FILE"]

/-- The file that a command reads. -/
def Command.listing? : Command → Option String
  | .generate listing .. => some listing
  | .audit listing => some listing
  | .help => none

/-- Carries out a command on the content of its file. A master source is made from the seed,
or is the given one if the command has none. -/
def execute (c : Command) (content : Except FileError ByteArray) (master : Random.Source) :
    Output :=
  match c with
  | .help => ⟨0, usage, ""⟩
  | .audit _ =>
    match loadFile content with
    | .ok g => ⟨0, g.audit.render ++ "\n", ""⟩
    | .error e => failed "" e
  | .generate _ symbol count seed fill =>
    match loadFile content with
    | .ok g => generate g symbol count fill ((seed.map Random.Source.seeded).getD master)
    | .error e => failed "" e

/-- The output for arguments that make no command. -/
def misused (e : UsageError) : Output :=
  ⟨2, "", s!"error: {e.message}\n\n" ++ usage⟩

end GameGrammar.CommandLine

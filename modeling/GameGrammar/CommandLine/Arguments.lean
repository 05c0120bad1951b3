/-! # Command line arguments

There are two commands, each with options of its own. An option stands by itself or takes a
value, which follows it or is joined to it by an equals sign. -/

namespace GameGrammar.CommandLine

/-- What the command line asks for. -/
inductive Command where
  /-- Prints generated texts, one a line. -/
  | generate (listing symbol : String) (count : Nat) (seed : Option UInt64) (fill : Bool)
  /-- Reports on a grammar. -/
  | audit (listing : String)
  | help
  deriving DecidableEq

/-- Why the arguments make no command. -/
inductive UsageError where
  | noCommand
  | unknownCommand (word : String)
  | unexpected (word : String)
  | repeatedOption (name : String)
  | missingValue (name : String)
  | needlessValue (name : String)
  | invalidValue (name value : String)
  | missingOption (name : String)
  deriving DecidableEq

namespace UsageError

def message : UsageError → String
  | .noCommand => "a command is needed: generate or audit"
  | .unknownCommand word => s!"unrecognized subcommand '{word}'"
  | .unexpected word => s!"unexpected argument '{word}' found"
  | .repeatedOption name => s!"the argument '{name}' cannot be used multiple times"
  | .missingValue name => s!"a value is required for '{name}' but none was supplied"
  | .needlessValue name => s!"no value is wanted for '{name}'"
  | .invalidValue name value => s!"invalid value '{value}' for '{name}'"
  | .missingOption name => s!"the argument '{name}' was not provided"

end UsageError

/-! ## Options -/

inductive OptionName where
  | grammar
  | symbol
  | count
  | seed
  | noInstantiate
  deriving DecidableEq

namespace OptionName

def text : OptionName → String
  | .grammar => "--grammar"
  | .symbol => "--symbol"
  | .count => "--count"
  | .seed => "--seed"
  | .noInstantiate => "--no-instantiate"

end OptionName

def generateOptions : List OptionName :=
  [.grammar, .symbol, .count, .seed, .noInstantiate]

def auditOptions : List OptionName :=
  [.grammar]

/-- A whole number of up to 64 bits: digits, perhaps after a plus sign. -/
def number? (text : String) : Option UInt64 :=
  let digits := match text.toList with
    | '+' :: rest => rest
    | cs => cs
  if digits.isEmpty || !digits.all Char.isDigit then none
  else
    let n : Nat := digits.foldl (fun n d => 10 * n + (d.toNat - 48)) 0
    if n < 18446744073709551616 then some n.toUInt64 else none

/-- Whether the text may be the value of an option. -/
def validValue (name : OptionName) (text : String) : Bool :=
  match name with
  | .grammar => text != ""
  | .symbol => true
  | .count | .seed => (number? text).isSome
  | .noInstantiate => text == ""

/-- A word that begins with a hyphen is no value, unless the hyphen is all of it. -/
def looksLikeOption (word : String) : Bool :=
  word.startsWith "-" && word != "-"

/-- The option values read so far, latest first. -/
abbrev Given :=
  List (OptionName × String)

/-- Splits a word at its first equals sign. -/
def splitValue (word : String) : String × Option String :=
  let cs := word.toList
  match cs.dropWhile (· != '=') with
  | [] => (word, none)
  | _ :: value => (String.ofList (cs.takeWhile (· != '=')), some (String.ofList value))

/-- Takes up a value for an option. -/
def give (name : OptionName) (value : String) (given : Given) : Except UsageError Given :=
  if !validValue name value then .error (.invalidValue name.text value)
  else if given.any (·.1 == name) then .error (.repeatedOption name.text)
  else .ok ((name, value) :: given)

def asksForHelp (word : String) : Bool :=
  word == "--help" || word.startsWith "-h"

/-- Reads options, one of which may wait for its value; none if help is asked for. An option
that waits takes no other option for its value, and no request for help either. -/
def readOptions (known : List OptionName) :
    (waiting : Option OptionName) → List String → Given → Except UsageError (Option Given)
  | none, [], given => .ok (some given)
  | some name, [], _ => .error (.missingValue name.text)
  | some name, word :: rest, given =>
    if looksLikeOption word then .error (.missingValue name.text)
    else
      match give name word given with
      | .ok given => readOptions known none rest given
      | .error e => .error e
  | none, word :: rest, given =>
    if word = "--" then
      match rest with
      | [] => .ok (some given)
      | w :: _ => .error (.unexpected w)
    else if asksForHelp word then .ok none
    else
      match known.find? (·.text == (splitValue word).1), (splitValue word).2 with
      | none, _ => .error (.unexpected word)
      | some .noInstantiate, some _ => .error (.needlessValue word)
      | some .noInstantiate, none =>
        match give .noInstantiate "" given with
        | .ok given => readOptions known none rest given
        | .error e => .error e
      | some name, none => readOptions known (some name) rest given
      | some name, some value =>
        match give name value given with
        | .ok given => readOptions known none rest given
        | .error e => .error e

/-! ## Commands -/

def Given.value? (given : Given) (name : OptionName) : Option String :=
  (given.find? (·.1 == name)).map (·.2)

/-- The command that the options make. -/
def ofGenerate (given : Given) : Except UsageError Command :=
  match given.value? .grammar with
  | none => .error (.missingOption OptionName.grammar.text)
  | some listing => .ok <| .generate listing
    ((given.value? .symbol).getD "game")
    ((((given.value? .count).bind number?).map UInt64.toNat).getD 1)
    ((given.value? .seed).bind number?)
    (given.value? .noInstantiate).isNone

def ofAudit (given : Given) : Except UsageError Command :=
  match given.value? .grammar with
  | none => .error (.missingOption OptionName.grammar.text)
  | some listing => .ok (.audit listing)

/-- Help on all commands or on one of them. -/
def helpOn : List String → Except UsageError Command
  | [] => .ok .help
  | word :: rest =>
    if word = "generate" || word = "audit" || word = "help" then
      match rest with
      | [] => .ok .help
      | word :: _ => .error (.unknownCommand word)
    else .error (.unknownCommand word)

/-- The command that the arguments ask for. -/
def readCommand : List String → Except UsageError Command
  | [] => .error .noCommand
  | word :: rest =>
    if word = "generate" then do
      match ← readOptions generateOptions none rest [] with
      | some given => ofGenerate given
      | none => .ok .help
    else if word = "audit" then do
      match ← readOptions auditOptions none rest [] with
      | some given => ofAudit given
      | none => .ok .help
    else if word = "help" then helpOn rest
    else if asksForHelp word then .ok .help
    else if looksLikeOption word then .error (.unexpected word)
    else .error (.unknownCommand word)

end GameGrammar.CommandLine

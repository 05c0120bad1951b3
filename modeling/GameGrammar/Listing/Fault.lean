import GameGrammar.Listing.Token

/-! # Faults of a listing

The reader of a listing commits itself as soon as a construct can be told by its first token:
from then on anything unexpected is a fault, which names what was expected and where. Before
that the construct is simply absent and another one may be tried in its place. -/

namespace GameGrammar.Listing

/-! ## Faults -/

/-- What the reader was prepared to see. -/
inductive Expected where
  | definitionSign
  | alternative
  | head
  | optionalArgument
  | argumentAlternatives
  | argumentSymbol
  | closingParenthesis
  | closingBracket
  | closingBrace
  deriving DecidableEq

namespace Expected

def text : Expected → String
  | .definitionSign => "`::=`"
  | .alternative => "alternative"
  | .head => "constructor head"
  | .optionalArgument => "optional argument"
  | .argumentAlternatives => "argument alternatives"
  | .argumentSymbol => "argument symbol"
  | .closingParenthesis => "`)`"
  | .closingBracket => "`]`"
  | .closingBrace => "`\x7d`"

end Expected

/-- Where reading stopped for good, and what would have let it go on, innermost first. -/
structure Fault where
  expected : List Expected
  unread : List Char
  deriving DecidableEq

namespace Fault

/-- The fault as seen from a construct around it. -/
def within (e : Expected) (f : Fault) : Fault :=
  { f with expected := f.expected ++ [e] }

end Fault

/-- A listing that cannot be read. -/
structure ParseError where
  expected : List Expected
  /-- Counted from one. -/
  line : Nat
  deriving DecidableEq

namespace ParseError

def reason (e : ParseError) : String :=
  if e.expected = [] then "" else "expected " ++ ", ".intercalate (e.expected.map Expected.text)

def message (e : ParseError) : String :=
  s!"parse error on line {e.line}: " ++ e.reason

end ParseError

/-! ## Results of reading

A committed reader either returns its construct and the text after it, or a fault. -/

/-- What an attempt to read a construct comes to. -/
inductive Reading (α : Type) where
  /-- The construct, and the text after it. -/
  | found (value : α) (rest : List Char)
  /-- Nothing that commits the reader; the text is where the attempt gave up. -/
  | absent (stop : List Char)
  | broken (fault : Fault)

namespace Reading

/-- From here on the construct has to be there. -/
def required (e : Expected) {α : Type} : Reading α → Except Fault (α × List Char)
  | .found value rest => .ok (value, rest)
  | .absent stop => .error ⟨[e], stop⟩
  | .broken f => .error (f.within e)

def ofCommitted {α : Type} : Except Fault (α × List Char) → Reading α
  | .ok (value, rest) => .found value rest
  | .error f => .broken f

def map {α β : Type} (f : α → β) : Reading α → Reading β
  | .found value rest => .found (f value) rest
  | .absent stop => .absent stop
  | .broken fault => .broken fault

end Reading

/-- A single character that has to stand next, after blanks. -/
def closing (c : Char) (e : Expected) (s : List Char) : Except Fault (Unit × List Char) :=
  match skip s with
  | [] => .error ⟨[e], []⟩
  | d :: rest => if d = c then .ok ((), rest) else .error ⟨[e], d :: rest⟩

theorem closing_length {c : Char} {e : Expected} {s rest : List Char}
    (h : closing c e s = .ok ((), rest)) : rest.length < s.length := by
  have hs := skip_length s
  unfold closing at h
  split at h
  · cases h
  · next he =>
    rw [he] at hs
    split at h
    · cases h; simp only [List.length_cons] at hs; omega
    · cases h

end GameGrammar.Listing

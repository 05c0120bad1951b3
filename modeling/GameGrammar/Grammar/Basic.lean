/-! # Rules of a game grammar

A rule names a set of alternatives. An alternative is a piece of final text, a reference to
another rule, or a form: a head with argument slots, written in parentheses. -/

namespace GameGrammar

/-! ## Leaf categories -/

/-- Kinds of slot that a completed text keeps as a marker instead of expanding a rule. -/
inductive Category where
  | string
  | int
  | boolean
  | float
  deriving DecidableEq, Inhabited

namespace Category

/-- The word that stands for the category, in a listing and in a completed text. -/
def marker : Category → String
  | .string => "string"
  | .int => "int"
  | .boolean => "boolean"
  | .float => "float"

def all : List Category :=
  [.string, .int, .boolean, .float]

/-- Only the bare word names a category: a delimited one names a rule. -/
def ofToken? (token : String) : Option Category :=
  all.find? (·.marker == token)

end Category

/-! ## Arguments, clauses, rules -/

/-- One argument slot of a form. -/
structure Argument where
  /-- A rule name, or the word of a leaf category. -/
  token : String
  /-- Written as `label:` before the value. -/
  label : Option String := none
  optional : Bool := false
  /-- How many layers of braces: a value, a collection, a collection of collections. -/
  nesting : UInt8 := 0
  /-- Zero for an independent argument; arguments that share a positive number exclude one
  another. -/
  group : UInt32 := 0
  deriving DecidableEq, Inhabited

/-- One alternative of a rule. -/
inductive Clause where
  | terminal (text : String)
  | reference (target : String)
  | form (head : String) (args : List Argument)
  deriving DecidableEq, Inhabited

structure Rule where
  name : String
  clauses : List Clause
  deriving DecidableEq, Inhabited

/-! ## Written form -/

/-- The same character `n` times over. -/
def repeated (c : Char) (n : Nat) : String :=
  String.ofList (List.replicate n c)

namespace Argument

/-- The argument with its label, its braces, and brackets if it is optional. -/
def render (a : Argument) : String :=
  let label := match a.label with
    | some l => l ++ ":"
    | none => ""
  let core :=
    label ++ repeated '{' a.nesting.toNat ++ a.token ++ repeated '}' a.nesting.toNat
  if a.optional then "[" ++ core ++ "]" else core

/-- The argument followed by the number of its group, if it has one. -/
def renderNumbered (a : Argument) : String :=
  if a.group = 0 then a.render else a.render ++ "#" ++ toString a.group.toNat

end Argument

namespace Clause

def args : Clause → List Argument
  | .form _ args => args
  | _ => []

def render : Clause → String
  | .terminal text => text
  | .reference target => target
  | .form head args =>
    "(" ++ head ++ String.join (args.map fun a => " " ++ a.renderNumbered) ++ ")"

end Clause

/-- A name without one leading `<` and one trailing `>`. -/
def undelimited (name : List Char) : List Char :=
  let inner := match name with
    | '<' :: rest => rest
    | _ => name
  match inner.getLast? with
  | some '>' => inner.dropLast
  | _ => inner

namespace Rule

def bareName (r : Rule) : String :=
  String.ofList (undelimited r.name.toList)

/-- The name, the definition sign, and the alternatives between bars. -/
def render (r : Rule) : String :=
  r.name ++ " ::=" ++ " |".intercalate (r.clauses.map fun c => " " ++ c.render)

end Rule

end GameGrammar

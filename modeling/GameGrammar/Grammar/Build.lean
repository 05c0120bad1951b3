import GameGrammar.Grammar.Basic
import GameGrammar.Overflow

/-! # Grammars

A grammar is a list of rules without a defect: every rule has a name of its own and at least
one alternative, and every form has a head. The order of the rules is kept. -/

namespace GameGrammar

/-- Why a list of rules is no grammar. -/
inductive Defect where
  | emptyName
  | noClauses (rule : String)
  | emptyHead (rule : String)
  | duplicateRule (name : String)
  deriving DecidableEq

namespace Defect

def message : Defect → String
  | .emptyName => "rule with an empty name"
  | .noClauses rule => s!"rule '{rule}' has no clauses"
  | .emptyHead rule => s!"constructor with an empty head in rule '{rule}'"
  | .duplicateRule name => s!"duplicate rule name '{name}'"

end Defect

namespace Clause

def headless : Clause → Bool
  | .form head _ => head == ""
  | _ => false

end Clause

namespace Rule

/-- The defect of a rule taken by itself. -/
def defect? (r : Rule) : Option Defect :=
  if r.name = "" then some .emptyName
  else if r.clauses = [] then some (.noClauses r.name)
  else if r.clauses.any Clause.headless then some (.emptyHead r.name)
  else none

end Rule

/-- The first name that stands further to the left already, or among `seen`. -/
def firstRepeated? (seen : List String) : List String → Option String
  | [] => none
  | name :: names =>
    if name ∈ seen then some name else firstRepeated? (name :: seen) names

namespace Grammar

/-- The first defect of a list of rules: defects of single rules come before repeated names. -/
def defect? (rules : List Rule) : Option Defect :=
  match rules.findSome? Rule.defect? with
  | some d => some d
  | none => (firstRepeated? [] (rules.map Rule.name)).map .duplicateRule

end Grammar

/-- A list of rules without a defect. -/
structure Grammar where
  rules : List Rule
  sound : Grammar.defect? rules = none

namespace Grammar

/-- The grammar of the rules, unless they have a defect. -/
def ofRules (rules : List Rule) : Except Defect Grammar :=
  match h : defect? rules with
  | some d => .error d
  | none => .ok ⟨rules, h⟩

def size (g : Grammar) : Nat :=
  g.rules.length

def clauseCount (g : Grammar) : Nat :=
  (g.rules.flatMap (·.clauses)).length

/-- The rule of exactly this name. -/
def rule? (g : Grammar) (name : String) : Option Rule :=
  g.rules.find? (·.name == name)

def render (g : Grammar) : String :=
  s!"Grammar({g.size} rules, {g.clauseCount} clauses)"

end Grammar

/-! ## Building forms -/

/-- The arguments of a form so far and the number that the next group of alternatives gets. -/
structure FormBuilder where
  args : List Argument := []
  nextGroup : UInt32 := 1
  deriving DecidableEq

namespace FormBuilder

/-- Adds one argument. An explicit group number is never given out again. -/
def add (o : Overflow) (b : FormBuilder) (a : Argument) : Option FormBuilder :=
  let next? := if b.nextGroup ≤ a.group then o.succ a.group else some b.nextGroup
  next?.map fun next => { args := b.args ++ [a], nextGroup := next }

/-- Adds arguments that exclude one another, under a number of their own. -/
def addChoice (o : Overflow) (b : FormBuilder) (members : List Argument) : Option FormBuilder :=
  (o.succ b.nextGroup).map fun next =>
    { args := b.args ++ members.map fun a => { a with group := b.nextGroup }
      nextGroup := next }

/-- One request to a builder. -/
inductive Request where
  | argument (token : String)
  | optional (token : String)
  | labelled (label token : String)
  | nested (token : String) (nesting : UInt8)
  | choice (members : List Argument)
  | given (argument : Argument)

/-- The builder after one request. There is none if the program breaks down over the count of
groups. -/
def step (o : Overflow) (b : FormBuilder) : Request → Option FormBuilder
  | .argument token => b.add o { token := token }
  | .optional token => b.add o { token := token, optional := true }
  | .labelled label token => b.add o { token := token, label := some label }
  | .nested token nesting => b.add o { token := token, nesting := nesting }
  | .choice members => b.addChoice o members
  | .given a => b.add o a

/-- The builder after a list of requests. -/
def run (o : Overflow) (requests : List Request) : Option FormBuilder :=
  requests.foldlM (step o) {}

end FormBuilder

end GameGrammar

import GameGrammar.Grammar.Resolve

/-! # Audit

An audit counts rules and alternatives and lists the argument tokens that no rule answers to.
Leaf categories and capitalised words, which are constants, need no rule. -/

namespace GameGrammar

structure Audit where
  ruleCount : Nat
  clauseCount : Nat
  /-- Rule name and token of each argument that resolves to nothing. -/
  unresolved : List (String × String)

namespace Audit

def complete (a : Audit) : Bool :=
  a.unresolved.isEmpty

def render (a : Audit) : String :=
  String.join (a.unresolved.map fun (rule, token) => s!"no rule for {token} (in {rule})\n") ++
    s!"{a.ruleCount} rules with {a.clauseCount} clauses"

end Audit

/-- A token that is expected to have a rule. -/
def needsRule (token : String) : Bool :=
  (Category.ofToken? token).isNone && !(token.toList.head?.any Text.isCapital)

namespace Grammar

/-- The arguments of a rule that should resolve and do not. -/
def danglingArguments (g : Grammar) (r : Rule) : List (String × String) :=
  (r.clauses.flatMap Clause.args).filterMap fun a =>
    if needsRule a.token && (g.resolve a.token).isEmpty then some (r.name, a.token) else none

def audit (g : Grammar) : Audit where
  ruleCount := g.size
  clauseCount := g.clauseCount
  unresolved := g.rules.flatMap g.danglingArguments

end Grammar

end GameGrammar

import GameGrammar.Grammar.Build
import GameGrammar.Text.Case

/-! # Name resolution

A name is looked up with its first character in lower case: first as it stands, then between
delimiters, and last among the local names of all rules without regard to the case of the
letters A to Z. Only the last step can find more than one rule. -/

namespace GameGrammar

/-- The part of a name after its last full stop. -/
def localName (name : List Char) : List Char :=
  (name.reverse.takeWhile (· != '.')).reverse

namespace Rule

/-- The rule's name, without delimiters and namespace, spells `wanted`. -/
def answersTo (wanted : List Char) (r : Rule) : Bool :=
  Text.sameLetters (localName (undelimited r.name.toList)) wanted

end Rule

namespace Grammar

/-- The rules that a name stands for, in the order of the grammar. -/
def resolve (g : Grammar) (name : String) : List Rule :=
  if name = "" then []
  else
    let canonical := Text.lowerFirst name.toList
    match g.rule? (String.ofList canonical) with
    | some r => [r]
    | none =>
      match g.rule? (String.ofList ('<' :: canonical ++ ['>'])) with
      | some r => [r]
      | none => g.rules.filter (Rule.answersTo (undelimited canonical))

end Grammar

end GameGrammar

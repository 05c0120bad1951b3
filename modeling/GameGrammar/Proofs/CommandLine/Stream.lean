import GameGrammar.CommandLine.Execution
import GameGrammar.Proofs.CommandLine.Arguments
import GameGrammar.Proofs.Completion.OneLine
import GameGrammar.Proofs.Funnel.Noninterference
import GameGrammar.Proofs.Funnel.Sequence
import GameGrammar.Proofs.Listing.Normal
import GameGrammar.Proofs.Slot.OneLine

/-! # What the command prints

The command has no engine and no gates, but it draws from its master source in the same order as
a run does. It prints the candidates of the run with the same seed, each on a line. -/

namespace GameGrammar.CommandLine

/-! ## Lines -/

/-- The command fails and prints nothing. -/
structure Output.Fails (out : Output) : Prop where
  exit : out.exit = 1
  stdout : out.stdout = ""

/-! ## Generated lines -/

/-- What the command proposes candidates from. -/
def proposer (g : Grammar) (symbol : String) : Proposer Random.Source where
  grammar := g
  policy := Odds.standard.policy
  startSymbol := symbol
  values := {}

section

variable {g : Grammar} {symbol : String}

end

end GameGrammar.CommandLine

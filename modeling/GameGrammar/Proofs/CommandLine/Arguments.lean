import GameGrammar.CommandLine.Arguments
import GameGrammar.Proofs.Decimal.Characters
import Mathlib.Algebra.Group.Nat.Defs

/-! # Reading back options

An option that is spelled with its value, joined to it or followed by it, is read as the value
of that option, and the options that make a command are read as that command. -/

namespace GameGrammar.CommandLine

/-! ## Numbers -/

end GameGrammar.CommandLine

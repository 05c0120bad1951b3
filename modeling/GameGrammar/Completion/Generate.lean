import GameGrammar.Completion.Engine

/-! # Generation

Generating from a start symbol reseeds the policy and completes the rule that the symbol
stands for; the policy chooses among several. -/

namespace GameGrammar

/-- A start symbol that stands for no rule. -/
structure UnknownSymbol where
  symbol : String
  deriving DecidableEq

namespace UnknownSymbol

def message (e : UnknownSymbol) : String :=
  s!"start symbol '{e.symbol}' matches no grammar rule"

end UnknownSymbol

namespace Grammar

section

variable {ω : Type} [Append ω] [Completion.Output ω]

/-- The dialogue that completes a start symbol, if the symbol stands for a rule. -/
def start? (g : Grammar) (symbol : String) : Option (Dialogue ω) :=
  match g.resolve symbol with
  | [] => none
  | [r] => some (Completion.completion {} g r 0)
  | first :: others => some do
    let i ← Dialogue.question (.rule (first :: others))
    Completion.completion {} g (Completion.pick first others i) 0

/-- One attempt at an output: none if completion fails. An unknown symbol leaves the policy as it
is. -/
def produce {σ : Type} (g : Grammar) (p : Policy σ) (symbol : String) (seed : UInt64) (s : σ) :
    Except UnknownSymbol (Option ω) × σ :=
  match g.start? symbol with
  | none => (.error ⟨symbol⟩, s)
  | some d =>
    let (output, s) := d.run p (p.reseed seed s)
    (.ok output, s)

end

/-- One attempt at a text. -/
def generate {σ : Type} (g : Grammar) (p : Policy σ) (symbol : String) (seed : UInt64) (s : σ) :
    Except UnknownSymbol (Option String) × σ :=
  g.produce p symbol seed s

end Grammar

end GameGrammar

import GameGrammar.Completion.Generate
import GameGrammar.Policy.Random

/-! # Generation from a start symbol

A symbol that stands for no rule is refused before anything is done to the policy. For any other
symbol the seed begins the policy anew, and then a dialogue is held with it that depends on nothing
but the grammar and the symbol. -/

namespace GameGrammar

variable {σ : Type}

namespace Grammar

variable {g : Grammar} {p : Policy σ} {symbol : String} {seed : UInt64}

/-! ## Symbols -/

theorem start?_eq_none {ω : Type} [Append ω] [Completion.Output ω] :
    (g.start? symbol : Option (Dialogue ω)) = none ↔ g.resolve symbol = [] := by
  unfold start?
  split <;> simp_all

theorem exists_start (h : g.resolve symbol ≠ []) :
    ∃ d : Dialogue String, g.start? symbol = some d :=
  Option.ne_none_iff_exists'.mp (mt start?_eq_none.mp h)

theorem generate_of_unknown (h : g.resolve symbol = []) (s : σ) :
    g.generate p symbol seed s = (.error ⟨symbol⟩, s) := by
  simp only [generate, produce, start?_eq_none.mpr h]

theorem generate_of_start {d : Dialogue String} (h : g.start? symbol = some d) (s : σ) :
    g.generate p symbol seed s =
      (.ok (d.run p (p.reseed seed s)).1, (d.run p (p.reseed seed s)).2) := by
  simp only [generate, produce, h]

end Grammar

/-! ## Policies without a past -/

/-- A seed makes the policy forget the state that it was in. -/
def Policy.Forgetful (p : Policy σ) : Prop :=
  ∀ seed s s', p.reseed seed s = p.reseed seed s'

theorem Odds.policy_forgetful (o : Odds Float) : o.policy.Forgetful :=
  fun _ _ _ => rfl

namespace Grammar

variable {g : Grammar} {p : Policy σ} {symbol : String} {seed : UInt64}

theorem generate_forgetful (hp : p.Forgetful) (s s' : σ) :
    (g.generate p symbol seed s).1 = (g.generate p symbol seed s').1 := by
  by_cases h : g.resolve symbol = []
  · rw [generate_of_unknown h, generate_of_unknown h]
  · obtain ⟨d, hd⟩ := exists_start h
    rw [generate_of_start hd, generate_of_start hd, hp seed s s']

end Grammar

end GameGrammar

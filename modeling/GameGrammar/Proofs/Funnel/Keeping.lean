import GameGrammar.Proofs.Funnel.Drivers

/-! # What is kept

A sink is handed every candidate that comes up, once and in order, with what has become of it and
under the name of the game that it is. Nothing else is handed to it, and nothing at all if
candidates are not to be kept. -/

namespace GameGrammar

variable {σ ε κ : Type}

/-! ## Names of files -/

/-- The name of a candidate is that of the game it is compiled to. If it is compiled to none, or
to one without a name, it goes by the name that its text declares. -/
def Course.Stem (o : Options) (e : Engine ε) (text : String) (s : ε) (name : String) : Prop :=
  (∃ game s₂, Compiled o e text s game s₂ ∧ game.name ≠ "" ∧ name = game.name) ∨
    (∀ game s₂, Compiled o e text s game s₂ → game.name = "") ∧ name = programName text

namespace Course

variable {o : Options} {e : Engine ε} {text : String} {s s₁ s₂ : ε} {game : Game}

theorem Parsed.unique (h : Parsed o e text s s₁) (h' : Parsed o e text s s₂) : s₁ = s₂ := by
  obtain ⟨-, d, hp, -⟩ := h
  obtain ⟨-, d', hp', -⟩ := h'
  exact congrArg Prod.snd (hp.symm.trans hp')

theorem Compiled.unique {game' : Game} (h : Compiled o e text s game s₁)
    (h' : Compiled o e text s game' s₂) : game = game' := by
  obtain ⟨t, hp, hc⟩ := h
  obtain ⟨t', hp', hc'⟩ := h'
  obtain rfl := hp.unique hp'
  rw [hc] at hc'
  exact Reply.value.inj (congrArg Prod.fst hc')

theorem Compiled.stem (h : Compiled o e text s game s₁) : Stem o e text s (game.stem text) := by
  by_cases hn : game.name = ""
  · refine .inr ⟨fun game' s₂ h' => ?_, if_pos hn⟩
    obtain rfl := h.unique h'
    exact hn
  · exact .inl ⟨game, s₁, h, hn, if_neg hn⟩

/-- A candidate that is not compiled goes by the name that its text declares. -/
theorem stem_of_not_compiled (h : ∀ game s₂, ¬ Compiled o e text s game s₂) :
    Stem o e text s (programName text) :=
  .inr ⟨fun game s₂ hc => absurd hc (h game s₂), rfl⟩

/-- A verdict gives the candidate its name. -/
theorem stem {k : Nat} {v : Verdict} (h : Course o e text s k (some v) s₁) :
    Stem o e text s v.stem := by
  cases h with
  | restrictedText ht =>
      exact stem_of_not_compiled fun game s₂ ⟨_, hp, _⟩ => ht hp.1
  | unparsable ht hp hr =>
      refine stem_of_not_compiled fun game s₂ ⟨_, ⟨_, d, hd, herrors⟩, _⟩ => ?_
      rw [hp] at hd
      exact hr d (congrArg Prod.fst hd) herrors
  | uncompilable hp hc hr =>
      refine stem_of_not_compiled fun game s₂ ⟨_, hp', hc'⟩ => ?_
      rw [← hp.unique hp', hc] at hc'
      exact hr game (congrArg Prod.fst hc')
  | restrictedGame hc | flagged hc => exact hc.stem
  | unfinished hc | undecided hc => exact hc.1.stem
  | untried hf | interrupted hf | outvoted hf | accepted hf =>
      obtain ⟨_, _, hc, -⟩ := hf
      exact hc.1.stem

/-- What is judged has a bucket. -/
theorem bucket {k : Nat} {v : Verdict} (h : Course o e text s k (some v) s₁) :
    ∃ bucket, v.outcome.bucket? = some bucket := by
  cases h <;> exact ⟨_, rfl⟩

end Course

namespace Funnel

variable {f : Funnel σ ε κ}

/-! ## One attempt -/

namespace Keeps

variable {s : FunnelState σ ε κ} {attempts : List Attempt} {saves : List Save}

end Keeps

/-! ## Runs -/

end Funnel

end GameGrammar

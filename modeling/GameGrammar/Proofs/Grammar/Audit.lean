import GameGrammar.Grammar.Audit
import GameGrammar.Policy.Fixed
import GameGrammar.Proofs.Completion.Outline

/-! # What an audit rules out

A complete audit vouches for the argument tokens that need a rule. Completion leaves a weak marker
for a token that has no rule, whether it needs one or not, so that constants are the exception. -/

namespace GameGrammar.Grammar

variable {g : Grammar}

/-- An audit is complete if every argument whose token needs a rule has one. -/
theorem audit_complete_iff :
    g.audit.complete = true ↔
      ∀ token, g.Uses token → needsRule token = true → g.resolve token ≠ [] := by
  simp only [Audit.complete, audit, List.isEmpty_iff, List.flatMap_eq_nil_iff, danglingArguments,
    List.filterMap_eq_nil_iff, List.mem_flatMap, Uses]
  constructor
  · rintro h _ ⟨r, hr, c, hc, a, ha, rfl⟩ hneeds hnone
    have hkept := h r hr a ⟨c, hc, ha⟩
    simp [hneeds, hnone] at hkept
  · rintro h r hr a ⟨c, hc, ha⟩
    refine if_neg fun hdangling => ?_
    rw [Bool.and_eq_true, List.isEmpty_iff] at hdangling
    exact h _ ⟨r, hr, c, hc, a, ha, rfl⟩ hdangling.1 hdangling.2

/-- Where an audit is complete, an unsettled token has several rules or is a constant without
one. -/
theorem Unsettled.of_audit_complete (h : g.audit.complete = true) {token : String}
    (ht : g.Unsettled token) :
    2 ≤ (g.resolve token).length ∨
      token.toList.head?.any Text.isCapital = true ∧ g.resolve token = [] := by
  rcases hresolve : g.resolve token with _ | ⟨first, _ | ⟨second, others⟩⟩
  · refine .inr ⟨?_, rfl⟩
    -- otherwise the token would need a rule
    refine Decidable.byContradiction fun hconstant => ?_
    have hneeds : needsRule token = true := by simp [needsRule, ht.noLeaf, hconstant]
    exact audit_complete_iff.mp h token ht.used hneeds hresolve
  · exact absurd (congrArg List.length hresolve) ht.notOne
  · exact .inl (Nat.le_add_left 2 _)

/-- If the audit is complete, every weak marker of a generated text stands for a token that has
several rules, or for a constant: a token that begins with a capital and has none. -/
theorem weak_tokens_of_audit_complete (g : Grammar) (h : g.audit.complete = true) {σ : Type}
    (p : Policy σ) (symbol : String) (seed : UInt64) (s : σ) :
    g.generate p symbol seed s = Outline.spelled (g.generateOutline p symbol seed s) ∧
    ∀ o s', g.generateOutline p symbol seed s = (.ok (some o), s') → ∀ token ∈ o.weakTokens,
      2 ≤ (g.resolve token).length ∨
        token.toList.head?.any Text.isCapital = true ∧ g.resolve token = [] :=
  ⟨g.generate_eq_spelled p symbol seed s, fun _ _ ho _ ht =>
    (g.unsettled_of_mem_weakTokens p symbol seed s ho ht).of_audit_complete h⟩

/-- A form with a constant and an argument that two rules answer to. -/
def moverGrammar : Grammar where
  rules := [⟨"<move>", [.form "move" [{ token := "Mover" }, { token := "count" }]]⟩,
    ⟨"<ints.count>", [.terminal "1"]⟩, ⟨"<sites.count>", [.terminal "2"]⟩]
  sound := by decide

theorem moverGrammar_outline :
    moverGrammar.generateOutline ({} : FixedAnswers).policy "move" 0 () =
      (.ok (some [.words "(move", .words " ", .words "", .weak "Mover", .words " ", .words "",
        .weak "count", .words ")"]), ()) := by
  with_unfolding_all rfl

theorem weak_tokens_moverGrammar :
    moverGrammar.audit.complete = true ∧
      moverGrammar.generate ({} : FixedAnswers).policy "move" 0 () =
        (.ok (some "(move ? ?)"), ()) ∧
      ∀ token ∈ ["Mover", "count"], 2 ≤ (moverGrammar.resolve token).length ∨
        token.toList.head?.any Text.isCapital = true ∧ moverGrammar.resolve token = [] := by
  have hcomplete : moverGrammar.audit.complete = true := by decide
  obtain ⟨hspelled, hweak⟩ := weak_tokens_of_audit_complete moverGrammar hcomplete
    ({} : FixedAnswers).policy "move" 0 ()
  refine ⟨hcomplete, ?_, ?_⟩
  · rw [hspelled, moverGrammar_outline]
    rfl
  · exact hweak _ _ moverGrammar_outline

/-- The audit lets a constant pass that no rule answers to. -/
theorem constant_without_rule :
    ¬ ∀ (g : Grammar) (p : Policy Unit) (symbol : String) (seed : UInt64) (o : Outline),
      g.audit.complete = true → g.generateOutline p symbol seed () = (.ok (some o), ()) →
      ∀ token ∈ o.weakTokens, 2 ≤ (g.resolve token).length := by
  intro h
  have hseveral := h moverGrammar ({} : FixedAnswers).policy "move" 0 _ (by decide)
    moverGrammar_outline "Mover" (by decide)
  exact absurd hseveral (by decide)

end GameGrammar.Grammar

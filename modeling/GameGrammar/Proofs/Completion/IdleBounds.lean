import GameGrammar.Policy.Fixed
import GameGrammar.Proofs.Completion.Visits

/-! # Bounds that never come into play

What is written stands at the depth of its rule, and an argument leads one level further down.
Bounds on forms and arguments are therefore idle, unless they are tighter than the bound on rules.
-/

namespace GameGrammar.Completion

namespace Bounds

/-- Forms may stand as deep as rules, and so may the rules of arguments. -/
structure Idle (b : Bounds) : Prop where
  form : ∀ limit ∈ b.form, b.rule ≤ limit
  argument : ∀ limit ∈ b.argument, b.rule < limit

/-- The bound on rules without the others. -/
def ruleOnly (b : Bounds) : Bounds where
  rule := b.rule
  form := none
  argument := none

theorem standard_idle : ({} : Bounds).Idle where
  form limit hl := by
    obtain rfl := Option.mem_some_iff.mp hl
    exact Nat.le_refl _
  argument limit hl := by
    obtain rfl := Option.mem_some_iff.mp hl
    decide

namespace Idle

variable {b : Bounds} {depth : Nat}

theorem formTooDeep_eq (hb : b.Idle) (hd : depth ≤ b.rule) : b.formTooDeep depth = false := by
  unfold formTooDeep
  cases hform : b.form with
  | none => rfl
  | some limit =>
      have hlimit := hb.form limit hform
      exact decide_eq_false (by omega)

/-- Only a rule that stands beyond the bound on rules can be too deep for an argument. -/
theorem rule_lt_of_argumentTooDeep (hb : b.Idle) (h : b.argumentTooDeep depth = true) :
    b.rule < depth := by
  obtain ⟨limit, hargument, hle⟩ := (Option.any_eq_true _ _).mp h
  exact Nat.lt_of_lt_of_le (hb.argument limit hargument) (of_decide_eq_true hle)

end Idle

end Bounds

/-! ## Idle bounds -/

section

variable {b : Bounds} {g : Grammar} {expand : Rule → Dialogue String} {depth : Nat}

/-- At the bound on rules the test of an argument may fail, but then its rule fails as well. -/
theorem item_ruleOnly (hb : b.Idle) (hd : depth ≤ b.rule)
    (he : depth = b.rule → ∀ inner, expand inner = .fail) (head : String) (a : Argument) :
    item b g expand head depth a = item b.ruleOnly g expand head depth a := by
  have hform : b.ruleOnly.formTooDeep depth = false := rfl
  have hargument : b.ruleOnly.argumentTooDeep (depth + 1) = false := rfl
  simp only [item, hb.formTooDeep_eq hd, hform, hargument, Bool.false_eq_true, if_false,
    Medium.fail_dialogue, Medium.visit_dialogue]
  split
  · rfl
  · split
    · next inner _ =>
        by_cases hdeep : b.argumentTooDeep (depth + 1) = true
        · have hlt := hb.rule_lt_of_argumentTooDeep hdeep
          rw [if_pos hdeep, he (by omega) inner]
        · rw [if_neg hdeep]
    · rfl

theorem clause_ruleOnly (hb : b.Idle) (hd : depth ≤ b.rule)
    (he : depth = b.rule → ∀ inner, expand inner = .fail) (c : Clause) :
    clause b g expand depth c = clause b.ruleOnly g expand depth c := by
  cases c with
  | terminal text => rfl
  | reference target => rfl
  | form head args =>
      have hform : b.ruleOnly.formTooDeep depth = false := rfl
      have hitem : item b g expand head depth = item b.ruleOnly g expand head depth :=
        funext (item_ruleOnly hb hd he head)
      simp only [clause, form, hb.formTooDeep_eq hd, hform, hitem]

theorem step_ruleOnly (hb : b.Idle) (he : depth = b.rule → ∀ inner, expand inner = .fail)
    (r : Rule) : step b g expand r depth = step b.ruleOnly g expand r depth := by
  unfold step
  by_cases hdeep : b.rule < depth
  · rw [if_pos hdeep, if_pos (show b.ruleOnly.rule < depth from hdeep)]
  · rw [if_neg hdeep, if_neg (show ¬ b.ruleOnly.rule < depth from hdeep)]
    have hclause : clause b g expand depth = clause b.ruleOnly g expand depth :=
      funext (clause_ruleOnly hb (Nat.not_lt.mp hdeep) he)
    simp only [alternative, hclause]

end

theorem completeBy_of_rule_lt (b : Bounds) {depth : Nat} (h : b.rule < depth) (g : Grammar)
    (r : Rule) : completeBy b g r depth = .fail := by
  rw [completeBy_eq, step, if_pos h, Medium.fail_dialogue]

/-- With idle bounds completion is what it is with the bound on rules alone. -/
theorem completeBy_ruleOnly {b : Bounds} (hb : b.Idle) (g : Grammar) (r : Rule) (depth : Nat) :
    completeBy b g r depth = completeBy b.ruleOnly g r depth := by
  induction hn : b.rule + 1 - depth generalizing r depth with
  | zero =>
      have hdeep : b.rule < depth := by omega
      rw [completeBy_of_rule_lt b hdeep, completeBy_of_rule_lt b.ruleOnly hdeep]
  | succ n ih =>
      have hexpand : (fun inner => completeBy b g inner (depth + 1)) =
          fun inner => completeBy b.ruleOnly g inner (depth + 1) :=
        funext fun inner => ih inner (depth + 1) (by omega)
      rw [completeBy_eq b, completeBy_eq b.ruleOnly, ← hexpand]
      exact step_ruleOnly hb (fun hd inner => completeBy_of_rule_lt b (by omega) g inner) r

/-- Completion comes to the same, asks the same questions in the same order and leaves the policy in
the same state if the depth of forms and arguments is not tested, and the rules of arguments are
bounded by any limit from 101 on or not at all. With these bounds as with the usual ones, no
reference leads beyond a depth of 99, and no rule is expanded beyond 100, the rules of arguments
included. -/
theorem argument_bound_idle {limit : Option Nat} (hlimit : ∀ l ∈ limit, 101 ≤ l) {σ : Type}
    (g : Grammar) (r : Rule) (depth : Nat) (p : Policy σ) (s : σ) :
    let loose : Bounds := { form := none, argument := limit }
    (completeBy loose g r depth).run p.recorded (s, []) =
      (complete g r depth).run p.recorded (s, []) ∧
    ∀ b ∈ [{}, loose],
      (Account.completeBy b g r depth).dialogue = completeBy b g r depth ∧
      ∀ v ∈ (Account.completeBy b g r depth).visits p s, v.Within 100 := by
  intro loose
  have hidle : loose.Idle := ⟨nofun, hlimit⟩
  have hsame : completeBy loose g r depth = complete g r depth :=
    (completeBy_ruleOnly hidle g r depth).trans
      (completeBy_ruleOnly Bounds.standard_idle g r depth).symm
  refine ⟨by rw [hsame], fun b hb => ⟨Account.completeBy_dialogue b g r depth, ?_⟩⟩
  have hrule : b.rule = 100 := by
    rcases List.mem_pair.mp hb with rfl | rfl <;> rfl
  have hvisits := (Account.completeBy_tells b g r depth).visits p s
  rwa [hrule] at hvisits

/-- A rule that leads to itself, as an argument and by reference. -/
def spiral : Rule :=
  ⟨"<spiral>", [.form "turn" [{ token := "spiral" }], .reference "<spiral>"]⟩

def spiralGrammar : Grammar where
  rules := [spiral]
  sound := by decide

/-- The tightest limit, where it is met: the argument at depth 100 has no rule it may lead to. -/
theorem argument_bound_idle_spiral :
    (∀ l ∈ some 101, 101 ≤ l) ∧
    (completeBy { form := none, argument := some 101 } spiralGrammar spiral 98).run
        (FixedAnswers.policy {}).recorded ((), []) =
      (complete spiralGrammar spiral 98).run (FixedAnswers.policy {}).recorded ((), []) ∧
    ∀ b ∈ [({} : Bounds), { form := none, argument := some 101 }],
      (Account.completeBy b spiralGrammar spiral 98).dialogue =
        completeBy b spiralGrammar spiral 98 ∧
      ∀ v ∈ (Account.completeBy b spiralGrammar spiral 98).visits (FixedAnswers.policy {}) (),
        v.Within 100 := by
  have hlimit : ∀ l ∈ some 101, 101 ≤ l := by
    intro l hl
    obtain rfl := Option.mem_some_iff.mp hl
    exact Nat.le_refl _
  exact ⟨hlimit, argument_bound_idle hlimit spiralGrammar spiral 98 (FixedAnswers.policy {}) ()⟩

end GameGrammar.Completion

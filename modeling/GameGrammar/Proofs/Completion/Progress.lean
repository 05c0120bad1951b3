import GameGrammar.Policy.Fixed
import GameGrammar.Proofs.Completion.Arguments
import GameGrammar.Proofs.Completion.Derivation
import GameGrammar.Proofs.Grammar.Build
import GameGrammar.Proofs.Grammar.Resolve

/-! # Completion that cannot fail

Completion fails for two reasons only: a reference that does not stand for exactly one rule, and
rules that nest too deeply. Where the rules of a grammar are ranked so that references and arguments
lead down, neither can come up, whatever the policy answers. -/

namespace GameGrammar

namespace Dialogue

variable {α β σ : Type}

/-! ## Dialogues without failures -/

/-- Whatever the answers are, the dialogue ends with a value. -/
inductive Succeeds : Dialogue α → Prop where
  | done (value : α) : Succeeds (.done value)
  | ask (q : Question) {next : q.Answer → Dialogue α} (h : ∀ a, Succeeds (next a)) :
      Succeeds (.ask q next)

theorem succeeds_question (q : Question) : (question q).Succeeds :=
  .ask q fun a => .done a

theorem Succeeds.bind {d : Dialogue α} {k : α → Dialogue β} (hd : d.Succeeds)
    (hk : ∀ a, (k a).Succeeds) : (d >>= k).Succeeds := by
  induction hd with
  | done value => exact hk value
  | ask q _ ih => exact .ask q ih

theorem Succeeds.exists_run {d : Dialogue α} (h : d.Succeeds) (p : Policy σ) (s : σ) :
    ∃ value, (d.run p s).1 = some value := by
  induction h generalizing s with
  | done value => exact ⟨value, rfl⟩
  | ask q _ ih => exact ih _ _

end Dialogue

namespace Completion

open Dialogue

/-! ## Selecting arguments -/

theorem settle_succeeds (argCount draws : Nat) (members : List Nat) :
    (settle argCount draws members).Succeeds := by
  fun_induction settle argCount draws members with
  | case1 => exact .done _
  | case2 => exact .done _
  | case3 => exact .done _
  | case4 draws members _ _ ih => exact (succeeds_question _).bind ih

theorem settleAll_succeeds (args : List Argument) (groups : List UInt32) :
    (settleAll args groups).Succeeds := by
  induction groups with
  | nil => exact .done []
  | cons group groups ih =>
      exact (settle_succeeds _ _ _).bind fun kept => ih.bind fun others => .done _

theorem keeps_succeeds (survivors : List Nat) (depth : Nat) (a : Argument) (i : Nat) :
    (keeps survivors depth a i).Succeeds := by
  unfold keeps
  split
  · exact .done _
  · split
    · exact (succeeds_question _).bind fun dropped => .done _
    · exact .done _

theorem marks_succeeds (survivors : List Nat) (depth : Nat) (args : List (Argument × Nat)) :
    (marks survivors depth args).Succeeds := by
  induction args with
  | nil => exact .done []
  | cons x rest ih =>
      exact (keeps_succeeds _ _ _ _).bind fun kept => ih.bind fun others => .done _

theorem select_succeeds (args : List Argument) (depth : Nat) : (select args depth).Succeeds :=
  (settleAll_succeeds _ _).bind fun _ => marks_succeeds _ _ _

/-! ## Writing arguments -/

theorem succeeds_sequential : Sequential (m := Dialogue) fun _ d => d.Succeeds where
  pure := .done
  bind := Succeeds.bind

theorem literal_succeeds (p : Primitive) : (p.literal : Dialogue String).Succeeds := by
  cases p with
  | int => exact (succeeds_question _).bind fun n => .done _
  | dim => exact (succeeds_question _).bind fun n => .done _
  | boolean => exact (succeeds_question _).bind fun b => .done _
  | float => exact (succeeds_question _).bind fun x => .done _

/-! ## Ranked grammars -/

/-- A reference stands for exactly one rule, and that one has a lower rank; so has the rule of an
argument, if the argument is of no leaf category and stands for exactly one rule. -/
structure Ranked (g : Grammar) (rank : Rule → Nat) : Prop where
  reference : ∀ r ∈ g.rules, ∀ target, .reference target ∈ r.clauses →
    ∃ inner, g.resolve target = [inner] ∧ rank inner < rank r
  argument : ∀ r ∈ g.rules, ∀ head args, .form head args ∈ r.clauses → ∀ a ∈ args,
    Category.ofToken? a.token = none → ∀ inner, g.resolve a.token = [inner] →
      rank inner < rank r

section

variable {g : Grammar} {rank : Rule → Nat} {expand : Rule → Dialogue String} {r : Rule}
  {depth : Nat}

/-- The rules of lower rank that stand one level further down can be completed. -/
abbrev LowerSucceed (g : Grammar) (rank : Rule → Nat) (expand : Rule → Dialogue String)
    (r : Rule) : Prop :=
  ∀ inner ∈ g.rules, rank inner < rank r → (expand inner).Succeeds

theorem item_succeeds (hg : Ranked g rank) (hr : r ∈ g.rules)
    (he : LowerSucceed g rank expand r) (hd : depth ≤ 100) {head : String} {args : List Argument}
    (hc : .form head args ∈ r.clauses) {a : Argument} (ha : a ∈ args) :
    (item {} g expand head depth a).Succeeds := by
  simp only [item, Bounds.formTooDeep_eq_false hd, Bounds.argumentTooDeep_eq_false hd,
    Bool.false_eq_true, if_false]
  split
  · exact .done _
  · next hleaf =>
      split
      · next inner hinner =>
          have hlower := hg.argument r hr head args hc a ha hleaf inner hinner
          exact he inner (Grammar.mem_rules_of_resolve_eq hinner) hlower
      · exact .done _

theorem clause_succeeds (hg : Ranked g rank) (hr : r ∈ g.rules)
    (he : LowerSucceed g rank expand r) (hd : depth + rank r ≤ 99) {c : Clause}
    (hc : c ∈ r.clauses) : (clause {} g expand depth c).Succeeds := by
  cases c with
  | terminal text => exact .done text
  | reference target =>
      obtain ⟨inner, hinner, hlower⟩ := hg.reference r hr target hc
      have hdeep : ¬ 100 ≤ depth + 1 := by omega
      simp only [clause, hinner, if_neg hdeep]
      exact he inner (Grammar.mem_rules_of_resolve_eq hinner) hlower
  | form head args =>
      have hform : depth ≤ 100 := by omega
      simp only [clause, form, Bounds.formTooDeep_eq_false hform, Bool.false_eq_true, if_false]
      refine (select_succeeds args depth).bind fun kept => ?_
      have hitems : ∀ a ∈ marked args kept, (item {} g expand head depth a).Succeeds :=
        fun a ha => item_succeeds hg hr he hform hc (mem_of_mem_marked ha)
      have harguments := succeeds_sequential.arguments hitems (succeeds_question _) ("(" ++ head)
      exact harguments.bind fun out => .done _

theorem alternative_succeeds (hg : Ranked g rank) (hr : r ∈ g.rules)
    (he : LowerSucceed g rank expand r) (hd : depth + rank r ≤ 99) :
    (alternative {} g expand r depth).Succeeds := by
  have hne := (g.wellFormed.sound r hr).nonempty
  unfold alternative
  split
  · next hnil => exact absurd hnil hne
  · next first others hclauses =>
      refine (succeeds_question _).bind fun i => clause_succeeds hg hr he hd ?_
      exact hclauses ▸ List.get_mem _ _

theorem step_succeeds (hg : Ranked g rank) (hr : r ∈ g.rules)
    (he : LowerSucceed g rank expand r) (hd : depth + rank r ≤ 99) :
    (step {} g expand r depth).Succeeds := by
  have hdeep : ¬ 100 < depth := by omega
  simp only [step, if_neg hdeep, Medium.visit_dialogue]
  split
  · exact alternative_succeeds hg hr he hd
  · next p _ =>
      refine (succeeds_question _).bind fun exit => ?_
      split
      · exact literal_succeeds p
      · exact alternative_succeeds hg hr he hd

end

/-- Every level takes a depth and a rank, so that the depth never runs out before the rank does. -/
theorem complete_succeeds {g : Grammar} {rank : Rule → Nat} (hg : Ranked g rank) {r : Rule}
    (hr : r ∈ g.rules) {depth : Nat} (hd : depth + rank r ≤ 99) :
    (complete g r depth).Succeeds := by
  induction hn : rank r using Nat.strongRecOn generalizing r depth with
  | ind n ih =>
      rw [complete, completeBy_eq]
      refine step_succeeds hg hr (fun inner hinner hlower => ?_) hd
      exact ih (rank inner) (hn ▸ hlower) hinner (by omega) rfl

/-- In a ranked grammar no policy makes the completion of a rule fail that stands at a depth of at
most 99 less its rank. -/
theorem ranked_completes {σ : Type} {g : Grammar} {rank : Rule → Nat} (hg : Ranked g rank)
    {r : Rule} (hr : r ∈ g.rules) {depth : Nat} (hd : depth + rank r ≤ 99) (p : Policy σ)
    (s : σ) : ∃ text, ((complete g r depth).run p s).1 = some text :=
  (complete_succeeds hg hr hd).exists_run p s

/-- A rule that can refer to a lower one, or have it as an argument. -/
def stair : Rule where
  name := "<stair>"
  clauses := [.reference "<ground>",
    .form "down" [{ token := "ground", nesting := 1 }, { token := "int", optional := true }]]

def ground : Rule where
  name := "<ground>"
  clauses := [.terminal "floor"]

def staircase : Grammar where
  rules := [stair, ground]
  sound := by decide

theorem ranked_completes_staircase :
    Ranked staircase (fun r => r.clauses.length - 1) ∧ stair ∈ staircase.rules ∧
      98 + (stair.clauses.length - 1) ≤ 99 ∧
      ∃ text, ((complete staircase stair 98).run (FixedAnswers.policy {}) ()).1 = some text := by
  have href : staircase.resolve "<ground>" = [ground] := by decide +kernel
  have harg : staircase.resolve "ground" = [ground] := by decide +kernel
  have hg : Ranked staircase fun r => r.clauses.length - 1 := by
    constructor
    · intro r hr target hc
      obtain rfl | rfl : r = stair ∨ r = ground := by simpa [staircase] using hr
      · obtain rfl : target = "<ground>" := by simpa [stair] using hc
        exact ⟨ground, href, by decide⟩
      · simp [ground] at hc
    · intro r hr head args hc a ha htoken inner hinner
      obtain rfl | rfl : r = stair ∨ r = ground := by simpa [staircase] using hr
      · obtain ⟨rfl, rfl⟩ : head = "down" ∧ args = _ := by simpa [stair] using hc
        obtain rfl | rfl := by simpa using ha
        · obtain rfl : ground = inner := by simpa [harg] using hinner
          decide
        · simp [Category.ofToken?, Category.all, Category.marker] at htoken
      · simp [ground] at hc
  have hr : stair ∈ staircase.rules := List.mem_cons_self
  have hd : 98 + (stair.clauses.length - 1) ≤ 99 := by decide
  exact ⟨hg, hr, hd, ranked_completes hg hr hd (FixedAnswers.policy {}) ()⟩

/-- One level more is too much for a rule that does nothing but refer to others. -/
theorem references_fail {σ : Type} {g : Grammar} {r : Rule} {depth : Nat}
    (hname : ∀ p : Primitive, r.name ≠ p.ruleName)
    (hclauses : ∀ c ∈ r.clauses, ∃ target, c = .reference target) (hd : 99 ≤ depth)
    (p : Policy σ) (s : σ) : ((complete g r depth).run p s).1 = none := by
  by_contra hne
  obtain ⟨text, htext⟩ := Option.ne_none_iff_exists'.mp hne
  cases complete_yields.mp (yields_of_run htext) with
  | primitive p _ hp _ => exact hname p hp
  | terminal _ hc =>
      obtain ⟨target, h⟩ := hclauses _ hc
      cases h
  | reference hdepth _ _ _ => omega
  | form _ hc _ _ =>
      obtain ⟨target, h⟩ := hclauses _ hc
      cases h

end Completion

end GameGrammar

import GameGrammar.Proofs.Completion.Progress

/-! # Completion at a smaller depth

How deep a rule stands can only make its completion fail, unless the policy goes by the depth that
it is told. What can be completed at some depth is therefore completed alike at any smaller one. -/

namespace GameGrammar

namespace Dialogue

variable {α β σ : Type}

/-! ## Curtailed dialogues -/

/-- The first dialogue is the second one, except that it may fail at any point. Asked whether to
drop an argument, a policy may be told different depths. -/
inductive Curtailed : Dialogue α → Dialogue α → Prop where
  | fail (d : Dialogue α) : Curtailed .fail d
  | done (value : α) : Curtailed (.done value) (.done value)
  | ask (q : Question) {next next' : q.Answer → Dialogue α}
      (h : ∀ a, Curtailed (next a) (next' a)) : Curtailed (.ask q next) (.ask q next')
  | drop (depth depth' : Nat) {next next' : Bool → Dialogue α}
      (h : ∀ a, Curtailed (next a) (next' a)) :
      Curtailed (.ask (.drop depth) next) (.ask (.drop depth') next')

namespace Curtailed

theorem refl (d : Dialogue α) : Curtailed d d := by
  induction d with
  | done value => exact .done value
  | fail => exact .fail _
  | ask q next ih => exact .ask q ih

theorem bind {d d' : Dialogue α} {k k' : α → Dialogue β} (hd : Curtailed d d')
    (hk : ∀ a, Curtailed (k a) (k' a)) : Curtailed (d >>= k) (d' >>= k') := by
  induction hd with
  | fail d => exact .fail _
  | done value => exact hk value
  | ask q _ ih => exact .ask q ih
  | drop depth depth' _ ih => exact .drop depth depth' ih

/-- Only what follows on the first part is curtailed. -/
theorem bind_left (d : Dialogue α) {k k' : α → Dialogue β} (hk : ∀ a, Curtailed (k a) (k' a)) :
    Curtailed (d >>= k) (d >>= k') :=
  (refl d).bind hk

end Curtailed

end Dialogue

/-- Whether the policy drops an argument, and what it goes on from, does not hang on the depth that
it is told. -/
def Policy.DepthBlind {σ : Type} (p : Policy σ) : Prop :=
  ∀ depth depth' s, p.answer (.drop depth) s = p.answer (.drop depth') s

/-- A dialogue that does not fail is not changed by what is curtailed elsewhere. -/
theorem Dialogue.Curtailed.run_eq {α σ : Type} {d d' : Dialogue α} (h : Curtailed d d')
    {p : Policy σ} (hp : p.DepthBlind) {s s' : σ} {value : α} (hv : d.run p s = (some value, s')) :
    d'.run p s = (some value, s') := by
  induction h generalizing s with
  | fail d => cases hv
  | done value => exact hv
  | ask q _ ih => exact ih _ hv
  | drop depth depth' _ ih =>
      have hsame : p.answer (.drop depth') s = p.answer (.drop depth) s := hp depth' depth s
      simp only [run, hsame]
      exact ih _ hv

namespace Completion

open Dialogue

/-! ## Selecting arguments -/

theorem keeps_curtailed (survivors : List Nat) (depth depth' : Nat) (a : Argument) (i : Nat) :
    Curtailed (keeps survivors depth a i) (keeps survivors depth' a i) := by
  unfold keeps
  by_cases hgroup : 0 < a.group
  · rw [if_pos hgroup, if_pos hgroup]
    exact .refl _
  · rw [if_neg hgroup, if_neg hgroup]
    by_cases hoptional : a.optional = true
    · rw [if_pos hoptional, if_pos hoptional]
      exact .drop depth depth' fun dropped => .refl _
    · rw [if_neg hoptional, if_neg hoptional]
      exact .refl _

theorem marks_curtailed (survivors : List Nat) (depth depth' : Nat)
    (args : List (Argument × Nat)) :
    Curtailed (marks survivors depth args) (marks survivors depth' args) := by
  induction args with
  | nil => exact .refl _
  | cons x rest ih =>
      exact (keeps_curtailed survivors depth depth' _ _).bind fun kept => ih.bind fun others =>
        .refl _

theorem select_curtailed (args : List Argument) (depth depth' : Nat) :
    Curtailed (select args depth) (select args depth') :=
  .bind_left _ fun survivors => marks_curtailed survivors depth depth' _

/-! ## Writing arguments -/

theorem times_curtailed {piece piece' : String → Dialogue String}
    (h : ∀ out, Curtailed (piece out) (piece' out)) (n : Nat) (out : String) :
    Curtailed (times piece n out) (times piece' n out) := by
  induction n generalizing out with
  | zero => exact .refl _
  | succ n ih => exact (h _).bind ih

theorem nested_curtailed {one one' : Dialogue String} (h : Curtailed one one') (layers : Nat)
    (out : String) : Curtailed (nested one layers out) (nested one' layers out) := by
  induction layers generalizing out with
  | zero => exact h.bind fun value => .refl _
  | succ layers ih =>
      exact .bind_left _ fun count => (times_curtailed ih count _).bind fun out => .refl _

theorem arguments_curtailed {one one' : Argument → Dialogue String}
    (h : ∀ a, Curtailed (one a) (one' a)) (args : List Argument) (out : String) :
    Curtailed (arguments one args out) (arguments one' args out) := by
  induction args generalizing out with
  | nil => exact .refl _
  | cons a rest ih =>
      unfold arguments
      by_cases hnesting : 2 < a.nesting
      · rw [if_pos hnesting, if_pos hnesting]
        exact ih out
      · rw [if_neg hnesting, if_neg hnesting]
        exact (nested_curtailed (h a) _ _).bind ih

/-! ## Rules -/

/-- A test of the depth that fails in the first place only cuts it short. -/
theorem curtailed_guard {tooDeep tooDeep' : Prop} [Decidable tooDeep] [Decidable tooDeep']
    (hdeep : tooDeep' → tooDeep) {d d' : Dialogue String} (h : Curtailed d d') :
    Curtailed (if tooDeep then .fail else d) (if tooDeep' then .fail else d') := by
  by_cases hfirst : tooDeep
  · rw [if_pos hfirst]
    exact .fail _
  · rw [if_neg hfirst, if_neg (mt hdeep hfirst)]
    exact h

theorem Bounds.formTooDeep_mono {b : Bounds} {depth depth' : Nat} (hd : depth' ≤ depth)
    (h : b.formTooDeep depth' = true) : b.formTooDeep depth = true := by
  obtain ⟨limit, hlimit, hlt⟩ := (Option.any_eq_true _ _).mp h
  simp only [decide_eq_true_eq] at hlt
  exact (Option.any_eq_true _ _).mpr ⟨limit, hlimit, decide_eq_true (by omega)⟩

theorem Bounds.argumentTooDeep_mono {b : Bounds} {depth depth' : Nat} (hd : depth' ≤ depth)
    (h : b.argumentTooDeep depth' = true) : b.argumentTooDeep depth = true := by
  obtain ⟨limit, hlimit, hle⟩ := (Option.any_eq_true _ _).mp h
  simp only [decide_eq_true_eq] at hle
  exact (Option.any_eq_true _ _).mpr ⟨limit, hlimit, decide_eq_true (by omega)⟩

section

variable {b : Bounds} {g : Grammar} {expand expand' : Rule → Dialogue String} {depth depth' : Nat}

theorem item_curtailed (he : ∀ inner, Curtailed (expand inner) (expand' inner))
    (hd : depth' ≤ depth) (head : String) (a : Argument) :
    Curtailed (item b g expand head depth a) (item b g expand' head depth' a) := by
  unfold item
  refine curtailed_guard (Bounds.formTooDeep_mono hd) ?_
  split
  · exact .refl _
  · split
    · exact curtailed_guard (Bounds.argumentTooDeep_mono (Nat.succ_le_succ hd)) (he _)
    · exact .refl _

theorem form_curtailed (he : ∀ inner, Curtailed (expand inner) (expand' inner))
    (hd : depth' ≤ depth) (head : String) (args : List Argument) :
    Curtailed (form b g expand head args depth) (form b g expand' head args depth') := by
  unfold form
  refine curtailed_guard (Bounds.formTooDeep_mono hd) ?_
  refine (select_curtailed args depth depth').bind fun kept => ?_
  exact (arguments_curtailed (item_curtailed he hd head) _ _).bind fun out => .refl _

theorem clause_curtailed (he : ∀ inner, Curtailed (expand inner) (expand' inner))
    (hd : depth' ≤ depth) (c : Clause) :
    Curtailed (clause b g expand depth c) (clause b g expand' depth' c) := by
  cases c with
  | terminal text => exact .refl _
  | reference target =>
      simp only [clause]
      split
      · exact curtailed_guard (fun hdeep => by omega) (he _)
      · exact .refl _
  | form head args => exact form_curtailed he hd head args

theorem alternative_curtailed (he : ∀ inner, Curtailed (expand inner) (expand' inner))
    (hd : depth' ≤ depth) (r : Rule) :
    Curtailed (alternative b g expand r depth) (alternative b g expand' r depth') := by
  unfold alternative
  split
  · exact .refl _
  · exact .bind_left _ fun i => clause_curtailed he hd _

theorem step_curtailed (he : ∀ inner, Curtailed (expand inner) (expand' inner))
    (hd : depth' ≤ depth) (r : Rule) :
    Curtailed (step b g expand r depth) (step b g expand' r depth') := by
  unfold step
  refine curtailed_guard (fun hdeep => by omega) ?_
  rw [Medium.visit_dialogue, Medium.visit_dialogue]
  split
  · exact alternative_curtailed he hd r
  · refine .bind_left _ fun exit => ?_
    split
    · exact .refl _
    · exact alternative_curtailed he hd r

end

/-- The induction is on the levels that are left at the greater depth; at the smaller one there are
as many at least. -/
theorem completeBy_curtailed (b : Bounds) (g : Grammar) (r : Rule) {depth depth' : Nat}
    (hd : depth' ≤ depth) : Curtailed (completeBy b g r depth) (completeBy b g r depth') := by
  induction hn : b.rule + 1 - depth generalizing r depth depth' with
  | zero =>
      have hdeep : b.rule < depth := by omega
      rw [completeBy_eq, step, if_pos hdeep]
      exact .fail _
  | succ n ih =>
      rw [completeBy_eq b g r depth, completeBy_eq b g r depth']
      exact step_curtailed (fun inner => ih inner (Nat.succ_le_succ hd) (by omega)) hd r

/-- If a rule can be completed at some depth, then it is completed with the same text at any smaller
depth, and the policy is left in the same state. -/
theorem completes_at_smaller_depth {σ : Type} {p : Policy σ} (hp : p.DepthBlind) {g : Grammar}
    {r : Rule} {depth depth' : Nat} (hd : depth' ≤ depth) {s s' : σ} {text : String}
    (h : (complete g r depth).run p s = (some text, s')) :
    (complete g r depth').run p s = (some text, s') :=
  (completeBy_curtailed {} g r hd).run_eq hp h

/-- Of the arguments that it is asked about, it drops every other one. -/
def alternatingPolicy : Policy Nat where
  answer
    | .drop _, n => (n % 2 == 1, n + 1)
    | q, n => (({ clauseIndex := 1 } : FixedAnswers).answer q, n + 1)

/-- The first depth is the greatest one at which there is a level left for the argument. -/
theorem completes_at_smaller_depth_staircase :
    alternatingPolicy.DepthBlind ∧ 0 ≤ 99 ∧
      (complete staircase stair 99).run alternatingPolicy 1 =
        (some "(down \x7b floor \x7d int)", 5) ∧
      (complete staircase stair 0).run alternatingPolicy 1 =
        (some "(down \x7b floor \x7d int)", 5) := by
  have hblind : alternatingPolicy.DepthBlind := fun _ _ _ => rfl
  have hrun : (complete staircase stair 99).run alternatingPolicy 1 =
      (some "(down \x7b floor \x7d int)", 5) := by with_unfolding_all rfl
  have hd : 0 ≤ 99 := by decide
  exact ⟨hblind, hd, hrun, completes_at_smaller_depth hblind hd hrun⟩

end Completion

end GameGrammar

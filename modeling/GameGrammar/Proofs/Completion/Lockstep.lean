import GameGrammar.Completion.Dialogue

/-! # Dialogues in lockstep

Two dialogues that ask the same questions go through the same states of any policy. What they
come to may be of different kinds and is compared by a relation. -/

namespace GameGrammar.Dialogue

variable {α β γ δ σ : Type}

/-- Both dialogues ask the same questions, and where one ends so does the other, with related
values or both without one. -/
inductive Lockstep (R : α → β → Prop) : Dialogue α → Dialogue β → Prop where
  | done {a : α} {b : β} (h : R a b) : Lockstep R (.done a) (.done b)
  | fail : Lockstep R .fail .fail
  | ask (q : Question) {next : q.Answer → Dialogue α} {next' : q.Answer → Dialogue β}
      (h : ∀ a, Lockstep R (next a) (next' a)) : Lockstep R (.ask q next) (.ask q next')

namespace Lockstep

theorem refl {R : α → α → Prop} (hR : ∀ a, R a a) (d : Dialogue α) : Lockstep R d d := by
  induction d with
  | done a => exact .done (hR a)
  | fail => exact .fail
  | ask q next ih => exact .ask q ih

/-- Dialogues that come to equal values are the same. -/
theorem eq {d d' : Dialogue α} (h : Lockstep Eq d d') : d = d' := by
  induction h with
  | done h => rw [h]
  | fail => rfl
  | ask q _ ih => exact congrArg (Dialogue.ask q) (funext ih)

theorem mono {R S : α → β → Prop} {d : Dialogue α} {d' : Dialogue β} (h : Lockstep R d d')
    (hRS : ∀ a b, R a b → S a b) : Lockstep S d d' := by
  induction h with
  | done h => exact .done (hRS _ _ h)
  | fail => exact .fail
  | ask q _ ih => exact .ask q ih

theorem bind {R : α → β → Prop} {S : γ → δ → Prop} {d : Dialogue α} {d' : Dialogue β}
    {k : α → Dialogue γ} {k' : β → Dialogue δ} (hd : Lockstep R d d')
    (hk : ∀ a b, R a b → Lockstep S (k a) (k' b)) : Lockstep S (d >>= k) (d' >>= k') := by
  induction hd with
  | done h => exact hk _ _ h
  | fail => exact .fail
  | ask q _ ih => exact .ask q ih

/-- The same question first, and then lockstep whatever the answer is. -/
theorem question_bind {S : γ → δ → Prop} (q : Question) {k : q.Answer → Dialogue γ}
    {k' : q.Answer → Dialogue δ} (hk : ∀ a, Lockstep S (k a) (k' a)) :
    Lockstep S (question q >>= k) (question q >>= k') :=
  .ask q hk

/-- With any policy both come to related values or both to none, and leave it in the same
state. -/
theorem run_rel {R : α → β → Prop} {d : Dialogue α} {d' : Dialogue β} (h : Lockstep R d d')
    (p : Policy σ) (s : σ) :
    Option.Rel R (d.run p s).1 (d'.run p s).1 ∧ (d.run p s).2 = (d'.run p s).2 := by
  induction h generalizing s with
  | done h => exact ⟨.some h, rfl⟩
  | fail => exact ⟨.none, rfl⟩
  | ask q _ ih => exact ih _ _

/-- A value of the second dialogue goes with a related value of the first, and the policy is
left in the same state. -/
theorem run_eq_some {R : α → β → Prop} {d : Dialogue α} {d' : Dialogue β}
    (h : Lockstep R d d') {p : Policy σ} {s : σ} {b : β} (hb : (d'.run p s).1 = some b) :
    ∃ a, d.run p s = (some a, (d'.run p s).2) ∧ R a b := by
  induction h generalizing s with
  | @done a b' hab =>
      cases hb
      exact ⟨a, rfl, hab⟩
  | fail => cases hb
  | ask q _ ih => exact ih _ hb

end Lockstep

end GameGrammar.Dialogue

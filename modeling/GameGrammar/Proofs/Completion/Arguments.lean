import GameGrammar.Completion.Engine

/-! # Writing arguments

What is written for the arguments of a form are their items, one after another. A property of
computations that goes from two of them to the one after the other goes from the items to the
arguments. -/

namespace GameGrammar.Completion

variable {m : Type → Type} [Monad m] {ω : Type} [Append ω] [Output ω]

/-- The property holds where nothing is done, and of one computation after another if it holds of
both. -/
structure Sequential (P : (α : Type) → m α → Prop) : Prop where
  pure {α : Type} (value : α) : P α (pure value)
  bind {α β : Type} {x : m α} {k : α → m β} (hx : P α x) (hk : ∀ value, P β (k value)) :
    P β (x >>= k)

namespace Sequential

variable {P : (α : Type) → m α → Prop}

theorem times (hP : Sequential P) {piece : ω → m ω} (hp : ∀ out, P ω (piece out)) (n : Nat)
    (out : ω) : P ω (times piece n out) := by
  induction n generalizing out with
  | zero => exact hP.pure out
  | succ n ih => exact hP.bind (hp _) ih

variable [Medium m]

theorem nested (hP : Sequential P) {one : m ω} (ho : P ω one)
    (hcount : P Nat (Medium.ask .itemCount)) (layers : Nat) (out : ω) :
    P ω (nested one layers out) := by
  induction layers generalizing out with
  | zero => exact hP.bind ho fun value => hP.pure _
  | succ layers ih =>
      exact hP.bind hcount fun count => hP.bind (hP.times ih count _) fun out => hP.pure _

theorem arguments (hP : Sequential P) {one : Argument → m ω} {args : List Argument}
    (ho : ∀ a ∈ args, P ω (one a)) (hcount : P Nat (Medium.ask .itemCount)) (out : ω) :
    P ω (arguments one args out) := by
  induction args generalizing out with
  | nil => exact hP.pure out
  | cons a rest ih =>
      obtain ⟨ha, hrest⟩ := List.forall_mem_cons.mp ho
      unfold Completion.arguments
      by_cases hnesting : 2 < a.nesting
      · rw [if_pos hnesting]
        exact ih hrest out
      · rw [if_neg hnesting]
        exact hP.bind (hP.nested ha hcount _ _) (ih hrest)

end Sequential

end GameGrammar.Completion

import GameGrammar.Policy.Basic

/-! # Dialogues

A dialogue is a computation that asks questions: it has an answer ready, has failed, or waits
for the answer to one more question. What it does depends on nothing but the answers, and any
policy can hold it. -/

namespace GameGrammar

inductive Dialogue (α : Type) where
  | done (value : α)
  | fail
  | ask (q : Question) (next : q.Answer → Dialogue α)

namespace Dialogue

variable {α β σ : Type}

/-- One question and its answer. -/
def question (q : Question) : Dialogue q.Answer :=
  .ask q .done

/-- Goes on with the value of the first dialogue, unless it fails. -/
def bind : Dialogue α → (α → Dialogue β) → Dialogue β
  | .done value, k => k value
  | .fail, _ => .fail
  | .ask q next, k => .ask q fun a => (next a).bind k

instance : Monad Dialogue where
  pure := .done
  bind := bind

/-- Holds the dialogue with a policy. A failure has no value, but it leaves the policy in some
state all the same. -/
def run (p : Policy σ) : Dialogue α → σ → Option α × σ
  | .done value, s => (some value, s)
  | .fail, s => (none, s)
  | .ask q next, s =>
    let (a, s) := p.answer q s
    (next a).run p s

end Dialogue

end GameGrammar

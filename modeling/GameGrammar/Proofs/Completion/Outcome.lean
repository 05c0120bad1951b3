import GameGrammar.Completion.Dialogue

/-! # Outcomes of a dialogue

What a dialogue can come to does not depend on who answers. Its outcomes are described without
a policy first, and then shown to be the outcomes of its runs. -/

namespace GameGrammar

/-! ## Scripted answers -/

instance (k : AnswerKind) : Inhabited k.Value :=
  match k with
  | .number => inferInstanceAs (Inhabited Nat)
  | .truth => inferInstanceAs (Inhabited Bool)
  | .integer => inferInstanceAs (Inhabited Int32)
  | .float => inferInstanceAs (Inhabited Float32)

/-- An answer together with its kind. -/
abbrev AnyAnswer :=
  (k : AnswerKind) × k.Value

/-- The policy that reads its answers off a list. Where the list is at an end, or has an answer
of another kind, it gives the default answer. -/
def Policy.scripted : Policy (List AnyAnswer) where
  answer q
    | ⟨k, v⟩ :: rest =>
      if h : k = q.kind then (cast (congrArg AnswerKind.Value h) v, rest) else (default, rest)
    | [] => (default, [])

@[simp] theorem Policy.scripted_answer_cons (q : Question) (a : q.Answer)
    (rest : List AnyAnswer) :
    Policy.scripted.answer q (⟨q.kind, a⟩ :: rest) = (a, rest) := by
  simp [Policy.scripted]

namespace Dialogue

variable {α β σ : Type}

/-! ## Outcomes -/

/-- Some answers lead the dialogue to the value. -/
def Yields : Dialogue α → α → Prop
  | .done value, v => v = value
  | .fail, _ => False
  | .ask _ next, v => ∃ a, (next a).Yields v

@[simp] theorem yields_done {v w : α} : (Dialogue.done v).Yields w ↔ w = v :=
  Iff.rfl

@[simp] theorem yields_pure {v w : α} : (pure v : Dialogue α).Yields w ↔ w = v :=
  Iff.rfl

@[simp] theorem not_yields_fail {w : α} : ¬ (Dialogue.fail : Dialogue α).Yields w :=
  id

@[simp] theorem yields_question (q : Question) (a : q.Answer) : (question q).Yields a :=
  ⟨a, rfl⟩

/-- A dialogue that goes on yields what its continuation yields after one of its own values. -/
@[simp] theorem yields_bind {d : Dialogue α} {k : α → Dialogue β} {w : β} :
    (d >>= k).Yields w ↔ ∃ v, d.Yields v ∧ (k v).Yields w := by
  change (d.bind k).Yields w ↔ _
  induction d with
  | done value => simp [bind]
  | fail => simp [bind]
  | ask q next ih =>
      simp only [bind, Yields, ih]
      constructor
      · rintro ⟨a, v, hv, hw⟩
        exact ⟨v, ⟨a, hv⟩, hw⟩
      · rintro ⟨v, ⟨a, hv⟩, hw⟩
        exact ⟨a, v, hv, hw⟩

/-- An answer that is written out can be any answer. -/
theorem yields_written {q : Question} {write : q.Answer → β} {w : β} :
    (question q >>= fun a => pure (write a)).Yields w ↔ ∃ a, w = write a := by
  rw [yields_bind]
  constructor
  · rintro ⟨a, -, ha⟩
    exact ⟨a, ha⟩
  · rintro ⟨a, ha⟩
    exact ⟨a, yields_question q a, ha⟩

/-! ## Runs -/

theorem yields_of_run {d : Dialogue α} {p : Policy σ} {s : σ} {v : α}
    (h : (d.run p s).1 = some v) : d.Yields v := by
  induction d generalizing s with
  | done value => exact (Option.some.inj h).symm
  | fail => cases h
  | ask q next ih => exact ⟨_, ih _ h⟩

theorem exists_scripted_run {d : Dialogue α} {v : α} (h : d.Yields v) :
    ∃ answers, (d.run Policy.scripted answers).1 = some v := by
  induction d with
  | done value => exact ⟨[], congrArg some h.symm⟩
  | fail => cases h
  | ask q next ih =>
      obtain ⟨a, ha⟩ := h
      obtain ⟨answers, hrun⟩ := ih a ha
      exact ⟨⟨q.kind, a⟩ :: answers, by simpa [run] using hrun⟩

/-- The outcomes of a dialogue are the values that some policy leads it to. -/
theorem yields_iff_exists_run {d : Dialogue α} {v : α} :
    d.Yields v ↔ ∃ (σ : Type) (p : Policy σ) (s : σ), (d.run p s).1 = some v := by
  constructor
  · intro h
    obtain ⟨answers, hrun⟩ := exists_scripted_run h
    exact ⟨_, Policy.scripted, answers, hrun⟩
  · rintro ⟨σ, p, s, h⟩
    exact yields_of_run h

end Dialogue

end GameGrammar

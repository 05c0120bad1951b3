import GameGrammar.Proofs.Completion.Generation
import GameGrammar.Proofs.Completion.Outcome

/-! # Answers given again

What is asked in the course of a dialogue, and what it comes to, is settled by the answers. A
policy that gives the answers of another one over again, without looking at the questions, is
therefore asked the same and brings the dialogue to the same end. -/

namespace GameGrammar

/-! ## Exchanges -/

/-- A question together with an answer to it. -/
structure Exchange where
  question : Question
  answer : question.Answer

namespace Exchange

/-- The answer without its question. -/
def given (e : Exchange) : AnyAnswer :=
  ⟨e.question.kind, e.answer⟩

/-- The exchanges as they are recorded, latest first. -/
def record (talk : List Exchange) : List Event :=
  (talk.map fun e => .answered e.question e.answer).reverse

theorem record_cons (e : Exchange) (talk : List Exchange) (earlier : List Event) :
    record (e :: talk) ++ earlier = record talk ++ .answered e.question e.answer :: earlier := by
  rw [record, List.map_cons, List.reverse_cons, List.append_assoc]
  rfl

end Exchange

namespace Dialogue

variable {α β σ : Type} {talk : List Exchange}

/-- The dialogue runs through these exchanges, in this order, and then ends with a value or
fails. -/
inductive Runs : Dialogue α → List Exchange → Option α → Prop where
  | done (value : α) : Runs (.done value) [] (some value)
  | fail : Runs .fail [] none
  | ask (q : Question) (a : q.Answer) {next : q.Answer → Dialogue α} {talk : List Exchange}
      {outcome : Option α} (h : Runs (next a) talk outcome) :
      Runs (.ask q next) (⟨q, a⟩ :: talk) outcome

@[simp] theorem runs_done {v w : α} :
    (Dialogue.done v).Runs talk (some w) ↔ talk = [] ∧ w = v := by
  constructor
  · intro h
    cases h
    exact ⟨rfl, rfl⟩
  · intro h
    rw [h.1, h.2]
    exact .done v

@[simp] theorem runs_pure {v w : α} :
    (pure v : Dialogue α).Runs talk (some w) ↔ talk = [] ∧ w = v :=
  runs_done

@[simp] theorem runs_question {q : Question} {a : q.Answer} :
    (question q).Runs talk (some a) ↔ talk = [⟨q, a⟩] := by
  constructor
  · intro h
    cases h with
    | ask _ _ h =>
        obtain ⟨rfl, rfl⟩ := runs_done.mp h
        rfl
  · intro h
    rw [h]
    exact .ask q a (.done a)

/-- The exchanges of a dialogue that goes on are those of its two parts, one after the other. -/
theorem runs_bind {d : Dialogue α} {k : α → Dialogue β} {w : β} :
    (d >>= k).Runs talk (some w) ↔ ∃ v first rest, talk = first ++ rest ∧
      d.Runs first (some v) ∧ (k v).Runs rest (some w) := by
  change (d.bind k).Runs talk (some w) ↔ _
  induction d generalizing talk with
  | done value =>
      constructor
      · exact fun h => ⟨value, [], talk, rfl, .done value, h⟩
      · rintro ⟨v, first, rest, rfl, hfirst, hrest⟩
        obtain ⟨rfl, rfl⟩ := runs_done.mp hfirst
        exact hrest
  | fail =>
      constructor
      · exact fun h => nomatch h
      · rintro ⟨v, first, rest, -, hfirst, -⟩
        cases hfirst
  | ask q next ih =>
      constructor
      · intro h
        cases h with
        | ask _ a h =>
            obtain ⟨v, first, rest, rfl, hfirst, hrest⟩ := (ih a).mp h
            exact ⟨v, ⟨q, a⟩ :: first, rest, rfl, .ask q a hfirst, hrest⟩
      · rintro ⟨v, first, rest, rfl, hfirst, hrest⟩
        cases hfirst with
        | ask _ a hfirst => exact .ask q a ((ih a).mpr ⟨v, _, rest, rfl, hfirst, hrest⟩)

/-- What some exchanges come to is an outcome of the dialogue. -/
theorem Runs.yields {d : Dialogue α} {v : α} (h : d.Runs talk (some v)) : d.Yields v := by
  induction d generalizing talk with
  | done value => exact (runs_done.mp h).2
  | fail => cases h
  | ask q next ih =>
      cases h with
      | ask _ a h => exact ⟨a, ih a h⟩

/-- Any policy leads the dialogue through some exchanges, and these are what it records. -/
theorem exists_runs (d : Dialogue α) (p : Policy σ) (s : σ) :
    ∃ talk, Runs d talk (d.run p s).1 ∧ ∀ earlier,
      d.run p.recorded (s, earlier) =
        ((d.run p s).1, (d.run p s).2, Exchange.record talk ++ earlier) := by
  induction d generalizing s with
  | done value => exact ⟨[], .done value, fun earlier => rfl⟩
  | fail => exact ⟨[], .fail, fun earlier => rfl⟩
  | ask q next ih =>
      obtain ⟨talk, hruns, hrecorded⟩ := ih (p.answer q s).1 (p.answer q s).2
      refine ⟨⟨q, (p.answer q s).1⟩ :: talk, .ask q _ hruns, fun earlier => ?_⟩
      rw [Exchange.record_cons]
      exact hrecorded (.answered q (p.answer q s).1 :: earlier)

/-- The answers of some exchanges, given one after another, lead through these exchanges and to
their outcome. They are all used up, and no answer after them is. -/
theorem Runs.scripted {d : Dialogue α} {talk : List Exchange} {outcome : Option α}
    (h : Runs d talk outcome) (rest : List AnyAnswer) (earlier : List Event) :
    d.run Policy.scripted.recorded (talk.map Exchange.given ++ rest, earlier) =
      (outcome, rest, Exchange.record talk ++ earlier) := by
  induction h generalizing earlier with
  | done value => rfl
  | fail => rfl
  | ask q a _ ih =>
      rw [Exchange.record_cons, List.map_cons, List.cons_append]
      simp only [run, Policy.recorded, Exchange.given, Policy.scripted_answer_cons]
      exact ih (.answered q a :: earlier)

/-- Any policy leads the dialogue through exchanges whose answers lead it through the same ones
again. -/
theorem exists_replay (d : Dialogue α) (p : Policy σ) (s : σ) :
    ∃ talk, ∀ earlier,
      d.run p.recorded (s, earlier) =
        ((d.run p s).1, (d.run p s).2, Exchange.record talk ++ earlier) ∧
      ∀ rest, d.run Policy.scripted.recorded (talk.map Exchange.given ++ rest, earlier) =
        ((d.run p s).1, rest, Exchange.record talk ++ earlier) := by
  obtain ⟨talk, hruns, hrecorded⟩ := d.exists_runs p s
  exact ⟨talk, fun earlier => ⟨hrecorded earlier, fun rest => hruns.scripted rest earlier⟩⟩

end Dialogue

/-! ## Completion and generation -/

variable {σ : Type}

theorem Policy.recorded_reseed (p : Policy σ) (seed : UInt64) (s : σ × List Event) :
    p.recorded.reseed seed s = (p.reseed seed s.1, .reseeded seed :: s.2) :=
  rfl

theorem Policy.scripted_reseed (seed : UInt64) (answers : List AnyAnswer) :
    Policy.scripted.reseed seed answers = answers :=
  rfl

/-- What is done to a policy before the first question of a generation: it is given the seed, unless
the symbol stands for no rule. -/
def Grammar.seeding (g : Grammar) (symbol : String) (seed : UInt64) : List Event :=
  if g.resolve symbol = [] then [] else [.reseeded seed]

/-- Whatever policy completes a rule or a start symbol, it answers some questions one by one. The
policy that is left with nothing but these answers and gives them again, one after another, comes to
the same text or to the same failure, is asked the same questions in the same order, and uses up
these answers and no others. -/
theorem completion_replayed (g : Grammar) (p : Policy σ) (s : σ) :
    (∀ r depth, ∃ talk,
      (Completion.complete g r depth).run p.recorded (s, []) =
        (((Completion.complete g r depth).run p s).1,
          ((Completion.complete g r depth).run p s).2, Exchange.record talk) ∧
      ∀ rest, (Completion.complete g r depth).run Policy.scripted.recorded
        (talk.map Exchange.given ++ rest, []) =
          (((Completion.complete g r depth).run p s).1, rest, Exchange.record talk)) ∧
    ∀ symbol seed, ∃ talk,
      g.generate p.recorded symbol seed (s, []) =
        ((g.generate p symbol seed s).1, (g.generate p symbol seed s).2,
          Exchange.record talk ++ g.seeding symbol seed) ∧
      ∀ rest, g.generate Policy.scripted.recorded symbol seed
        (talk.map Exchange.given ++ rest, []) =
          ((g.generate p symbol seed s).1, rest,
            Exchange.record talk ++ g.seeding symbol seed) := by
  constructor
  · intro r depth
    obtain ⟨talk, htalk⟩ := (Completion.complete g r depth).exists_replay p s
    have hfirst := htalk []
    rw [List.append_nil] at hfirst
    exact ⟨talk, hfirst⟩
  · intro symbol seed
    by_cases h : g.resolve symbol = []
    · simp only [Grammar.generate_of_unknown h, Grammar.seeding, if_pos h]
      exact ⟨[], rfl, fun rest => rfl⟩
    · obtain ⟨d, hd⟩ := Grammar.exists_start h
      obtain ⟨talk, htalk⟩ := d.exists_replay p (p.reseed seed s)
      obtain ⟨hrecorded, hscripted⟩ := htalk [.reseeded seed]
      simp only [Grammar.generate_of_start hd, Grammar.seeding, if_neg h,
        Policy.recorded_reseed, Policy.scripted_reseed]
      exact ⟨talk, by rw [hrecorded], fun rest => by rw [hscripted rest]⟩

end GameGrammar

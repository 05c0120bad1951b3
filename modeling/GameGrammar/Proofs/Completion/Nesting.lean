import GameGrammar.Policy.Fixed
import GameGrammar.Proofs.Completion.Writing
import GameGrammar.Proofs.Text.Brackets

/-! # Brackets of completed texts

If each word of a grammar has matching brackets by itself, so has every completed text: whatever
completion writes between brackets of its own is complete before they are closed. -/

namespace GameGrammar

/-- The parentheses and braces of the text match. -/
def Matching (text : String) : Prop :=
  Text.Nested text.toList

instance (text : String) : Decidable (Matching text) :=
  inferInstanceAs (Decidable (Text.Nested _))

/-! ## Grammars with matching brackets -/

/-- Final text, heads and labels have matching brackets, each by itself. -/
def Clause.Matched : Clause → Prop
  | .terminal text => Matching text
  | .reference _ => True
  | .form head args => Matching head ∧ ∀ a ∈ args, ∀ l ∈ a.label, Matching l

def Rule.Matched (r : Rule) : Prop :=
  ∀ c ∈ r.clauses, c.Matched

/-- Every alternative of every rule is `Matched`. -/
def Grammar.Matched (g : Grammar) : Prop :=
  ∀ r ∈ g.rules, r.Matched

instance (c : Clause) : Decidable c.Matched :=
  match c with
  | .terminal _ => inferInstanceAs (Decidable (Matching _))
  | .reference _ => inferInstanceAs (Decidable True)
  | .form _ _ => inferInstanceAs (Decidable (_ ∧ ∀ a ∈ _, ∀ l ∈ _, Matching l))

instance (r : Rule) : Decidable r.Matched :=
  inferInstanceAs (Decidable (∀ c ∈ r.clauses, c.Matched))

instance (g : Grammar) : Decidable g.Matched :=
  inferInstanceAs (Decidable (∀ r ∈ g.rules, r.Matched))

/-! ## Parts of a text -/

theorem Matching.append {x y : String} (hx : Matching x) (hy : Matching y) : Matching (x ++ y) := by
  rw [Matching, String.toList_append]
  exact Text.Nested.append hx hy

theorem Matching.parenthesized {text : String} (h : Matching text) :
    Matching ("(" ++ text ++ ")") := by
  have henclosed := Text.Nested.parenthesized h
  simpa [Matching] using henclosed

theorem Matching.braced {text : String} (h : Matching text) :
    Matching ("\x7b" ++ text ++ "\x7d") := by
  have henclosed := Text.Nested.braced h
  simpa [Matching] using henclosed

namespace Completion

theorem isPlain_of_isBare {c : Char} (h : isBare c = true) : Text.isPlain c = true := by
  have hne (bracket : Char) (hb : isBare bracket = false) : c ≠ bracket := by
    rintro rfl
    rw [hb] at h
    cases h
  simp [Text.isPlain, hne '(' (by decide), hne ')' (by decide), hne '{' (by decide),
    hne '}' (by decide)]

theorem Bare.matching {text : String} (h : Bare text) : Matching text :=
  .of_plain fun c hc => isPlain_of_isBare (h c hc)

/-- Completion closes what it opens, and puts only texts with matching brackets in between. -/
theorem compositional_matching : Compositional Matching Matching Matching Matching where
  bare _ ht := ht.matching
  ofWord _ ht := ht
  nil := by decide
  cons l v t hl hv ht := (((show Matching " " by decide).append hl).append hv).append ht
  braces t ht := by
    have hclosed := (ht.append (show Matching " " by decide)).braced
    simpa [String.append_assoc] using hclosed
  form h t hh ht := by
    have hclosed := (hh.append ht).parenthesized
    simpa [String.append_assoc] using hclosed

theorem labelText_matching {a : Argument} (h : ∀ l ∈ a.label, Matching l) :
    Matching (labelText a) := by
  unfold labelText
  split
  · next l hl => exact (h l hl).append (by decide)
  · decide

end Completion

theorem Rule.Matched.madeOf {r : Rule} (h : r.Matched) :
    r.MadeOf Matching Matching := by
  intro c hc
  cases c with
  | terminal text => exact h _ hc
  | reference target => trivial
  | form head args =>
      obtain ⟨hhead, hlabels⟩ := h _ hc
      exact ⟨hhead, fun a ha => Completion.labelText_matching (hlabels a ha)⟩

theorem Grammar.Matched.madeOf {g : Grammar} (h : g.Matched) :
    g.MadeOf Matching Matching :=
  fun r hr => (h r hr).madeOf

namespace Completion

/-- Where the words of a grammar have matching brackets, every policy completes every rule at every
depth to a text with matching brackets, and every start symbol as well. The rule may also be one
from outside the grammar, if its own words match. -/
theorem completed_matching {g : Grammar} (hg : g.Matched) {σ : Type} (p : Policy σ) :
    (∀ r, r ∈ g.rules ∨ r.Matched → ∀ depth s t,
      ((complete g r depth).run p s).1 = some t → Matching t) ∧
    ∀ symbol seed s s' t, g.generate p symbol seed s = (.ok (some t), s') → Matching t := by
  constructor
  · intro r hr depth s t ht
    have hmatched : r.Matched := hr.elim (hg r) id
    exact complete_composed compositional_matching hg.madeOf hmatched.madeOf
      (Dialogue.yields_of_run ht)
  · intro symbol seed s s' t ht
    exact Grammar.generate_composed compositional_matching hg.madeOf ht

/-- A rule whose only word holds brackets of both kinds. -/
def nestTwig : Rule :=
  ⟨"<twig>", [.terminal "\x7b(t)\x7d"]⟩

/-- Brackets in a word, in a head and in a label, two layers of braces and a weak marker. -/
def nestGrammar : Grammar where
  rules := [
    ⟨"<nest>", [.form "n\x7b()\x7d" [
      { token := "<twig>", label := some "(l)", nesting := 2 },
      { token := "nowhere", nesting := 1 }]]⟩,
    nestTwig]
  sound := by decide

/-- One way to complete the rule, with two items in every collection. -/
def nestText : String :=
  "(n\x7b()\x7d (l):\x7b \x7b \x7b(t)\x7d \x7b(t)\x7d \x7d" ++
    " \x7b \x7b(t)\x7d \x7b(t)\x7d \x7d \x7d \x7b ? ? \x7d)"

theorem completed_matching_nestGrammar :
    nestGrammar.Matched ∧
      ((complete nestGrammar nestTwig 97).run (FixedAnswers.policy {}) ()).1 =
        some "\x7b(t)\x7d" ∧
      Matching "\x7b(t)\x7d" ∧
      (nestGrammar.generate (FixedAnswers.policy { itemCount := 2 }) "nest" 0 ()).1 =
        .ok (some nestText) ∧
      Matching nestText := by
  have hg : nestGrammar.Matched := by decide
  have htwig : ((complete nestGrammar nestTwig 97).run (FixedAnswers.policy {}) ()).1 =
      some "\x7b(t)\x7d" := by
    with_unfolding_all rfl
  have htext : (nestGrammar.generate (FixedAnswers.policy { itemCount := 2 }) "nest" 0 ()).1 =
      .ok (some nestText) := by
    with_unfolding_all rfl
  have hmem : nestTwig ∈ nestGrammar.rules := by simp [nestGrammar]
  refine ⟨hg, htwig, ?_, htext, ?_⟩
  · exact (completed_matching hg _).1 nestTwig (.inl hmem) 97 () _ htwig
  · exact (completed_matching hg _).2 "nest" 0 () _ _ (Prod.ext htext rfl)

end Completion

end GameGrammar

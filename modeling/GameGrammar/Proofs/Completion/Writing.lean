import GameGrammar.Completion.Generate
import GameGrammar.Proofs.Completion.Derivation
import GameGrammar.Proofs.Decimal.Characters
import GameGrammar.Proofs.Grammar.Resolve

/-! # How completed texts are put together

Completion writes the words of a grammar down as they stand, and what it adds to them are spaces,
parentheses and braces in fixed places. A property that goes from the parts to the whole in each of
these places is therefore a property of every completed text. -/

namespace GameGrammar.Completion

/-! ## Words that a grammar does not choose -/

/-- A character of a literal, of the word of a leaf category or of the weak marker. -/
def isBare (c : Char) : Bool :=
  c.isAlphanum || ['-', '.', '?'].contains c

/-- All characters of the text are bare. -/
def Bare (text : String) : Prop :=
  ∀ c ∈ text.toList, isBare c = true

instance (text : String) : Decidable (Bare text) :=
  inferInstanceAs (Decidable (∀ c ∈ text.toList, isBare c = true))

theorem isBare_of_isNumeral {c : Char} (h : Decimal.isNumeral c = true) : isBare c = true := by
  rw [Decimal.isNumeral, Bool.or_eq_true, List.contains_eq_mem, decide_eq_true_eq] at h
  rcases h with hdigit | hmem
  · simp [isBare, Char.isAlphanum, hdigit]
  · have hall : ∀ c ∈ ['-', '.', 'e', 'N', 'a', 'i', 'n', 'f'], isBare c = true := by decide
    exact hall c hmem

theorem bare_of_numeral {text : String} (h : Decimal.Numeral text) : Bare text :=
  fun c hc => isBare_of_isNumeral (h c hc)

theorem Primitive.Literal.bare {p : Primitive} {t : String} (h : p.Literal t) : Bare t := by
  cases h with
  | int n => exact bare_of_numeral (.int n.toInt)
  | dim n => exact bare_of_numeral (.int n.toInt)
  | boolean b => cases b <;> decide
  | float x => exact bare_of_numeral (.pointText _)

theorem marker_bare (c : Category) : Bare c.marker := by
  cases c <;> decide

/-! ## Properties that go from the parts to the whole -/

/-- Properties of the words and the heads of a grammar, of the texts of its rules and of what
follows a head or an opening brace, such that each part that is written hands them on. -/
structure Compositional (word head value series : String → Prop) : Prop where
  bare : ∀ t, Bare t → word t
  ofWord : ∀ t, word t → value t
  nil : series ""
  cons : ∀ l v t, word l → value v → series t → series (" " ++ l ++ v ++ t)
  braces : ∀ t, series t → value ("\x7b" ++ t ++ " \x7d")
  form : ∀ h t, head h → series t → value ("(" ++ h ++ t ++ ")")

end Completion

/-! ## Grammars made of such words -/

/-- Final text, heads and labels have the properties of words and heads. -/
def Clause.MadeOf (word head : String → Prop) : Clause → Prop
  | .terminal text => word text
  | .reference _ => True
  | .form h args => head h ∧ ∀ a ∈ args, word (Completion.labelText a)

def Rule.MadeOf (word head : String → Prop) (r : Rule) : Prop :=
  ∀ c ∈ r.clauses, c.MadeOf word head

/-- Every alternative of every rule is `MadeOf` such words and heads. -/
def Grammar.MadeOf (word head : String → Prop) (g : Grammar) : Prop :=
  ∀ r ∈ g.rules, r.MadeOf word head

namespace Completion

section

variable {word head value series : String → Prop} {reach : Option Nat} {g : Grammar}

mutual

theorem Derives.composed (hp : Compositional word head value series) (hg : g.MadeOf word head)
    {r : Rule} {d : Nat} {t : String} (hr : r.MadeOf word head) : Derives reach g r d t → value t
  | .primitive _ _ _ ht => hp.ofWord _ (hp.bare _ ht.bare)
  | .terminal _ hc => hp.ofWord _ (hr _ hc)
  | .reference _ _ hs ht => ht.composed hp hg (hg _ (Grammar.mem_rules_of_resolve_eq hs))
  | .form _ hc _ ht =>
      have hform : head _ ∧ ∀ a ∈ _, word (labelText a) := hr _ hc
      hp.form _ _ hform.1 (ht.composed hp hg fun a ha => hform.2 a (mem_of_mem_marked ha))

theorem DerivesArguments.composed (hp : Compositional word head value series)
    (hg : g.MadeOf word head) {args : List Argument} {d : Nat} {t : String}
    (ha : ∀ a ∈ args, word (labelText a)) : DerivesArguments reach g args d t → series t
  | .nil => hp.nil
  | .omitted _ ht => ht.composed hp hg (List.forall_mem_cons.mp ha).2
  | .written _ hv ht =>
      hp.cons _ _ _ (List.forall_mem_cons.mp ha).1 (hv.composed hp hg)
        (ht.composed hp hg (List.forall_mem_cons.mp ha).2)

theorem DerivesValue.composed (hp : Compositional word head value series)
    (hg : g.MadeOf word head) {a : Argument} {d layers : Nat} {t : String} :
    DerivesValue reach g a d layers t → value t
  | .item ht => ht.composed hp hg
  | .collection ht => hp.braces _ (ht.composed hp hg)

theorem DerivesSeries.composed (hp : Compositional word head value series)
    (hg : g.MadeOf word head) {a : Argument} {d layers count : Nat} {t : String} :
    DerivesSeries reach g a d layers count t → series t
  | .nil => hp.nil
  | .cons hv ht => hp.cons "" _ _ (hp.bare _ (by decide)) (hv.composed hp hg) (ht.composed hp hg)

theorem DerivesItem.composed (hp : Compositional word head value series)
    (hg : g.MadeOf word head) {a : Argument} {d : Nat} {t : String} :
    DerivesItem reach g a d t → value t
  | .marker (c := c) _ => hp.ofWord _ (hp.bare _ (marker_bare c))
  | .weak _ _ => hp.ofWord _ (hp.bare _ (by decide))
  | .rule _ hr ht => ht.composed hp hg (hg _ (Grammar.mem_rules_of_resolve_eq hr))

end

/-- What a rule can be completed with has the property. -/
theorem complete_composed (hp : Compositional word head value series) (hg : g.MadeOf word head)
    {r : Rule} (hr : r.MadeOf word head) {d : Nat} {t : String}
    (h : (complete g r d).Yields t) : value t :=
  (complete_yields.mp h).composed hp hg hr

end

end Completion

/-! ## Generated texts -/

namespace Grammar

/-- What comes of a start symbol comes of one of its rules. -/
theorem exists_rule_of_start {g : Grammar} {symbol : String} {d : Dialogue String} {t : String}
    (h : g.start? symbol = some d) (ht : d.Yields t) :
    ∃ r ∈ g.resolve symbol, (Completion.complete g r 0).Yields t := by
  rcases hr : g.resolve symbol with _ | ⟨first, _ | ⟨second, others⟩⟩
  · simp [start?, hr] at h
  · simp only [start?, hr, Option.some.injEq] at h
    rw [← h] at ht
    exact ⟨first, List.mem_singleton_self first, ht⟩
  · simp only [start?, hr, Option.some.injEq] at h
    obtain ⟨i, -, hi⟩ := Dialogue.yields_bind.mp (h ▸ ht)
    exact ⟨_, List.get_mem _ _, hi⟩

/-- A generated text completes a rule of the grammar. -/
theorem exists_rule_of_generate {σ : Type} {g : Grammar} {p : Policy σ} {symbol : String}
    {seed : UInt64} {s s' : σ} {text : String}
    (h : g.generate p symbol seed s = (.ok (some text), s')) :
    ∃ r ∈ g.rules, (Completion.complete g r 0).Yields text := by
  unfold generate produce at h
  split at h
  · cases h
  · next d hd =>
      have hrun : (d.run p (p.reseed seed s)).1 = some text := by
        simp only [Prod.mk.injEq, Except.ok.injEq] at h
        exact h.1
      obtain ⟨r, hr, ht⟩ := exists_rule_of_start hd (Dialogue.yields_of_run hrun)
      exact ⟨r, mem_rules_of_mem_resolve hr, ht⟩

theorem generate_composed {σ : Type} {word head value series : String → Prop}
    (hp : Completion.Compositional word head value series) {g : Grammar}
    (hg : g.MadeOf word head) {p : Policy σ} {symbol : String} {seed : UInt64} {s s' : σ}
    {text : String} (h : g.generate p symbol seed s = (.ok (some text), s')) : value text := by
  obtain ⟨r, hr, ht⟩ := exists_rule_of_generate h
  exact Completion.complete_composed hp hg (hg r hr) ht

end Grammar

end GameGrammar

import GameGrammar.Proofs.Completion.Correspondence
import GameGrammar.Proofs.Completion.Sketch
import GameGrammar.Proofs.Decimal.Characters
import Mathlib.Data.List.Infix

/-! # Sketches of legible grammars

If the words of a grammar can be told from slots, completion to a sketch runs in lockstep with
completion to a text, and the sketch is a whole form or has no slot. -/

namespace GameGrammar

/-! ## Texts that can be told from slots -/

/-- Neither a parenthesis nor the marker of a slot. -/
structure Inert (text : List Char) : Prop where
  noOpening : '(' ∉ text
  noClosing : ')' ∉ text
  noMarker : ¬ slotMarker <:+: text

/-- What the parts of an alternative have to be like so that slots can be told apart: a head is
one word, and neither final text, heads nor labels look like parentheses or slots. -/
def Clause.Legible : Clause → Prop
  | .terminal text => Inert text.toList
  | .reference _ => True
  | .form head args => Inert head.toList ∧ (∀ c ∈ head.toList, Text.isBlank c = false) ∧
      ∀ a ∈ args, ∀ l ∈ a.label, Inert l.toList

def Rule.Legible (r : Rule) : Prop :=
  ∀ c ∈ r.clauses, c.Legible

def Grammar.Legible (g : Grammar) : Prop :=
  ∀ r ∈ g.rules, r.Legible

instance (text : List Char) : Decidable (Inert text) :=
  decidable_of_iff ('(' ∉ text ∧ ')' ∉ text ∧ ¬ slotMarker <:+: text)
    ⟨fun ⟨ho, hc, hm⟩ => ⟨ho, hc, hm⟩, fun h => ⟨h.noOpening, h.noClosing, h.noMarker⟩⟩

instance (c : Clause) : Decidable c.Legible :=
  match c with
  | .terminal _ => inferInstanceAs (Decidable (Inert _))
  | .reference _ => inferInstanceAs (Decidable True)
  | .form _ _ => inferInstanceAs (Decidable (_ ∧ _ ∧ ∀ a ∈ _, ∀ l ∈ _, Inert _))

instance (r : Rule) : Decidable r.Legible :=
  inferInstanceAs (Decidable (∀ c ∈ r.clauses, c.Legible))

instance (g : Grammar) : Decidable g.Legible :=
  inferInstanceAs (Decidable (∀ r ∈ g.rules, r.Legible))

/-- Without the letter that ends it there is no marker. -/
theorem Inert.of_chars {text : List Char} (h : ∀ c ∈ text, c ≠ '(' ∧ c ≠ ')' ∧ c ≠ 'g') :
    Inert text where
  noOpening hm := (h _ hm).1 rfl
  noClosing hm := (h _ hm).2.1 rfl
  noMarker hm := (h 'g' (hm.subset (by decide))).2.2 rfl

namespace Sketch

open Completion Dialogue

/-! ## The layout of a sketch -/

mutual

/-- Text without a slot, or a whole form. -/
inductive Closed : Sketch → Prop where
  | plain {text : String} (h : Inert text.toList) : Closed (plain text)
  | form {head : String} {out : Sketch} (h : Opened head out) : Closed (out ++ plain ")")

/-- A form of this head up to some place where a space or its end may follow. -/
inductive Opened : String → Sketch → Prop where
  | head {head : String} (h : Inert head.toList)
      (hb : ∀ c ∈ head.toList, Text.isBlank c = false) : Opened head (plain ("(" ++ head))
  | brace {head : String} {out : Sketch} (h : Ready head out) : Opened head (out ++ plain "\x7b")
  | unbrace {head : String} {out : Sketch} (h : Opened head out) :
      Opened head (out ++ plain " \x7d")
  | closed {head : String} {out value : Sketch} (h : Ready head out) (hv : Closed value) :
      Opened head (out ++ value)
  | slot {head : String} {out : Sketch} (h : Ready head out) : Opened head (out ++ [.slot head])

/-- A form of this head up to some place where a value may follow. -/
inductive Ready : String → Sketch → Prop where
  | space {head : String} {out : Sketch} (h : Opened head out) : Ready head (out ++ plain " ")
  | label {head l : String} {out : Sketch} (h : Ready head out) (hl : Inert l.toList) :
      Ready head (out ++ plain (l ++ ":"))

end

/-- The sketch has a property and is spelled as the text. -/
def Spells (P : Sketch → Prop) (sketch : Sketch) (text : String) : Prop :=
  P sketch ∧ text = sketch.spelling

/-- A value inside a form of this head. -/
def Value (head : String) (sketch : Sketch) : Prop :=
  Closed sketch ∨ sketch = [.slot head]

theorem Ready.value {head : String} {out value : Sketch} (h : Ready head out)
    (hv : Value head value) : Opened head (out ++ value) := by
  rcases hv with hv | rfl
  · exact .closed h hv
  · exact .slot h

/-! ## The two completions in lockstep -/

theorem inert_of_numeral {text : String} (h : Decimal.Numeral text) : Inert text.toList := by
  apply Inert.of_chars
  intro c hc
  have hn := h c hc
  refine ⟨?_, ?_, ?_⟩ <;> rintro rfl <;> cases hn

theorem inert_of_literal {p : Primitive} {text : String} (h : p.Literal text) :
    Inert text.toList := by
  cases h with
  | int n => exact inert_of_numeral (.int n.toInt)
  | dim n => exact inert_of_numeral (.int n.toInt)
  | boolean b => cases b <;> exact .of_chars (by decide)
  | float x => exact inert_of_numeral (.pointText _)

theorem leaf_spells (head : String) (c : Category) :
    Spells (Value head) (Output.leaf head c) c.marker := by
  have hword (text : String) (h : Inert text.toList) : Spells (Value head) (plain text) text :=
    ⟨.inl (.plain h), by simp⟩
  cases c with
  | string => exact ⟨.inr rfl, rfl⟩
  | int => exact hword "int" (.of_chars (by decide))
  | boolean => exact hword "boolean" (.of_chars (by decide))
  | float => exact hword "float" (.of_chars (by decide))

theorem Spells.labelled {head : String} {a : Argument} (ha : ∀ l ∈ a.label, Inert l.toList)
    {out : Sketch} {text : String} (h : Spells (Ready head) out text) :
    Spells (Ready head) (out ++ plain (labelText a)) (text ++ labelText a) := by
  obtain ⟨hready, rfl⟩ := h
  refine ⟨?_, by simp⟩
  unfold labelText
  split
  · next l hl => exact .label hready (ha l hl)
  · simpa [plain] using hready

/-- Sketches of rules are closed, those of forms are opened or ready for a value. -/
def layout : Relations Sketch where
  rule := Spells Closed
  opened head := Spells (Opened head)
  ready head := Spells (Ready head)
  value head := Spells (Value head)

theorem layout_kept (g : Grammar) : layout.Kept g Clause.Legible where
  terminal text h := ⟨.plain h, by simp⟩
  literal p text h := ⟨.plain (inert_of_literal h), by simp⟩
  head head args h := ⟨.head h.1 h.2.1, by simp⟩
  space head out text := by
    rintro ⟨ho, rfl⟩
    exact ⟨.space ho, by simp⟩
  label head args h a ha out text hready := hready.labelled (h.2.2 a ha)
  value head out text v u := by
    rintro ⟨ho, rfl⟩ ⟨hv, rfl⟩
    exact ⟨ho.value hv, by simp⟩
  brace head out text := by
    rintro ⟨ho, rfl⟩
    exact ⟨.brace ho, by simp⟩
  unbrace head out text := by
    rintro ⟨ho, rfl⟩
    exact ⟨.unbrace ho, by simp⟩
  close head out text := by
    rintro ⟨ho, rfl⟩
    exact ⟨.form ho, by simp⟩
  leaf := leaf_spells
  weak _ _ _ _ _ _ _ := ⟨.inl (.plain (.of_chars (by decide))), by simp⟩
  nested head v text h := ⟨.inl h.1, h.2⟩

/-- Completion to a sketch asks what completion asks. The sketch is spelled as the completed
text, and it is a whole form or has no slot. -/
theorem complete_lockstep {g : Grammar} (hg : g.Legible) {r : Rule} (h : r.Legible)
    (depth : Nat) :
    Lockstep (Spells Closed) (complete g r depth) (Completion.complete g r depth) :=
  completion_lockstep (m := Dialogue) (layout_kept g) hg {} h depth

end Sketch

end GameGrammar

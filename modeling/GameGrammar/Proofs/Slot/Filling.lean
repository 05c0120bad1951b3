import GameGrammar.Policy.Fixed
import GameGrammar.Proofs.Slot.Passage

/-! # Slots are filled for their own forms

A completed text is filled slot by slot, each with a value for the form that has written it. -/

namespace GameGrammar

namespace Sketch

/-! ## Blanks at the ends -/

theorem chars_dropWhile (sketch : Sketch) :
    chars (sketch.dropWhile Symbol.isBlank) = sketch.chars.dropWhile Text.isBlank := by
  induction sketch with
  | nil => rfl
  | cons x sketch ih =>
      cases x with
      | char c =>
          by_cases h : Text.isBlank c
          · simpa [Symbol.isBlank, Symbol.chars, h] using ih
          · simp [Symbol.isBlank, Symbol.chars, h]
      | slot head => rfl

theorem chars_dropEnd (sketch : Sketch) :
    chars (sketch.dropWhile Symbol.isBlank).reverse =
      ((chars sketch.reverse).reverse.dropWhile Text.isBlank).reverse := by
  induction sketch with
  | nil => rfl
  | cons x sketch ih =>
      cases x with
      | char c =>
          by_cases h : Text.isBlank c
          · simpa [Symbol.isBlank, Symbol.chars, h] using ih
          · simp [Symbol.isBlank, Symbol.chars, h]
      | slot head =>
          have hg : Text.isBlank 'g' = false := rfl
          simp [Symbol.isBlank, Symbol.chars, slotMarker, hg]

/-- Trimming the sketch trims its text: no slot begins or ends with a blank. -/
theorem chars_trim (sketch : Sketch) : sketch.trim.chars = Text.trim sketch.chars := by
  rw [trim, chars_dropEnd, List.reverse_reverse, chars_dropWhile]
  rfl

theorem trim_plain (text : String) :
    (plain text).trim = plain (String.ofList (Text.trim text.toList)) := by
  have hp : Symbol.isBlank ∘ Symbol.char = Text.isBlank := rfl
  simp only [trim, plain, Text.trim, Text.trimEnd, Text.trimStart, List.dropWhile_map, hp,
    ← List.map_reverse, String.toList_ofList]

mutual

theorem Opened.head?_eq {head : String} {sketch : Sketch} (h : Opened head sketch) :
    sketch.head? = some (.char '(') :=
  match h with
  | .head _ _ => by simp [plain]
  | .brace hr => by simp [hr.head?_eq]
  | .unbrace ho => by simp [ho.head?_eq]
  | .closed hr _ => by simp [hr.head?_eq]
  | .slot hr => by simp [hr.head?_eq]

theorem Ready.head?_eq {head : String} {sketch : Sketch} (h : Ready head sketch) :
    sketch.head? = some (.char '(') :=
  match h with
  | .space ho => by simp [ho.head?_eq]
  | .label hr _ => by simp [hr.head?_eq]

end

theorem Closed.trim {sketch : Sketch} (h : Closed sketch) : Closed sketch.trim := by
  cases h with
  | @plain text ht =>
      have hi := Text.trim_infix text.toList
      rw [trim_plain]
      refine .plain ⟨?_, ?_, ?_⟩
      · simpa using fun hm => ht.noOpening (hi.subset hm)
      · simpa using fun hm => ht.noClosing (hi.subset hm)
      · simpa using fun hm => ht.noMarker (hm.trans hi)
  | @form head out ho =>
      -- A form begins and ends with a parenthesis.
      have hkeep : Sketch.trim (out ++ Sketch.plain ")") = out ++ Sketch.plain ")" := by
        obtain ⟨rest, rfl⟩ : ∃ rest, out = .char '(' :: rest := by
          have hh := ho.head?_eq
          cases out with
          | nil => cases hh
          | cons x rest => exact ⟨rest, by rw [Option.some.inj hh]⟩
        have hl : Symbol.isBlank (.char '(') = false := rfl
        have hr : Symbol.isBlank (.char ')') = false := rfl
        simp [Sketch.trim, Sketch.plain, hl, hr]
      rw [hkeep]
      exact .form ho

end Sketch

/-! ## Completed texts -/

open Completion in
/-- Every completed text is filled slot by slot. The policy that completes a rule to a text also
completes it to a sketch that is spelled as the text; in the trimmed text exactly the slots of
the sketch are filled, each with a value for the form that has written it. -/
theorem fill_complete {σ ρ : Type} [Sampler ρ] {g : Grammar} (hg : g.Legible) {v : Values}
    (hv : v.AllFlat) (p : Policy σ) (s : σ) {r : Rule} (hr : r.Legible) (depth : Nat)
    {text : String} (h : ((complete g r depth).run p s).1 = some text) (source : ρ) :
    ∃ sketch, (Sketch.complete g r depth).run p s =
        (some sketch, ((complete g r depth).run p s).2) ∧
      sketch.spelling = text ∧
      Fills v [] sketch.trim [] (v.fill text source).1.toList := by
  obtain ⟨sketch, hrun, hclosed, rfl⟩ :=
    (Sketch.complete_lockstep hg hr depth).run_eq_some h
  refine ⟨sketch, hrun, rfl, ?_⟩
  obtain ⟨out, s', hp, -⟩ := hclosed.trim.passes hv [] [] source (by simp [Edge])
  have hrun := hp.run
  rw [Sketch.chars_trim, List.append_nil, List.nil_append, List.reverse_nil] at hrun
  have hout : v.fill sketch.spelling source = (String.ofList out, s') := by
    have htext : sketch.spelling.toList = sketch.chars := String.toList_ofList
    have hend : v.fillFrom out.reverse [] s' = (out, s') := by
      simp only [Values.fillFrom, List.reverse_reverse]
      rfl
    have hstep : v.fill sketch.spelling source =
        (String.ofList (v.fillFrom [] (Text.trim sketch.spelling.toList) source).1,
          (v.fillFrom [] (Text.trim sketch.spelling.toList) source).2) := rfl
    rw [hstep, htext, hrun, hend]
  rw [hout, String.toList_ofList]
  exact hp.fills

/-- A game that holds a piece, each with a slot of its own. -/
def pieceGame : Grammar where
  rules := [⟨"<game>", [.form "game" [{ token := "string" }, { token := "piece" }]]⟩,
    ⟨"<piece>", [.form "piece" [{ token := "string", label := some "kind" }]]⟩]
  sound := by decide

theorem fill_complete_pieceGame :
    ∃ r sketch, pieceGame.rule? "<game>" = some r ∧
      (Sketch.complete pieceGame r 0).run (FixedAnswers.policy {}) () = (some sketch, ()) ∧
      sketch.spelling = "(game string (piece kind:string))" ∧
      Fills {} [] sketch.trim []
        (({} : Values).fill "(game string (piece kind:string))"
          (Random.Source.seeded 0)).1.toList := by
  have hg : pieceGame.Legible := by decide
  have hrun : ((Completion.complete pieceGame
      ⟨"<game>", [.form "game" [{ token := "string" }, { token := "piece" }]]⟩ 0).run
      (FixedAnswers.policy {}) ()).1 = some "(game string (piece kind:string))" := by
    decide +kernel
  obtain ⟨sketch, hs, hspell, hfills⟩ := fill_complete hg Values.standard_flat
    (FixedAnswers.policy {}) () (hg _ List.mem_cons_self) 0 hrun (Random.Source.seeded 0)
  exact ⟨_, sketch, rfl, hs, hspell, hfills⟩

end GameGrammar

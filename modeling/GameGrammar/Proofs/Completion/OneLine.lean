import GameGrammar.Proofs.Completion.Writing
import GameGrammar.Proofs.Listing.Named

/-! # Completed texts stand on one line

The words of a listing have no blanks and completion writes nothing but spaces between them, so
that no completed text has a line feed. -/

namespace GameGrammar

theorem Unspaced.oneLine {text : String} (h : Unspaced text) : OneLine text := by
  intro hc
  cases h _ hc

namespace Completion

theorem Bare.oneLine {text : String} (h : Bare text) : OneLine text := by
  intro hc
  cases h _ hc

theorem labelText_oneLine {a : Argument} (h : a.Worded) : OneLine (labelText a) := by
  unfold labelText
  split
  · next l hl => exact (h.2 l hl).oneLine.append (by decide)
  · decide

end Completion

theorem Clause.Worded.madeOf {c : Clause} (h : c.Worded) : c.MadeOf OneLine OneLine := by
  cases c with
  | terminal text => exact Unspaced.oneLine h
  | reference target => trivial
  | form head args => exact ⟨h.1.oneLine, fun a ha => Completion.labelText_oneLine (h.2 a ha)⟩

namespace Grammar

end Grammar

end GameGrammar

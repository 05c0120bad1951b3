import GameGrammar.Completion.Engine
import GameGrammar.Slot.Fill

/-! # Completion with its slots kept apart

A sketch is a completed text in which every slot is a symbol of its own that knows the head of
its form. Completion may write a sketch in place of the text. -/

namespace GameGrammar

/-- A character of a completed text, or a whole slot. -/
inductive Symbol where
  | char (c : Char)
  /-- The marker that a form with this head has written for an argument `string`. -/
  | slot (head : String)
  deriving DecidableEq

abbrev Sketch :=
  List Symbol

def Symbol.chars : Symbol → List Char
  | .char c => [c]
  | .slot _ => slotMarker

def Symbol.isBlank : Symbol → Bool
  | .char c => Text.isBlank c
  | .slot _ => false

namespace Sketch

/-- Text without a slot. -/
def plain (text : String) : Sketch :=
  text.toList.map .char

def chars (sketch : Sketch) : List Char :=
  sketch.flatMap Symbol.chars

/-- The completed text that the sketch is of. -/
def spelling (sketch : Sketch) : String :=
  String.ofList sketch.chars

/-- The sketch without the blanks at either end. -/
def trim (sketch : Sketch) : Sketch :=
  ((sketch.dropWhile Symbol.isBlank).reverse.dropWhile Symbol.isBlank).reverse

@[simp] theorem chars_nil : chars [] = [] :=
  rfl

@[simp] theorem chars_cons (s : Symbol) (sketch : Sketch) :
    chars (s :: sketch) = s.chars ++ sketch.chars :=
  rfl

@[simp] theorem chars_append (x y : Sketch) : chars (x ++ y) = x.chars ++ y.chars :=
  List.flatMap_append

@[simp] theorem chars_plain (text : String) : (plain text).chars = text.toList := by
  simp [plain, chars, List.flatMap_map, Symbol.chars]

@[simp] theorem spelling_append (x y : Sketch) :
    spelling (x ++ y) = x.spelling ++ y.spelling := by
  simp [spelling]

@[simp] theorem spelling_plain (text : String) : (plain text).spelling = text := by
  simp [spelling]

/-! ## Completion to a sketch -/

open Completion

/-- A leaf of the category `string` makes a slot of its form. -/
instance : Output Sketch where
  words := plain
  leaf
    | head, .string => [.slot head]
    | _, c => plain c.marker

@[simp] theorem output_words (text : String) : (Output.words text : Sketch) = plain text :=
  rfl

@[simp] theorem output_weak (token : String) : (Output.weak token : Sketch) = plain weakMarker :=
  rfl

/-- Completes a rule to a sketch within the usual bounds. -/
def complete (g : Grammar) (r : Rule) (depth : Nat) : Dialogue Sketch :=
  completion {} g r depth

end Sketch

end GameGrammar

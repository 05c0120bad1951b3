import GameGrammar.Slot.Fill

/-! # Forms that are open

Reading a text from the left with a stack of the parentheses that are open, one knows at every
position which form is the innermost. Looking back from there with a mere count of closed forms, one
finds the same form, whether the parentheses of the text match or not. -/

namespace GameGrammar

/-! ## Reading from the left -/

/-- The open parentheses after one more character, which stands at position `i`. A closing
parenthesis that closes nothing is passed over. -/
def openStep (opened : List Nat) (i : Nat) : Char → List Nat
  | '(' => i :: opened
  | ')' => opened.tail
  | _ => opened

/-- The positions of the parentheses that are open behind the text, the latest first. -/
def openPositions (text : List Char) : List Nat :=
  text.zipIdx.foldl (fun opened x => openStep opened x.2 x.1) []

/-- The second parenthesis is closed again, and the fourth closes nothing that is open. -/
example : openPositions "(a (b) c))(d (e ".toList = [13, 10] := by
  decide

@[simp] theorem openPositions_nil : openPositions [] = [] := rfl

@[simp] theorem openPositions_concat (text : List Char) (c : Char) :
    openPositions (text ++ [c]) = openStep (openPositions text) text.length c := by
  simp [openPositions, List.zipIdx_append]

theorem openStep_other {c : Char} (ho : c ≠ '(') (hc : c ≠ ')') (opened : List Nat) (i : Nat) :
    openStep opened i c = opened := by
  rw [openStep]
  · exact ho
  · exact hc

/-! ## Looking back -/

theorem openForm?_other {c : Char} (ho : c ≠ '(') (hc : c ≠ ')') (closed : Nat)
    (before after : List Char) :
    openForm? closed (c :: before) after = openForm? closed before (c :: after) := by
  rw [openForm?]
  · exact hc
  · exact ho

/-- Passing over so many closed forms, one finds the parenthesis that has so many others on top of
it. -/
theorem openForm?_eq (closed : Nat) (before after : List Char) :
    openForm? closed before after =
      (openPositions before.reverse)[closed]?.map fun i =>
        (before.reverse ++ after).drop (i + 1) := by
  induction before generalizing closed after with
  | nil => simp [openForm?]
  | cons c before ih =>
      rw [List.reverse_cons, openPositions_concat, List.append_assoc, List.singleton_append]
      by_cases ho : c = '('
      · subst ho
        cases closed with
        | zero =>
            have hafter : (before.reverse ++ '(' :: after).drop (before.length + 1) = after := by
              rw [← List.length_reverse, List.drop_length_add_append]
              rfl
            simp [openForm?, openStep, hafter]
        | succ closed => simp [openForm?, openStep, ih]
      by_cases hc : c = ')'
      · -- a form that is closed here takes the one below it off the stack
        subst hc
        simp [openForm?, openStep, ih]
      · rw [openForm?_other ho hc, openStep_other ho hc, ih]

/-- The form that is found is the one on top of the stack, and its head goes up to a blank or a
parenthesis. Where no form is open, the first word of the text is taken. -/
theorem enclosingName_innermost (text : List Char) (p : Nat) :
    enclosingName (text.take p).reverse (text.drop p) =
      match openPositions (text.take p) with
      | i :: _ =>
        (text.drop (i + 1)).takeWhile fun c => !(Text.isBlank c || c == '(' || c == ')')
      | [] => (text.dropWhile Text.isBlank).takeWhile (!Text.isBlank ·) := by
  have hopen : openForm? 0 (text.take p).reverse (text.drop p) =
      (openPositions (text.take p))[0]?.map fun i => text.drop (i + 1) := by
    simp [openForm?_eq]
  rw [enclosingName, hopen]
  cases openPositions (text.take p) with
  | nil => simp [Text.firstWord, Text.trimStart]
  | cons i below => simp [headToken]

end GameGrammar

import GameGrammar.Proofs.Completion.Legible

/-! # Looking back from a slot

Looking back over a text without open forms, one finds the form that was open before it. -/

namespace GameGrammar

/-- Looking back over the text, one finds the forms that were open before it, and no others. -/
def Neutral (text : List Char) : Prop :=
  ∀ closed before after, openForm? closed (text.reverse ++ before) after =
    openForm? closed before (text ++ after)

namespace Neutral

theorem append {x y : List Char} (hx : Neutral x) (hy : Neutral y) : Neutral (x ++ y) := by
  intro closed before after
  rw [List.reverse_append, List.append_assoc, hy, hx, List.append_assoc]

theorem of_flat {text : List Char} (ho : '(' ∉ text) (hc : ')' ∉ text) : Neutral text := by
  induction text with
  | nil => exact fun _ _ _ => rfl
  | cons c text ih =>
      have hchar : Neutral [c] := by
        intro closed before after
        have h1 : c ≠ '(' := fun h => ho (h ▸ List.mem_cons_self)
        have h2 : c ≠ ')' := fun h => hc (h ▸ List.mem_cons_self)
        rw [List.reverse_singleton, List.singleton_append, openForm?]
        · rfl
        · exact h2
        · exact h1
      exact hchar.append
        (ih (fun h => ho (List.mem_cons_of_mem c h)) (fun h => hc (List.mem_cons_of_mem c h)))

/-- A whole form is passed over. -/
theorem form {body : List Char} (h : Neutral body) : Neutral ('(' :: body ++ [')']) := by
  intro closed before after
  simp only [List.reverse_append, List.reverse_cons, List.reverse_nil, List.nil_append,
    List.cons_append, List.append_assoc, openForm?]
  rw [h]
  simp [openForm?]

end Neutral

/-- A form that has written its head and a space is found from any place after them. -/
theorem enclosingName_eq {before head tail after : List Char} (hh : Inert head)
    (hb : ∀ c ∈ head, Text.isBlank c = false) (ht : Neutral tail) (hs : tail.head? = some ' ') :
    enclosingName (before ++ ('(' :: head ++ tail)).reverse after = head := by
  have hbody : Neutral (head ++ tail) := (Neutral.of_flat hh.noOpening hh.noClosing).append ht
  have hopen : openForm? 0 (before ++ ('(' :: head ++ tail)).reverse after =
      some (head ++ tail ++ after) := by
    have hsplit : (before ++ ('(' :: head ++ tail)).reverse =
        (head ++ tail).reverse ++ '(' :: before.reverse := by
      simp
    rw [hsplit, hbody]
    rfl
  have hword : ∀ c ∈ head, (!(Text.isBlank c || c == '(' || c == ')')) = true := by
    intro c hc
    have h1 : c ≠ '(' := fun h => hh.noOpening (h ▸ hc)
    have h2 : c ≠ ')' := fun h => hh.noClosing (h ▸ hc)
    simp [hb c hc, h1, h2]
  obtain ⟨rest, rfl⟩ : ∃ rest, tail = ' ' :: rest := by
    cases tail with
    | nil => cases hs
    | cons c rest => exact ⟨rest, by rw [Option.some.inj hs]⟩
  rw [enclosingName, hopen]
  simp only [headToken, List.append_assoc]
  rw [List.takeWhile_append_of_pos hword, List.cons_append, List.takeWhile_cons_of_neg (by decide),
    List.append_nil]

end GameGrammar

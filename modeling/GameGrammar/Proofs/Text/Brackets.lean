import GameGrammar.Proofs.Text.Characters

/-! # Brackets that match

A text is read from the left with a stack of the brackets that are open. Parentheses and braces
share the stack, so that neither kind can be closed across the other. -/

namespace GameGrammar.Text

/-- The bracket that a closing one closes. -/
def opener? : Char → Option Char
  | ')' => some '('
  | '}' => some '{'
  | _ => none

/-- The brackets that are left open when one of this kind is closed: it has to be the latest. -/
def closeLatest (bracket : Char) : List Char → Option (List Char)
  | [] => none
  | latest :: opened => if latest = bracket then some opened else none

/-- The open brackets, the latest first, after one more character. -/
def bracketStep (opened : List Char) (c : Char) : Option (List Char) :=
  match opener? c with
  | some bracket => closeLatest bracket opened
  | none => some (if c = '(' ∨ c = '{' then c :: opened else opened)

/-- The open brackets behind a text, or nothing if a closing bracket in it does not match. -/
def readBrackets (opened text : List Char) : Option (List Char) :=
  text.foldlM bracketStep opened

/-- Every bracket of the text is closed by its own kind, the latest first, and none is left. -/
def Nested (text : List Char) : Prop :=
  readBrackets [] text = some []

instance (text : List Char) : Decidable (Nested text) :=
  inferInstanceAs (Decidable (_ = _))

/-! ## Reading -/

@[simp] theorem readBrackets_nil (opened : List Char) : readBrackets opened [] = some opened :=
  rfl

theorem readBrackets_cons (opened : List Char) (c : Char) (text : List Char) :
    readBrackets opened (c :: text) = (bracketStep opened c).bind (readBrackets · text) :=
  List.foldlM_cons

theorem readBrackets_append (opened x y : List Char) :
    readBrackets opened (x ++ y) = (readBrackets opened x).bind (readBrackets · y) :=
  List.foldlM_append

theorem readBrackets_append_eq_some {opened after x y : List Char} :
    readBrackets opened (x ++ y) = some after ↔
      ∃ middle, readBrackets opened x = some middle ∧ readBrackets middle y = some after := by
  rw [readBrackets_append, Option.bind_eq_some_iff]

theorem readBrackets_opening {c : Char} (hc : c = '(' ∨ c = '{') (opened text : List Char) :
    readBrackets opened (c :: text) = readBrackets (c :: opened) text := by
  rcases hc with rfl | rfl
  · rfl
  · rfl

/-- What stands further down does not matter where the brackets on top are enough. -/
theorem bracketStep_below {opened after : List Char} {c : Char}
    (h : bracketStep opened c = some after) (below : List Char) :
    bracketStep (opened ++ below) c = some (after ++ below) := by
  unfold bracketStep at h ⊢
  cases hc : opener? c with
  | none =>
      simp only [hc, Option.some.injEq] at h ⊢
      subst h
      split <;> rfl
  | some bracket =>
      simp only [hc] at h ⊢
      cases opened with
      | nil => cases h
      | cons latest opened =>
          simp only [List.cons_append, closeLatest] at h ⊢
          by_cases hl : latest = bracket
          · rw [if_pos hl] at h ⊢
            cases h
            rfl
          · rw [if_neg hl] at h
            cases h

theorem readBrackets_below {opened after text : List Char}
    (h : readBrackets opened text = some after) (below : List Char) :
    readBrackets (opened ++ below) text = some (after ++ below) := by
  induction text generalizing opened with
  | nil =>
      cases h
      rfl
  | cons c text ih =>
      rw [readBrackets_cons] at h ⊢
      obtain ⟨middle, hstep, hrest⟩ := Option.bind_eq_some_iff.mp h
      rw [bracketStep_below hstep below]
      exact ih hrest

/-! ## Nested texts -/

/-- A nested text leaves the brackets around it as they are. -/
theorem Nested.read {text : List Char} (h : Nested text) (opened : List Char) :
    readBrackets opened text = some opened :=
  readBrackets_below h opened

theorem Nested.append {x y : List Char} (hx : Nested x) (hy : Nested y) : Nested (x ++ y) := by
  rw [Nested, readBrackets_append, hx.read]
  exact hy

theorem Nested.parenthesized {text : List Char} (h : Nested text) :
    Nested ('(' :: text ++ [')']) := by
  rw [Nested, List.cons_append, readBrackets_opening (.inl rfl), readBrackets_append, h.read]
  rfl

theorem Nested.braced {text : List Char} (h : Nested text) : Nested ('{' :: text ++ ['}']) := by
  rw [Nested, List.cons_append, readBrackets_opening (.inr rfl), readBrackets_append, h.read]
  rfl

/-- The character is no bracket. -/
def isPlain (c : Char) : Bool :=
  c != '(' && c != ')' && c != '{' && c != '}'

theorem bracketStep_plain {c : Char} (hc : isPlain c = true) (opened : List Char) :
    bracketStep opened c = some opened := by
  have hnone : opener? c = none := by
    unfold opener?
    split
    · cases hc
    · cases hc
    · rfl
  have hno : ¬ (c = '(' ∨ c = '{') := by
    rintro (rfl | rfl)
    · cases hc
    · cases hc
  simp only [bracketStep, hnone, if_neg hno]

/-- A text without brackets is nested. -/
theorem Nested.of_plain {text : List Char} (h : ∀ c ∈ text, isPlain c = true) : Nested text := by
  induction text with
  | nil => rfl
  | cons c text ih =>
      rw [Nested, readBrackets_cons, bracketStep_plain (h c List.mem_cons_self)]
      exact ih fun d hd => h d (List.mem_cons_of_mem c hd)

/-! ## Texts without parentheses -/

/-- Such a text leaves an open parenthesis open, and sees nothing of what is below it. -/
theorem bracketStep_above {opened below after : List Char} {c : Char} (ho : c ≠ '(') (hc : c ≠ ')')
    (hopened : '(' ∉ opened) (h : bracketStep (opened ++ '(' :: below) c = some after) :
    ∃ left, '(' ∉ left ∧ after = left ++ '(' :: below ∧ bracketStep opened c = some left := by
  by_cases hopens : c = '{'
  · subst hopens
    cases h
    exact ⟨'{' :: opened, by simpa using hopened, rfl, rfl⟩
  by_cases hcloses : c = '}'
  · subst hcloses
    change closeLatest '{' (opened ++ '(' :: below) = some after at h
    cases opened with
    | nil => cases h
    | cons latest opened =>
        rw [List.cons_append, closeLatest] at h
        by_cases hl : latest = '{'
        · rw [if_pos hl] at h
          cases h
          exact ⟨opened, fun hm => hopened (List.mem_cons_of_mem latest hm), rfl, if_pos hl⟩
        · rw [if_neg hl] at h
          cases h
  · have hplain : isPlain c = true := by simp [isPlain, ho, hc, hopens, hcloses]
    rw [bracketStep_plain hplain] at h
    cases h
    exact ⟨opened, hopened, rfl, bracketStep_plain hplain opened⟩

theorem readBrackets_above {opened below after text : List Char} (ho : '(' ∉ text)
    (hc : ')' ∉ text) (hopened : '(' ∉ opened)
    (h : readBrackets (opened ++ '(' :: below) text = some after) :
    ∃ left, '(' ∉ left ∧ after = left ++ '(' :: below ∧ readBrackets opened text = some left := by
  induction text generalizing opened with
  | nil =>
      cases h
      exact ⟨opened, hopened, rfl, rfl⟩
  | cons c text ih =>
      rw [List.mem_cons, not_or] at ho hc
      rw [readBrackets_cons] at h
      obtain ⟨middle, hstep, hrest⟩ := Option.bind_eq_some_iff.mp h
      obtain ⟨left, hleft, rfl, hfirst⟩ :=
        bracketStep_above (Ne.symm ho.1) (Ne.symm hc.1) hopened hstep
      obtain ⟨last, hlast, rfl, hothers⟩ := ih ho.2 hc.2 hleft hrest
      refine ⟨last, hlast, rfl, ?_⟩
      rw [readBrackets_cons, hfirst]
      exact hothers

end GameGrammar.Text

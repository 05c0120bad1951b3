import GameGrammar.Text.Class

/-! # Texts as lists of characters -/

namespace GameGrammar

namespace Text

/-- What holds for the characters of a text is checked for these alone and not for all there
are. -/
instance decidableForallMem (text : List Char) (p : Char → Prop) [DecidablePred p] :
    Decidable (∀ c ∈ text, p c) :=
  List.decidableBAll p text

instance decidableExistsMem (c? : Option Char) (p : Char → Prop) [DecidablePred p] :
    Decidable (∃ c ∈ c?, p c) :=
  Option.decidableExistsMem c?

theorem trimEnd_isPrefix (cs : List Char) : trimEnd cs <+: cs := by
  have hsuffix := List.dropWhile_suffix isBlank (l := cs.reverse)
  rwa [← List.reverse_prefix, List.reverse_reverse] at hsuffix

theorem trim_isPrefix (cs : List Char) : trim cs <+: trimStart cs :=
  trimEnd_isPrefix _

theorem trim_infix (cs : List Char) : trim cs <:+: cs :=
  (trim_isPrefix cs).isInfix.trans (List.dropWhile_suffix _).isInfix

/-- A front of two texts together is a front of the first one, unless it reaches across. -/
theorem prefix_of_append {α : Type} {front text after : List α} (h : front <+: text ++ after)
    (ha : ∀ c ∈ after.head?, c ∉ front) : front <+: text := by
  induction front generalizing text with
  | nil => exact List.nil_prefix
  | cons m front ih =>
      cases text with
      | nil =>
          obtain ⟨rest, hr⟩ := h
          have hm : m ∈ after.head? := by
            rw [List.nil_append] at hr
            rw [← hr]
            rfl
          exact absurd List.mem_cons_self (ha m hm)
      | cons c text =>
          rw [List.cons_append] at h
          obtain ⟨rfl, htail⟩ := List.cons_prefix_cons.mp h
          exact List.cons_prefix_cons.mpr
            ⟨rfl, ih htail fun c hc hm => ha c hc (List.mem_cons_of_mem _ hm)⟩

/-- A part without the separator lies on one side of it. -/
theorem infix_of_append_cons {α : Type} {word x y : List α} {c : α} (h : word <:+: x ++ c :: y)
    (hc : c ∉ word) : word <:+: x ∨ word <:+: y := by
  have hfront (z : List α) (hz : word <+: z ++ c :: y) : word <+: z :=
    prefix_of_append hz (by simpa using hc)
  induction x with
  | nil =>
      rcases List.infix_cons_iff.mp h with hstart | hrest
      · exact .inl (hfront [] hstart).isInfix
      · exact .inr hrest
  | cons a x ih =>
      rcases List.infix_cons_iff.mp h with hstart | hrest
      · exact .inl (hfront (a :: x) hstart).isInfix
      · exact (ih hrest).imp List.infix_cons id

/-! ## Occurrences of a word -/

section

variable {word x y : List Char} {c : Char}

theorem infix_cons_iff_of_not_mem (hc : c ∉ word) : word <:+: c :: y ↔ word <:+: y := by
  constructor
  · intro h
    rcases infix_of_append_cons (x := []) h hc with hnil | hrest
    · rw [List.infix_nil.mp hnil]
      exact List.nil_infix
    · exact hrest
  · exact List.infix_cons

/-- A word does not reach over the beginning of the second part if it cannot stand there. -/
theorem infix_append_iff_of_head? (h : ∃ c ∈ y.head?, c ∉ word) :
    word <:+: x ++ y ↔ word <:+: x ∨ word <:+: y := by
  obtain ⟨c, hy, hc⟩ := h
  obtain ⟨ys, rfl⟩ := List.head?_eq_some_iff.mp hy
  constructor
  · intro h
    exact (infix_of_append_cons h hc).imp id List.infix_cons
  · rintro (hx | hy)
    · exact hx.trans (List.prefix_append x _).isInfix
    · exact hy.trans (List.suffix_append x _).isInfix

theorem infix_append_iff_of_getLast? (h : ∃ c ∈ x.getLast?, c ∉ word) :
    word <:+: x ++ y ↔ word <:+: x ∨ word <:+: y := by
  have hreverse : ∃ c ∈ x.reverse.head?, c ∉ word.reverse := by
    simpa [List.head?_reverse] using h
  have happend := infix_append_iff_of_head? (x := y.reverse) hreverse
  rwa [← List.reverse_append, List.reverse_infix, List.reverse_infix, List.reverse_infix,
    or_comm] at happend

theorem infix_dropWhile_iff {p : Char → Bool} (hw : ∀ c ∈ word, p c = false) :
    word <:+: x.dropWhile p ↔ word <:+: x := by
  induction x with
  | nil => exact Iff.rfl
  | cons c x ih =>
      by_cases hc : p c = true
      · have hmem : c ∉ word := by
          intro hm
          rw [hw c hm] at hc
          cases hc
        rw [List.dropWhile_cons_of_pos hc, ih, infix_cons_iff_of_not_mem hmem]
      · rw [List.dropWhile_cons_of_neg hc]

/-- Trimming takes no word out of a text. -/
theorem infix_trim_iff (hw : ∀ c ∈ word, isBlank c = false) : word <:+: trim x ↔ word <:+: x := by
  have hreverse : ∀ c ∈ word.reverse, isBlank c = false := by simpa using hw
  calc word <:+: trim x
      _ ↔ word.reverse <:+: (trimStart x).reverse.dropWhile isBlank := by
        rw [trim, trimEnd, ← List.reverse_infix, List.reverse_reverse]
      _ ↔ word <:+: trimStart x := by
        rw [infix_dropWhile_iff hreverse, List.reverse_infix]
      _ ↔ word <:+: x := infix_dropWhile_iff hw

end

/-! ## Trimmed texts -/

/-- The text neither begins nor ends with a blank. -/
structure Trimmed (cs : List Char) : Prop where
  front : ∀ c ∈ cs.head?, isBlank c = false
  back : ∀ c ∈ cs.getLast?, isBlank c = false

theorem isBlank_of_head?_dropWhile {cs : List Char} {c : Char}
    (h : c ∈ (cs.dropWhile isBlank).head?) : isBlank c = false := by
  have hnot := List.head?_dropWhile_not isBlank cs
  rw [Option.mem_def.mp h] at hnot
  exact hnot

theorem trim_trimmed (cs : List Char) : Trimmed (trim cs) where
  front c hc := by
    obtain ⟨rest, hrest⟩ := trim_isPrefix cs
    have hstart : c ∈ (trimStart cs).head? := by
      rw [← hrest, List.head?_append, Option.mem_def.mp hc]
      rfl
    exact isBlank_of_head?_dropWhile hstart
  back c hc := by
    rw [trim, trimEnd, List.getLast?_reverse] at hc
    exact isBlank_of_head?_dropWhile hc

theorem trimStart_eq_self {cs : List Char} (h : ∀ c ∈ cs.head?, isBlank c = false) :
    trimStart cs = cs := by
  cases cs with
  | nil => rfl
  | cons c cs => exact List.dropWhile_cons_of_neg (by simp [h c rfl])

theorem Trimmed.trim_eq {cs : List Char} (h : Trimmed cs) : trim cs = cs := by
  have hend : trimStart cs.reverse = cs.reverse :=
    trimStart_eq_self fun c hc => h.back c (by rwa [List.head?_reverse] at hc)
  calc trim cs
      _ = (trimStart (trimStart cs).reverse).reverse := rfl
      _ = cs := by rw [trimStart_eq_self h.front, hend, List.reverse_reverse]

/-! ## Ends of texts -/

theorem trimStart_append {x : List Char} (h : ∀ c ∈ x, isBlank c = true) (y : List Char) :
    trimStart (x ++ y) = trimStart y :=
  List.dropWhile_append_of_pos h

theorem trimEnd_ne_nil {cs : List Char} (h : ∃ c ∈ cs, isBlank c = false) : trimEnd cs ≠ [] := by
  obtain ⟨c, hc, hblank⟩ := h
  intro hnil
  rw [trimEnd, List.reverse_eq_nil_iff] at hnil
  have hsplit := List.takeWhile_append_dropWhile (p := isBlank) (l := cs.reverse)
  have hall := List.all_takeWhile (p := isBlank) (l := cs.reverse)
  rw [hnil, List.append_nil] at hsplit
  rw [hsplit] at hall
  rw [List.all_eq_true.mp hall c (List.mem_reverse.mpr hc)] at hblank
  cases hblank

theorem head?_trimEnd {cs : List Char} (h : ∃ c ∈ cs, isBlank c = false) :
    (trimEnd cs).head? = cs.head? := by
  obtain ⟨blanks, hblanks⟩ := trimEnd_isPrefix cs
  obtain ⟨c, kept, hkept⟩ := List.exists_cons_of_ne_nil (trimEnd_ne_nil h)
  rw [hkept] at hblanks ⊢
  rw [← hblanks]
  rfl

/-- If the second part is not blank, then the blanks at the end are its own. -/
theorem trimEnd_append {y : List Char} (h : ∃ c ∈ y, isBlank c = false) (x : List Char) :
    trimEnd (x ++ y) = x ++ trimEnd y := by
  have hkeep : (y.reverse.dropWhile isBlank).isEmpty = false := by
    rw [List.isEmpty_eq_false_iff, ne_eq, ← List.reverse_eq_nil_iff]
    exact trimEnd_ne_nil h
  rw [trimEnd, trimEnd, List.reverse_append, List.dropWhile_append, hkeep]
  simp

/-- Trimming takes the blanks in front and those at the end of the last part. -/
theorem trim_between {blanks rest : List Char} {c : Char} (hb : ∀ d ∈ blanks, isBlank d = true)
    (hc : isBlank c = false) (hr : ∃ d ∈ rest, isBlank d = false) (front : List Char) :
    trim (blanks ++ c :: (front ++ rest)) = c :: (front ++ trimEnd rest) := by
  have hstart : trimStart (c :: (front ++ rest)) = c :: front ++ rest :=
    List.dropWhile_cons_of_neg (by simp [hc])
  rw [trim, trimStart_append hb, hstart, trimEnd_append hr]
  rfl

end Text

/-! ## Lines -/

/-- The text has no line feed. -/
def OneLine (text : String) : Prop :=
  '\n' ∉ text.toList

instance (text : String) : Decidable (OneLine text) :=
  inferInstanceAs (Decidable (_ ∉ _))

theorem OneLine.append {x y : String} (hx : OneLine x) (hy : OneLine y) : OneLine (x ++ y) := by
  rw [OneLine, String.toList_append, List.mem_append]
  exact fun h => h.elim hx hy

end GameGrammar

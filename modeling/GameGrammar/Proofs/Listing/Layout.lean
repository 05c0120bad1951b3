import GameGrammar.Listing.Fault

/-! # Layout of a listing

Blanks and comments between tokens are skipped, however many there are, and a token is read up
to the first character that cannot belong to it. -/

namespace GameGrammar

namespace Text

/-- The blanks beyond ASCII, one by one. -/
def wideBlanks : List Nat :=
  blankRuns.flatMap fun r => List.range' r.first (r.last + 1 - r.first)

theorem mem_wideBlanks {n : Nat} (h : inTable blankRuns n = true) : n ∈ wideBlanks := by
  obtain ⟨r, hr, hn⟩ := List.any_eq_true.mp h
  simp only [Run.has, Bool.and_eq_true, decide_eq_true_eq] at hn
  exact List.mem_flatMap.mpr ⟨r, hr, List.mem_range'_1.mpr ⟨hn.1.1, by omega⟩⟩

/-- No blank is a letter or a number. -/
theorem isAlphanumeric_of_isBlank {c : Char} (h : isBlank c = true) :
    isAlphanumeric c = false := by
  unfold isBlank at h
  unfold isAlphanumeric
  split at h
  · next hc =>
      have hall : ∀ n < 33, (Char.ofNat n).isAlphanum = false := by decide
      have hlow : c.toNat < 33 := by
        simp only [Bool.or_eq_true, Bool.and_eq_true, beq_iff_eq, decide_eq_true_eq] at h
        rcases h with rfl | ⟨-, h⟩
        · decide
        · have : c.toNat ≤ 13 := h
          omega
      rw [if_pos hc]
      simpa using hall _ hlow
  · next hc =>
      have hall : ∀ n ∈ wideBlanks, inTable alphanumericRuns n = false := by decide +kernel
      rw [if_neg hc]
      exact hall _ (mem_wideBlanks h)

end Text

namespace Listing

theorem isNameChar_of_isBlank {c : Char} (h : Text.isBlank c = true) : isNameChar c = false := by
  have h1 : c ≠ '_' := by rintro rfl; cases h
  have h2 : c ≠ '.' := by rintro rfl; cases h
  simp [isNameChar, Text.isAlphanumeric_of_isBlank h, h1, h2]

theorem isBlank_of_isNameChar {c : Char} (h : isNameChar c = true) : Text.isBlank c = false := by
  cases hb : Text.isBlank c with
  | false => rfl
  | true => rw [isNameChar_of_isBlank hb] at h; cases h

theorem isBlank_of_isHeadChar {c : Char} (h : isHeadChar c = true) : Text.isBlank c = false := by
  simp only [isHeadChar, Bool.and_eq_true, Bool.not_eq_true'] at h
  exact h.1.1

theorem isBlank_of_isTerminalChar {c : Char} (h : isTerminalChar c = true) :
    Text.isBlank c = false := by
  simp only [isTerminalChar, Bool.and_eq_true, Bool.not_eq_true'] at h
  exact h.1

/-! ## Fillers -/

/-- Blanks and comments. A comment goes up to the end of its line, and the line ends with a line
feed, which may have a carriage return in front of it. -/
inductive Filler : List Char → Prop where
  | nil : Filler []
  | blank {c : Char} {s : List Char} (hc : Text.isBlank c = true) (h : Filler s) :
      Filler (c :: s)
  | comment {text s : List Char} (ht : ∀ c ∈ text, isLineEnd c = false) (h : Filler s)
      (he : ['\n'] <+: s ∨ ['\r', '\n'] <+: s) : Filler ('/' :: '/' :: (text ++ s))

theorem Filler.append {x y : List Char} (hx : Filler x) (hy : Filler y) : Filler (x ++ y) := by
  induction hx with
  | nil => exact hy
  | blank hc _ ih => exact .blank hc ih
  | comment ht _ he ih =>
      rw [List.cons_append, List.cons_append, List.append_assoc]
      exact .comment ht ih (he.imp (·.trans (List.prefix_append _ _))
        (·.trans (List.prefix_append _ _)))

/-- A filler that separates words: it starts with a blank. -/
def Layout (s : List Char) : Prop :=
  Filler s ∧ ∃ c rest, s = c :: rest ∧ Text.isBlank c = true

/-- What may stand where no blank is needed. -/
def Pad (s : List Char) : Prop :=
  s = [] ∨ Layout s

theorem Pad.filler {s : List Char} (h : Pad s) : Filler s := by
  rcases h with rfl | h
  · exact .nil
  · exact h.1

theorem skip_blank {c : Char} (hc : Text.isBlank c = true) (s : List Char) :
    skip (c :: s) = skip s := by
  rw [skip, if_pos hc]
  rintro s' rfl rfl
  cases hc

theorem afterComment?_append {text s : List Char} (ht : ∀ c ∈ text, isLineEnd c = false)
    (he : ['\n'] <+: s ∨ ['\r', '\n'] <+: s) (rest : List Char) :
    afterComment? (text ++ (s ++ rest)) = some (s ++ rest) := by
  have hdrop : (text ++ (s ++ rest)).dropWhile (!isLineEnd ·) = s ++ rest := by
    rw [List.dropWhile_append_of_pos fun c hc => by simp [ht c hc]]
    rcases he with ⟨t, rfl⟩ | ⟨t, rfl⟩ <;> rfl
  unfold afterComment?
  rw [hdrop]
  rcases he with ⟨t, rfl⟩ | ⟨t, rfl⟩ <;> rfl

/-- A filler is skipped as a whole. -/
theorem skip_filler {f : List Char} (h : Filler f) (s : List Char) : skip (f ++ s) = skip s := by
  induction h with
  | nil => rfl
  | blank hc _ ih => rw [List.cons_append, skip_blank hc, ih]
  | comment ht _ he ih =>
      have hafter := afterComment?_append ht he s
      rw [List.cons_append, List.cons_append, List.append_assoc, skip]
      split
      · next rest hr =>
          rw [hafter] at hr
          cases hr
          exact ih
      · next hr =>
          rw [hafter] at hr
          cases hr

/-- Behind nothing but a filler there is nothing left. -/
theorem skip_eq_nil {f : List Char} (h : Filler f) : skip f = [] := by
  have hskip := skip_filler h []
  rwa [List.append_nil, skip] at hskip

/-- Skipping stops at a character that is no blank and does not begin a comment. -/
theorem skip_cons {c : Char} {s : List Char} (hc : Text.isBlank c = false)
    (hn : ¬ ['/', '/'] <+: c :: s) : skip (c :: s) = c :: s := by
  rw [skip, if_neg (by simp [hc])]
  rintro s' rfl rfl
  exact hn ⟨s', rfl⟩

/-- Behind a filler, too, skipping stops where a token begins. -/
theorem skip_token {f : List Char} (hf : Filler f) {c : Char} {s : List Char}
    (hc : Text.isBlank c = false) (hn : c ≠ '/') : skip (f ++ c :: s) = c :: s := by
  rw [skip_filler hf]
  apply skip_cons hc
  intro hp
  apply hn
  exact (List.cons_prefix_cons.mp hp).1.symm

/-- A closing character is found behind any filler. -/
theorem closing_filler {f : List Char} (hf : Filler f) {c : Char} (hc : Text.isBlank c = false)
    (hn : c ≠ '/') (e : Expected) (s : List Char) : closing c e (f ++ c :: s) = .ok ((), s) := by
  simp only [closing, skip_token hf hc hn, if_true]

/-! ## Words -/

/-- The text does not go on with a character of the class. -/
def Stops (inside : Char → Bool) (s : List Char) : Prop :=
  ∀ c ∈ s.head?, inside c = false

theorem takeWhile_word {inside : Char → Bool} {w s : List Char} (hw : ∀ c ∈ w, inside c = true)
    (hs : Stops inside s) : (w ++ s).takeWhile inside = w := by
  rw [List.takeWhile_append_of_pos hw]
  cases s with
  | nil => simp
  | cons c s => rw [List.takeWhile_cons_of_neg (by simp [hs c rfl]), List.append_nil]

theorem dropWhile_word {inside : Char → Bool} {w s : List Char} (hw : ∀ c ∈ w, inside c = true)
    (hs : Stops inside s) : (w ++ s).dropWhile inside = s := by
  rw [List.dropWhile_append_of_pos hw]
  cases s with
  | nil => rfl
  | cons c s => rw [List.dropWhile_cons_of_neg (by simp [hs c rfl])]

theorem takeWhile_append_stops {inside : Char → Bool} {x y : List Char} (hy : Stops inside y) :
    (x ++ y).takeWhile inside = x.takeWhile inside := by
  induction x with
  | nil =>
      cases y with
      | nil => rfl
      | cons c y => rw [List.nil_append, List.takeWhile_cons_of_neg (by simp [hy c rfl])]; rfl
  | cons c x ih =>
      rw [List.cons_append]
      by_cases hc : inside c = true
      · rw [List.takeWhile_cons_of_pos hc, List.takeWhile_cons_of_pos hc, ih]
      · rw [List.takeWhile_cons_of_neg hc, List.takeWhile_cons_of_neg hc]

theorem dropWhile_append_stops {inside : Char → Bool} {x y : List Char} (hy : Stops inside y) :
    (x ++ y).dropWhile inside = x.dropWhile inside ++ y := by
  induction x with
  | nil =>
      cases y with
      | nil => rfl
      | cons c y => rw [List.nil_append, List.dropWhile_cons_of_neg (by simp [hy c rfl])]; rfl
  | cons c x ih =>
      rw [List.cons_append]
      by_cases hc : inside c = true
      · rw [List.dropWhile_cons_of_pos hc, List.dropWhile_cons_of_pos hc, ih]
      · rw [List.dropWhile_cons_of_neg hc, List.dropWhile_cons_of_neg hc]
        rfl

/-- A word is read whole. -/
theorem word?_append {inside : Char → Bool} {w : String} (hne : w ≠ "")
    (hw : ∀ c ∈ w.toList, inside c = true) {s : List Char} (hs : Stops inside s) :
    word? inside (w.toList ++ s) = some (w, s) := by
  unfold word?
  rw [takeWhile_word hw hs, dropWhile_word hw hs]
  cases hl : w.toList with
  | nil => exact absurd (String.toList_eq_nil_iff.mp hl) hne
  | cons c cs => simp [← hl]

theorem word?_eq_none {inside : Char → Bool} {s : List Char} (hs : Stops inside s) :
    word? inside s = none := by
  unfold word?
  cases s with
  | nil => rfl
  | cons c s => rw [List.takeWhile_cons_of_neg (by simp [hs c rfl])]

theorem word?_eq_some {inside : Char → Bool} {s rest : List Char} {w : String}
    (h : word? inside s = some (w, rest)) :
    s = w.toList ++ rest ∧ w ≠ "" ∧ ∀ c ∈ w.toList, inside c = true := by
  unfold word? at h
  split at h
  · cases h
  · next c cs hw =>
      cases h
      rw [String.toList_ofList, ← hw]
      refine ⟨List.takeWhile_append_dropWhile.symm, by simp [hw], ?_⟩
      intro d hd
      exact List.all_eq_true.mp (List.all_takeWhile) d hd

end Listing

end GameGrammar

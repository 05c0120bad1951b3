import GameGrammar.Proofs.Listing.Printing

/-! # Reading back arguments

An argument is read off the front of a text whatever layout stands inside its braces, as long
as what follows cannot belong to it. -/

namespace GameGrammar.Listing

/-! ## Where a token ends -/

/-- Behind the text so far no name goes on, and what stands there is no label. -/
def Free (s : List Char) : Prop :=
  ∀ c ∈ s.head?, isNameChar c = false ∧ c ≠ ':'

theorem Free.stops {s : List Char} (h : Free s) : Stops isNameChar s :=
  fun c hc => (h c hc).1

theorem free_layout {f : List Char} (hf : Layout f) (s : List Char) : Free (f ++ s) := by
  obtain ⟨-, c, rest, rfl, hc⟩ := hf
  intro d hd
  cases hd
  exact ⟨isNameChar_of_isBlank hc, by rintro rfl; cases hc⟩

theorem free_pad {f s : List Char} (hf : Pad f) (hs : Free s) : Free (f ++ s) := by
  rcases hf with rfl | hf
  · exact hs
  · exact free_layout hf s

/-- A character at which skipping stops, whatever follows. -/
def Solid (s : List Char) : Prop :=
  ∃ c rest, s = c :: rest ∧ Text.isBlank c = false ∧ c ≠ '/'

theorem skip_solid {f s : List Char} (hf : Filler f) (hs : Solid s) : skip (f ++ s) = s := by
  obtain ⟨c, rest, rfl, hc, hn⟩ := hs
  exact skip_token hf hc hn

/-- The text goes on with the first character of an argument. -/
def StartsArgument (s : List Char) : Prop :=
  ∃ c rest, s = c :: rest ∧ (isNameChar c = true ∨ c = '<' ∨ c = '\x7b')

theorem StartsArgument.solid {s : List Char} (h : StartsArgument s) : Solid s := by
  obtain ⟨c, rest, rfl, hc⟩ := h
  refine ⟨c, rest, rfl, ?_⟩
  rcases hc with hc | rfl | rfl
  · exact ⟨isBlank_of_isNameChar hc, by rintro rfl; cases hc⟩
  · decide
  · decide

/-! ## Symbols -/

theorem IsName.cons {w : String} (h : IsName w) :
    ∃ c cs, w.toList = c :: cs ∧ isNameChar c = true := by
  cases hw : w.toList with
  | nil => exact absurd (String.toList_eq_nil_iff.mp hw) h.1
  | cons c cs => exact ⟨c, cs, rfl, h.2 c (hw ▸ List.mem_cons_self)⟩

theorem name?_append {w : String} (h : IsName w) {s : List Char} (hs : Stops isNameChar s) :
    name? (w.toList ++ s) = some (w, s) :=
  word?_append h.1 h.2 hs

theorem delimited?_append {w : String} (h : IsDelimited w) (s : List Char) :
    delimited? (w.toList ++ s) = some (w, s) := by
  obtain ⟨name, hn, rfl⟩ := h
  have hstop : Stops isNameChar ('>' :: s) := by
    intro c hc
    cases hc
    rfl
  have htext : ("<" ++ name ++ ">").toList ++ s = '<' :: (name.toList ++ '>' :: s) := by simp
  simp only [htext, delimited?, name?_append hn hstop]

theorem delimited?_eq_none {c : Char} (hc : c ≠ '<') (s : List Char) :
    delimited? (c :: s) = none := by
  unfold delimited?
  split
  · next h => cases h; exact absurd rfl hc
  · rfl

theorem symbol?_append {w : String} (h : IsSymbol w) {s : List Char}
    (hs : Stops isNameChar s) : symbol? (w.toList ++ s) = some (w, s) := by
  rcases h with h | h
  · obtain ⟨c, cs, hw, hc⟩ := h.cons
    have hnone : delimited? (w.toList ++ s) = none := by
      rw [hw, List.cons_append]
      exact delimited?_eq_none (by rintro rfl; cases hc) _
    rw [symbol?, hnone, name?_append h hs]
  · rw [symbol?, delimited?_append h]

theorem IsSymbol.cons {w : String} (h : IsSymbol w) :
    ∃ c cs, w.toList = c :: cs ∧ (isNameChar c = true ∨ c = '<') := by
  rcases h with h | ⟨name, -, rfl⟩
  · obtain ⟨c, cs, hw, hc⟩ := h.cons
    exact ⟨c, cs, hw, .inl hc⟩
  · exact ⟨'<', name.toList ++ ['>'], by simp, .inr rfl⟩

theorem IsSymbol.starts {w : String} (h : IsSymbol w) (s : List Char) :
    StartsArgument (w.toList ++ s) := by
  obtain ⟨c, cs, hw, hc⟩ := h.cons
  exact ⟨c, cs ++ s, by rw [hw, List.cons_append], hc.imp_right .inl⟩

/-! ## Arguments -/

/-- The braces around a token are opened one after another. -/
theorem openBraces_opening {n : Nat} {t : List Char} (ht : LaidOut (opening n) t) {w : String}
    (hw : IsSymbol w) (s : List Char) :
    openBraces (t ++ (w.toList ++ s)) = (n, w.toList ++ s) ∧
      StartsArgument (t ++ (w.toList ++ s)) := by
  induction n generalizing t with
  | zero =>
      cases ht
      refine ⟨?_, hw.starts s⟩
      obtain ⟨c, cs, he, hc⟩ := hw.cons
      rw [List.nil_append, he, List.cons_append, openBraces]
      rintro rest hrest
      obtain rfl : c = '\x7b' := (List.cons.inj hrest).1
      rcases hc with hc | hc <;> cases hc
  | succ n ih =>
      obtain ⟨_, rfl, f, t, hf, rfl, ht⟩ := ht
      obtain ⟨ho, hstart⟩ := ih ht
      have htext : "\x7b".toList ++ (f ++ t) ++ (w.toList ++ s) =
          '\x7b' :: (f ++ (t ++ (w.toList ++ s))) := by simp
      rw [htext]
      refine ⟨?_, '\x7b', _, rfl, .inr (.inr rfl)⟩
      rw [openBraces, skip_solid hf.filler hstart.solid, ho]

theorem closeBraces_ending {n : Nat} {t : List Char} (ht : LaidOut (ending n) t)
    (s : List Char) : closeBraces n (t ++ s) = .ok ((), s) := by
  induction n generalizing t with
  | zero =>
      cases ht
      rfl
  | succ n ih =>
      obtain ⟨f, _, hf, rfl, t, rfl, ht⟩ := ht
      have htext : f ++ ("\x7d".toList ++ t) ++ s = f ++ '\x7d' :: (t ++ s) := by simp
      have hclose := closing_filler hf.filler (c := '\x7d') (by decide) (by decide)
        .closingBrace (t ++ s)
      rw [htext, closeBraces, hclose]
      exact ih ht

theorem free_ending {n : Nat} {t : List Char} (ht : LaidOut (ending n) t) {s : List Char}
    (hs : Free s) : Free (t ++ s) := by
  cases n with
  | zero =>
      cases ht
      exact hs
  | succ n =>
      obtain ⟨f, _, hf, rfl, t, rfl, -⟩ := ht
      rw [List.append_assoc]
      apply free_pad hf
      intro c hc
      cases hc
      decide

/-- The argument as it is read by itself: brackets and group come from around it. -/
def bare (a : Argument) : Argument :=
  { a with optional := false, group := 0 }

theorem nestedToken_laidOut {depth : UInt8} {token : String} {t : List Char}
    (ht : LaidOut (opening depth.toNat ++ .word token :: ending depth.toNat) t)
    (hw : IsSymbol token) {s : List Char} (hs : Free s) :
    nestedToken (t ++ s) = .found (depth, token) s ∧ StartsArgument (t ++ s) := by
  obtain ⟨o, _, rfl, ho, e, rfl, he⟩ := laidOut_append.mp ht
  have htext : o ++ (token.toList ++ e) ++ s = o ++ (token.toList ++ (e ++ s)) := by simp
  obtain ⟨hopen, hstart⟩ := openBraces_opening ho hw (e ++ s)
  have hsymbol := symbol?_append hw (free_ending he hs).stops
  have hdepth : min depth.toNat 255 = depth.toNat := by
    have := depth.toNat_lt
    omega
  rw [htext]
  refine ⟨?_, hstart⟩
  unfold nestedToken
  simp only [hopen, hsymbol, hdepth]
  have hclose := closeBraces_ending he s
  have hback : depth.toNat.toUInt8 = depth := by simp
  cases hn : depth.toNat with
  | zero =>
      rw [hn] at he hback
      cases he
      simp only [← hback]
      rfl
  | succ n =>
      rw [hn] at hclose hback
      simp only [hclose, hback]

theorem label?_append {l : String} (h : IsName l) (s : List Char) :
    label? ((l ++ ":").toList ++ s) = some (l, s) := by
  have hstop : Stops isNameChar (':' :: s) := by
    intro c hc
    cases hc
    rfl
  have htext : (l ++ ":").toList ++ s = l.toList ++ ':' :: s := by simp
  simp only [htext, label?, name?_append h hstop]

/-- A bare token is no label, for want of a colon, and neither are brackets and braces. -/
theorem label?_eq_none {n : Nat} {token : String} {t : List Char}
    (ht : LaidOut (opening n ++ .word token :: ending n) t) (hw : IsSymbol token)
    {s : List Char} (hs : Free s) : label? (t ++ s) = none := by
  have hnone {c : Char} (hc : isNameChar c = false) (rest : List Char) :
      label? (c :: rest) = none := by
    have hstop : Stops isNameChar (c :: rest) := by
      intro d hd
      cases hd
      exact hc
    simp only [label?, name?, word?_eq_none hstop]
  cases n with
  | zero =>
      obtain ⟨_, rfl, rfl⟩ := ht
      rcases hw with hw | ⟨name, -, rfl⟩
      · rw [List.append_nil, label?, name?_append hw hs.stops]
        split
        · next h =>
            cases h
            exact absurd rfl (hs ':' rfl).2
        · rfl
      · have htext : ("<" ++ name ++ ">").toList ++ [] ++ s = '<' :: (name.toList ++ '>' :: s) := by
          simp
        rw [htext]
        exact hnone (by decide) _
  | succ n =>
      obtain ⟨_, rfl, -⟩ := ht
      exact hnone (by decide) _

/-- An argument is read as far as it goes, and a label is told from a bare token. -/
theorem argument_laidOut {a : Argument} (ha : a.Writable) {t : List Char}
    (ht : LaidOut (argumentPieces a) t) {s : List Char} (hs : Free s) :
    argument (t ++ s) = .found (bare a) s ∧ StartsArgument (t ++ s) := by
  obtain ⟨hw, hl⟩ := ha
  unfold argumentPieces at ht
  cases hlabel : a.label with
  | none =>
      rw [hlabel] at ht
      obtain ⟨hnested, hstart⟩ := nestedToken_laidOut ht hw hs
      refine ⟨?_, hstart⟩
      simp only [argument, label?_eq_none ht hw hs, hnested, Reading.map, bare, hlabel]
  | some l =>
      rw [hlabel] at ht
      obtain ⟨t, rfl, ht⟩ := ht
      have hname := hl l hlabel
      obtain ⟨hnested, -⟩ := nestedToken_laidOut ht hw hs
      rw [List.append_assoc]
      refine ⟨?_, ?_⟩
      · simp only [argument, label?_append hname, hnested, Reading.map, bare, hlabel]
      · obtain ⟨c, cs, he, hc⟩ := hname.cons
        exact ⟨c, cs ++ ':' :: (t ++ s), by simp [he], .inl hc⟩

end GameGrammar.Listing

import GameGrammar.Proofs.Listing.Extent
import GameGrammar.Proofs.Listing.RoundTrip

/-! # Readers that stop at the end of a line

Where a text is followed by a line feed and more, a reader that finds something in it finds the same
without looking past its end. Only the alternatives of a rule may go on behind it, with a bar. -/

namespace GameGrammar.Listing

variable {s b : List Char}

/-! ## Line ends -/

/-- Every carriage return stands in front of a line feed. -/
def Paired (s : List Char) : Prop :=
  ∀ rest, '\r' :: rest <:+ s → rest.head? = some '\n'

theorem paired_cons {c : Char} :
    Paired (c :: s) ↔ (c = '\r' → s.head? = some '\n') ∧ Paired s := by
  constructor
  · intro h
    constructor
    · rintro rfl
      exact h s List.suffix_rfl
    · exact fun rest hrest => h rest (hrest.trans (List.suffix_cons c s))
  · rintro ⟨hc, hs⟩ rest hrest
    rcases List.suffix_cons_iff.mp hrest with heq | hsuffix
    · obtain ⟨rfl, rfl⟩ := List.cons.inj heq
      exact hc rfl
    · exact hs rest hsuffix

instance decidablePaired : (s : List Char) → Decidable (Paired s)
  | [] => .isTrue fun _ hrest => absurd (List.suffix_nil.mp hrest) (List.cons_ne_nil _ _)
  | _ :: s =>
    have := decidablePaired s
    decidable_of_iff _ paired_cons.symm

theorem Paired.suffix {rest : List Char} (hs : Paired s) (h : rest <:+ s) : Paired rest :=
  fun tail ht => hs tail (ht.trans h)

theorem dropWhile_joined (s b : List Char) :
    (s ++ '\n' :: b).dropWhile (!isLineEnd ·) = s.dropWhile (!isLineEnd ·) ++ '\n' :: b := by
  apply dropWhile_append_stops
  intro c hc
  cases hc
  rfl

theorem afterComment?_of_dropWhile {rest : List Char}
    (hdrop : s.dropWhile (!isLineEnd ·) = rest)
    (h : ∀ tail, rest = '\r' :: tail → tail.head? = some '\n') :
    afterComment? s = some rest := by
  unfold afterComment?
  rw [hdrop]
  split
  · rfl
  · next tail hne =>
      obtain ⟨more, rfl⟩ := List.head?_eq_some_iff.mp (h tail rfl)
      exact absurd rfl (hne more)
  · rfl

/-- A comment ends with its line, at the join if not before. -/
theorem afterComment?_joined (hs : Paired s) (b : List Char) :
    ∃ rest, rest <:+ s ∧ afterComment? s = some rest ∧
      afterComment? (s ++ '\n' :: b) = some (rest ++ '\n' :: b) := by
  have hsuffix := List.dropWhile_suffix (l := s) (!isLineEnd ·)
  have hpaired := hs.suffix hsuffix
  refine ⟨_, hsuffix, ?_, ?_⟩
  · apply afterComment?_of_dropWhile rfl
    intro tail htail
    exact hpaired tail (htail ▸ List.suffix_rfl)
  · apply afterComment?_of_dropWhile (dropWhile_joined s b)
    intro tail htail
    cases hrest : s.dropWhile (!isLineEnd ·) with
    | nil =>
        rw [hrest] at htail
        cases htail
    | cons c rest =>
        rw [hrest, List.cons_append] at htail
        obtain ⟨rfl, rfl⟩ := List.cons.inj htail
        have hfeed := hpaired rest (hrest ▸ List.suffix_rfl)
        rw [List.head?_append, hfeed]
        rfl

theorem skip_comment {rest : List Char} (h : afterComment? s = some rest) :
    skip ('/' :: '/' :: s) = skip rest := by
  rw [skip]
  split
  · next last hlast =>
      rw [h] at hlast
      cases hlast
      rfl
  · next hlast =>
      rw [h] at hlast
      cases hlast

/-- What skipping leaves of the first text is left in front of the second one. -/
theorem skip_joined (hs : Paired s) (b : List Char) :
    skip (s ++ '\n' :: b) = if skip s = [] then skip b else skip s ++ '\n' :: b := by
  fun_induction skip s with
  | case1 s rest h _ ih =>
      have hcomment : s <:+ '/' :: '/' :: s := List.suffix_append ['/', '/'] s
      obtain ⟨rest', hrest, hafter, hjoined⟩ := afterComment?_joined (hs.suffix hcomment) b
      obtain rfl : rest = rest' := Option.some.inj (h.symm.trans hafter)
      rw [List.cons_append, List.cons_append, skip_comment hjoined]
      exact ih (hs.suffix (hrest.trans hcomment))
  | case2 s h =>
      have hcomment : s <:+ '/' :: '/' :: s := List.suffix_append ['/', '/'] s
      obtain ⟨rest, -, hafter, -⟩ := afterComment?_joined (hs.suffix hcomment) b
      rw [h] at hafter
      cases hafter
  | case3 c s _ hb ih =>
      rw [List.cons_append, skip_blank hb]
      exact ih (hs.suffix (List.suffix_cons c s))
  | case4 c s hcomment hb =>
      have hc : Text.isBlank c = false := by simpa using hb
      rw [if_neg (List.cons_ne_nil c s), List.cons_append]
      apply skip_cons hc
      rintro ⟨rest, hrest⟩
      cases s with
      | nil => cases hrest
      | cons d s =>
          cases hrest
          exact hcomment s rfl rfl
  | case5 => exact skip_blank (by decide) b

theorem skip_joined_append (hs : Paired s) {n : Nat} (h : n < (skip s).length) (b : List Char) :
    skip (s ++ '\n' :: b) = skip s ++ '\n' :: b := by
  have hne : skip s ≠ [] := List.ne_nil_of_length_pos (Nat.zero_lt_of_lt h)
  rw [skip_joined hs, if_neg hne]

/-- A character that is next in the first text is next in both. -/
theorem skip_joined_cons (hs : Paired s) {c : Char} {rest : List Char} (h : skip s = c :: rest)
    (b : List Char) : skip (s ++ '\n' :: b) = c :: (rest ++ '\n' :: b) := by
  rw [skip_joined hs, h, if_neg (List.cons_ne_nil c rest)]
  rfl

theorem skip_joined_nil (hs : Paired s) (h : skip s = []) (b : List Char) :
    skip (s ++ '\n' :: b) = skip b := by
  rw [skip_joined hs, if_pos h]

/-! ## Tokens -/

/-- What a reader returns when there is a second text behind the one it has read from. -/
def joined {α : Type} (b : List Char) (x : α × List Char) : α × List Char :=
  (x.1, x.2 ++ '\n' :: b)

theorem word?_joined (inside : Char → Bool) (hn : inside '\n' = false) (s b : List Char) :
    word? inside (s ++ '\n' :: b) = (word? inside s).map (joined b) := by
  have hstops : Stops inside ('\n' :: b) := by
    intro c hc
    cases hc
    exact hn
  unfold word?
  rw [takeWhile_append_stops hstops, dropWhile_append_stops hstops]
  split
  · rfl
  · rfl

theorem label?_joined (s b : List Char) :
    label? (s ++ '\n' :: b) = (label? s).map (joined b) := by
  unfold label? name?
  rw [word?_joined isNameChar rfl]
  match word? isNameChar s with
  | none => rfl
  | some (w, []) => rfl
  | some (w, c :: rest) =>
      by_cases hc : c = ':'
      · subst hc
        rfl
      · simp [joined, hc]

theorem delimited?_joined (s b : List Char) :
    delimited? (s ++ '\n' :: b) = (delimited? s).map (joined b) := by
  cases s with
  | nil => rfl
  | cons d s =>
      by_cases hd : d = '<'
      · subst hd
        simp only [List.cons_append, delimited?, name?, word?_joined isNameChar rfl]
        cases word? isNameChar s with
        | none => rfl
        | some named =>
            obtain ⟨w, tail⟩ := named
            cases tail with
            | nil => rfl
            | cons c rest =>
                by_cases hc : c = '>'
                · subst hc
                  rfl
                · simp [joined, hc]
      · rw [List.cons_append, delimited?_eq_none hd, delimited?_eq_none hd]
        rfl

theorem symbol?_joined (s b : List Char) :
    symbol? (s ++ '\n' :: b) = (symbol? s).map (joined b) := by
  unfold symbol? name?
  rw [delimited?_joined, word?_joined isNameChar rfl]
  cases delimited? s with
  | none => rfl
  | some found => rfl

theorem skip_of_closing {c : Char} {e : Expected} {rest : List Char} {u : Unit}
    (h : closing c e s = .ok (u, rest)) : skip s = c :: rest := by
  unfold closing at h
  split at h
  · cases h
  · next d last he =>
      by_cases hd : d = c
      · rw [if_pos hd] at h
        cases h
        rw [he, hd]
      · rw [if_neg hd] at h
        cases h

theorem closing_joined (hs : Paired s) {c : Char} {e : Expected} {rest : List Char} {u : Unit}
    (h : closing c e s = .ok (u, rest)) (b : List Char) :
    closing c e (s ++ '\n' :: b) = .ok (u, rest ++ '\n' :: b) := by
  simp only [closing, skip_joined_cons hs (skip_of_closing h), if_true]

/-! ## Arguments -/

/-- Braces that open something in the first text open it in both. -/
theorem openBraces_joined (hs : Paired s) (b : List Char)
    (h : (openBraces s).1 = 0 ∨ (openBraces s).2 ≠ []) :
    openBraces (s ++ '\n' :: b) = joined b (openBraces s) := by
  fun_induction openBraces s with
  | case1 s _ n rest hr ih =>
      have hrest : rest ≠ [] := h.resolve_left (Nat.succ_ne_zero n)
      have htail : Paired s := hs.suffix (List.suffix_cons '{' s)
      have hskip : skip s ≠ [] := by
        intro hnil
        rw [hnil, openBraces] at hr
        · cases hr
          exact hrest rfl
        · rintro _ ⟨⟩
      have hjoined := ih (htail.suffix (skip_suffix s)) (.inr (by rwa [hr]))
      have hnext : skip (s ++ '\n' :: b) = skip s ++ '\n' :: b := by
        rw [skip_joined htail, if_neg hskip]
      rw [List.cons_append, openBraces, hnext, hjoined, hr]
      rfl
  | case2 s hbrace =>
      rw [openBraces]
      · rfl
      · intro rest hrest
        cases s with
        | nil => cases hrest
        | cons c s =>
            cases hrest
            exact hbrace s rfl

theorem closeBraces_joined (hs : Paired s) {n : Nat} {rest : List Char} {u : Unit}
    (h : closeBraces n s = .ok (u, rest)) (b : List Char) :
    closeBraces n (s ++ '\n' :: b) = .ok (u, rest ++ '\n' :: b) := by
  induction n generalizing s with
  | zero =>
      cases h
      rfl
  | succ n ih =>
      obtain ⟨⟨_, middle⟩, hc, h⟩ := bind_eq_ok.mp h
      have hmiddle : middle <:+ s := (closing_leaves _ _ s).of_ok hc
      exact bind_eq_ok.mpr ⟨_, closing_joined hs hc b, ih (hs.suffix hmiddle) h⟩

theorem nestedToken_joined (hs : Paired s) {v : UInt8 × String} {rest : List Char}
    (h : nestedToken s = .found v rest) (b : List Char) :
    nestedToken (s ++ '\n' :: b) = .found v (rest ++ '\n' :: b) := by
  have hinner := hs.suffix (openBraces_suffix s)
  have hsymbol : symbol? (openBraces s).2 ≠ none := by
    intro hnone
    unfold nestedToken at h
    simp only [hnone] at h
    split at h
    · cases h
    · next hsome => cases hsome
    · cases h
    · next hsome => cases hsome
  have hopen : openBraces (s ++ '\n' :: b) = joined b (openBraces s) := by
    apply openBraces_joined hs
    refine .inr fun hnil => hsymbol ?_
    rw [hnil]
    rfl
  unfold nestedToken at h ⊢
  simp only [hopen, joined, symbol?_joined] at h ⊢
  match hd : min (openBraces s).1 255, ht : symbol? (openBraces s).2 with
  | _, none => exact absurd ht hsymbol
  | 0, some (token, last) =>
      rw [hd, ht] at h
      cases h
      rfl
  | n + 1, some (token, last) =>
      have hlast := hinner.suffix (symbol?_suffix ht)
      rw [hd, ht] at h
      simp only at h
      split at h
      · next hc =>
          cases h
          simp only [Option.map_some, joined, closeBraces_joined hlast hc]
      · cases h

theorem argument_joined (hs : Paired s) {a : Argument} {rest : List Char}
    (h : argument s = .found a rest) (b : List Char) :
    argument (s ++ '\n' :: b) = .found a (rest ++ '\n' :: b) := by
  unfold argument at h ⊢
  rw [label?_joined]
  match hl : label? s with
  | none =>
      rw [hl] at h
      obtain ⟨v, hv, rfl⟩ := Reading.map_eq_found_iff.mp h
      simp only [Option.map_none, nestedToken_joined hs hv, Reading.map]
  | some (l, middle) =>
      rw [hl] at h
      obtain ⟨v, hv, rfl⟩ := Reading.map_eq_found_iff.mp h
      simp only [Option.map_some, joined, nestedToken_joined (hs.suffix (label?_suffix hl)) hv,
        Reading.map]

theorem Closed.joined (hs : Paired s) (h : Closed s) (b : List Char) :
    Closed (s ++ '\n' :: b) := by
  obtain ⟨c, rest, hnext, hc⟩ := h
  exact ⟨c, rest ++ '\n' :: b, skip_joined_cons hs hnext b, hc⟩

theorem moreMembers_joined (hs : Paired s) {more : List Argument} {rest : List Char}
    (h : moreMembers s = .ok (more, rest)) (hc : Closed rest) (b : List Char) :
    moreMembers (s ++ '\n' :: b) = .ok (more, rest ++ '\n' :: b) := by
  fun_induction moreMembers s generalizing more rest with
  | case1 s bar hb a middle ha _ _ _ ih =>
      obtain ⟨⟨others, last⟩, hm, h⟩ := bind_eq_ok.mp h
      cases h
      have hbar : Paired bar := hs.suffix (suffix_of_skip hb)
      have hmember := hbar.suffix (skip_suffix bar)
      have hmiddle := hmember.suffix ((argument_leaves _).of_found ha)
      refine moreMembers_bar (skip_joined_cons hs hb b) ?_ (ih hmiddle hm hc)
      rw [skip_joined_append hbar (argument_length ha)]
      exact argument_joined hmember ha b
  | case2 s bar hb stop ha =>
      cases h
      obtain ⟨c, last, hnext, hc⟩ := hc
      rw [hb] at hnext
      cases hnext
      rcases hc with hc | hc <;> cases hc
  | case3 => cases h
  | case4 s hbar =>
      cases h
      obtain ⟨c, last, hnext, hc⟩ := hc
      apply moreMembers_stop
      rw [skip_joined_cons hs hnext]
      rcases hc with rfl | rfl <;> simp

theorem members_joined (hs : Paired s) {found : List Argument} {rest : List Char}
    (h : members s = .found found rest) (hc : Closed rest) (b : List Char) :
    members (s ++ '\n' :: b) = .found found (rest ++ '\n' :: b) := by
  unfold members at h
  split at h
  · next a middle ha =>
      obtain ⟨⟨more, last⟩, hm, h⟩ := bind_eq_ok.mp (Reading.ofCommitted_eq_found.mp h)
      cases h
      have hfirst := hs.suffix (skip_suffix s)
      have hmiddle := hfirst.suffix ((argument_leaves _).of_found ha)
      simp only [members, skip_joined_append hs (argument_length ha), argument_joined hfirst ha,
        moreMembers_joined hmiddle hm hc]
      rfl
  · cases h
  · cases h

/-! ## Items -/

/-- Members and the bracket that closes them do not depend on what follows. -/
theorem enclosed_joined (hs : Paired s) {c : Char} {e e' : Expected} (hc : c = ']' ∨ c = ')')
    {found : List Argument} {middle rest : List Char} {u : Unit}
    (hm : (members s).required e = .ok (found, middle))
    (hr : closing c e' middle = .ok (u, rest)) (b : List Char) :
    (members (s ++ '\n' :: b)).required e = .ok (found, middle ++ '\n' :: b) ∧
      closing c e' (middle ++ '\n' :: b) = .ok (u, rest ++ '\n' :: b) := by
  have hmiddle : middle <:+ s := ((members_leaves s).required e).of_ok hm
  have hclosed : Closed middle := ⟨c, rest, skip_of_closing hr, hc⟩
  constructor
  · rw [members_joined hs (required_length hm) hclosed, Reading.required]
  · exact closing_joined (hs.suffix hmiddle) hr b

theorem optionalItem_joined (hs : Paired s) {i : Item} {rest : List Char}
    (h : optionalItem s = .ok (i, rest)) (b : List Char) :
    optionalItem (s ++ '\n' :: b) = .ok (i, rest ++ '\n' :: b) := by
  obtain ⟨⟨found, middle⟩, hm, h⟩ := bind_eq_ok.mp h
  obtain ⟨⟨_, last⟩, hr, h⟩ := bind_eq_ok.mp h
  cases h
  obtain ⟨hmembers, hclosing⟩ := enclosed_joined hs (.inl rfl) hm hr b
  exact bind_eq_ok.mpr ⟨_, hmembers, bind_eq_ok.mpr ⟨_, hclosing, rfl⟩⟩

theorem choiceItem_joined (hs : Paired s) {i : Item} {rest : List Char}
    (h : choiceItem s = .ok (i, rest)) (b : List Char) :
    choiceItem (s ++ '\n' :: b) = .ok (i, rest ++ '\n' :: b) := by
  obtain ⟨⟨found, middle⟩, hm, h⟩ := bind_eq_ok.mp h
  obtain ⟨⟨_, last⟩, hr, h⟩ := bind_eq_ok.mp h
  cases h
  obtain ⟨hmembers, hclosing⟩ := enclosed_joined hs (.inr rfl) hm hr b
  exact bind_eq_ok.mpr ⟨_, hmembers, bind_eq_ok.mpr ⟨_, hclosing, rfl⟩⟩

theorem item_joined (hs : Paired s) {i : Item} {rest : List Char} (h : item s = .found i rest)
    (b : List Char) : item (s ++ '\n' :: b) = .found i (rest ++ '\n' :: b) := by
  unfold item at h
  split at h
  · next s =>
      have hitem := optionalItem_joined (hs.suffix (List.suffix_cons '[' s))
        (Reading.ofCommitted_eq_found.mp h) b
      simp only [List.cons_append, item, hitem]
      rfl
  · next s =>
      have hitem := choiceItem_joined (hs.suffix (List.suffix_cons '(' s))
        (Reading.ofCommitted_eq_found.mp h) b
      simp only [List.cons_append, item, hitem]
      rfl
  · next hbracket hparenthesis =>
      obtain ⟨a, ha, rfl⟩ := Reading.map_eq_found_iff.mp h
      have hargument := argument_joined hs ha b
      unfold item
      split
      · next he =>
          cases s with
          | nil => cases he
          | cons c s =>
              cases he
              exact absurd rfl (hbracket s)
      · next he =>
          cases s with
          | nil => cases he
          | cons c s =>
              cases he
              exact absurd rfl (hparenthesis s)
      · rw [hargument]
        rfl

theorem items_joined (hs : Paired s) {found : List Item} {rest : List Char}
    (h : items s = .ok (found, rest)) (hc : Closed rest) (b : List Char) :
    items (s ++ '\n' :: b) = .ok (found, rest ++ '\n' :: b) := by
  fun_induction items s generalizing found rest with
  | case1 s i middle hi _ _ ih =>
      obtain ⟨⟨more, last⟩, hm, h⟩ := bind_eq_ok.mp h
      cases h
      have hitem := hs.suffix (skip_suffix s)
      have hmiddle := hitem.suffix ((item_leaves _).of_found hi)
      refine items_found ?_ (ih hmiddle hm hc)
      rw [skip_joined_append hs (item_length hi)]
      exact item_joined hitem hi b
  | case2 s stop hi =>
      cases h
      exact items_closed (hc.joined hs b)
  | case3 => cases h

/-! ## Rules -/

theorem form_joined (hs : Paired s) {c : Clause} {rest : List Char} (h : form s = .ok (c, rest))
    (b : List Char) : form (s ++ '\n' :: b) = .ok (c, rest ++ '\n' :: b) := by
  unfold form at h
  simp only at h
  split at h
  · cases h
  · next head after hw =>
      obtain ⟨⟨found, middle⟩, hi, h⟩ := bind_eq_ok.mp h
      obtain ⟨⟨_, last⟩, hc, h⟩ := bind_eq_ok.mp h
      cases h
      have hafter := (hs.suffix (skip_suffix s)).suffix (word?_suffix hw)
      have hmiddle := hafter.suffix ((items_leaves after).of_ok hi)
      have hclosed : Closed middle := ⟨')', last, skip_of_closing hc, .inr rfl⟩
      have hskip := skip_joined_append hs (word?_length hw) b
      simp only [form, hskip, word?_joined isHeadChar rfl, hw, Option.map_some, joined,
        items_joined hafter hi hclosed, closing_joined hmiddle hc, bind, Except.bind]

theorem alternative_joined (hs : Paired s) {c : Clause} {rest : List Char}
    (h : alternative s = .ok (c, rest)) (b : List Char) :
    alternative (s ++ '\n' :: b) = .ok (c, rest ++ '\n' :: b) := by
  unfold alternative at h
  split at h
  · next after he =>
      have hafter := hs.suffix (suffix_of_skip he)
      have hform := form_joined hafter (mapError_eq_ok.mp h) b
      simp only [alternative, skip_joined_cons hs he, hform]
      rfl
  · next hparenthesis =>
      have hlen : rest.length < (skip s).length := by
        split at h
        · next hd =>
            cases h
            exact delimited?_length hd
        · split at h
          · next hw =>
              cases h
              exact word?_length hw
          · cases h
      unfold alternative
      rw [skip_joined_append hs hlen]
      split
      · next after he =>
          cases hnext : skip s with
          | nil => simp [hnext] at hlen
          | cons d text =>
              rw [hnext] at he
              cases he
              exact absurd hnext (hparenthesis text)
      · rw [delimited?_joined, word?_joined isTerminalChar rfl]
        split at h
        · next hd =>
            cases h
            simp only [hd, Option.map_some, joined]
        · next hnone =>
            split at h
            · next hw =>
                cases h
                simp only [hnone, hw, Option.map_none, Option.map_some, joined]
            · cases h

theorem moreAlternatives_joined (hs : Paired s) {more : List Clause} {rest : List Char}
    (h : moreAlternatives s = .ok (more, rest)) (hb : (skip b).head? ≠ some '|') :
    moreAlternatives (s ++ '\n' :: b) = .ok (more, rest ++ '\n' :: b) := by
  fun_induction moreAlternatives s generalizing more rest with
  | case1 s bar hbar c middle ha _ _ ih =>
      obtain ⟨⟨others, last⟩, hm, h⟩ := bind_eq_ok.mp h
      cases h
      have halternative := hs.suffix (suffix_of_skip hbar)
      have hmiddle := halternative.suffix ((alternative_leaves bar).of_ok ha)
      exact moreAlternatives_bar (skip_joined_cons hs hbar b) (alternative_joined halternative ha b)
        (ih hmiddle hm)
  | case2 => cases h
  | case3 s hbar =>
      cases h
      apply moreAlternatives_stop
      rw [skip_joined hs]
      by_cases hnil : skip s = []
      · rwa [if_pos hnil]
      · rw [if_neg hnil, List.head?_append_of_ne_nil _ hnil]
        intro hhead
        obtain ⟨bar, hnext⟩ := List.head?_eq_some_iff.mp hhead
        exact hbar bar hnext

theorem definition_joined (hs : Paired s) {clauses : List Clause} {rest : List Char}
    (h : definition s = .ok (clauses, rest)) (hb : (skip b).head? ≠ some '|') :
    definition (s ++ '\n' :: b) = .ok (clauses, rest ++ '\n' :: b) := by
  unfold definition at h
  split at h
  · next after he =>
      obtain ⟨⟨first, middle⟩, ha, h⟩ := bind_eq_ok.mp h
      obtain ⟨⟨more, last⟩, hm, h⟩ := bind_eq_ok.mp h
      cases h
      have hafter : Paired after := by
        have hsign := hs.suffix (suffix_of_skip he)
        exact hsign.suffix (List.suffix_append [':', '='] after)
      have hmiddle := hafter.suffix ((alternative_leaves after).of_ok ha)
      simp only [definition, skip_joined_cons hs he, List.cons_append, alternative_joined hafter ha,
        moreAlternatives_joined hmiddle hm hb, bind, Except.bind]
  · cases h

theorem rule_joined (hs : Paired s) {r : Rule} {rest : List Char} (h : rule s = .found r rest)
    (hb : (skip b).head? ≠ some '|') : rule (s ++ '\n' :: b) = .found r (rest ++ '\n' :: b) := by
  unfold rule at h
  split at h
  · cases h
  · next name after hn =>
      split at h
      · next clauses last hd =>
          cases h
          have hafter := (hs.suffix (skip_suffix s)).suffix (symbol?_suffix hn)
          have hskip := skip_joined_append hs (symbol?_length hn) b
          simp only [rule, hskip, symbol?_joined, hn, Option.map_some, joined,
            definition_joined hafter hd hb]
      · cases h

end GameGrammar.Listing

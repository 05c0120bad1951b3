import GameGrammar.Proofs.Listing.Normal

/-! # How far readers get

Reading goes through a text from its front. What a reader leaves is an end of the text, and so is
what was unread where a fault lies. -/

namespace GameGrammar.Listing

variable {α β : Type} {s t : List Char}

/-! ## Ends of a text -/

/-- What a committed reader leaves, or a fault has not read, is an end of the text. -/
def Leaves (s : List Char) : Except Fault (α × List Char) → Prop
  | .ok (_, rest) => rest <:+ s
  | .error f => f.unread <:+ s

/-- The same for an attempt, which may give up somewhere as well. -/
def Reading.Leaves (s : List Char) : Reading α → Prop
  | .found _ rest => rest <:+ s
  | .absent stop => stop <:+ s
  | .broken f => f.unread <:+ s

theorem Leaves.of_ok {x : Except Fault (α × List Char)} (hx : Leaves s x) {v : α}
    {rest : List Char} (h : x = .ok (v, rest)) : rest <:+ s := by
  subst h
  exact hx

theorem Leaves.of_error {x : Except Fault (α × List Char)} (hx : Leaves s x) {f : Fault}
    (h : x = .error f) : f.unread <:+ s := by
  subst h
  exact hx

theorem Leaves.mono {x : Except Fault (α × List Char)} (hx : Leaves s x) (hs : s <:+ t) :
    Leaves t x := by
  cases x with
  | ok y => exact hx.trans hs
  | error f => exact hx.trans hs

theorem Leaves.bind {x : Except Fault (α × List Char)}
    {k : α × List Char → Except Fault (β × List Char)} (hx : Leaves s x)
    (hk : ∀ v rest, Leaves rest (k (v, rest))) : Leaves s (x >>= k) := by
  cases x with
  | ok y => exact (hk y.1 y.2).mono hx
  | error f => exact hx

theorem Leaves.within {x : Except Fault (α × List Char)} (hx : Leaves s x) (e : Expected) :
    Leaves s (x.mapError (·.within e)) := by
  cases x with
  | ok y => exact hx
  | error f => exact hx

namespace Reading

theorem Leaves.of_found {r : Reading α} (hr : r.Leaves s) {v : α} {rest : List Char}
    (h : r = .found v rest) : rest <:+ s := by
  subst h
  exact hr

theorem Leaves.of_absent {r : Reading α} (hr : r.Leaves s) {stop : List Char}
    (h : r = .absent stop) : stop <:+ s := by
  subst h
  exact hr

theorem Leaves.of_broken {r : Reading α} (hr : r.Leaves s) {f : Fault} (h : r = .broken f) :
    f.unread <:+ s := by
  subst h
  exact hr

theorem Leaves.mono {r : Reading α} (hr : r.Leaves s) (hs : s <:+ t) : r.Leaves t := by
  cases r with
  | found v rest => exact hr.trans hs
  | absent stop => exact hr.trans hs
  | broken f => exact hr.trans hs

theorem Leaves.map {r : Reading α} (hr : r.Leaves s) (f : α → β) : (r.map f).Leaves s := by
  cases r with
  | found v rest => exact hr
  | absent stop => exact hr
  | broken f => exact hr

theorem Leaves.required {r : Reading α} (hr : r.Leaves s) (e : Expected) :
    Listing.Leaves s (r.required e) := by
  cases r with
  | found v rest => exact hr
  | absent stop => exact hr
  | broken f => exact hr

theorem leaves_ofCommitted {x : Except Fault (α × List Char)} (hx : Listing.Leaves s x) :
    (ofCommitted x).Leaves s := by
  cases x with
  | ok y => exact hx
  | error f => exact hx

end Reading

/-! ## Blanks and words -/

theorem afterComment?_suffix {rest : List Char} (h : afterComment? s = some rest) :
    rest <:+ s := by
  have hdrop := List.dropWhile_suffix (l := s) (!isLineEnd ·)
  unfold afterComment? at h
  split at h
  · next he => cases h; exact he ▸ hdrop
  · cases h
  · cases h; exact hdrop

theorem skip_suffix (s : List Char) : skip s <:+ s := by
  fun_induction skip s with
  | case1 s rest h _ ih =>
      have hcomment : s <:+ '/' :: '/' :: s := List.suffix_append ['/', '/'] s
      exact (ih.trans (afterComment?_suffix h)).trans hcomment
  | case2 s h => exact List.suffix_rfl
  | case3 c s _ hb ih => exact ih.trans (List.suffix_cons c s)
  | case4 c s _ hb => exact List.suffix_rfl
  | case5 => exact List.suffix_rfl

theorem word?_suffix {inside : Char → Bool} {w : String} {rest : List Char}
    (h : word? inside s = some (w, rest)) : rest <:+ s :=
  ⟨w.toList, (word?_eq_some h).1.symm⟩

theorem delimited?_suffix {w : String} {rest : List Char} (h : delimited? s = some (w, rest)) :
    rest <:+ s := by
  unfold delimited? at h
  split at h
  · split at h
    · next inner last hname =>
        cases h
        exact ((List.suffix_cons '>' rest).trans (word?_suffix hname)).trans
          (List.suffix_cons '<' _)
    · cases h
  · cases h

theorem symbol?_suffix {w : String} {rest : List Char} (h : symbol? s = some (w, rest)) :
    rest <:+ s := by
  unfold symbol? at h
  split at h
  · next hd =>
      cases h
      exact delimited?_suffix hd
  · exact word?_suffix h

theorem label?_suffix {w : String} {rest : List Char} (h : label? s = some (w, rest)) :
    rest <:+ s := by
  unfold label? at h
  split at h
  · next hname =>
      cases h
      exact (List.suffix_cons ':' rest).trans (word?_suffix hname)
  · cases h

theorem closing_leaves (c : Char) (e : Expected) (s : List Char) :
    Leaves s (closing c e s) := by
  have hs := skip_suffix s
  unfold closing
  split
  · exact List.nil_suffix
  · next d rest he =>
      rw [he] at hs
      split
      · exact (List.suffix_cons d rest).trans hs
      · exact hs

/-! ## Arguments -/

theorem openBraces_suffix (s : List Char) : (openBraces s).2 <:+ s := by
  fun_induction openBraces s with
  | case1 s _ n rest hr ih =>
      rw [hr] at ih
      exact (ih.trans (skip_suffix s)).trans (List.suffix_cons '{' s)
  | case2 => exact List.suffix_rfl

theorem closeBraces_leaves (n : Nat) (s : List Char) : Leaves s (closeBraces n s) := by
  induction n generalizing s with
  | zero => exact List.suffix_rfl
  | succ n ih => exact (closing_leaves _ _ _).bind fun _ rest => ih rest

theorem nestedToken_leaves (s : List Char) : (nestedToken s).Leaves s := by
  have hs := openBraces_suffix s
  unfold nestedToken
  simp only
  split
  · exact hs
  · next hsymbol => exact (symbol?_suffix hsymbol).trans hs
  · exact hs
  · next hsymbol =>
      have hrest := (symbol?_suffix hsymbol).trans hs
      have hclose := (closeBraces_leaves (min (openBraces s).1 255) _).mono hrest
      split
      · next hc => exact hclose.of_ok hc
      · next hc => exact hclose.of_error hc

theorem argument_leaves (s : List Char) : (argument s).Leaves s := by
  unfold argument
  split
  · next l rest hl => exact ((nestedToken_leaves rest).map _).mono (label?_suffix hl)
  · exact (nestedToken_leaves s).map _

/-- What follows a character that is next after blanks is an end of the text. -/
theorem suffix_of_skip {c : Char} {rest : List Char} (h : skip s = c :: rest) : rest <:+ s :=
  (List.suffix_cons c rest).trans (h ▸ skip_suffix s)

theorem moreMembers_leaves (s : List Char) : Leaves s (moreMembers s) := by
  fun_induction moreMembers s with
  | case1 s bar hb a rest ha _ _ _ ih =>
      have hbar : skip bar <:+ s := (skip_suffix bar).trans (suffix_of_skip hb)
      have hrest : rest <:+ s := ((argument_leaves _).of_found ha).trans hbar
      exact (ih.mono hrest).bind fun _ _ => List.suffix_rfl
  | case2 s bar hb stop ha => exact List.suffix_rfl
  | case3 s bar hb f ha =>
      have hbar : skip bar <:+ s := (skip_suffix bar).trans (suffix_of_skip hb)
      exact ((argument_leaves _).of_broken ha).trans hbar
  | case4 => exact List.suffix_rfl

theorem members_leaves (s : List Char) : (members s).Leaves s := by
  have hs := skip_suffix s
  have hargument := argument_leaves (skip s)
  unfold members
  split
  · next a rest ha =>
      have hrest : rest <:+ s := (hargument.of_found ha).trans hs
      exact Reading.leaves_ofCommitted
        (((moreMembers_leaves rest).mono hrest).bind fun _ _ => List.suffix_rfl)
  · next stop ha => exact (hargument.of_absent ha).trans hs
  · next f ha => exact (hargument.of_broken ha).trans hs

/-! ## Items -/

theorem optionalItem_leaves (s : List Char) : Leaves s (optionalItem s) :=
  ((members_leaves s).required _).bind fun _ rest =>
    (closing_leaves _ _ rest).bind fun _ _ => List.suffix_rfl

theorem choiceItem_leaves (s : List Char) : Leaves s (choiceItem s) :=
  ((members_leaves s).required _).bind fun _ rest =>
    (closing_leaves _ _ rest).bind fun _ _ => List.suffix_rfl

theorem item_leaves (s : List Char) : (item s).Leaves s := by
  unfold item
  split
  · next s =>
      exact (Reading.leaves_ofCommitted (optionalItem_leaves s)).mono (List.suffix_cons '[' s)
  · next s =>
      exact (Reading.leaves_ofCommitted (choiceItem_leaves s)).mono (List.suffix_cons '(' s)
  · exact (argument_leaves _).map _

theorem items_leaves (s : List Char) : Leaves s (items s) := by
  fun_induction items s with
  | case1 s i rest hi _ _ ih =>
      have hrest : rest <:+ s := ((item_leaves _).of_found hi).trans (skip_suffix s)
      exact (ih.mono hrest).bind fun _ _ => List.suffix_rfl
  | case2 s stop hi => exact List.suffix_rfl
  | case3 s f hi => exact ((item_leaves _).of_broken hi).trans (skip_suffix s)

/-! ## Rules -/

theorem form_leaves (s : List Char) : Leaves s (form s) := by
  have hs := skip_suffix s
  unfold form
  simp only
  split
  · exact hs
  · next head rest hw =>
      have hrest := (word?_suffix hw).trans hs
      exact ((items_leaves rest).mono hrest).bind fun _ middle =>
        (closing_leaves _ _ middle).bind fun _ _ => List.suffix_rfl

theorem alternative_leaves (s : List Char) : Leaves s (alternative s) := by
  have hs := skip_suffix s
  unfold alternative
  split
  · next rest he => exact ((form_leaves rest).within _).mono (suffix_of_skip he)
  · split
    · next hd => exact (delimited?_suffix hd).trans hs
    · split
      · next hw => exact (word?_suffix hw).trans hs
      · exact hs

theorem moreAlternatives_leaves (s : List Char) : Leaves s (moreAlternatives s) := by
  fun_induction moreAlternatives s with
  | case1 s bar hb c rest ha _ _ ih =>
      have hrest : rest <:+ s :=
        ((alternative_leaves bar).of_ok ha).trans (suffix_of_skip hb)
      exact (ih.mono hrest).bind fun _ _ => List.suffix_rfl
  | case2 s bar hb f ha =>
      exact ((alternative_leaves bar).of_error ha).trans (suffix_of_skip hb)
  | case3 => exact List.suffix_rfl

theorem definition_leaves (s : List Char) : Leaves s (definition s) := by
  have hs := skip_suffix s
  unfold definition
  split
  · next rest he =>
      have hrest : rest <:+ s := by
        rw [he] at hs
        exact (List.suffix_append [':', ':', '='] rest).trans hs
      exact ((alternative_leaves rest).mono hrest).bind fun _ middle =>
        (moreAlternatives_leaves middle).bind fun _ _ => List.suffix_rfl
  · exact hs

theorem rule_leaves (s : List Char) : (rule s).Leaves s := by
  have hs := skip_suffix s
  unfold rule
  split
  · exact List.suffix_rfl
  · next name rest hn =>
      have hdefinition := (definition_leaves rest).mono ((symbol?_suffix hn).trans hs)
      split
      · next hd => exact hdefinition.of_ok hd
      · next hd => exact hdefinition.of_error hd

theorem rules_leaves (s : List Char) : Leaves s (rules s) := by
  fun_induction rules s with
  | case1 s r rest hr _ ih =>
      have hrest : rest <:+ s := (rule_leaves s).of_found hr
      exact (ih.mono hrest).bind fun _ _ => List.suffix_rfl
  | case2 => exact List.suffix_rfl
  | case3 s f hr => exact (rule_leaves s).of_broken hr

/-- A fault lies in the text that is read. -/
theorem unread_suffix {f : Fault} (h : read s = .error f) : f.unread <:+ s := by
  have hs := rules_leaves s
  unfold read at h
  match hr : rules s with
  | .ok (found, rest) =>
      simp only [hr, bind, Except.bind] at h
      split at h
      · cases h
      · cases h
        exact (skip_suffix rest).trans (hs.of_ok hr)
  | .error fault =>
      simp only [hr, bind, Except.bind] at h
      cases h
      exact hs.of_error hr

end GameGrammar.Listing

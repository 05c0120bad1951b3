import GameGrammar.Grammar.Basic
import GameGrammar.Listing.Fault

/-! # Arguments in a listing

An item of a form is an argument `label:{symbol}`, an optional one in brackets, or several
arguments between bars, in brackets or in parentheses, that exclude one another. -/

namespace GameGrammar.Listing

/-! ## Arguments -/

/-- A name before a colon. -/
def label? (s : List Char) : Option (String × List Char) :=
  match name? s with
  | some (w, ':' :: rest) => some (w, rest)
  | _ => none

/-- How many braces open here, and the text after them and the blanks behind each. -/
def openBraces : List Char → Nat × List Char
  | '{' :: s =>
    have := skip_length s
    let (n, rest) := openBraces (skip s)
    (n + 1, rest)
  | s => (0, s)
  termination_by s => s.length
  decreasing_by simp only [List.length_cons]; omega

/-- As many closing braces as asked for. -/
def closeBraces : Nat → List Char → Except Fault (Unit × List Char)
  | 0, s => .ok ((), s)
  | n + 1, s => do
    let (_, rest) ← closing '}' .closingBrace s
    closeBraces n rest

/-- A symbol in its braces. The depth of nesting stops counting at 255. -/
def nestedToken (s : List Char) : Reading (UInt8 × String) :=
  let (opened, inner) := openBraces s
  let depth := min opened 255
  match depth, symbol? inner with
  | 0, none => .absent inner
  | 0, some (token, rest) => .found (0, token) rest
  | _ + 1, none => .broken ⟨[.argumentSymbol], inner⟩
  | _ + 1, some (token, rest) =>
    match closeBraces depth rest with
    | .ok (_, rest) => .found (depth.toUInt8, token) rest
    | .error f => .broken f

/-- An argument with its label, without brackets. -/
def argument (s : List Char) : Reading Argument :=
  match label? s with
  | some (l, s) => (nestedToken s).map fun (n, t) => { token := t, label := some l, nesting := n }
  | none => (nestedToken s).map fun (n, t) => { token := t, nesting := n }

theorem label?_length {s rest : List Char} {w : String} (h : label? s = some (w, rest)) :
    rest.length < s.length := by
  unfold label? at h
  split at h
  · next hn =>
    cases h
    have := word?_length hn
    simp only [List.length_cons] at this
    omega
  · cases h

theorem openBraces_length (s : List Char) : (openBraces s).2.length ≤ s.length := by
  fun_induction openBraces s with
  | case1 s h n rest hr ih => simp only [hr, List.length_cons] at ih ⊢; omega
  | case2 => exact Nat.le_refl _

theorem closeBraces_length {n : Nat} {s rest : List Char} {u : Unit}
    (h : closeBraces n s = .ok (u, rest)) : rest.length ≤ s.length := by
  induction n generalizing s with
  | zero => cases h; exact Nat.le_refl _
  | succ n ih =>
    unfold closeBraces at h
    match hc : closing '}' .closingBrace s with
    | .ok (_, middle) =>
      rw [hc] at h
      have := closing_length hc
      have := ih h
      omega
    | .error f => rw [hc] at h; cases h

theorem nestedToken_length {s rest : List Char} {v : UInt8 × String}
    (h : nestedToken s = .found v rest) : rest.length < s.length := by
  have ho := openBraces_length s
  unfold nestedToken at h
  simp only at h
  split at h
  · cases h
  · next hs => cases h; have := symbol?_length hs; omega
  · cases h
  · next hs =>
    have := symbol?_length hs
    split at h
    · next hc => cases h; have := closeBraces_length hc; omega
    · cases h

theorem map_eq_found {α β : Type} {f : α → β} {r : Reading α} {b : β} {rest : List Char}
    (h : r.map f = .found b rest) : ∃ a, r = .found a rest := by
  cases r with
  | found a r => cases h; exact ⟨a, rfl⟩
  | absent s => cases h
  | broken f => cases h

theorem argument_length {s rest : List Char} {a : Argument} (h : argument s = .found a rest) :
    rest.length < s.length := by
  unfold argument at h
  split at h
  · next hl =>
    obtain ⟨v, hv⟩ := map_eq_found h
    have := nestedToken_length hv
    have := label?_length hl
    omega
  · obtain ⟨v, hv⟩ := map_eq_found h
    exact nestedToken_length hv

/-- The further members of a group, each after a bar. A bar without a member is left unread. -/
def moreMembers (s : List Char) : Except Fault (List Argument × List Char) :=
  match hb : skip s with
  | '|' :: bar =>
    match ha : argument (skip bar) with
    | .found a rest => do
      have := argument_length ha
      have := hb ▸ skip_length s
      have := skip_length bar
      let (members, rest) ← moreMembers rest
      .ok (a :: members, rest)
    | .absent _ => .ok ([], s)
    | .broken f => .error f
  | _ => .ok ([], s)
  termination_by s.length
  decreasing_by simp only [List.length_cons] at *; omega

/-- One or more members between bars. -/
def members (s : List Char) : Reading (List Argument) :=
  match argument (skip s) with
  | .found a rest => .ofCommitted do
    let (more, rest) ← moreMembers rest
    .ok (a :: more, rest)
  | .absent stop => .absent stop
  | .broken f => .broken f

theorem moreMembers_length {s rest : List Char} {more : List Argument}
    (h : moreMembers s = .ok (more, rest)) : rest.length ≤ s.length := by
  fun_induction moreMembers s generalizing more rest with
  | case1 s bar hb a middle ha _ _ _ ih =>
    have hs := hb ▸ skip_length s
    have := argument_length ha
    have := skip_length bar
    match hm : moreMembers middle with
    | .ok (others, last) =>
      rw [hm] at h
      cases h
      have := ih hm
      simp only [List.length_cons] at hs
      omega
    | .error f => rw [hm] at h; cases h
  | case2 => cases h; exact Nat.le_refl _
  | case3 => cases h
  | case4 => cases h; exact Nat.le_refl _

/-! ## Items of a form -/

/-- One argument, or several that exclude one another. -/
inductive Item where
  | single (argument : Argument)
  | choice (members : List Argument)

namespace Item

/-- Alternatives in brackets or parentheses; a single one is an argument like any other. -/
def ofMembers : List Argument → Item
  | [a] => .single a
  | members => .choice members

end Item

/-- The rest of `[a | b …]` after the opening bracket. -/
def optionalItem (s : List Char) : Except Fault (Item × List Char) := do
  let (found, rest) ← (members s).required .optionalArgument
  let (_, rest) ← closing ']' .closingBracket rest
  .ok (.ofMembers (found.map fun a => { a with optional := true }), rest)

/-- The rest of `(a | b …)` after the opening parenthesis. -/
def choiceItem (s : List Char) : Except Fault (Item × List Char) := do
  let (found, rest) ← (members s).required .argumentAlternatives
  let (_, rest) ← closing ')' .closingParenthesis rest
  .ok (.ofMembers found, rest)

def item : List Char → Reading Item
  | '[' :: s => .ofCommitted (optionalItem s)
  | '(' :: s => .ofCommitted (choiceItem s)
  | s => (argument s).map .single

end GameGrammar.Listing

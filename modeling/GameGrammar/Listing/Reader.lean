import GameGrammar.Grammar.Build
import GameGrammar.Listing.Argument

/-! # Reading a listing

A listing is a sequence of rules `name ::= alternative | alternative …` between blanks and
comments. The rules come out in the order in which they are written. -/

namespace GameGrammar.Listing

/-! ## Forms -/

theorem required_length {α : Type} {e : Expected} {r : Reading α} {v : α} {rest : List Char}
    (h : r.required e = .ok (v, rest)) : r = .found v rest := by
  cases r with
  | found a r => cases h; rfl
  | absent s => cases h
  | broken f => cases h

theorem members_length {s rest : List Char} {found : List Argument}
    (h : members s = .found found rest) : rest.length < s.length := by
  have hs := skip_length s
  unfold members at h
  split at h
  · next a middle ha =>
    have := argument_length ha
    match hm : moreMembers middle with
    | .ok (more, last) =>
      rw [hm] at h
      cases h
      have := moreMembers_length hm
      omega
    | .error f => rw [hm] at h; cases h
  · cases h
  · cases h

theorem optionalItem_length {s rest : List Char} {i : Item}
    (h : optionalItem s = .ok (i, rest)) : rest.length < s.length := by
  unfold optionalItem at h
  match hm : (members s).required .optionalArgument with
  | .ok (found, middle) =>
    rw [hm] at h
    have := members_length (required_length hm)
    match hc : closing ']' .closingBracket middle with
    | .ok (_, last) =>
      simp only [bind, Except.bind, hc] at h
      cases h
      have := closing_length hc
      omega
    | .error f => simp only [bind, Except.bind, hc] at h; cases h
  | .error f => rw [hm] at h; cases h

theorem choiceItem_length {s rest : List Char} {i : Item}
    (h : choiceItem s = .ok (i, rest)) : rest.length < s.length := by
  unfold choiceItem at h
  match hm : (members s).required .argumentAlternatives with
  | .ok (found, middle) =>
    rw [hm] at h
    have := members_length (required_length hm)
    match hc : closing ')' .closingParenthesis middle with
    | .ok (_, last) =>
      simp only [bind, Except.bind, hc] at h
      cases h
      have := closing_length hc
      omega
    | .error f => simp only [bind, Except.bind, hc] at h; cases h
  | .error f => rw [hm] at h; cases h

theorem item_length {s rest : List Char} {i : Item} (h : item s = .found i rest) :
    rest.length < s.length := by
  unfold item at h
  split at h
  · next t =>
    match ho : optionalItem t with
    | .ok (j, r) =>
      rw [ho] at h
      cases h
      have := optionalItem_length ho
      simp only [List.length_cons]
      omega
    | .error f => rw [ho] at h; cases h
  · next t =>
    match ho : choiceItem t with
    | .ok (j, r) =>
      rw [ho] at h
      cases h
      have := choiceItem_length ho
      simp only [List.length_cons]
      omega
    | .error f => rw [ho] at h; cases h
  · obtain ⟨a, ha⟩ := map_eq_found h
    exact argument_length ha

/-- The items of a form, as far as they go. -/
def items (s : List Char) : Except Fault (List Item × List Char) :=
  match hi : item (skip s) with
  | .found i rest => do
    have := item_length hi
    have := skip_length s
    let (more, rest) ← items rest
    .ok (i :: more, rest)
  | .absent _ => .ok ([], s)
  | .broken f => .error f
  termination_by s.length
  decreasing_by omega

/-- The arguments of a form: the choices are numbered from `next` on. -/
def numbered (next : UInt32) : List Item → List Argument
  | [] => []
  | .single a :: items => a :: numbered next items
  | .choice members :: items =>
    members.map (fun a => { a with group := next }) ++ numbered (next + 1) items

/-- The rest of a form after its opening parenthesis. -/
def form (s : List Char) : Except Fault (Clause × List Char) :=
  let s := skip s
  match word? isHeadChar s with
  | none => .error ⟨[.head], s⟩
  | some (head, rest) => do
    let (found, rest) ← items rest
    let (_, rest) ← closing ')' .closingParenthesis rest
    .ok (.form head (numbered 1 found), rest)

/-! ## Rules -/

/-- One alternative: a form, a reference, or a word of final text. -/
def alternative (s : List Char) : Except Fault (Clause × List Char) :=
  match skip s with
  | '(' :: rest => (form rest).mapError (·.within .alternative)
  | s =>
    match delimited? s with
    | some (target, rest) => .ok (.reference target, rest)
    | none =>
      match word? isTerminalChar s with
      | some (text, rest) => .ok (.terminal text, rest)
      | none => .error ⟨[.alternative], s⟩

theorem items_length {s rest : List Char} {found : List Item}
    (h : items s = .ok (found, rest)) : rest.length ≤ s.length := by
  fun_induction items s generalizing found rest with
  | case1 s i middle hi _ _ ih =>
    have := item_length hi
    have := skip_length s
    match hm : items middle with
    | .ok (more, last) =>
      rw [hm] at h
      cases h
      have := ih hm
      omega
    | .error f => rw [hm] at h; cases h
  | case2 => cases h; exact Nat.le_refl _
  | case3 => cases h

theorem form_length {s rest : List Char} {c : Clause} (h : form s = .ok (c, rest)) :
    rest.length < s.length := by
  have hs := skip_length s
  unfold form at h
  simp only at h
  split at h
  · cases h
  · next head after hw =>
    have := word?_length hw
    match hi : items after with
    | .ok (found, middle) =>
      rw [hi] at h
      have := items_length hi
      match hc : closing ')' .closingParenthesis middle with
      | .ok (_, last) =>
        simp only [bind, Except.bind, hc] at h
        cases h
        have := closing_length hc
        omega
      | .error f => simp only [bind, Except.bind, hc] at h; cases h
    | .error f => rw [hi] at h; cases h

theorem alternative_length {s rest : List Char} {c : Clause}
    (h : alternative s = .ok (c, rest)) : rest.length < s.length := by
  have hs := skip_length s
  unfold alternative at h
  split at h
  · next after he =>
    rw [he] at hs
    match hf : form after with
    | .ok (d, last) =>
      rw [hf] at h
      cases h
      have := form_length hf
      simp only [List.length_cons] at hs
      omega
    | .error f => rw [hf] at h; cases h
  · split at h
    · next hd => cases h; have := delimited?_length hd; omega
    · split at h
      · next hw => cases h; have := word?_length hw; omega
      · cases h

/-- The further alternatives of a rule, each after a bar. -/
def moreAlternatives (s : List Char) : Except Fault (List Clause × List Char) :=
  match hb : skip s with
  | '|' :: bar =>
    match ha : alternative bar with
    | .ok (c, rest) => do
      have := alternative_length ha
      have := hb ▸ skip_length s
      let (more, rest) ← moreAlternatives rest
      .ok (c :: more, rest)
    | .error f => .error f
  | _ => .ok ([], s)
  termination_by s.length
  decreasing_by simp only [List.length_cons] at *; omega

/-- The rest of a rule after its name. -/
def definition (s : List Char) : Except Fault (List Clause × List Char) :=
  match skip s with
  | ':' :: ':' :: '=' :: rest => do
    let (first, rest) ← alternative rest
    let (more, rest) ← moreAlternatives rest
    .ok (first :: more, rest)
  | s => .error ⟨[.definitionSign], s⟩

/-- A rule. Its name commits the reader. -/
def rule (s : List Char) : Reading Rule :=
  match symbol? (skip s) with
  | none => .absent s
  | some (name, rest) =>
    match definition rest with
    | .ok (clauses, rest) => .found ⟨name, clauses⟩ rest
    | .error f => .broken f

theorem moreAlternatives_length {s rest : List Char} {more : List Clause}
    (h : moreAlternatives s = .ok (more, rest)) : rest.length ≤ s.length := by
  fun_induction moreAlternatives s generalizing more rest with
  | case1 s bar hb c middle ha _ _ ih =>
    have hs := hb ▸ skip_length s
    have := alternative_length ha
    match hm : moreAlternatives middle with
    | .ok (others, last) =>
      rw [hm] at h
      cases h
      have := ih hm
      simp only [List.length_cons] at hs
      omega
    | .error f => rw [hm] at h; cases h
  | case2 => cases h
  | case3 => cases h; exact Nat.le_refl _

theorem definition_length {s rest : List Char} {clauses : List Clause}
    (h : definition s = .ok (clauses, rest)) : rest.length < s.length := by
  have hs := skip_length s
  unfold definition at h
  split at h
  · next after he =>
    rw [he] at hs
    simp only [List.length_cons] at hs
    match ha : alternative after with
    | .ok (first, middle) =>
      rw [ha] at h
      have := alternative_length ha
      match hm : moreAlternatives middle with
      | .ok (more, last) =>
        simp only [bind, Except.bind, hm] at h
        cases h
        have := moreAlternatives_length hm
        omega
      | .error f => simp only [bind, Except.bind, hm] at h; cases h
    | .error f => rw [ha] at h; cases h
  · cases h

theorem rule_length {s rest : List Char} {r : Rule} (h : rule s = .found r rest) :
    rest.length < s.length := by
  have hs := skip_length s
  unfold rule at h
  split at h
  · cases h
  · next hn =>
    have := symbol?_length hn
    split at h
    · next hd => cases h; have := definition_length hd; omega
    · cases h

/-- The rules, as far as they go. -/
def rules (s : List Char) : Except Fault (List Rule × List Char) :=
  match hr : rule s with
  | .found r rest => do
    have := rule_length hr
    let (more, rest) ← rules rest
    .ok (r :: more, rest)
  | .absent _ => .ok ([], s)
  | .broken f => .error f
  termination_by s.length

/-- All rules of a listing. After the last one only blanks and comments may follow. -/
def read (s : List Char) : Except Fault (List Rule) := do
  let (found, rest) ← rules s
  match skip rest with
  | [] => .ok found
  | unread => .error ⟨[], unread⟩

/-! ## Whole texts -/

/-- The line on which the unread end of a text begins. -/
def lineOf (text unread : List Char) : Nat :=
  (text.take (text.length - unread.length)).count '\n' + 1

/-- Reads a listing, or says on which line it stops making sense. -/
def parse (text : String) : Except ParseError (List Rule) :=
  (read text.toList).mapError fun f => ⟨f.expected, lineOf text.toList f.unread⟩

/-- Why a listing gives no grammar. -/
inductive LoadError where
  | parse (error : ParseError)
  | defect (defect : Defect)
  deriving DecidableEq

namespace LoadError

def message : LoadError → String
  | .parse e => e.message
  | .defect d => d.message

end LoadError

/-- The grammar that a listing describes. -/
def load (text : String) : Except LoadError Grammar :=
  match parse text with
  | .error e => .error (.parse e)
  | .ok found => (Grammar.ofRules found).mapError .defect

end GameGrammar.Listing

import GameGrammar.Text.Class

/-! # Tokens of a listing

A listing is read from a list of characters. A reader of a token returns the token and the
text after it, or nothing. Blanks and comments are skipped between tokens; a comment runs
from two slashes to the end of its line. -/

namespace GameGrammar.Listing

/-! ## Blanks and comments -/

def isLineEnd (c : Char) : Bool :=
  c == '\n' || c == '\r'

/-- The text after two slashes, from the end of the line on. A carriage return ends a line
only together with a line feed; where it stands alone there is no comment. -/
def afterComment? (s : List Char) : Option (List Char) :=
  match s.dropWhile (!isLineEnd ·) with
  | '\r' :: '\n' :: rest => some ('\r' :: '\n' :: rest)
  | '\r' :: _ => none
  | rest => some rest

theorem afterComment?_length {s rest : List Char} (h : afterComment? s = some rest) :
    rest.length ≤ s.length := by
  have hd : (s.dropWhile (!isLineEnd ·)).length ≤ s.length :=
    (List.dropWhile_sublist _).length_le
  unfold afterComment? at h
  split at h
  · next he => cases h; rw [← he]; exact hd
  · cases h
  · cases h; exact hd

/-- The text after any blanks and comments. -/
def skip : List Char → List Char
  | '/' :: '/' :: s =>
    match h : afterComment? s with
    | some rest =>
      have := afterComment?_length h
      skip rest
    | none => '/' :: '/' :: s
  | c :: s => if Text.isBlank c then skip s else c :: s
  | [] => []
  termination_by s => s.length
  decreasing_by all_goals simp only [List.length_cons]; omega

theorem skip_length (s : List Char) : (skip s).length ≤ s.length := by
  fun_induction skip s with
  | case1 s rest h hl ih => simp only [List.length_cons]; omega
  | case2 s h => exact Nat.le_refl _
  | case3 c s _ hb ih => simp only [List.length_cons]; omega
  | case4 c s _ hb => exact Nat.le_refl _
  | case5 => exact Nat.le_refl _

/-! ## Words -/

/-- The longest non-empty front of the text in a class of characters, and the text after it. -/
def word? (inside : Char → Bool) (s : List Char) : Option (String × List Char) :=
  match s.takeWhile inside with
  | [] => none
  | c :: w => some (String.ofList (c :: w), s.dropWhile inside)

theorem word?_length {inside : Char → Bool} {s rest : List Char} {w : String}
    (h : word? inside s = some (w, rest)) : rest.length < s.length := by
  unfold word? at h
  split at h
  · cases h
  · next c cs he =>
    cases h
    have hs := congrArg List.length (List.takeWhile_append_dropWhile (p := inside) (l := s))
    rw [he] at hs
    simp only [List.length_append, List.length_cons] at hs
    omega

def isNameChar (c : Char) : Bool :=
  Text.isAlphanumeric c || c == '_' || c == '.'

/-- The characters that give a listing its shape inside an alternative. -/
def isPunctuation (c : Char) : Bool :=
  ['|', '(', ')', '[', ']', '{', '}'].contains c

def isTerminalChar (c : Char) : Bool :=
  !Text.isBlank c && !isPunctuation c

def isHeadChar (c : Char) : Bool :=
  !Text.isBlank c && c != '(' && c != ')'

def name? : List Char → Option (String × List Char) :=
  word? isNameChar

/-- A name between angle brackets, which belong to the token. -/
def delimited? : List Char → Option (String × List Char)
  | '<' :: s =>
    match name? s with
    | some (w, '>' :: rest) => some ("<" ++ w ++ ">", rest)
    | _ => none
  | _ => none

theorem delimited?_length {s rest : List Char} {w : String}
    (h : delimited? s = some (w, rest)) : rest.length < s.length := by
  unfold delimited? at h
  split at h
  · split at h
    · next hn =>
      cases h
      have := word?_length hn
      simp only [List.length_cons] at this ⊢
      omega
    · cases h
  · cases h

/-- A name, bare or delimited. -/
def symbol? (s : List Char) : Option (String × List Char) :=
  match delimited? s with
  | some found => some found
  | none => name? s

theorem symbol?_length {s rest : List Char} {w : String}
    (h : symbol? s = some (w, rest)) : rest.length < s.length := by
  unfold symbol? at h
  split at h
  · next hd => cases h; exact delimited?_length hd
  · exact word?_length h

end GameGrammar.Listing

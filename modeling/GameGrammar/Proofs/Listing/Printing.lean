import GameGrammar.Listing.Reader
import GameGrammar.Proofs.Listing.Layout

/-! # Listings as they are written

A list of rules is written as a sequence of words with room between them. The room may be filled
with blanks and comments at will. With a single space where a blank is needed and nothing
elsewhere, a rule without groups is written as it is rendered. -/

namespace GameGrammar

namespace Listing

/-! ## Names -/

/-- A run of name characters, one at least. -/
def IsName (w : String) : Prop :=
  w ≠ "" ∧ ∀ c ∈ w.toList, isNameChar c = true

/-- A name between angle brackets. -/
def IsDelimited (w : String) : Prop :=
  ∃ name, IsName name ∧ w = "<" ++ name ++ ">"

def IsSymbol (w : String) : Prop :=
  IsName w ∨ IsDelimited w

/-- A word that begins like a comment. -/
def BeginsComment (w : String) : Prop :=
  ['/', '/'] <+: w.toList

/-- A word that begins with a whole name between angle brackets. -/
def BeginsDelimited (w : String) : Prop :=
  ∃ name, IsName name ∧ ("<" ++ name ++ ">").toList <+: w.toList

/-! ## Groups -/

/-- The group numbers are those that a reader gives out from `next` on: a group is a block of at
least two neighbours, all of them optional or all required, and blocks are numbered in order. -/
inductive Grouped : (next : UInt32) → List Argument → Prop where
  | nil {next : UInt32} : Grouped next []
  | single {next : UInt32} {a : Argument} {rest : List Argument} (ha : a.group = 0)
      (h : Grouped next rest) : Grouped next (a :: rest)
  | block {next : UInt32} {members rest : List Argument} (hn : 0 < next)
      (hlen : 2 ≤ members.length) (hm : ∀ a ∈ members, a.group = next)
      (ho : (∀ a ∈ members, a.optional = true) ∨ ∀ a ∈ members, a.optional = false)
      (h : Grouped (next + 1) rest) : Grouped next (members ++ rest)

/-- Puts an argument in front of items: into the first one, if that is its group. -/
def attach (a : Argument) (found : List Item) : List Item :=
  if a.group = 0 then .single a :: found
  else
    match found with
    | .choice (b :: bs) :: rest =>
      if b.group = a.group then .choice (a :: b :: bs) :: rest else .choice [a] :: found
    | _ => .choice [a] :: found

theorem attach_single {a : Argument} (ha : a.group = 0) (found : List Item) :
    attach a found = .single a :: found := by
  unfold attach
  rw [if_pos ha]

theorem attach_same {a b : Argument} (ha : a.group ≠ 0) (hb : b.group = a.group)
    (bs : List Argument) (rest : List Item) :
    attach a (.choice (b :: bs) :: rest) = .choice (a :: b :: bs) :: rest := by
  unfold attach
  rw [if_neg ha]
  exact if_pos hb

theorem attach_new {a : Argument} (ha : a.group ≠ 0) {found : List Item}
    (hf : ∀ b bs rest, found = .choice (b :: bs) :: rest → b.group ≠ a.group) :
    attach a found = .choice [a] :: found := by
  unfold attach
  rw [if_neg ha]
  split
  · exact if_neg (hf _ _ _ rfl)
  · rfl

/-- The items of a form: neighbours of the same group are one item. -/
def gather : List Argument → List Item
  | [] => []
  | a :: rest => attach a (gather rest)

end Listing

open Listing

/-! ## Rules that can be written -/

/-- The token and the label of the argument are words of a listing. -/
def Argument.Writable (a : Argument) : Prop :=
  IsSymbol a.token ∧ ∀ l ∈ a.label, IsName l

/-- The alternative is read as what it is where it is written out. -/
def Clause.Writable : Clause → Prop
  | .terminal text => text ≠ "" ∧ (∀ c ∈ text.toList, isTerminalChar c = true) ∧
      ¬ BeginsComment text ∧ ¬ BeginsDelimited text
  | .reference target => IsDelimited target
  | .form head args => head ≠ "" ∧ (∀ c ∈ head.toList, isHeadChar c = true) ∧
      ¬ BeginsComment head ∧ (∀ a ∈ args, a.Writable) ∧ Grouped 1 args

structure Rule.Writable (r : Rule) : Prop where
  name : IsSymbol r.name
  nonempty : r.clauses ≠ []
  clauses : ∀ c ∈ r.clauses, c.Writable

namespace Listing

/-! ## Pieces of a listing -/

/-- A piece of a listing: a word, room that takes a blank, or room that may be left out. -/
inductive Piece where
  | word (w : String)
  | gap
  | pad

/-- The text consists of the words in order, with layout in the room between them. -/
def LaidOut : List Piece → List Char → Prop
  | [], text => text = []
  | .word w :: pieces, text => ∃ rest, text = w.toList ++ rest ∧ LaidOut pieces rest
  | .gap :: pieces, text => ∃ f rest, Layout f ∧ text = f ++ rest ∧ LaidOut pieces rest
  | .pad :: pieces, text => ∃ f rest, Pad f ∧ text = f ++ rest ∧ LaidOut pieces rest

def Piece.plain : Piece → String
  | .word w => w
  | .gap => " "
  | .pad => ""

/-- The text with single spaces where a blank is needed. -/
def plain (pieces : List Piece) : String :=
  String.join (pieces.map Piece.plain)

def opening : Nat → List Piece
  | 0 => []
  | n + 1 => .word "\x7b" :: .pad :: opening n

def ending : Nat → List Piece
  | 0 => []
  | n + 1 => .pad :: .word "\x7d" :: ending n

/-- The argument without brackets and without a number. -/
def argumentPieces (a : Argument) : List Piece :=
  (match a.label with
    | some l => [.word (l ++ ":")]
    | none => []) ++
  (opening a.nesting.toNat ++ .word a.token :: ending a.nesting.toNat)

/-- Arguments with bars between them. -/
def membersPieces : List Argument → List Piece
  | [] => []
  | [a] => argumentPieces a
  | a :: rest => argumentPieces a ++ .gap :: .word "|" :: .gap :: membersPieces rest

def bracketed (pieces : List Piece) : List Piece :=
  .word "[" :: .pad :: pieces ++ [.pad, .word "]"]

def parenthesized (pieces : List Piece) : List Piece :=
  .word "(" :: .pad :: pieces ++ [.pad, .word ")"]

/-- An item, in brackets if it is optional; required alternatives stand in parentheses. -/
def itemPieces : Item → List Piece
  | .single a => if a.optional then bracketed (argumentPieces a) else argumentPieces a
  | .choice members =>
    if members.all (·.optional) then bracketed (membersPieces members)
    else parenthesized (membersPieces members)

def itemsPieces : List Item → List Piece
  | [] => []
  | i :: rest => .gap :: itemPieces i ++ itemsPieces rest

def clausePieces : Clause → List Piece
  | .terminal text => [.word text]
  | .reference target => [.word target]
  | .form head args => parenthesized (.word head :: itemsPieces (gather args))

/-- Alternatives with bars between them. -/
def alternativesPieces : List Clause → List Piece
  | [] => []
  | [c] => .gap :: clausePieces c
  | c :: rest => .gap :: clausePieces c ++ .gap :: .word "|" :: alternativesPieces rest

def rulePieces (r : Rule) : List Piece :=
  .word r.name :: .gap :: .word "::=" :: alternativesPieces r.clauses

/-- Rules one after another. -/
def rulesPieces : List Rule → List Piece
  | [] => []
  | [r] => rulePieces r
  | r :: rest => rulePieces r ++ .gap :: rulesPieces rest

/-- A text in front of a split one joins the first part. -/
theorem split_append {P X Y : List Char → Prop} {text : List Char} :
    (∃ f rest, P f ∧ text = f ++ rest ∧ ∃ s t, rest = s ++ t ∧ X s ∧ Y t) ↔
      ∃ s t, text = s ++ t ∧ (∃ f rest, P f ∧ s = f ++ rest ∧ X rest) ∧ Y t := by
  constructor
  · rintro ⟨f, _, hf, rfl, s, t, rfl, hs, ht⟩
    exact ⟨f ++ s, t, by simp, ⟨f, s, hf, rfl, hs⟩, ht⟩
  · rintro ⟨_, t, rfl, ⟨f, s, hf, rfl, hs⟩, ht⟩
    exact ⟨f, s ++ t, hf, by simp, s, t, rfl, hs, ht⟩

theorem laidOut_append {x y : List Piece} {text : List Char} :
    LaidOut (x ++ y) text ↔ ∃ s t, text = s ++ t ∧ LaidOut x s ∧ LaidOut y t := by
  induction x generalizing text with
  | nil =>
      constructor
      · intro h
        exact ⟨[], text, rfl, rfl, h⟩
      · rintro ⟨s, t, rfl, rfl, h⟩
        exact h
  | cons p x ih =>
      cases p with
      | word w =>
          simp only [List.cons_append, LaidOut, ih]
          simpa only [exists_and_left, exists_eq_left] using
            split_append (P := (· = w.toList)) (X := LaidOut x) (Y := LaidOut y)
      | gap =>
          simp only [List.cons_append, LaidOut, ih]
          exact split_append
      | pad =>
          simp only [List.cons_append, LaidOut, ih]
          exact split_append

/-! ## Plain text -/

@[simp] theorem plain_nil : plain [] = "" :=
  rfl

@[simp] theorem plain_cons (p : Piece) (pieces : List Piece) :
    plain (p :: pieces) = p.plain ++ plain pieces := by
  simp [plain]

@[simp] theorem plain_append (x y : List Piece) : plain (x ++ y) = plain x ++ plain y := by
  simp [plain]

/-- A single space is layout, and nothing at all is a pad. -/
theorem laidOut_plain (pieces : List Piece) : LaidOut pieces (plain pieces).toList := by
  induction pieces with
  | nil => rfl
  | cons p pieces ih =>
      rw [plain_cons, String.toList_append]
      cases p with
      | word w => exact ⟨_, rfl, ih⟩
      | gap => exact ⟨[' '], _, ⟨.blank rfl .nil, ' ', [], rfl, rfl⟩, rfl, ih⟩
      | pad => exact ⟨[], _, .inl rfl, rfl, ih⟩

theorem repeated_succ (c : Char) (n : Nat) :
    repeated c (n + 1) = String.ofList [c] ++ repeated c n := by
  rw [repeated, List.replicate_succ, ← List.singleton_append, String.ofList_append]
  rfl

theorem plain_opening (n : Nat) : plain (opening n) = repeated '{' n := by
  induction n with
  | zero => rfl
  | succ n ih =>
      rw [repeated_succ, opening, plain_cons, plain_cons, ih]
      simp [Piece.plain]

theorem plain_ending (n : Nat) : plain (ending n) = repeated '}' n := by
  induction n with
  | zero => rfl
  | succ n ih =>
      rw [repeated_succ, ending, plain_cons, plain_cons, ih]
      simp [Piece.plain]

theorem plain_itemPieces (a : Argument) : plain (itemPieces (.single a)) = a.render := by
  unfold Argument.render
  simp only [itemPieces, argumentPieces]
  cases a.label with
  | none =>
      split
      · simp [bracketed, Piece.plain, plain_opening, plain_ending, String.append_assoc]
      · simp [Piece.plain, plain_opening, plain_ending, String.append_assoc]
  | some l =>
      split
      · simp [bracketed, Piece.plain, plain_opening, plain_ending, String.append_assoc]
      · simp [Piece.plain, plain_opening, plain_ending, String.append_assoc]

theorem gather_of_ungrouped {args : List Argument} (h : ∀ a ∈ args, a.group = 0) :
    gather args = args.map .single := by
  induction args with
  | nil => rfl
  | cons a args ih =>
      rw [gather, ih fun b hb => h b (List.mem_cons_of_mem a hb),
        attach_single (h a List.mem_cons_self)]
      rfl

theorem plain_itemsPieces {args : List Argument} (h : ∀ a ∈ args, a.group = 0) :
    plain (itemsPieces (args.map .single)) =
      String.join (args.map fun a => " " ++ a.renderNumbered) := by
  induction args with
  | nil => rfl
  | cons a args ih =>
      have ha : a.renderNumbered = a.render := if_pos (h a List.mem_cons_self)
      have htail := ih fun b hb => h b (List.mem_cons_of_mem a hb)
      simp [itemsPieces, plain_itemPieces, ha, htail, Piece.plain, String.append_assoc]

theorem plain_clausePieces {c : Clause} (h : ∀ a ∈ c.args, a.group = 0) :
    plain (clausePieces c) = c.render := by
  cases c with
  | terminal text => simp [clausePieces, Clause.render, Piece.plain]
  | reference target => simp [clausePieces, Clause.render, Piece.plain]
  | form head args =>
      have h : ∀ a ∈ args, a.group = 0 := h
      simp [clausePieces, Clause.render, parenthesized, gather_of_ungrouped h,
        plain_itemsPieces h, Piece.plain, String.append_assoc]

theorem plain_alternativesPieces {clauses : List Clause}
    (h : ∀ c ∈ clauses, ∀ a ∈ c.args, a.group = 0) :
    plain (alternativesPieces clauses) =
      " |".intercalate (clauses.map fun c => " " ++ c.render) := by
  induction clauses with
  | nil => rfl
  | cons c clauses ih =>
      have hc := plain_clausePieces (h c List.mem_cons_self)
      have htail := ih fun d hd => h d (List.mem_cons_of_mem c hd)
      cases clauses with
      | nil => simp [alternativesPieces, hc, Piece.plain]
      | cons d rest =>
          have hbar (text : String) : " " ++ ("|" ++ text) = " |" ++ text := by
            rw [← String.append_assoc]
            rfl
          rw [List.map_cons] at htail
          rw [List.map_cons, List.map_cons, String.intercalate_cons_cons, ← htail]
          simp [alternativesPieces, hc, Piece.plain, hbar, String.append_assoc]

/-- A rule without groups is laid out plainly as it is rendered. -/
theorem plain_rulePieces {r : Rule} (h : ∀ c ∈ r.clauses, ∀ a ∈ c.args, a.group = 0) :
    plain (rulePieces r) = r.render := by
  simp only [rulePieces, Rule.render, plain_cons, plain_alternativesPieces h, Piece.plain,
    String.append_assoc]
  rfl

end Listing

end GameGrammar

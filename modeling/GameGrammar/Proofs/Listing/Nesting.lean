import GameGrammar.Proofs.Completion.Nesting
import GameGrammar.Proofs.Listing.Normal

/-! # Brackets of texts from listings

A listing keeps parentheses out of every word and braces out of every word but the heads of forms.
What is generated from it therefore has matching parentheses, and its braces match as far as those
in its heads do. -/

namespace GameGrammar

open Text Listing

/-! ## Heads of a text -/

namespace Text

/-- The words behind the opening parentheses of a text. -/
def heads : List Char → List (List Char)
  | [] => []
  | c :: text => if c = '(' then text.takeWhile isHeadChar :: heads text else heads text

theorem heads_append {x y : List Char} (hy : Stops isHeadChar y) :
    heads (x ++ y) = heads x ++ heads y := by
  induction x with
  | nil => rfl
  | cons c x ih =>
      rw [List.cons_append, heads, heads, takeWhile_append_stops hy, ih]
      by_cases hc : c = '('
      · rw [if_pos hc, if_pos hc, List.cons_append]
      · rw [if_neg hc, if_neg hc]

theorem heads_unopened_append {x : List Char} (hx : '(' ∉ x) (y : List Char) :
    heads (x ++ y) = heads y := by
  induction x with
  | nil => rfl
  | cons c x ih =>
      rw [List.mem_cons, not_or] at hx
      rw [List.cons_append, heads, if_neg (Ne.symm hx.1), ih hx.2]

theorem heads_form {head after : List Char} (hh : ∀ c ∈ head, isHeadChar c = true)
    (ha : Stops isHeadChar after) : heads ('(' :: (head ++ after)) = head :: heads after := by
  have hno : '(' ∉ head := fun hm => by cases hh _ hm
  rw [heads, if_pos rfl, takeWhile_word hh ha, heads_unopened_append hno]

/-- A text whose brackets match exactly if those of its heads do. Where they match as a part of some
larger text, its heads are nested and the brackets around it stay as they are. -/
structure Headed (text : List Char) : Prop where
  of_read : ∀ opened after, readBrackets opened text = some after →
    after = opened ∧ ∀ head ∈ heads text, Nested head
  nested : (∀ head ∈ heads text, Nested head) → Nested text

theorem Headed.nested_iff {text : List Char} (h : Headed text) :
    Nested text ↔ ∀ head ∈ heads text, Nested head :=
  ⟨fun hn => (h.of_read [] [] hn).2, h.nested⟩

theorem Headed.of_plain {text : List Char} (h : ∀ c ∈ text, isPlain c = true) : Headed text := by
  have hnested : Nested text := .of_plain h
  have hno : '(' ∉ text := fun hm => by cases h _ hm
  have hheads : heads text = [] := by simpa [heads] using heads_unopened_append hno []
  refine ⟨fun opened after hread => ?_, fun _ => hnested⟩
  rw [hnested.read] at hread
  cases hread
  exact ⟨rfl, by simp [hheads]⟩

theorem Headed.append {x y : List Char} (hx : Headed x) (hy : Headed y)
    (hs : Stops isHeadChar y) : Headed (x ++ y) := by
  constructor
  · intro opened after hread
    obtain ⟨middle, hfirst, hsecond⟩ := readBrackets_append_eq_some.mp hread
    obtain ⟨rfl, hxs⟩ := hx.of_read _ _ hfirst
    obtain ⟨rfl, hys⟩ := hy.of_read _ _ hsecond
    rw [heads_append hs]
    exact ⟨rfl, fun head hm => (List.mem_append.mp hm).elim (hxs head) (hys head)⟩
  · intro hall
    rw [heads_append hs] at hall
    obtain ⟨hxs, hys⟩ := List.forall_mem_append.mp hall
    exact (hx.nested hxs).append (hy.nested hys)

theorem Headed.plain_append {x y : List Char} (hx : ∀ c ∈ x, isPlain c = true) (hy : Headed y) :
    Headed (x ++ y) := by
  have hno : '(' ∉ x := fun hm => by cases hx _ hm
  have hnested : Nested x := .of_plain hx
  constructor
  · intro opened after hread
    rw [readBrackets_append, hnested.read] at hread
    rw [heads_unopened_append hno]
    exact hy.of_read _ _ hread
  · intro hall
    rw [heads_unopened_append hno] at hall
    exact hnested.append (hy.nested hall)

/-- Braces go with what is between them, as the closing one cannot belong to a head. -/
theorem Headed.braced {text : List Char} (h : Headed text) :
    Headed ('{' :: (text ++ [' ', '}'])) := by
  have hstops : Stops isHeadChar [' ', '}'] := by
    intro c hc
    cases hc
    rfl
  have hheads : heads ('{' :: (text ++ [' ', '}'])) = heads text := by
    have hend : heads [' ', '}'] = [] := rfl
    rw [heads, if_neg (by decide), heads_append hstops, hend, List.append_nil]
  constructor
  · intro opened after hread
    rw [hheads]
    rw [readBrackets_opening (.inr rfl)] at hread
    obtain ⟨_, hinner, hcloses⟩ := readBrackets_append_eq_some.mp hread
    obtain ⟨rfl, hall⟩ := h.of_read _ _ hinner
    cases hcloses
    exact ⟨rfl, hall⟩
  · intro hall
    rw [hheads] at hall
    have hblank : Nested [' '] := by decide
    simpa using ((h.nested hall).append hblank).braced

/-- A form adds its own head. The parenthesis in front of it is closed by the one at its end, so
that a brace of the head cannot stay open. -/
theorem Headed.form {head args : List Char} (hh : ∀ c ∈ head, isHeadChar c = true)
    (ha : Headed args) (hs : Stops isHeadChar args) :
    Headed ('(' :: (head ++ (args ++ [')']))) := by
  have hstops : Stops isHeadChar (args ++ [')']) := by
    cases args with
    | nil =>
        intro c hc
        cases hc
        rfl
    | cons d args => exact hs
  have hend : Stops isHeadChar [')'] := by
    intro c hc
    cases hc
    rfl
  have hheads : heads ('(' :: (head ++ (args ++ [')']))) = head :: heads args := by
    have hlast : heads [')'] = [] := rfl
    rw [heads_form hh hstops, heads_append hend, hlast, List.append_nil]
  constructor
  · intro opened after hread
    rw [hheads]
    rw [readBrackets_opening (.inl rfl)] at hread
    obtain ⟨_, hhead, hread⟩ := readBrackets_append_eq_some.mp hread
    obtain ⟨_, hargs, hcloses⟩ := readBrackets_append_eq_some.mp hread
    obtain ⟨rfl, hall⟩ := ha.of_read _ _ hargs
    have hno : '(' ∉ head := fun hm => by cases hh _ hm
    have hnc : ')' ∉ head := fun hm => by cases hh _ hm
    have hbelow : readBrackets ([] ++ '(' :: opened) head = some _ := hhead
    obtain ⟨left, hleft, rfl, hown⟩ := readBrackets_above hno hnc List.not_mem_nil hbelow
    -- the closing parenthesis meets the latest of what the head has left open
    cases left with
    | nil =>
        cases hcloses
        exact ⟨rfl, List.forall_mem_cons.mpr ⟨hown, hall⟩⟩
    | cons latest left =>
        have hl : latest ≠ '(' := fun he => hleft (he ▸ List.mem_cons_self)
        rw [List.cons_append] at hcloses
        change (closeLatest '(' (latest :: (left ++ '(' :: opened))).bind _ = _ at hcloses
        rw [closeLatest, if_neg hl] at hcloses
        cases hcloses
  · intro hall
    rw [hheads] at hall
    obtain ⟨hown, hothers⟩ := List.forall_mem_cons.mp hall
    have hinner : Nested (head ++ args) := Nested.append hown (ha.nested hothers)
    simpa using hinner.parenthesized

/-- The character is a parenthesis, open or closed. -/
def isParenthesis (c : Char) : Bool :=
  c == '(' || c == ')'

theorem filter_isParenthesis_eq_nil {text : List Char}
    (h : ∀ c ∈ text, isParenthesis c = false) : text.filter isParenthesis = [] :=
  List.filter_eq_nil_iff.mpr fun c hc => by simp [h c hc]

end Text

/-! ## Words of a listing -/

/-- A word without brackets. -/
def Unbracketed (text : String) : Prop :=
  ∀ c ∈ text.toList, isPlain c = true

/-- A word that can be the head of a form in a listing. -/
def HeadWord (text : String) : Prop :=
  ∀ c ∈ text.toList, isHeadChar c = true

theorem Unbracketed.filter_isParenthesis {text : String} (h : Unbracketed text) :
    text.toList.filter isParenthesis = [] := by
  refine filter_isParenthesis_eq_nil fun c hc => ?_
  have hplain := h c hc
  simp_all [isPlain, isParenthesis]

theorem HeadWord.filter_isParenthesis {text : String} (h : HeadWord text) :
    text.toList.filter isParenthesis = [] := by
  refine filter_isParenthesis_eq_nil fun c hc => ?_
  have hhead := h c hc
  simp_all [isHeadChar, isParenthesis]

namespace Listing

theorem isPlain_of_isTerminalChar {c : Char} (h : isTerminalChar c = true) :
    isPlain c = true := by
  have hne (bracket : Char) (hb : isTerminalChar bracket = false) : c ≠ bracket := by
    rintro rfl
    rw [hb] at h
    cases h
  simp [isPlain, hne '(' rfl, hne ')' rfl, hne '{' rfl, hne '}' rfl]

theorem isTerminalChar_of_isNameChar {c : Char} (h : isNameChar c = true) :
    isTerminalChar c = true := by
  have hall : ∀ d ∈ ['|', '(', ')', '[', ']', '{', '}'], isNameChar d = false := by decide
  have hno : isPunctuation c = false := by
    by_contra hp
    rw [Bool.not_eq_false] at hp
    have hmem : c ∈ ['|', '(', ')', '[', ']', '{', '}'] := List.contains_iff_mem.mp hp
    rw [hall c hmem] at h
    cases h
  simp [isTerminalChar, isBlank_of_isNameChar h, hno]

end Listing

theorem Clause.Normal.madeOf {c : Clause} (h : c.Normal) : c.MadeOf Unbracketed HeadWord := by
  cases c with
  | terminal text => exact fun d hd => isPlain_of_isTerminalChar (h.2.1 d hd)
  | reference target => trivial
  | form head args =>
      obtain ⟨-, hhead, hargs, -⟩ := h
      refine ⟨hhead, fun a ha d hd => ?_⟩
      unfold Completion.labelText at hd
      split at hd
      · next l hl =>
          rw [String.toList_append, List.mem_append] at hd
          rcases hd with hd | hd
          · have hname := ((hargs a ha).2 l hl).2 d hd
            exact isPlain_of_isTerminalChar (isTerminalChar_of_isNameChar hname)
          · obtain rfl : d = ':' := by simpa using hd
            rfl
      · simp at hd

theorem Unbracketed.matching {text : String} (h : Unbracketed text) : Matching text :=
  .of_plain h

theorem Clause.MadeOf.matching {c : Clause} (h : c.MadeOf Unbracketed HeadWord)
    (hhead : ∀ head args, c = .form head args → Matching head) : c.MadeOf Matching Matching := by
  cases c with
  | terminal text => exact Unbracketed.matching h
  | reference target => trivial
  | form head args => exact ⟨hhead head args rfl, fun a ha => (h.2 a ha).matching⟩

theorem Listing.load_madeOf {text : String} {g : Grammar} (h : load text = .ok g) :
    g.MadeOf Unbracketed HeadWord :=
  fun r hr c hc => ((parse_normal (parse_of_load h) r hr).1.clauses c hc).madeOf

/-! ## Texts of a listing -/

namespace Completion

theorem Bare.unbracketed {text : String} (h : Bare text) : Unbracketed text :=
  fun c hc => isPlain_of_isBare (h c hc)

theorem compositional_headed : Compositional Unbracketed HeadWord (fun t => Headed t.toList)
    (fun t => Headed t.toList ∧ Stops isHeadChar t.toList) where
  bare _ ht := ht.unbracketed
  ofWord _ ht := .of_plain ht
  nil := ⟨.of_plain (by simp), by simp [Stops]⟩
  cons l v t hl hv ht := by
    have hfront : ∀ c ∈ ' ' :: l.toList, isPlain c = true :=
      List.forall_mem_cons.mpr ⟨rfl, hl⟩
    have htext : (" " ++ l ++ v ++ t).toList = (' ' :: l.toList) ++ (v.toList ++ t.toList) := by
      simp
    rw [htext]
    refine ⟨.plain_append hfront (hv.append ht.1 ht.2), ?_⟩
    intro c hc
    cases hc
    rfl
  braces t ht := by
    simpa using ht.1.braced
  form h t hh ht := by
    simpa using ht.1.form hh ht.2

/-- Neither the words of a listing nor its heads have parentheses. -/
theorem compositional_parentheses : Compositional Unbracketed HeadWord
    (fun t => Nested (t.toList.filter isParenthesis))
    (fun t => Nested (t.toList.filter isParenthesis)) where
  bare _ ht := ht.unbracketed
  ofWord t ht := by
    rw [ht.filter_isParenthesis]
    rfl
  nil := rfl
  cons l v t hl hv ht := by
    have htext : (" " ++ l ++ v ++ t).toList.filter isParenthesis =
        v.toList.filter isParenthesis ++ t.toList.filter isParenthesis := by
      simp [hl.filter_isParenthesis, isParenthesis]
    rw [htext]
    exact hv.append ht
  braces t ht := by
    have htext : ("\x7b" ++ t ++ " \x7d").toList.filter isParenthesis =
        t.toList.filter isParenthesis := by
      simp [isParenthesis]
    rw [htext]
    exact ht
  form h t hh ht := by
    have htext : ("(" ++ h ++ t ++ ")").toList.filter isParenthesis =
        '(' :: (t.toList.filter isParenthesis ++ [')']) := by
      simp [hh.filter_isParenthesis, isParenthesis]
    rw [htext]
    exact ht.parenthesized

end Completion

namespace Listing

/-- The parentheses of a text generated from a listing match, and so do braces that are not part of
a head. All brackets match exactly where those of each head in the text do, and always if those of
each head of the listing do. -/
theorem generated_matching_iff {listing : String} {g : Grammar} (hg : load listing = .ok g)
    {σ : Type} {p : Policy σ} {symbol : String} {seed : UInt64} {s s' : σ} {text : String}
    (h : g.generate p symbol seed s = (.ok (some text), s')) :
    Nested (text.toList.filter isParenthesis) ∧
      (Matching text ↔ ∀ head ∈ heads text.toList, Nested head) ∧
      ((∀ r ∈ g.rules, ∀ head args, .form head args ∈ r.clauses → Matching head) →
        Matching text) := by
  refine ⟨?_, ?_, fun hheads => ?_⟩
  · exact Grammar.generate_composed Completion.compositional_parentheses (load_madeOf hg) h
  · exact (Grammar.generate_composed Completion.compositional_headed (load_madeOf hg) h).nested_iff
  · have hmade : g.MadeOf Matching Matching := by
      intro r hr c hc
      apply (load_madeOf hg r hr c hc).matching
      rintro head args rfl
      exact hheads r hr head args hc
    exact Grammar.generate_composed Completion.compositional_matching hmade h

theorem generated_matching_iff_braces :
    ∃ g, load "<a> ::= (f\x7b\x7d g:\x7bint\x7d)" = .ok g ∧
      (g.generate (FixedAnswers.policy {}) "a" 0 ()).1 = .ok (some "(f\x7b\x7d g:\x7b int \x7d)") ∧
      Matching "(f\x7b\x7d g:\x7b int \x7d)" := by
  let g : Grammar := ⟨[⟨"<a>", [.form "f\x7b\x7d" [
    { token := "int", label := some "g", nesting := 1 }]]⟩], by decide⟩
  have hload : load "<a> ::= (f\x7b\x7d g:\x7bint\x7d)" = .ok g := by with_unfolding_all rfl
  have ht : (g.generate (FixedAnswers.policy {}) "a" 0 ()).1 =
      .ok (some "(f\x7b\x7d g:\x7b int \x7d)") := by
    with_unfolding_all rfl
  refine ⟨g, hload, ht, (generated_matching_iff hload (Prod.ext ht rfl)).2.2 ?_⟩
  intro r hr head args hc
  simp only [g, List.mem_singleton] at hr
  subst hr
  simp only [List.mem_singleton, Clause.form.injEq] at hc
  rw [hc.1]
  decide

/-- A brace in a head of a listing is a brace in the text. -/
theorem brace_of_head_open :
    ∃ g, load "<a> ::= (x\x7b)" = .ok g ∧
      (g.generate (FixedAnswers.policy {}) "a" 0 ()).1 = .ok (some "(x\x7b)") ∧
      ¬ Matching "(x\x7b)" := by
  have hload : load "<a> ::= (x\x7b)" = .ok ⟨[⟨"<a>", [.form "x\x7b" []]⟩], by decide⟩ := by
    with_unfolding_all rfl
  exact ⟨_, hload, by with_unfolding_all rfl, by decide⟩

end Listing

end GameGrammar

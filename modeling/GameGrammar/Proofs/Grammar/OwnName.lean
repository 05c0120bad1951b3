import GameGrammar.Proofs.Grammar.Build
import GameGrammar.Proofs.Grammar.Resolve
import GameGrammar.Proofs.Text.Case

/-! # Rules under their own names

A name is looked up with its first character in lower case. A rule whose name begins with a capital
is therefore found by the way of the local names at best, where full stops and rules with the
lowered name stand in its way. -/

namespace GameGrammar

/-! ## Delimiters -/

/-- The name without one trailing `>`. -/
def unclosed (name : List Char) : List Char :=
  match name.getLast? with
  | some '>' => name.dropLast
  | _ => name

theorem unclosed_concat (name : List Char) (last : Char) :
    unclosed (name ++ [last]) = if last = '>' then name else name ++ [last] := by
  unfold unclosed
  rw [List.getLast?_concat]
  by_cases hlast : last = '>'
  · rw [if_pos hlast, hlast]
    exact List.dropLast_concat
  · rw [if_neg hlast]
    split
    · next h => exact absurd (Option.some.inj h) hlast
    · rfl

theorem unclosed_cons {c : Char} (hc : c ≠ '>') (name : List Char) :
    unclosed (c :: name) = c :: unclosed name := by
  rcases List.eq_nil_or_concat name with rfl | ⟨front, last, rfl⟩
  · exact (unclosed_concat [] c).trans (if_neg hc)
  · rw [List.concat_eq_append, ← List.cons_append, unclosed_concat, unclosed_concat]
    split <;> rfl

theorem unclosed_append {front : List Char} (hf : '>' ∉ front) (name : List Char) :
    unclosed (front ++ name) = front ++ unclosed name := by
  induction front with
  | nil => rfl
  | cons c front ih =>
      rw [List.mem_cons, not_or] at hf
      rw [List.cons_append, unclosed_cons (Ne.symm hf.1), ih hf.2, List.cons_append]

theorem mem_unclosed {c : Char} (hc : c ≠ '>') {name : List Char} :
    c ∈ unclosed name ↔ c ∈ name := by
  rcases List.eq_nil_or_concat name with rfl | ⟨front, last, rfl⟩
  · rfl
  · rw [List.concat_eq_append, unclosed_concat]
    split
    · next hlast => simp [hlast, hc]
    · rfl

/-- A front without delimiters stays as it is. -/
theorem undelimited_append {front : List Char} (hne : front ≠ []) (ho : '<' ∉ front)
    (hc : '>' ∉ front) (name : List Char) :
    undelimited (front ++ name) = front ++ unclosed name := by
  rw [← unclosed_append hc]
  cases front with
  | nil => exact absurd rfl hne
  | cons c front =>
      have hfirst : c ≠ '<' := fun h => ho (h ▸ List.mem_cons_self)
      unfold undelimited
      split
      · next rest h => exact absurd (List.cons.inj h).1 hfirst
      · rfl

/-! ## Local names -/

theorem localName_eq_self {name : List Char} (h : '.' ∉ name) : localName name = name := by
  have hall : ∀ c ∈ name.reverse, (c != '.') = true := by
    intro c hc
    rw [bne_iff_ne]
    rintro rfl
    exact h (List.mem_reverse.mp hc)
  rw [localName, List.takeWhile_eq_self_iff.mpr hall, List.reverse_reverse]

theorem length_localName_lt {name : List Char} (h : '.' ∈ name) :
    (localName name).length < name.length := by
  have hfront := List.takeWhile_prefix (l := name.reverse) (· != '.')
  rw [localName, List.length_reverse, ← @List.length_reverse _ name]
  refine Nat.lt_of_le_of_ne hfront.length_le fun hlen => ?_
  have hall := List.takeWhile_eq_self_iff.mp (hfront.eq_of_length hlen)
  simpa using hall '.' (List.mem_reverse.mpr h)

/-- The local name of a name is compared with the whole lowered name. They are the same letters if
there is no full stop and the first character is lowered as letters from A to Z are. -/
theorem sameLetters_localName_iff {c : Char} {rest : List Char} :
    Text.sameLetters (localName (c :: rest)) (Text.lowerChar c ++ rest) = true ↔
      '.' ∉ c :: rest ∧ (Text.lowerChar c = [c] ∨ c.isUpper = true) := by
  by_cases hstop : '.' ∈ c :: rest
  · refine iff_of_false (fun h => ?_) fun h => h.1 hstop
    have hlen := Text.length_eq_of_sameLetters h
    have hshort := length_localName_lt hstop
    have hpos := List.length_pos_of_ne_nil (Text.lowerChar_ne_nil c)
    simp only [List.length_append, List.length_cons] at hlen hshort
    omega
  · rw [localName_eq_self hstop, show c :: rest = [c] ++ rest from rfl,
      Text.sameLetters_append_right, Text.sameLetters_lowerChar_iff]
    exact (and_iff_right hstop).symm

/-! ## Lowered names -/

/-- The name with its first character in lower case. -/
def lowered (name : String) : String :=
  String.ofList (Text.lowerFirst name.toList)

theorem toList_of_lowered_ne {name : String} (h : lowered name ≠ name) :
    ∃ c rest, name.toList = c :: rest ∧ Text.lowerChar c ≠ [c] := by
  cases hname : name.toList with
  | nil =>
      refine absurd ?_ h
      rw [lowered, hname, ← String.toList_inj, hname]
      rfl
  | cons c rest =>
      refine ⟨c, rest, rfl, fun hc => h ?_⟩
      rw [lowered, hname, Text.lowerFirst, hc]
      exact (congrArg String.ofList hname.symm).trans String.ofList_toList

theorem lowered_ne_of_isUpper {name : String} (h : ∃ c ∈ name.toList.head?, c.isUpper = true) :
    lowered name ≠ name := by
  obtain ⟨c, hc, hupper⟩ := h
  obtain ⟨rest, hname⟩ := List.head?_eq_some_iff.mp hc
  intro hsame
  rw [lowered, ← String.toList_inj, String.toList_ofList, hname, Text.lowerFirst,
    Text.lowerChar_of_isUpper hupper] at hsame
  have hlower : c.isLower = true := by
    rw [← (List.cons.inj hsame).1, Char.isLower_toLower_eq_isAlpha, Char.isAlpha, hupper]
    rfl
  exact Char.not_isUpper_of_isLower hlower hupper

/-- Whether a rule that is not called by its lowered name answers to that name all the same. -/
theorem Rule.answersTo_lowered_iff {r : Rule} (h : lowered r.name ≠ r.name) :
    r.answersTo (undelimited (Text.lowerFirst r.name.toList)) = true ↔
      (∃ c ∈ r.name.toList.head?, c.isUpper = true) ∧ '.' ∉ r.name.toList := by
  obtain ⟨c, rest, hname, hc⟩ := toList_of_lowered_ne h
  have hopen : c ≠ '<' := by
    rintro rfl
    exact hc (by decide)
  have hclose : c ≠ '>' := by
    rintro rfl
    exact hc (by decide)
  have hrule : undelimited (c :: rest) = c :: unclosed rest :=
    @undelimited_append [c] (List.cons_ne_nil _ _) (by simpa using hopen.symm)
      (by simpa using hclose.symm) rest
  have hwanted : undelimited (Text.lowerChar c ++ rest) = Text.lowerChar c ++ unclosed rest :=
    undelimited_append (Text.lowerChar_ne_nil c)
      (Text.delimiter_not_mem_lowerChar (.inl rfl) hopen)
      (Text.delimiter_not_mem_lowerChar (.inr rfl) hclose) rest
  have hstop : '.' ∈ c :: unclosed rest ↔ '.' ∈ c :: rest := by
    rw [List.mem_cons, List.mem_cons, mem_unclosed (by decide)]
  rw [answersTo, hname, Text.lowerFirst, hrule, hwanted, sameLetters_localName_iff, hstop,
    or_iff_right hc]
  simp [and_comm]

namespace Grammar

/-! ## The three steps of resolution -/

section

variable {g : Grammar} {name : String}

theorem rule?_eq_none_iff : g.rule? name = none ↔ ∀ other ∈ g.rules, other.name ≠ name := by
  simp [rule?]

theorem resolve_of_bare (hname : name ≠ "") {found : Rule}
    (h : g.rule? (lowered name) = some found) : g.resolve name = [found] := by
  rw [lowered] at h
  simp only [resolve, if_neg hname, h]

theorem ofList_delimited (name : String) :
    String.ofList ('<' :: Text.lowerFirst name.toList ++ ['>']) = "<" ++ lowered name ++ ">" := by
  simp [← String.toList_inj, lowered]

theorem resolve_of_delimited (hname : name ≠ "") (hbare : g.rule? (lowered name) = none)
    {found : Rule} (h : g.rule? ("<" ++ lowered name ++ ">") = some found) :
    g.resolve name = [found] := by
  rw [lowered] at hbare
  rw [← ofList_delimited] at h
  simp only [resolve, if_neg hname, hbare, h]

theorem resolve_of_local (hname : name ≠ "") (hbare : g.rule? (lowered name) = none)
    (hdelimited : g.rule? ("<" ++ lowered name ++ ">") = none) :
    g.resolve name =
      g.rules.filter (Rule.answersTo (undelimited (Text.lowerFirst name.toList))) := by
  rw [lowered] at hbare
  rw [← ofList_delimited] at hdelimited
  simp only [resolve, if_neg hname, hbare, hdelimited]

end

/-! ## Resolution of a rule's own name -/

variable {g : Grammar} {r : Rule}

/-- A rule whose name is its own lowered form is found, and nothing else. -/
theorem resolve_name_of_lowered_eq (hr : r ∈ g.rules) (h : lowered r.name = r.name) :
    g.resolve r.name = [r] :=
  resolve_of_bare (g.wellFormed.sound r hr).named ((g.indexed _ r).mpr ⟨hr, h.symm⟩)

/-- Any other rule is found if no rule is called by its lowered name and it answers to that
name. -/
theorem mem_resolve_name_of_lowered_ne (hr : r ∈ g.rules) (h : lowered r.name ≠ r.name) :
    r ∈ g.resolve r.name ↔
      r.answersTo (undelimited (Text.lowerFirst r.name.toList)) = true ∧
        ∀ other ∈ g.rules,
          other.name ≠ lowered r.name ∧ other.name ≠ "<" ++ lowered r.name ++ ">" := by
  have hname := (g.wellFormed.sound r hr).named
  have hopen : r.name ≠ "<" ++ lowered r.name ++ ">" := by
    intro hsame
    obtain ⟨c, rest, hlist, hc⟩ := toList_of_lowered_ne h
    rw [hsame, String.toList_append, String.toList_append] at hlist
    obtain rfl : '<' = c := (List.cons.inj hlist).1
    exact hc (by decide)
  cases hbare : g.rule? (lowered r.name) with
  | some found =>
      obtain ⟨hmem, hfound⟩ := (g.indexed _ _).mp hbare
      rw [resolve_of_bare hname hbare, List.mem_singleton]
      exact iff_of_false (fun heq => h (heq ▸ hfound.symm)) fun hnone =>
        (hnone.2 found hmem).1 hfound
  | none =>
      cases hdelimited : g.rule? ("<" ++ lowered r.name ++ ">") with
      | some found =>
          obtain ⟨hmem, hfound⟩ := (g.indexed _ _).mp hdelimited
          rw [resolve_of_delimited hname hbare hdelimited, List.mem_singleton]
          exact iff_of_false (fun heq => hopen (heq ▸ hfound)) fun hnone =>
            (hnone.2 found hmem).2 hfound
      | none =>
          have hothers : ∀ other ∈ g.rules,
              other.name ≠ lowered r.name ∧ other.name ≠ "<" ++ lowered r.name ++ ">" :=
            fun other ho =>
              ⟨rule?_eq_none_iff.mp hbare other ho, rule?_eq_none_iff.mp hdelimited other ho⟩
          rw [resolve_of_local hname hbare hdelimited, List.mem_filter]
          exact ⟨fun h => ⟨h.2, hothers⟩, fun h => ⟨hr, h.1⟩⟩

/-- A rule is found under its own name, and alone, if the name begins with a character that is its
own lower-case form. A rule whose name begins with a letter from A to Z is found exactly if the name
has no full stop and no rule is called by the lowered name, as it stands or between delimiters. -/
theorem mem_resolve_name_iff (g : Grammar) : ∀ r ∈ g.rules,
    (lowered r.name = r.name → g.resolve r.name = [r]) ∧
      ((∃ c ∈ r.name.toList.head?, c.isUpper = true) →
        (r ∈ g.resolve r.name ↔ '.' ∉ r.name.toList ∧
          ∀ other ∈ g.rules,
            other.name ≠ lowered r.name ∧ other.name ≠ "<" ++ lowered r.name ++ ">")) := by
  intro r hr
  refine ⟨resolve_name_of_lowered_eq hr, fun hcapital => ?_⟩
  have h := lowered_ne_of_isUpper hcapital
  rw [mem_resolve_name_of_lowered_ne hr h, Rule.answersTo_lowered_iff h, and_iff_right hcapital]

/-- Two rules whose names differ in the case of their first letter only, one with delimiters, and
one with a capital and nothing in its way. -/
def capitalGrammar : Grammar where
  rules := [⟨"Game", [.terminal "a"]⟩, ⟨"game", [.terminal "b"]⟩,
    ⟨"<Board.Track>", [.terminal "c"]⟩, ⟨"Shape", [.terminal "d"]⟩]
  sound := by decide

theorem mem_resolve_name_capitalGrammar :
    (⟨"Shape", [.terminal "d"]⟩ ∈ capitalGrammar.rules ∧
      ⟨"Shape", [.terminal "d"]⟩ ∈ capitalGrammar.resolve "Shape") ∧
    (⟨"<Board.Track>", [.terminal "c"]⟩ ∈ capitalGrammar.rules ∧
      capitalGrammar.resolve "<Board.Track>" = [⟨"<Board.Track>", [.terminal "c"]⟩]) ∧
    ⟨"Game", [.terminal "a"]⟩ ∈ capitalGrammar.rules ∧
      ⟨"Game", [.terminal "a"]⟩ ∉ capitalGrammar.resolve "Game" := by
  have hshape : ⟨"Shape", [.terminal "d"]⟩ ∈ capitalGrammar.rules := by decide
  have htrack : ⟨"<Board.Track>", [.terminal "c"]⟩ ∈ capitalGrammar.rules := by decide
  have hgame : ⟨"Game", [.terminal "a"]⟩ ∈ capitalGrammar.rules := by decide
  refine ⟨⟨hshape, ?_⟩, ⟨htrack, ?_⟩, hgame, ?_⟩
  · exact ((mem_resolve_name_iff capitalGrammar _ hshape).2 ⟨'S', by decide, by decide⟩).mpr
      (by decide)
  · exact (mem_resolve_name_iff capitalGrammar _ htrack).1 (by decide)
  · rw [(mem_resolve_name_iff capitalGrammar _ hgame).2 ⟨'G', by decide, by decide⟩]
    exact fun h => (h.2 ⟨"game", [.terminal "b"]⟩ (by decide)).1 (by decide)

/-- Beside the rule with the lowered name, a rule whose name begins with a capital is not found. -/
theorem capital_name_not_found : ¬ ∀ g : Grammar, ∀ r ∈ g.rules, r ∈ g.resolve r.name := by
  intro h
  have hfound := h capitalGrammar ⟨"Game", [.terminal "a"]⟩ (by decide)
  have hother : capitalGrammar.resolve "Game" = [⟨"game", [.terminal "b"]⟩] := by decide
  rw [hother] at hfound
  exact absurd hfound (by decide)

end Grammar

end GameGrammar

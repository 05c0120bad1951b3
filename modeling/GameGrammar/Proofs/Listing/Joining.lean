import GameGrammar.Proofs.Listing.Locality

/-! # Listings one after another

Two listings with a line feed between them are read as one after the other, and a fault of the
second one is the fault of both. -/

namespace GameGrammar.Listing

variable {s b : List Char}

/-! ## Listings -/

theorem read_of_found {r : Rule} {rest : List Char} (h : rule s = .found r rest) :
    read s = (read rest).map (r :: ·) := by
  unfold read
  rw [rules_of_found h]
  match rules rest with
  | .error f => rfl
  | .ok (more, last) =>
      simp only [Except.map, bind, Except.bind]
      cases skip last with
      | nil => rfl
      | cons c unread => rfl

theorem read_of_absent {stop : List Char} (h : rule s = .absent stop) :
    read s = if skip s = [] then .ok [] else .error ⟨[], skip s⟩ := by
  simp only [read, rules_of_absent h, bind, Except.bind]
  cases skip s with
  | nil => rfl
  | cons c unread => rfl

theorem read_of_broken {f : Fault} (h : rule s = .broken f) : read s = .error f := by
  rw [read, rules_of_broken h]
  rfl

/-- What stands in front of the first token is of no account. -/
theorem read_congr {t : List Char} (h : skip s = skip t) : read s = read t := by
  cases hn : symbol? (skip t) with
  | none =>
      have hs : rule s = .absent s := by simp only [rule, h, hn]
      have ht : rule t = .absent t := by simp only [rule, hn]
      rw [read_of_absent hs, read_of_absent ht, h]
  | some named =>
      obtain ⟨name, rest⟩ := named
      cases hd : definition rest with
      | ok body =>
          have hs : rule s = .found ⟨name, body.1⟩ body.2 := by simp only [rule, h, hn, hd]
          have ht : rule t = .found ⟨name, body.1⟩ body.2 := by simp only [rule, hn, hd]
          rw [read_of_found hs, read_of_found ht]
      | error f =>
          have hs : rule s = .broken f := by simp only [rule, h, hn, hd]
          have ht : rule t = .broken f := by simp only [rule, hn, hd]
          rw [read_of_broken hs, read_of_broken ht]

/-- No listing begins with a bar. -/
theorem head_skip_of_read {found : List Rule} (h : read s = .ok found) :
    (skip s).head? ≠ some '|' := by
  intro hhead
  obtain ⟨rest, hskip⟩ := List.head?_eq_some_iff.mp hhead
  have hname : name? ('|' :: rest) = none := by
    apply word?_eq_none
    intro c hc
    cases hc
    rfl
  have hsymbol : symbol? ('|' :: rest) = none := by
    rw [symbol?, delimited?_eq_none (by decide), hname]
  have habsent : rule s = .absent s := by simp only [rule, hskip, hsymbol]
  rw [read_of_absent habsent, hskip, if_neg (List.cons_ne_nil '|' rest)] at h
  cases h

/-- Behind a listing that can be read and a line feed, another one is read as it is by itself. -/
theorem read_joined (hs : Paired s) {found : List Rule} (h : read s = .ok found)
    (hb : (skip b).head? ≠ some '|') : read (s ++ '\n' :: b) = (read b).map (found ++ ·) := by
  induction s using rules.induct generalizing found with
  | case1 s r rest hr _ ih =>
      rw [read_of_found hr] at h
      match hrest : read rest with
      | .ok more =>
          rw [hrest] at h
          cases h
          have htail := hs.suffix ((rule_leaves s).of_found hr)
          rw [read_of_found (rule_joined hs hr hb), ih htail hrest]
          cases read b with
          | ok others => rfl
          | error f => rfl
      | .error f =>
          rw [hrest] at h
          cases h
  | case2 s stop hr =>
      rw [read_of_absent hr] at h
      by_cases hnil : skip s = []
      · rw [if_pos hnil] at h
        cases h
        rw [read_congr (skip_joined_nil hs hnil b)]
        cases read b with
        | ok others => rfl
        | error f => rfl
      · rw [if_neg hnil] at h
        cases h
  | case3 s f hr =>
      rw [read_of_broken hr] at h
      cases h

/-! ## Lines -/

theorem lineOf_append (front unread : List Char) :
    lineOf (front ++ unread) unread = front.count '\n' + 1 := by
  rw [lineOf, List.length_append, Nat.add_sub_cancel, List.take_left']
  rfl

/-- A line feed and the lines before it move every line of a text down. -/
theorem lineOf_joined {unread : List Char} (h : unread <:+ b) (s : List Char) :
    lineOf (s ++ '\n' :: b) unread = lineOf b unread + (1 + s.count '\n') := by
  obtain ⟨front, rfl⟩ := h
  have htext : s ++ '\n' :: (front ++ unread) = (s ++ '\n' :: front) ++ unread := by simp
  rw [htext, lineOf_append, lineOf_append, List.count_append, List.count_cons_self]
  omega

/-- A listing in which every carriage return stands in front of a line feed can be put in front of
another one, with a line feed in between. The rules of both come one after the other. If the second
one cannot be read, neither can the two together, for the same reason and so many lines further
down; only a bar at its beginning would be taken for one that goes on with the last rule of the
first. -/
theorem parse_joined {a : String} (ha : Paired a.toList) {found : List Rule}
    (h : parse a = .ok found) (b : String) :
    (∀ more, parse b = .ok more → parse (a ++ "\n" ++ b) = .ok (found ++ more)) ∧
      ∀ e, parse b = .error e → (skip b.toList).head? ≠ some '|' →
        parse (a ++ "\n" ++ b) =
          .error { e with line := e.line + (1 + a.toList.count '\n') } := by
  have htext : (a ++ "\n" ++ b).toList = a.toList ++ '\n' :: b.toList := by simp
  have hread := mapError_eq_ok.mp h
  constructor
  · intro more hmore
    have hb := mapError_eq_ok.mp hmore
    have hjoined := read_joined ha hread (head_skip_of_read hb)
    simp only [parse, htext, hjoined, hb]
    rfl
  · intro e he hbar
    cases hb : read b.toList with
    | ok more =>
        simp only [parse, hb] at he
        cases he
    | error f =>
        have hjoined := read_joined ha hread hbar
        simp only [parse, hb] at he
        cases he
        simp only [parse, htext, hjoined, hb, Except.map, Except.mapError,
          lineOf_joined (unread_suffix hb)]

/-- A carriage return in front of a line feed, and a comment that goes on to the end of the text. -/
def firstPart : String :=
  "x ::= y\r\n| (h [z]) // the end"

theorem parse_joined_firstPart :
    Paired firstPart.toList ∧
      (∃ found more, parse firstPart = .ok found ∧ parse "v ::= w" = .ok more ∧
        parse (firstPart ++ "\n" ++ "v ::= w") = .ok (found ++ more)) ∧
      ∃ e, parse "v ::= w\n(" = .error e ∧ e.line = 2 ∧
        parse (firstPart ++ "\n" ++ "v ::= w\n(") =
          .error { e with line := e.line + (1 + firstPart.toList.count '\n') } := by
  have hpaired : Paired firstPart.toList := by decide
  have hfirst : parse firstPart = .ok [⟨"x", [.terminal "y",
      .form "h" [{ token := "z", optional := true }]]⟩] := by
    with_unfolding_all rfl
  have hread : parse "v ::= w" = .ok [⟨"v", [.terminal "w"]⟩] := by with_unfolding_all rfl
  have hfault : parse "v ::= w\n(" = .error ⟨[], 2⟩ := by with_unfolding_all rfl
  refine ⟨hpaired, ⟨_, _, hfirst, hread, ?_⟩, ⟨_, hfault, rfl, ?_⟩⟩
  · exact (parse_joined hpaired hfirst _).1 _ hread
  · exact (parse_joined hpaired hfirst _).2 _ hfault (by with_unfolding_all decide)

end GameGrammar.Listing

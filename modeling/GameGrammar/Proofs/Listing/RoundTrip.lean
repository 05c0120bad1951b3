import GameGrammar.Proofs.Listing.Item
import GameGrammar.Proofs.Text.Characters

/-! # Reading back what is written

Whatever layout stands between its words, a listing is read as the rules that it is a writing
of: every reader takes its own part off the front and leaves the rest. -/

namespace GameGrammar.Listing

/-! ## Alternatives -/

/-- The text ends here or goes on with a blank. -/
def Breaks (s : List Char) : Prop :=
  ∀ c ∈ s.head?, Text.isBlank c = true

theorem breaks_layout {f : List Char} (hf : Layout f) (s : List Char) : Breaks (f ++ s) := by
  obtain ⟨-, c, rest, rfl, hc⟩ := hf
  intro d hd
  cases hd
  exact hc

/-- A word that begins neither with a blank nor like a comment is what skipping leads to. -/
theorem skip_word {f : List Char} (hf : Filler f) {w : String} (hne : w ≠ "")
    (hblank : ∀ c ∈ w.toList, Text.isBlank c = false) (hc : ¬ BeginsComment w) {s : List Char}
    (hs : ∀ c ∈ s.head?, c ≠ '/') : skip (f ++ (w.toList ++ s)) = w.toList ++ s := by
  have hcomment : ¬ ['/', '/'] <+: w.toList ++ s := fun hp =>
    hc (Text.prefix_of_append hp fun c hc hm => hs c hc (by simpa using hm))
  rw [skip_filler hf]
  cases hw : w.toList with
  | nil => exact absurd (String.toList_eq_nil_iff.mp hw) hne
  | cons c cs =>
      rw [hw] at hblank hcomment
      exact skip_cons (hblank c List.mem_cons_self) hcomment

/-- A form goes on with a blank behind its head, or is closed. -/
theorem head_of_itemsPieces {found : List Item} {t : List Char}
    (ht : LaidOut (itemsPieces found) t) {f : List Char} (hf : Pad f) (s : List Char) :
    ∀ c ∈ (t ++ (f ++ ')' :: s)).head?, Text.isBlank c = true ∨ c = ')' := by
  intro c hc
  cases found with
  | nil =>
      cases ht
      rcases hf with rfl | hf
      · cases hc
        exact .inr rfl
      · exact .inl (breaks_layout hf _ c hc)
  | cons i found =>
      obtain ⟨f', t, hf', rfl, -⟩ := ht
      rw [List.append_assoc] at hc
      exact .inl (breaks_layout hf' _ c hc)

theorem form_laidOut {head : String} {args : List Argument}
    (hc : (Clause.form head args).Writable) {t : List Char}
    (ht : LaidOut (clausePieces (.form head args)) t) (s : List Char) :
    ∃ inner, t ++ s = '(' :: inner ∧ form inner = .ok (.form head args, s) := by
  obtain ⟨hne, hhead, hcomment, ha, hgrouped⟩ := hc
  obtain ⟨hw, -, hnum⟩ := hgrouped.gather_spec ha
  obtain ⟨_, rfl, f, _, hf, rfl, h⟩ := ht
  obtain ⟨_, _, rfl, ⟨x, rfl, hx⟩, f', _, hf', rfl, _, rfl, rfl⟩ := laidOut_append.mp h
  refine ⟨f ++ (head.toList ++ (x ++ (f' ++ ')' :: s))), by simp, ?_⟩
  have hshut : Shut (f' ++ ')' :: s) := ⟨f', ')', s, hf', rfl, .inr rfl⟩
  have hclose := closing_filler hf'.filler (c := ')') (by decide) (by decide)
    .closingParenthesis s
  obtain ⟨hitems, -⟩ := items_laidOut hw hx hshut
  have hend := head_of_itemsPieces hx hf' s
  have hskip : skip (f ++ (head.toList ++ (x ++ (f' ++ ')' :: s)))) =
      head.toList ++ (x ++ (f' ++ ')' :: s)) := by
    apply skip_word hf.filler hne (fun c hc => isBlank_of_isHeadChar (hhead c hc)) hcomment
    rintro c hc rfl
    rcases hend '/' hc with h | h <;> cases h
  have hword : word? isHeadChar (head.toList ++ (x ++ (f' ++ ')' :: s))) =
      some (head, x ++ (f' ++ ')' :: s)) := by
    apply word?_append hne hhead
    intro c hc
    rcases hend c hc with h | rfl
    · simp [isHeadChar, h]
    · rfl
  simp only [form, hskip, hword, hitems, hclose, bind, Except.bind, hnum]

/-- A word without a blank is a reference only if it begins with one by itself. -/
theorem delimited?_eq_none_of_word {w : String} (h : ¬ BeginsDelimited w) {s : List Char}
    (hs : Breaks s) : delimited? (w.toList ++ s) = none := by
  unfold delimited?
  split
  · next u hu =>
      split
      · next name rest hname =>
          obtain ⟨rfl, hne, hchars⟩ := word?_eq_some hname
          have hfront : ("<" ++ name ++ ">").toList <+: w.toList ++ s :=
            ⟨rest, by rw [hu]; simp⟩
          refine absurd ⟨name, ⟨hne, hchars⟩, Text.prefix_of_append hfront ?_⟩ h
          intro c hc hm
          have hblank := hs c hc
          simp only [String.toList_append, List.mem_append] at hm
          rcases hm with (hm | hm) | hm
          · obtain rfl : c = '<' := by simpa using hm
            cases hblank
          · rw [isBlank_of_isNameChar (hchars c hm)] at hblank
            cases hblank
          · obtain rfl : c = '>' := by simpa using hm
            cases hblank
      · rfl
  · rfl

theorem alternative_laidOut {c : Clause} (hc : c.Writable) {f t : List Char} (hf : Filler f)
    (ht : LaidOut (clausePieces c) t) {s : List Char} (hs : Breaks s) :
    alternative (f ++ (t ++ s)) = .ok (c, s) := by
  have hslash : ∀ c ∈ s.head?, c ≠ '/' := by
    rintro c hc rfl
    cases hs '/' hc
  cases c with
  | terminal text =>
      obtain ⟨hne, hchars, hcomment, hdelimited⟩ := hc
      obtain ⟨_, rfl, rfl⟩ := ht
      have hskip := skip_word hf hne (fun c hc => isBlank_of_isTerminalChar (hchars c hc))
        hcomment hslash
      have hnone := delimited?_eq_none_of_word hdelimited hs
      have hword : word? isTerminalChar (text.toList ++ s) = some (text, s) :=
        word?_append hne hchars fun c hc => by simp [isTerminalChar, hs c hc]
      rw [List.append_nil]
      unfold alternative
      rw [hskip]
      split
      · next rest he =>
          -- A terminal does not begin with a parenthesis.
          cases hw : text.toList with
          | nil => exact absurd (String.toList_eq_nil_iff.mp hw) hne
          | cons c cs =>
              rw [hw] at he hchars
              obtain rfl : c = '(' := (List.cons.inj he).1
              cases hchars '(' List.mem_cons_self
      · rw [hnone, hword]
  | reference target =>
      obtain ⟨_, rfl, rfl⟩ := ht
      have hread := delimited?_append hc s
      obtain ⟨name, -, rfl⟩ := hc
      have htext : ("<" ++ name ++ ">").toList ++ s = '<' :: (name.toList ++ '>' :: s) := by simp
      rw [htext] at hread
      have hskip := skip_token hf (c := '<') (s := name.toList ++ '>' :: s) (by decide)
        (by decide)
      rw [List.append_nil, htext]
      unfold alternative
      rw [hskip]
      split
      · next he => cases he
      · rw [hread]
  | form head args =>
      obtain ⟨inner, he, hform⟩ := form_laidOut hc ht s
      have hskip : skip (f ++ (t ++ s)) = '(' :: inner := by
        rw [he]
        exact skip_token hf (by decide) (by decide)
      simp only [alternative, hskip, hform]
      rfl

/-! ## Rules -/

theorem moreAlternatives_stop {s : List Char} (h : (skip s).head? ≠ some '|') :
    moreAlternatives s = .ok ([], s) := by
  rw [moreAlternatives]
  split
  · next hb =>
      rw [hb] at h
      exact absurd rfl h
  · rfl

theorem moreAlternatives_bar {s bar rest : List Char} {c : Clause} (hb : skip s = '|' :: bar)
    (ha : alternative bar = .ok (c, rest)) {more : List Clause} {last : List Char}
    (hm : moreAlternatives rest = .ok (more, last)) :
    moreAlternatives s = .ok (c :: more, last) := by
  rw [moreAlternatives]
  split
  · next bar' hb' =>
      obtain rfl : bar = bar' := by rw [hb] at hb'; exact (List.cons.inj hb').2
      split
      · next c' rest' ha' =>
          rw [ha] at ha'
          cases ha'
          simp only [hm]
          rfl
      · next ha' => rw [ha] at ha'; cases ha'
  · next hne => exact absurd hb (hne bar)

/-- What follows a rule: a blank if anything, and no bar behind it. -/
structure EndsRule (s : List Char) : Prop where
  breaks : Breaks s
  noBar : (skip s).head? ≠ some '|'

theorem moreAlternatives_laidOut {first : Clause} {more : List Clause}
    (hc : ∀ c ∈ first :: more, c.Writable) {t : List Char}
    (ht : LaidOut (alternativesPieces (first :: more)) t) {s : List Char} (hs : EndsRule s) :
    ∃ u, alternative (t ++ s) = .ok (first, u) ∧ moreAlternatives u = .ok (more, s) := by
  induction more generalizing first t with
  | nil =>
      obtain ⟨f, x, hf, rfl, hx⟩ := ht
      refine ⟨s, ?_, moreAlternatives_stop hs.noBar⟩
      rw [List.append_assoc]
      exact alternative_laidOut (hc first List.mem_cons_self) hf.1 hx hs.breaks
  | cons next more ih =>
      obtain ⟨f, _, hf, rfl, h⟩ := ht
      obtain ⟨x, _, rfl, hx, f', _, hf', rfl, y, rfl, hy⟩ := laidOut_append.mp h
      obtain ⟨u, halt, hmore⟩ := ih (fun c h => hc c (List.mem_cons_of_mem first h)) hy
      have htext : f ++ (x ++ (f' ++ ("|".toList ++ y))) ++ s =
          f ++ (x ++ (f' ++ '|' :: (y ++ s))) := by simp
      have hbar : skip (f' ++ '|' :: (y ++ s)) = '|' :: (y ++ s) :=
        skip_token hf'.1 (by decide) (by decide)
      rw [htext]
      exact ⟨_, alternative_laidOut (hc first List.mem_cons_self) hf.1 hx (breaks_layout hf' _),
        moreAlternatives_bar hbar halt hmore⟩

theorem definition_laidOut {clauses : List Clause} (hne : clauses ≠ [])
    (hc : ∀ c ∈ clauses, c.Writable) {f t : List Char} (hf : Layout f)
    (ht : LaidOut (alternativesPieces clauses) t) {s : List Char} (hs : EndsRule s) :
    definition (f ++ ("::=".toList ++ (t ++ s))) = .ok (clauses, s) := by
  cases clauses with
  | nil => exact absurd rfl hne
  | cons first more =>
      obtain ⟨u, halt, hmore⟩ := moreAlternatives_laidOut hc ht hs
      have hskip : skip (f ++ ("::=".toList ++ (t ++ s))) = ':' :: ':' :: '=' :: (t ++ s) :=
        skip_token hf.1 (by decide) (by decide)
      simp only [definition, hskip, halt, hmore, bind, Except.bind]

theorem rule_laidOut {r : Rule} (hr : r.Writable) {f t : List Char} (hf : Filler f)
    (ht : LaidOut (rulePieces r) t) {s : List Char} (hs : EndsRule s) :
    rule (f ++ (t ++ s)) = .found r s ∧ StartsArgument (t ++ s) := by
  obtain ⟨_, rfl, f', _, hf', rfl, x, rfl, hx⟩ := ht
  have htext : r.name.toList ++ (f' ++ ("::=".toList ++ x)) ++ s =
      r.name.toList ++ (f' ++ ("::=".toList ++ (x ++ s))) := by simp
  have hstart := hr.name.starts (f' ++ ("::=".toList ++ (x ++ s)))
  have hsymbol := symbol?_append hr.name (free_layout hf' ("::=".toList ++ (x ++ s))).stops
  rw [htext]
  refine ⟨?_, hstart⟩
  simp only [rule, skip_solid hf hstart.solid, hsymbol,
    definition_laidOut hr.nonempty hr.clauses hf' hx hs]

theorem rules_of_found {s rest : List Char} {r : Rule} (hr : rule s = .found r rest) :
    rules s = (rules rest).map fun (more, last) => (r :: more, last) := by
  rw [rules]
  split
  · next hr' =>
      rw [hr] at hr'
      cases hr'
      cases rules rest with
      | ok x => rfl
      | error f => rfl
  · next hr' => rw [hr] at hr'; cases hr'
  · next hr' => rw [hr] at hr'; cases hr'

theorem rules_found {s rest last : List Char} {r : Rule} {more : List Rule}
    (hr : rule s = .found r rest) (hm : rules rest = .ok (more, last)) :
    rules s = .ok (r :: more, last) := by
  rw [rules_of_found hr, hm]
  rfl

theorem rules_of_absent {s stop : List Char} (hr : rule s = .absent stop) :
    rules s = .ok ([], s) := by
  rw [rules]
  split
  · next hr' => rw [hr] at hr'; cases hr'
  · rfl
  · next hr' => rw [hr] at hr'; cases hr'

theorem rules_of_broken {s : List Char} {f : Fault} (hr : rule s = .broken f) :
    rules s = .error f := by
  rw [rules]
  split
  · next hr' => rw [hr] at hr'; cases hr'
  · next hr' => rw [hr] at hr'; cases hr'
  · next hr' =>
      rw [hr] at hr'
      cases hr'
      rfl

/-- Nothing but a filler is no rule. -/
theorem rules_filler {f : List Char} (hf : Filler f) : rules f = .ok ([], f) := by
  have habsent : rule f = .absent f := by
    simp only [rule, skip_eq_nil hf]
    rfl
  exact rules_of_absent habsent

theorem endsRule_pad {g : List Char} (hg : Pad g) : EndsRule g where
  breaks := by
    rcases hg with rfl | hg
    · simp [Breaks]
    · simpa using breaks_layout hg []
  noBar := by
    simp [skip_eq_nil hg.filler]

theorem endsRule_layout {f s : List Char} (hf : Layout f) (hs : StartsArgument s) :
    EndsRule (f ++ s) where
  breaks := breaks_layout hf s
  noBar := by
    rw [skip_solid hf.1 hs.solid]
    obtain ⟨c, rest, rfl, hc⟩ := hs
    intro h
    obtain rfl : c = '|' := Option.some.inj h
    rcases hc with hc | hc | hc <;> cases hc

/-- Rules are read one after another: none begins with a bar, so none runs into the next. -/
theorem rules_laidOut {r : Rule} {more : List Rule} (hr : ∀ q ∈ r :: more, q.Writable)
    {f t g : List Char} (hf : Filler f) (ht : LaidOut (rulesPieces (r :: more)) t) (hg : Pad g) :
    rules (f ++ (t ++ g)) = .ok (r :: more, g) ∧ StartsArgument (t ++ g) := by
  induction more generalizing r f t with
  | nil =>
      obtain ⟨hrule, hstart⟩ := rule_laidOut (hr r List.mem_cons_self) hf ht (endsRule_pad hg)
      exact ⟨rules_found hrule (rules_filler hg.filler), hstart⟩
  | cons next more ih =>
      obtain ⟨x, _, rfl, hx, f', y, hf', rfl, hy⟩ := laidOut_append.mp ht
      obtain ⟨hrules, hnext⟩ := ih (fun q h => hr q (List.mem_cons_of_mem r h)) hf'.1 hy
      obtain ⟨hrule, hstart⟩ := rule_laidOut (hr r List.mem_cons_self) hf hx
        (endsRule_layout hf' hnext)
      have htext : x ++ (f' ++ y) ++ g = x ++ (f' ++ (y ++ g)) := by simp
      rw [htext]
      exact ⟨rules_found hrule hrules, hstart⟩

/-! ## Listings -/

theorem read_laidOut (found : List Rule) (hr : ∀ r ∈ found, r.Writable)
    {front text back : List Char} (hf : Filler front) (ht : LaidOut (rulesPieces found) text)
    (hb : Pad back) : read (front ++ (text ++ back)) = .ok found := by
  cases found with
  | nil =>
      cases ht
      have hall := hf.append hb.filler
      simp only [read, List.nil_append, rules_filler hall, skip_eq_nil hall, bind, Except.bind]
  | cons r more =>
      obtain ⟨hrules, -⟩ := rules_laidOut hr hf ht hb
      simp only [read, hrules, skip_eq_nil hb.filler, bind, Except.bind]

/-- A rule without groups is read back from what it is rendered as. -/
theorem parse_render {r : Rule} (hr : r.Writable)
    (h : ∀ c ∈ r.clauses, ∀ a ∈ c.args, a.group = 0) : parse r.render = .ok [r] := by
  have hread : read r.render.toList = .ok [r] := by
    have := read_laidOut [r] (by simpa using hr) .nil (laidOut_plain (rulePieces r))
      (.inl rfl)
    rwa [plain_rulePieces h, List.append_nil, List.nil_append] at this
  rw [parse, hread]
  rfl

/-- A listing of rules that can be written is read as these rules, whatever layout stands between
the words, in front of the first rule and behind the last one. -/
theorem parse_laidOut (found : List Rule) (hr : ∀ r ∈ found, r.Writable)
    (front text back : List Char) (hf : Filler front) (ht : LaidOut (rulesPieces found) text)
    (hb : Pad back) : parse (String.ofList (front ++ text ++ back)) = .ok found := by
  rw [parse, String.toList_ofList, List.append_assoc, read_laidOut found hr hf ht hb]
  rfl

/-- Rules with a group, a label, braces, a reference and final text. -/
def written : List Rule :=
  [⟨"<a>", [
    .form "h" [
      { token := "<b>", label := some "x", optional := true, nesting := 1, group := 1 },
      { token := "c", optional := true, group := 1 },
      { token := "d" }],
    .reference "<b>"]⟩,
  ⟨"b", [.terminal "<="]⟩]

theorem parse_written :
    parse "// rules\n<a> ::= (h [x:\x7b<b>\x7d | c] d) | <b> b ::= <=\n" = .ok written := by
  have hname (w : String) (hne : w ≠ "") (hw : ∀ c ∈ w.toList, isNameChar c = true) : IsName w :=
    ⟨hne, hw⟩
  have ha := hname "a" (by decide) (by decide)
  have hb := hname "b" (by decide) (by decide)
  have hc := hname "c" (by decide) (by decide)
  have hd := hname "d" (by decide) (by decide)
  have hx := hname "x" (by decide) (by decide)
  have hgrouped : Grouped 1 [
      { token := "<b>", label := some "x", optional := true, nesting := 1, group := 1 },
      { token := "c", optional := true, group := 1 },
      { token := "d" }] :=
    @Grouped.block _ [_, _] _ (by decide) (by decide) (by decide) (.inl (by decide))
      (.single rfl .nil)
  have hterminal : (Clause.terminal "<=").Writable := by
    refine ⟨by decide, by decide, ?_, ?_⟩
    · rintro ⟨rest, h⟩
      cases h
    · rintro ⟨name, hn, hp⟩
      obtain ⟨c, cs, hcs, -⟩ := hn.cons
      simp [hcs] at hp
  have hwritable : ∀ r ∈ written, r.Writable := by
    refine List.forall_mem_cons.mpr ⟨⟨.inr ⟨"a", ha, rfl⟩, by simp, ?_⟩,
      List.forall_mem_singleton.mpr ⟨.inl hb, by simp, ?_⟩⟩
    · refine List.forall_mem_cons.mpr ⟨⟨by decide, by decide, ?_, ?_, hgrouped⟩,
        List.forall_mem_singleton.mpr ⟨"b", hb, rfl⟩⟩
      · rintro ⟨rest, h⟩
        cases h
      · refine List.forall_mem_cons.mpr ⟨⟨.inr ⟨"b", hb, rfl⟩, by simpa using hx⟩,
          List.forall_mem_cons.mpr ⟨⟨.inl hc, by simp⟩,
            List.forall_mem_singleton.mpr ⟨.inl hd, by simp⟩⟩⟩
    · exact List.forall_mem_singleton.mpr hterminal
  exact parse_laidOut written hwritable "// rules\n".toList (plain (rulesPieces written)).toList
    ['\n'] (@Filler.comment " rules".toList _ (by decide) (.blank rfl .nil) (.inl ⟨[], rfl⟩))
    (laidOut_plain _) (.inr ⟨.blank rfl .nil, '\n', [], rfl, rfl⟩)

end GameGrammar.Listing

import GameGrammar.Funnel.Verdict
import GameGrammar.Proofs.Slot.Passage
import GameGrammar.Proofs.Slot.Simultaneous
import GameGrammar.Proofs.Text.Case

/-! # The name of a filled game

The slot of a game stands right behind its head, so it is filled first and for the text as it came.
What is filled later stands behind the name, and the name that the text declares is the one that its
namer has given, whatever else is drawn. -/

namespace GameGrammar

/-! ## Declared names -/

theorem splitAtQuote?_append {x : List Char} (h : '"' ∉ x) (y : List Char) :
    splitAtQuote? (x ++ '"' :: y) = some (x, y) := by
  have hx : ∀ c ∈ x, (c != '"') = true := by
    intro c hc
    rw [bne_iff_ne]
    rintro rfl
    exact h hc
  have hrest : (x ++ '"' :: y).dropWhile (· != '"') = '"' :: y := by
    rw [List.dropWhile_append_of_pos hx, List.dropWhile_cons_of_neg (by simp)]
  have hfront : (x ++ '"' :: y).takeWhile (· != '"') = x := by
    rw [List.takeWhile_append_of_pos hx, List.takeWhile_cons_of_neg (by simp), List.append_nil]
  rw [splitAtQuote?, hrest, hfront]

/-- The first quoted text of the leading form is the name that is declared. -/
theorem quotedName?_eq (head : List Char) {name : List Char} (hq : '"' ∉ head) (ho : '(' ∉ head)
    (hc : ')' ∉ head) (hn : '"' ∉ name) (hne : name ≠ []) (rest : List Char) :
    quotedName? ('(' :: (head ++ '"' :: (name ++ '"' :: rest))) = some name := by
  have hform : head.any (fun c => c == '(' || c == ')') = false := by
    rw [List.any_eq_false]
    intro c hmem
    have h1 : c ≠ '(' := fun h => ho (h ▸ hmem)
    have h2 : c ≠ ')' := fun h => hc (h ▸ hmem)
    simp [h1, h2]
  have hstart : Text.trimStart ('(' :: (head ++ '"' :: (name ++ '"' :: rest))) =
      '(' :: (head ++ '"' :: (name ++ '"' :: rest)) := List.dropWhile_cons_of_neg (by decide)
  simp only [quotedName?, hstart, splitAtQuote?_append hq, hform, splitAtQuote?_append hn,
    Option.bind_some, if_neg hne, Bool.false_eq_true, if_false]

/-! ## Identity heads -/

/-- A head of a game is a word without the third letter of the marker. -/
theorem isAlpha_of_identityHead {head : String}
    (h : head.toLower ∈ ["game", "match", "subgame"]) {c : Char} (hc : c ∈ head.toList) :
    c.isAlpha = true ∧ c ≠ 'i' := by
  have hletters : ∀ name ∈ ["game", "match", "subgame"],
      name.toList.all (fun d => d.isLower && d != 'i') = true := by decide
  have hmem : c.toLower ∈ head.toLower.toList := by
    rw [show head.toLower.toList = head.toList.map Char.toLower from String.toList_map]
    exact List.mem_map_of_mem hc
  have hletter := List.all_eq_true.mp (hletters _ h) _ hmem
  rw [Bool.and_eq_true, bne_iff_ne, Char.isLower_toLower_eq_isAlpha] at hletter
  refine ⟨hletter.1, ?_⟩
  rintro rfl
  exact hletter.2 rfl

theorem inert_of_identityHead {head : String} (h : head.toLower ∈ ["game", "match", "subgame"]) :
    Inert head.toList where
  noOpening hm := absurd (isAlpha_of_identityHead h hm).1 (by decide)
  noClosing hm := absurd (isAlpha_of_identityHead h hm).1 (by decide)
  noMarker hm := (isAlpha_of_identityHead h (hm.subset (by decide : 'i' ∈ slotMarker))).2 rfl

namespace Values

variable {ρ : Type} [Sampler ρ] {v : Values}

/-! ## The slot of a game -/

/-- What has been written stays at the front. -/
theorem fillFrom_isPrefix (v : Values) (before rest : List Char) (s : ρ) :
    before.reverse <+: (v.fillFrom before rest s).1 := by
  fun_induction fillFrom (ρ := ρ) v before rest generalizing s with
  | case1 before rest hslot ih =>
      refine List.IsPrefix.trans ?_ (ih (v.value before (slotMarker ++ rest) s).1 _)
      simp
  | case2 before rest hslot ih =>
      refine List.IsPrefix.trans ?_ (ih s)
      simp
  | case3 before c rest hc ih =>
      refine List.IsPrefix.trans ?_ (ih s)
      simp
  | case4 before => exact List.prefix_refl _

/-- Behind the head of a game stands its name, made from the text as it came. Nothing is drawn. -/
theorem value_identity (v : Values) {head : String}
    (hhead : head.toLower ∈ ["game", "match", "subgame"]) (after : List Char) (s : ρ) :
    v.value (' ' :: ('(' :: head.toList).reverse) after s =
      (v.namer (textHash (String.ofList ('(' :: (head.toList ++ ' ' :: after)))) 4, s) := by
  have hblank : ∀ c ∈ head.toList, Text.isBlank c = false := fun c hc =>
    Text.isBlank_of_isAlpha (isAlpha_of_identityHead hhead hc).1
  have howner : enclosingName (' ' :: ('(' :: head.toList).reverse) after = head.toList := by
    have hspace : Neutral [' '] := .of_flat (by decide) (by decide)
    have hform : enclosingName ([] ++ ('(' :: head.toList ++ [' '])).reverse after = head.toList :=
      enclosingName_eq (inert_of_identityHead hhead) hblank hspace rfl
    simpa using hform
  have htext : (' ' :: ('(' :: head.toList).reverse).reverse ++ after =
      '(' :: (head.toList ++ ' ' :: after) := by simp
  simp only [value, howner, isIdentityHead_iff.mpr hhead, if_true, htext]
  rfl

/-- The slot behind the head of a game gives way to its name. -/
theorem fillFrom_identity {head : String} (hhead : head.toLower ∈ ["game", "match", "subgame"])
    {rest : List Char} (hrest : ∃ c ∈ rest.head?, Closes c) (s : ρ) :
    let text := '(' :: (head.toList ++ ' ' :: (slotMarker ++ rest))
    let name := v.namer (textHash (String.ofList text)) 4
    v.fillFrom [] text s =
      v.fillFrom ('(' :: (head.toList ++ ' ' :: '"' :: (name.toList ++ ['"']))).reverse rest s := by
  intro text name
  -- no marker begins before the space, so the head is passed over as it is
  have hopen : v.fillFrom [] text s =
      v.fillFrom (' ' :: ('(' :: head.toList).reverse) (slotMarker ++ rest) s := by
    have hedge : Edge (' ' :: (slotMarker ++ rest)) := by simp [Edge, slotMarker]
    have hpasses : Passes v [] (Sketch.plain ("(" ++ head)) (' ' :: (slotMarker ++ rest)) s
        ("(" ++ head).toList s :=
      .plain (Sketch.noMarker_head (inert_of_identityHead hhead)) hedge
    have hrun := hpasses.run
    have hspace : ¬ slotMarker <+: ' ' :: (slotMarker ++ rest) := by
      intro hp
      exact absurd (List.cons_prefix_cons.mp hp).1 (by decide)
    rw [fillFrom_char v hspace] at hrun
    simpa [text] using hrun
  have hslot : isSlot (' ' :: ('(' :: head.toList).reverse) rest = true :=
    isSlot_iff.mpr ⟨⟨' ', rfl, .inl rfl⟩, hrest⟩
  rw [hopen, fillFrom_slot v hslot, v.value_identity hhead]
  simp [name, text]

/-- What is put in behind the name leaves the declaration as it is. -/
theorem quotedName?_fillFrom {head : String} (hhead : head.toLower ∈ ["game", "match", "subgame"])
    {rest : List Char} (hrest : ∃ c ∈ rest.head?, Closes c)
    (hname : ∀ hash length, v.namer hash length ≠ "" ∧ '"' ∉ (v.namer hash length).toList)
    (s : ρ) :
    let text := '(' :: (head.toList ++ ' ' :: (slotMarker ++ rest))
    quotedName? (v.fillFrom [] text s).1 =
      some (v.namer (textHash (String.ofList text)) 4).toList := by
  intro text
  obtain ⟨hne, hquote⟩ := hname (textHash (String.ofList text)) 4
  rw [v.fillFrom_identity hhead hrest]
  generalize v.namer (textHash (String.ofList text)) 4 = name at hne hquote ⊢
  obtain ⟨out, hout⟩ := v.fillFrom_isPrefix
    ('(' :: (head.toList ++ ' ' :: '"' :: (name.toList ++ ['"']))).reverse rest s
  rw [List.reverse_reverse] at hout
  have hinert := inert_of_identityHead hhead
  have hunquoted : '"' ∉ head.toList := fun hm =>
    absurd (isAlpha_of_identityHead hhead hm).1 (by decide)
  have hread := quotedName?_eq (head.toList ++ [' ']) (by simp [hunquoted])
    (by simp [hinert.noOpening]) (by simp [hinert.noClosing]) hquote
    (fun he => hne (String.toList_eq_nil_iff.mp he)) out
  rw [← hout]
  simpa using hread

end Values

/-! ## Filled games -/

/-- A game declares the name that its namer has given for the text as it came. The pool and what is
drawn for the slots behind have no part in it. -/
theorem programName_fill {ρ τ : Type} [Sampler ρ] [Sampler τ] {blanks head rest : String}
    {namer : Namer}
    (hblanks : ∀ c ∈ blanks.toList, Text.isBlank c = true)
    (hhead : head.toLower ∈ ["game", "match", "subgame"])
    (hrest : ∃ c ∈ rest.toList.head?, Closes c)
    (hsolid : ∃ c ∈ rest.toList, Text.isBlank c = false)
    (hnamer : ∀ hash length, namer hash length ≠ "" ∧ '"' ∉ (namer hash length).toList) :
    let raw := blanks ++ "(" ++ head ++ " string" ++ rest
    let name := namer (textHash (String.ofList (Text.trim raw.toList))) 4
    (∀ pool (s : ρ), programName ((⟨pool, namer⟩ : Values).fill raw s).1 = name) ∧
      ∀ pool pool' (s : ρ) (s' : τ), programName ((⟨pool, namer⟩ : Values).fill raw s).1 =
        programName ((⟨pool', namer⟩ : Values).fill raw s').1 := by
  intro raw name
  have htrim : Text.trim raw.toList =
      '(' :: (head.toList ++ ' ' :: (slotMarker ++ Text.trimEnd rest.toList)) := by
    have hraw : raw.toList =
        blanks.toList ++ '(' :: (head.toList ++ ' ' :: slotMarker ++ rest.toList) := by
      simp [raw, slotMarker]
    rw [hraw, Text.trim_between hblanks (by decide) hsolid]
    simp
  have hnext : ∃ c ∈ (Text.trimEnd rest.toList).head?, Closes c := by
    rwa [Text.head?_trimEnd hsolid]
  have hdeclared {χ : Type} [Sampler χ] (pool : Pool) (s : χ) :
      programName ((⟨pool, namer⟩ : Values).fill raw s).1 = name := by
    let v : Values := ⟨pool, namer⟩
    have hquoted := v.quotedName?_fillFrom hhead hnext hnamer s
    rw [← htrim] at hquoted
    change programName (String.ofList (v.fillFrom [] _ s).1) = name
    rw [programName, String.toList_ofList, hquoted]
    exact String.ofList_toList
  refine ⟨hdeclared, fun pool pool' s s' => ?_⟩
  rw [hdeclared pool s, hdeclared pool' s']

theorem programName_fill_subgame :
    (∀ c ∈ "\n ".toList, Text.isBlank c = true) ∧
      "SubGame".toLower ∈ ["game", "match", "subgame"] ∧
      (∃ c ∈ ") \"(string\" (piece string) string\n".toList.head?, Closes c) ∧
      (∃ c ∈ ") \"(string\" (piece string) string\n".toList, Text.isBlank c = false) ∧
      (∀ hash length, Namer.syllabic hash length ≠ "" ∧
        '"' ∉ (Namer.syllabic hash length).toList) ∧
      let raw := "\n " ++ "(" ++ "SubGame" ++ " string" ++ ") \"(string\" (piece string) string\n"
      let name := Namer.syllabic (textHash (String.ofList (Text.trim raw.toList))) 4
      (∀ pool (s : Random.Source),
        programName ((⟨pool, .syllabic⟩ : Values).fill raw s).1 = name) ∧
        ∀ pool pool' (s s' : Random.Source),
          programName ((⟨pool, .syllabic⟩ : Values).fill raw s).1 =
            programName ((⟨pool', .syllabic⟩ : Values).fill raw s').1 := by
  have hblanks : ∀ c ∈ "\n ".toList, Text.isBlank c = true := List.all_eq_true.mp (by decide)
  have hhead : "SubGame".toLower ∈ ["game", "match", "subgame"] := by decide +kernel
  have hrest : ∃ c ∈ ") \"(string\" (piece string) string\n".toList.head?, Closes c := by decide
  have hsolid : ∃ c ∈ ") \"(string\" (piece string) string\n".toList,
      Text.isBlank c = false := ⟨')', by decide, by decide⟩
  have hnamer : ∀ hash length, Namer.syllabic hash length ≠ "" ∧
      '"' ∉ (Namer.syllabic hash length).toList := by
    intro hash length
    constructor
    · intro he
      obtain ⟨c, cs, -, hname⟩ := exists_syllabic hash length
      rw [he] at hname
      cases hname
    · intro hc
      cases syllabic_isAlpha hash length _ hc
  exact ⟨hblanks, hhead, hrest, hsolid, hnamer,
    programName_fill hblanks hhead hrest hsolid hnamer⟩

end GameGrammar

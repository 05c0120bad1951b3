import GameGrammar.Proofs.Slot.Simultaneous

/-! # Filled texts are left alone

No slot arises inside a value, at the quotes around it or at the ends of the text. A text that has
been filled is therefore in its final form. -/

namespace GameGrammar

/-! ## Texts without slots -/

/-- Nowhere in the text is a slot. -/
def Slotless (text : List Char) : Prop :=
  ∀ i, ¬ SlotAt text i

theorem slotless_iff_slots {text : List Char} : Slotless text ↔ slots text = [] := by
  simp [Slotless, List.eq_nil_iff_forall_not_mem, mem_slots]

instance (text : List Char) : Decidable (Slotless text) :=
  decidable_of_iff _ slotless_iff_slots.symm

/-- A slot is the marker between two delimiters. -/
theorem slotAt_iff {text : List Char} {i : Nat} :
    SlotAt text i ↔ ∃ front c d back, text = front ++ c :: (slotMarker ++ d :: back) ∧
      i = front.length + 1 ∧ Opens c ∧ Closes d := by
  constructor
  · intro h
    obtain ⟨before, rest, rfl, rfl⟩ := h.exists_split
    obtain ⟨⟨c, hc, hopens⟩, d, hd, hcloses⟩ := slotAt_append.mp h
    obtain ⟨front, rfl⟩ := List.getLast?_eq_some_iff.mp hc
    obtain ⟨back, rfl⟩ := List.head?_eq_some_iff.mp hd
    refine ⟨front, c, d, back, ?_, ?_, hopens, hcloses⟩
    · rw [List.append_assoc, List.singleton_append]
    · rw [List.length_append, List.length_singleton]
  · intro h
    obtain ⟨front, c, d, back, htext, hi, hopens, hcloses⟩ := h
    have hsides : SlotAt (front ++ [c] ++ (slotMarker ++ d :: back)) (front ++ [c]).length :=
      slotAt_append.mpr ⟨⟨c, List.getLast?_concat, hopens⟩, d, rfl, hcloses⟩
    rw [List.length_append, List.append_assoc] at hsides
    rw [htext, hi]
    exact hsides

/-- A slot of a part is one of the whole. -/
theorem SlotAt.within {text : List Char} {i : Nat} (h : SlotAt text i) (before after : List Char) :
    SlotAt (before ++ text ++ after) (before.length + i) := by
  obtain ⟨front, c, d, back, rfl, rfl, hopens, hcloses⟩ := slotAt_iff.mp h
  refine slotAt_iff.mpr ⟨before ++ front, c, d, back ++ after, by simp, ?_, hopens, hcloses⟩
  rw [List.length_append, Nat.add_assoc]

theorem slotless_iff_delimited {text : List Char} :
    Slotless text ↔ ∀ c d, Opens c → Closes d → ¬ c :: (slotMarker ++ [d]) <:+: text := by
  constructor
  · intro h c d hopens hcloses hpart
    obtain ⟨front, back, htext⟩ := hpart
    refine h (front.length + 1) (slotAt_iff.mpr ⟨front, c, d, back, ?_, rfl, hopens, hcloses⟩)
    rw [← htext]
    simp
  · intro h i hslot
    obtain ⟨front, c, d, back, htext, -, hopens, hcloses⟩ := slotAt_iff.mp hslot
    refine h c d hopens hcloses ⟨front, back, ?_⟩
    rw [htext]
    simp

/-- A quote keeps apart what is on its two sides. -/
theorem Slotless.append_quote {x y : List Char} (hx : Slotless x) (hy : Slotless y) :
    Slotless (x ++ '"' :: y) := by
  rw [slotless_iff_delimited] at hx hy ⊢
  intro c d hopens hcloses hpart
  have hquote : '"' ∉ c :: (slotMarker ++ [d]) := by
    have hc : '"' ≠ c := by
      intro he
      exact absurd (he ▸ hopens) (by decide)
    have hd : '"' ≠ d := by
      intro he
      exact absurd (he ▸ hcloses) (by decide)
    simp [slotMarker, hc, hd]
  rcases Text.infix_of_append_cons hpart hquote with hpart | hpart
  · exact hx c d hopens hcloses hpart
  · exact hy c d hopens hcloses hpart

/-- Without a delimiter in front there is no slot. -/
theorem Slotless.of_unopened {text : List Char} (h : ∀ c ∈ text, ¬ Opens c) : Slotless text := by
  rw [slotless_iff_delimited]
  intro c d hopens _ hpart
  exact h c (hpart.subset List.mem_cons_self) hopens

/-- If the slots go on with `i`, there is none before, and the others come behind its marker. -/
theorem slotsFrom_eq_cons {text : List Char} {start i : Nat} {others : List Nat}
    (h : slotsFrom text start = i :: others) :
    start ≤ i ∧ SlotAt text i ∧ (∀ j, start ≤ j → j < i → ¬ SlotAt text j) ∧
      others = slotsFrom text (i + slotMarker.length) := by
  obtain ⟨hle, hslot⟩ := mem_slotsFrom.mp (h ▸ List.mem_cons_self : i ∈ slotsFrom text start)
  have hsorted := slotsFrom_increasing text start
  rw [h, List.pairwise_cons] at hsorted
  have hnone : ∀ j, start ≤ j → j < i → ¬ SlotAt text j := by
    intro j hj hlt hslot
    have hmem := mem_slotsFrom.mpr ⟨hj, hslot⟩
    rw [h] at hmem
    rcases List.mem_cons.mp hmem with rfl | hmem
    · omega
    · have := hsorted.1 j hmem
      omega
  refine ⟨hle, hslot, hnone, ?_⟩
  rw [slotsFrom_skip hle hnone, slotsFrom_eq hslot.start_lt, if_pos hslot] at h
  obtain ⟨front, c, d, back, rfl, rfl, -, -⟩ := slotAt_iff.mp hslot
  have hinside := slotsFrom_inside (front ++ [c]) (d :: back)
  simp only [List.length_append, List.length_singleton, List.append_assoc,
    List.singleton_append] at hinside
  rw [← hinside]
  exact (List.cons.inj h).2.symm

/-- Putting values without slots into all slots leaves none. -/
theorem slotless_replaced {text : List Char} {pos : Nat} {edits : List (Nat × String)}
    (hpos : pos ≤ text.length) (hslots : edits.map Prod.fst = slotsFrom text pos)
    (hvalues : ∀ edit ∈ edits, Slotless edit.2.toList) : Slotless (replaced text pos edits) := by
  induction edits generalizing pos with
  | nil =>
      intro i hslot
      have hwhole := hslot.within (text.take pos) []
      rw [replaced, List.append_nil, List.take_append_drop, List.length_take,
        Nat.min_eq_left hpos] at hwhole
      have hmem := mem_slotsFrom.mpr ⟨Nat.le_add_right pos i, hwhole⟩
      rw [← hslots] at hmem
      cases hmem
  | cons edit edits ih =>
      obtain ⟨i, value⟩ := edit
      obtain ⟨hvalue, hvalues⟩ := List.forall_mem_cons.mp hvalues
      obtain ⟨hle, hslot, hnone, hothers⟩ := slotsFrom_eq_cons hslots.symm
      have hrest := ih (Nat.le_of_lt hslot.end_lt) hothers hvalues
      have hpiece : Slotless ((text.take i).drop pos) := by
        intro k hk
        have hwhole := hk.within (text.take pos) (text.drop i)
        have hlt := hk.start_lt
        have htake : text.take pos = (text.take i).take pos := by
          rw [List.take_take, Nat.min_eq_left hle]
        rw [htake, List.take_append_drop, List.take_append_drop, List.length_take,
          List.length_take] at hwhole
        rw [List.length_drop, List.length_take] at hlt
        refine hnone _ ?_ ?_ hwhole
        · omega
        · omega
      rw [replaced]
      exact hpiece.append_quote (hvalue.append_quote hrest)

/-! ## Ends of a filled text -/

/-- A text begins with the same character after its markers have been replaced. -/
theorem head?_replaced {text : List Char} {edits : List (Nat × String)}
    (h : ∀ edit ∈ edits, SlotAt text edit.1) : (replaced text 0 edits).head? = text.head? := by
  cases edits with
  | nil => rfl
  | cons edit edits =>
      have hslot := h edit List.mem_cons_self
      obtain ⟨i, hi⟩ := Nat.exists_eq_add_one.mpr hslot.2.1
      cases text with
      | nil => exact absurd hslot.start_lt (Nat.not_lt_zero _)
      | cons c text =>
          rw [replaced, hi]
          rfl

theorem getLast?_replaced {text : List Char} {pos : Nat} {edits : List (Nat × String)}
    (hpos : pos < text.length) (h : ∀ edit ∈ edits, SlotAt text edit.1) :
    (replaced text pos edits).getLast? = text.getLast? := by
  induction edits generalizing pos with
  | nil => rw [replaced, List.getLast?_drop, if_neg (Nat.not_le.mpr hpos)]
  | cons edit edits ih =>
      obtain ⟨hslot, hslots⟩ := List.forall_mem_cons.mp h
      have hrest := ih hslot.end_lt hslots
      have hne : text ≠ [] := List.ne_nil_of_length_pos (Nat.zero_lt_of_lt hpos)
      have hlast : text.getLast? = some (text.getLast hne) := List.getLast?_eq_some_getLast hne
      rw [hlast] at hrest ⊢
      simp [replaced, List.getLast?_append, List.getLast?_cons, hrest]

theorem trimmed_replaced {text : List Char} {edits : List (Nat × String)}
    (ht : Text.Trimmed text) (h : ∀ edit ∈ edits, SlotAt text edit.1) :
    Text.Trimmed (replaced text 0 edits) where
  front c hc := ht.front c (head?_replaced h ▸ hc)
  back c hc := by
    cases text with
    | nil =>
        cases edits with
        | nil => cases hc
        | cons edit edits => exact absurd (h edit List.mem_cons_self).start_lt (Nat.not_lt_zero _)
    | cons d text => exact ht.back c (getLast?_replaced (Nat.succ_pos _) h ▸ hc)

/-! ## Values without slots -/

namespace Values

variable {ρ : Type} [Sampler ρ]

/-- No value of the pool and no name holds a slot. -/
structure AllSlotless (v : Values) : Prop where
  pool : ∀ entry ∈ v.pool.entries, ∀ value ∈ entry.2, Slotless value.toList
  namer : ∀ hash length, Slotless (v.namer hash length).toList

theorem AllSlotless.value {v : Values} (hv : v.AllSlotless) (before after : List Char)
    (s : ρ) : Slotless (v.value before after s).1.toList := by
  obtain ⟨head, text, hadmits⟩ := v.exists_admits before after s
  refine hadmits.property hv.pool hv.namer fun letter number hlow hhigh => ?_
  apply Slotless.of_unopened
  intro c hc
  rcases coordinate_chars hlow hhigh number c hc with hletter | hnumeral
  · rintro (rfl | rfl | rfl) <;> exact absurd hletter (by decide)
  · rintro (rfl | rfl | rfl) <;> cases hnumeral

theorem standard_slotless : ({} : Values).AllSlotless where
  pool := by decide +kernel
  namer hash length := .of_unopened fun c hc =>
    not_opens_of_isAlpha (syllabic_isAlpha hash length c hc)

/-- The values drawn for the slots of a text hold none. -/
theorem AllSlotless.drawAll {v : Values} (hv : v.AllSlotless) {text : List Char}
    {slots : List Nat} {drawn : List (Nat × String)} (h : ∀ edit ∈ drawn, Slotless edit.2.toList)
    (s : ρ) : ∀ edit ∈ (v.drawAll text drawn slots s).1, Slotless edit.2.toList := by
  induction slots generalizing drawn s with
  | nil => exact h
  | cons i slots ih =>
      rw [drawAll_cons]
      refine ih (fun edit he => ?_) _
      rcases List.mem_append.mp he with he | he
      · exact h edit he
      · rw [List.mem_singleton.mp he]
        exact hv.value _ _ s

/-- What comes out of filling is trimmed and without slots. -/
theorem AllSlotless.fill {v : Values} (hv : v.AllSlotless) (text : String) (s : ρ) :
    Text.Trimmed (v.fill text s).1.toList ∧ Slotless (v.fill text s).1.toList := by
  have hfill := congrArg Prod.fst (v.fill_eq text s)
  rw [Prod.map_fst] at hfill
  rw [hfill, String.toList_ofList]
  have htrimmed := Text.trim_trimmed text.toList
  generalize Text.trim text.toList = t at htrimmed ⊢
  have hpositions : (v.drawAll t [] (slots t) s).1.map Prod.fst = slots t :=
    v.drawAll_positions t (slots t) [] s
  have hslots : ∀ edit ∈ (v.drawAll t [] (slots t) s).1, SlotAt t edit.1 := by
    intro edit he
    have hmem := List.mem_map_of_mem (f := Prod.fst) he
    rw [hpositions] at hmem
    exact mem_slots.mp hmem
  exact ⟨trimmed_replaced htrimmed hslots, slotless_replaced (Nat.zero_le _) hpositions
    (hv.drawAll (List.forall_mem_nil _) s)⟩

/-- A trimmed text without slots is left as it is, and nothing is drawn for it. -/
theorem fill_slotless (v : Values) {text : String} (ht : Text.Trimmed text.toList)
    (hs : Slotless text.toList) (s : ρ) : v.fill text s = (text, s) := by
  rw [v.fill_eq, ht.trim_eq, slotless_iff_slots.mp hs]
  change (String.ofList text.toList, s) = (text, s)
  rw [String.ofList_toList]

end Values

/-- Filling a filled text again changes nothing and draws nothing, whatever it is filled from the
second time. This holds of the standard values, and of all values that hold no slot themselves. -/
theorem fill_idempotent {ρ τ : Type} [Sampler ρ] [Sampler τ] :
    (∀ (text : String) (s : ρ) (s' : τ),
      ({} : Values).fill (({} : Values).fill text s).1 s' = ((({} : Values).fill text s).1, s')) ∧
    ∀ v : Values, v.AllSlotless → ∀ (w : Values) (text : String) (s : ρ) (s' : τ),
      w.fill (v.fill text s).1 s' = ((v.fill text s).1, s') := by
  constructor
  · intro text s s'
    obtain ⟨htrimmed, hslotless⟩ := Values.standard_slotless.fill text s
    exact Values.fill_slotless _ htrimmed hslotless s'
  · intro v hv w text s s'
    obtain ⟨htrimmed, hslotless⟩ := hv.fill text s
    exact w.fill_slotless htrimmed hslotless s'

/-- Values that hold the marker, with a delimiter on one side of it at most. -/
def wordyValues : Values where
  pool := .ofGroups [(["piece"], ["string", "a string", "string)"])]
  namer _ _ := "strings of string"

theorem fill_idempotent_wordyValues :
    wordyValues.AllSlotless ∧
      ({} : Values).fill
          (wordyValues.fill "(game string (piece string))" (Random.Source.seeded 0)).1 (.seeded 1) =
        ((wordyValues.fill "(game string (piece string))" (Random.Source.seeded 0)).1,
          Random.Source.seeded 1) := by
  have hpool : ∀ entry ∈ wordyValues.pool.entries, ∀ value ∈ entry.2,
      Slotless value.toList := by decide +kernel
  have hname : Slotless "strings of string".toList := by decide +kernel
  have hall : wordyValues.AllSlotless := ⟨hpool, fun _ _ => hname⟩
  have htwice := (fill_idempotent (ρ := Random.Source) (τ := Random.Source)).2 wordyValues hall
  exact ⟨hall, htwice {} "(game string (piece string))" (.seeded 0) (.seeded 1)⟩

end GameGrammar

import GameGrammar.Proofs.Slot.OneLine
import Mathlib.Data.List.Induction

/-! # Slots are filled as if all at once

Filling changes the text while it goes through it. Still the slots are exactly those of the text
as it was before, and none is lost, moved or made by the values that come in. -/

namespace GameGrammar

/-! ## The slots of a text -/

/-- Characters that may stand in front of a slot. -/
def Opens (c : Char) : Prop :=
  c = ' ' ∨ c = ':' ∨ c = '{'

/-- Characters that may stand behind a slot. -/
def Closes (c : Char) : Prop :=
  c = ' ' ∨ c = ')' ∨ c = '}'

instance : DecidablePred Opens :=
  fun _ => inferInstanceAs (Decidable (_ ∨ _))

instance : DecidablePred Closes :=
  fun _ => inferInstanceAs (Decidable (_ ∨ _))

theorem not_opens_of_isAlpha {c : Char} (h : c.isAlpha = true) : ¬ Opens c := by
  rintro (rfl | rfl | rfl) <;> cases h

theorem not_closes_of_isAlpha {c : Char} (h : c.isAlpha = true) : ¬ Closes c := by
  rintro (rfl | rfl | rfl) <;> cases h

/-- At position `i` stands the marker, with delimiters on both sides. -/
def SlotAt (text : List Char) (i : Nat) : Prop :=
  slotMarker <+: text.drop i ∧ 0 < i ∧ (∃ c ∈ text[i - 1]?, Opens c) ∧
    ∃ c ∈ text[i + slotMarker.length]?, Closes c

instance (text : List Char) : DecidablePred (SlotAt text) :=
  fun _ => inferInstanceAs (Decidable (_ ∧ _))

/-- The positions from `start` on where there is a slot, in order. -/
def slotsFrom (text : List Char) (start : Nat) : List Nat :=
  (List.range' start (text.length - start)).filter (SlotAt text)

def slots (text : List Char) : List Nat :=
  slotsFrom text 0

theorem SlotAt.end_lt {text : List Char} {i : Nat} (h : SlotAt text i) :
    i + slotMarker.length < text.length := by
  obtain ⟨-, -, -, c, hc, -⟩ := h
  exact (List.getElem?_eq_some_iff.mp hc).1

theorem SlotAt.start_lt {text : List Char} {i : Nat} (h : SlotAt text i) : i < text.length :=
  Nat.lt_of_le_of_lt (Nat.le_add_right i _) h.end_lt

theorem SlotAt.exists_split {text : List Char} {i : Nat} (h : SlotAt text i) :
    ∃ front rest, text = front ++ (slotMarker ++ rest) ∧ i = front.length := by
  obtain ⟨rest, hrest⟩ := h.1
  refine ⟨text.take i, rest, ?_, ?_⟩
  · rw [hrest, List.take_append_drop]
  · rw [List.length_take, Nat.min_eq_left (Nat.le_of_lt h.start_lt)]

theorem mem_slotsFrom {text : List Char} {start i : Nat} :
    i ∈ slotsFrom text start ↔ start ≤ i ∧ SlotAt text i := by
  rw [slotsFrom, List.mem_filter, decide_eq_true_eq, List.mem_range'_1]
  constructor
  · intro h
    exact ⟨h.1.1, h.2⟩
  · intro h
    have hlt := h.2.end_lt
    exact ⟨⟨h.1, by omega⟩, h.2⟩

theorem mem_slots {text : List Char} {i : Nat} : i ∈ slots text ↔ SlotAt text i := by
  simp [slots, mem_slotsFrom]

theorem slotsFrom_increasing (text : List Char) (start : Nat) :
    (slotsFrom text start).Pairwise (· < ·) :=
  List.Pairwise.filter _ List.pairwise_lt_range'

theorem slotsFrom_of_le {text : List Char} {start : Nat} (h : text.length ≤ start) :
    slotsFrom text start = [] := by
  rw [slotsFrom, Nat.sub_eq_zero_of_le h]
  rfl

theorem slotsFrom_eq {text : List Char} {start : Nat} (h : start < text.length) :
    slotsFrom text start =
      if SlotAt text start then start :: slotsFrom text (start + 1)
      else slotsFrom text (start + 1) := by
  have hlength : text.length - start = text.length - (start + 1) + 1 := by omega
  rw [slotsFrom, hlength, List.range'_succ, List.filter_cons]
  simp only [decide_eq_true_eq]
  rfl

theorem slotsFrom_skip {text : List Char} {start stop : Nat} (hle : start ≤ stop)
    (h : ∀ i, start ≤ i → i < stop → ¬ SlotAt text i) :
    slotsFrom text start = slotsFrom text stop := by
  induction hle with
  | refl => rfl
  | @step stop hle ih =>
      rw [ih fun i hi hlt => h i hi (Nat.lt_succ_of_lt hlt)]
      by_cases hend : stop < text.length
      · rw [slotsFrom_eq hend, if_neg (h stop hle (Nat.lt_succ_self stop))]
      · rw [slotsFrom_of_le (by omega), slotsFrom_of_le (by omega)]

/-- No slot begins inside a marker, as the marker does not overlap itself. -/
theorem not_slotAt_inside {front rest : List Char} {k : Nat} (hpos : 0 < k)
    (hlt : k < slotMarker.length) :
    ¬ SlotAt (front ++ (slotMarker ++ rest)) (front.length + k) := by
  intro h
  have hother : ∀ k < slotMarker.length, 0 < k → slotMarker[k]? ≠ some 's' := by decide
  have hs : (front ++ (slotMarker ++ rest))[front.length + k]? = some 's' := by
    obtain ⟨after, hafter⟩ := h.1
    rw [← List.head?_drop, ← hafter]
    rfl
  rw [List.getElem?_append_right (by omega), Nat.add_sub_cancel_left,
    List.getElem?_append_left hlt] at hs
  exact hother k hlt hpos hs

theorem slotsFrom_inside (front rest : List Char) :
    slotsFrom (front ++ (slotMarker ++ rest)) (front.length + 1) =
      slotsFrom (front ++ (slotMarker ++ rest)) (front.length + slotMarker.length) := by
  apply slotsFrom_skip
  · exact Nat.add_le_add_left (by decide) _
  · intro i hi hlt
    have hsplit : i = front.length + (i - front.length) := by omega
    rw [hsplit]
    exact not_slotAt_inside (by omega) (by omega)

/-- Whether a marker is a slot shows on the two sides of it. -/
theorem slotAt_append {front rest : List Char} :
    SlotAt (front ++ (slotMarker ++ rest)) front.length ↔
      (∃ c ∈ front.getLast?, Opens c) ∧ ∃ c ∈ rest.head?, Closes c := by
  have hmarker : slotMarker <+: (front ++ (slotMarker ++ rest)).drop front.length := by
    rw [List.drop_left]
    exact List.prefix_append _ _
  have hafter :
      (front ++ (slotMarker ++ rest))[front.length + slotMarker.length]? = rest.head? := by
    rw [List.getElem?_append_right (by omega), Nat.add_sub_cancel_left,
      List.getElem?_append_right (by omega), Nat.sub_self, List.head?_eq_getElem?]
  rw [SlotAt, hafter]
  cases front using List.reverseRecOn with
  | nil => simp
  | append_singleton front c =>
      have hbefore :
          (front ++ [c] ++ (slotMarker ++ rest))[(front ++ [c]).length - 1]? = some c := by
        simp
      rw [hbefore, List.getLast?_concat]
      constructor
      · intro h
        exact h.2.2
      · intro h
        exact ⟨hmarker, by simp, h⟩

/-- Between two slots there is a delimiter at least. -/
theorem SlotAt.apart {text : List Char} {i j : Nat} (hi : SlotAt text i) (hj : SlotAt text j)
    (hlt : i < j) : i + slotMarker.length < j := by
  obtain ⟨front, rest, rfl, rfl⟩ := hi.exists_split
  by_contra hle
  obtain ⟨k, rfl⟩ := Nat.exists_eq_add_of_lt hlt
  rcases Nat.lt_or_eq_of_le (show k + 1 ≤ slotMarker.length by omega) with hk | hk
  · exact not_slotAt_inside (Nat.succ_pos k) hk hj
  · obtain ⟨-, c, hc, hcloses⟩ := slotAt_append.mp hi
    obtain ⟨after, hafter⟩ := hj.1
    rw [Nat.add_assoc, hk, ← List.append_assoc,
      List.drop_left' (List.length_append ..)] at hafter
    rw [← hafter] at hc
    obtain rfl : 's' = c := Option.some.inj hc
    exact absurd hcloses (by decide)

theorem slots_apart (text : List Char) :
    (slots text).Pairwise fun i j => i + slotMarker.length < j :=
  (slotsFrom_increasing text 0).imp_of_mem fun hi hj hlt =>
    (mem_slots.mp hi).apart (mem_slots.mp hj) hlt

theorem isSlot_iff {before after : List Char} :
    isSlot before after = true ↔
      (∃ c ∈ before.head?, Opens c) ∧ ∃ c ∈ after.head?, Closes c := by
  simp only [isSlot, Bool.and_eq_true, Option.any_eq_true, Option.mem_def, Opens, Closes,
    beq_iff_eq, Bool.or_eq_true, or_assoc]

/-! ## Replacing markers -/

/-- The text from `pos` on, with quoted values in place of the markers at the given positions. -/
def replaced (text : List Char) : (pos : Nat) → List (Nat × String) → List Char
  | pos, [] => text.drop pos
  | pos, (i, value) :: edits =>
    (text.take i).drop pos ++
      ('"' :: value.toList ++ '"' :: replaced text (i + slotMarker.length) edits)

section

variable {ρ : Type} [Sampler ρ]

namespace Values

/-- Draws a value for the slot at position `i`. It is drawn for the text in which the values drawn
before stand in place of their markers, at the place that the marker has come to there. -/
def valueAt (v : Values) (text : List Char) (drawn : List (Nat × String)) (i : Nat) :
    StateM ρ String :=
  let current := replaced text 0 drawn
  let start := (replaced (text.take i) 0 drawn).length
  v.value (current.take start).reverse (current.drop start)

/-- Draws values for the slots at the given positions, one after another. -/
def drawAll (v : Values) (text : List Char) (drawn : List (Nat × String)) :
    List Nat → StateM ρ (List (Nat × String))
  | [] => return drawn
  | i :: slots => do
    let value ← v.valueAt text drawn i
    v.drawAll text (drawn ++ [(i, value)]) slots

theorem drawAll_cons (v : Values) (text : List Char) (drawn : List (Nat × String)) (i : Nat)
    (slots : List Nat) (s : ρ) :
    v.drawAll text drawn (i :: slots) s =
      v.drawAll text (drawn ++ [(i, (v.valueAt text drawn i s).1)]) slots
        (v.valueAt text drawn i s).2 :=
  rfl

/-- What is drawn goes with the slots one by one. -/
theorem drawAll_positions (v : Values) (text : List Char) (slots : List Nat)
    (drawn : List (Nat × String)) (s : ρ) :
    (v.drawAll text drawn slots s).1.map Prod.fst = drawn.map Prod.fst ++ slots := by
  induction slots generalizing drawn s with
  | nil => exact (List.append_nil _).symm
  | cons i slots ih =>
      rw [drawAll_cons, ih, List.map_append, List.append_assoc]
      rfl

end Values

/-- The edits do not go beyond the front of the text. -/
def Within (front : List Char) (edits : List (Nat × String)) : Prop :=
  ∀ edit ∈ edits, edit.1 + slotMarker.length ≤ front.length

theorem replaced_append {front : List Char} {edits : List (Nat × String)} {pos : Nat}
    (hp : pos ≤ front.length) (h : Within front edits) (rest : List Char) :
    replaced (front ++ rest) pos edits = replaced front pos edits ++ rest := by
  induction edits generalizing pos with
  | nil => rw [replaced, replaced, List.drop_append_of_le_length hp]
  | cons edit edits ih =>
      obtain ⟨hedit, hedits⟩ := List.forall_mem_cons.mp h
      have hi : edit.1 ≤ front.length := Nat.le_of_add_right_le hedit
      rw [replaced, replaced, ih hedit hedits, List.take_append_of_le_length hi]
      simp only [List.append_assoc, List.cons_append]

theorem replaced_concat {front : List Char} {edits : List (Nat × String)} {pos : Nat}
    (hp : pos ≤ front.length) (h : Within front edits) (value : String) :
    replaced (front ++ slotMarker) pos (edits ++ [(front.length, value)]) =
      replaced front pos edits ++ ('"' :: value.toList ++ ['"']) := by
  induction edits generalizing pos with
  | nil =>
      simp [replaced]
  | cons edit edits ih =>
      obtain ⟨hedit, hedits⟩ := List.forall_mem_cons.mp h
      have hi : edit.1 ≤ front.length := Nat.le_of_add_right_le hedit
      rw [List.cons_append, replaced, replaced, ih hedit hedits, List.take_append_of_le_length hi]
      simp only [List.append_assoc, List.cons_append]

/-! ## Filling -/

namespace Values

/-- Filling has gone through `front` with these edits; `before` is what is there instead of it. An
edit does not change what may stand behind it as a delimiter. -/
structure Filled (before front : List Char) (edits : List (Nat × String)) : Prop where
  text_eq : before.reverse = replaced front 0 edits
  opens : (∃ c ∈ before.head?, Opens c) ↔ ∃ c ∈ front.getLast?, Opens c
  within : Within front edits

namespace Filled

variable {before front : List Char} {edits : List (Nat × String)}

theorem char (h : Filled before front edits) (c : Char) :
    Filled (c :: before) (front ++ [c]) edits where
  text_eq := by
    rw [List.reverse_cons, h.text_eq, replaced_append (Nat.zero_le _) h.within]
  opens := by rw [List.head?_cons, List.getLast?_concat]
  within edit he := by
    have hedit := h.within edit he
    rw [List.length_append]
    omega

theorem append (h : Filled before front edits) (text : List Char) :
    Filled (text.reverse ++ before) (front ++ text) edits := by
  induction text generalizing before front with
  | nil => simpa using h
  | cons c text ih => simpa using ih (h.char c)

theorem slot (h : Filled before front edits) (value : String) :
    Filled ('"' :: value.toList.reverse ++ '"' :: before) (front ++ slotMarker)
      (edits ++ [(front.length, value)]) where
  text_eq := by
    rw [replaced_concat (Nat.zero_le _) h.within, ← h.text_eq]
    simp
  opens := by simp [slotMarker, Opens]
  within edit he := by
    rw [List.length_append]
    rcases List.mem_append.mp he with he | he
    · have hedit := h.within edit he
      omega
    · obtain rfl := List.mem_singleton.mp he
      exact Nat.le_refl _

end Filled

/-- The slots that are found are those of the text as it was. -/
theorem Filled.isSlot_iff {before front : List Char} {edits : List (Nat × String)}
    (h : Filled before front edits) (rest : List Char) :
    isSlot before rest = true ↔ SlotAt (front ++ (slotMarker ++ rest)) front.length := by
  rw [GameGrammar.isSlot_iff, slotAt_append, h.opens]

theorem valueAt_eq (v : Values) {before front : List Char} {edits : List (Nat × String)}
    (h : Filled before front edits) (rest : List Char) :
    v.valueAt (ρ := ρ) (front ++ rest) edits front.length = v.value before rest := by
  have hcurrent : replaced (front ++ rest) 0 edits = before.reverse ++ rest := by
    rw [replaced_append (Nat.zero_le _) h.within, h.text_eq]
  have hstart : replaced ((front ++ rest).take front.length) 0 edits = before.reverse := by
    rw [List.take_left, h.text_eq]
  simp only [valueAt, hcurrent, hstart]
  rw [List.take_left, List.drop_left, List.reverse_reverse]

/-- From any point on, filling draws values for the slots that are still to come in the text as it
was, and puts them in. -/
theorem fillFrom_eq (v : Values) {text before front rest : List Char}
    {edits : List (Nat × String)} (ht : front ++ rest = text) (h : Filled before front edits)
    (s : ρ) :
    v.fillFrom before rest s =
      Prod.map (replaced text 0) id (v.drawAll text edits (slotsFrom text front.length) s) := by
  fun_induction fillFrom (ρ := ρ) v before rest generalizing front edits s with
  | case1 before rest hslot ih =>
      obtain rfl : front ++ (slotMarker ++ rest) = text := ht
      have hat := (h.isSlot_iff rest).mp hslot
      have hrest := ih (v.value before (slotMarker ++ rest) s).1 (List.append_assoc ..) (h.slot _)
        (v.value before (slotMarker ++ rest) s).2
      rw [slotsFrom_eq hat.start_lt, if_pos hat, slotsFrom_inside, drawAll_cons,
        v.valueAt_eq h]
      rw [List.length_append] at hrest
      exact hrest
  | case2 before rest hslot ih =>
      obtain rfl : front ++ (slotMarker ++ rest) = text := ht
      have hnot : ¬ SlotAt (front ++ (slotMarker ++ rest)) front.length := fun hat =>
        hslot ((h.isSlot_iff rest).mpr hat)
      have hrest := ih (List.append_assoc ..) (h.append slotMarker) s
      rw [slotsFrom_eq (by simp [slotMarker]), if_neg hnot, slotsFrom_inside]
      rw [List.length_append] at hrest
      exact hrest
  | case3 before c rest hc ih =>
      have hnot : ¬ SlotAt text front.length := by
        intro hat
        obtain ⟨after, hafter⟩ := hat.1
        rw [← ht, List.drop_left] at hafter
        injection hafter with hhead htail
        exact hc after hhead.symm htail.symm
      have hlt : front.length < text.length := by
        rw [← ht]
        simp
      have hrest := ih (by simpa using ht) (h.char c) s
      rw [slotsFrom_eq hlt, if_neg hnot]
      rw [List.length_append] at hrest
      exact hrest
  | case4 before =>
      obtain rfl : front = text := by simpa using ht
      rw [slotsFrom_of_le (Nat.le_refl _), h.text_eq]
      rfl

theorem fill_eq (v : Values) (text : String) (s : ρ) :
    v.fill text s =
      Prod.map (fun edits => String.ofList (replaced (Text.trim text.toList) 0 edits)) id
        (v.drawAll (Text.trim text.toList) [] (slots (Text.trim text.toList)) s) := by
  have hnone : Filled [] [] [] := ⟨rfl, by simp, List.forall_mem_nil _⟩
  have hfill : v.fill text s =
      Prod.map String.ofList id (v.fillFrom [] (Text.trim text.toList) s) := rfl
  rw [hfill, v.fillFrom_eq rfl hnone]
  rfl

end Values

/-- Filling is one replacement in the trimmed text: each marker that stands between delimiters there
is replaced by a quoted value, and all else stays. The values are drawn from left to right, each for
the text that has the earlier values in it. What the values are does not matter, and neither does
what they hold. Without slots nothing is drawn. -/
theorem fill_simultaneous (v : Values) (text : String) (s : ρ) :
    let t := Text.trim text.toList
    let drawn := v.drawAll t [] (slots t) s
    v.fill text s = (String.ofList (replaced t 0 drawn.1), drawn.2) ∧
    drawn.1.map Prod.fst = slots t ∧ (∀ i, i ∈ slots t ↔ SlotAt t i) ∧
    (slots t).Pairwise (fun i j => i + slotMarker.length < j) ∧
    (slots t = [] → v.fill text s = (String.ofList t, s)) := by
  refine ⟨v.fill_eq text s, v.drawAll_positions _ _ [] s, fun i => mem_slots, slots_apart _,
    fun hnone => ?_⟩
  rw [v.fill_eq, hnone]
  rfl

end

/-- A space between two markers closes the first slot and opens the second one. -/
example : slots "(track name:string \x7bstring string\x7d strings)".toList = [12, 20, 27] := by
  decide

end GameGrammar

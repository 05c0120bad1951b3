import GameGrammar.Proofs.Decimal.Characters
import GameGrammar.Slot.Fill

/-! # Values for slots

The value of a slot is one that its form admits. No value that the standard pool and namer give
has a parenthesis. -/

namespace GameGrammar

open GameGrammar.Random

/-! ## Texts without parentheses -/

/-- The text has no parenthesis. -/
def Flat (text : String) : Prop :=
  '(' ∉ text.toList ∧ ')' ∉ text.toList

instance (text : String) : Decidable (Flat text) :=
  inferInstanceAs (Decidable (_ ∧ _))

/-- No value of the pool and no name has a parenthesis. -/
structure Values.AllFlat (v : Values) : Prop where
  pool : ∀ entry ∈ v.pool.entries, ∀ value ∈ entry.2, Flat value
  namer : ∀ hash length, Flat (v.namer hash length)

/-! ## Values that a form admits -/

/-- What may fill a slot of a form with this head while the text stands as it does: the name of
the game, a value that the pool lists for the head, or a coordinate. -/
def Values.Admits (v : Values) (head text value : String) : Prop :=
  if head.toLower ∈ ["game", "match", "subgame"] then value = v.namer (textHash text) 4
  else
    match v.pool.get? head with
    | some values => value ∈ values
    | none => ∃ (letter : Char) (number : Nat), 'A' ≤ letter ∧ letter ≤ 'Z' ∧ number ≤ 25 ∧
        value = String.ofList [letter] ++ toString number

theorem isIdentityHead_iff {head : String} :
    isIdentityHead head.toList = true ↔ head.toLower ∈ ["game", "match", "subgame"] := by
  have hlower (name : String) (hn : name.toList.map Char.toLower = name.toList) :
      Text.sameLetters name.toList head.toList = true ↔ head.toLower = name := by
    have hmap : head.toLower.toList = head.toList.map Char.toLower := String.toList_map
    rw [Text.sameLetters, beq_iff_eq, hn, ← String.toList_inj, hmap, eq_comm]
  simp only [isIdentityHead, identityHeads, List.any_cons, List.any_nil, Bool.or_false,
    Bool.or_eq_true, hlower "game" rfl, hlower "match" rfl, hlower "subgame" rfl,
    List.mem_cons, List.not_mem_nil, or_false]

theorem Pool.get?_mem {p : Pool} {head : String} {values : List String}
    (h : p.get? head = some values) :
    0 < values.length ∧ ∃ entry ∈ p.entries, entry.2 = values := by
  unfold Pool.get? at h
  split at h
  · next v vs hf =>
      cases h
      obtain ⟨entry, he, hv⟩ := Option.map_eq_some_iff.mp hf
      exact ⟨Nat.succ_pos _, entry, List.mem_of_find?_eq_some he, hv⟩
  · cases h

section

variable {ρ : Type} [Sampler ρ]

theorem coordinate_admitted (s : ρ) :
    ∃ (letter : Char) (number : Nat), 'A' ≤ letter ∧ letter ≤ 'Z' ∧ number ≤ 25 ∧
      (Values.coordinate s).1 = String.ofList [letter] ++ toString number := by
  have hletters : ∀ n : Fin 26, 'A' ≤ Char.ofNat (65 + n) ∧ Char.ofNat (65 + n) ≤ 'Z' := by
    decide
  let drawn := Sampler.letter s
  obtain ⟨hlow, hhigh⟩ := hletters drawn.1
  exact ⟨_, (Sampler.number drawn.2).1, hlow, hhigh, Nat.le_of_lt_succ (Fin.isLt _), rfl⟩

/-- The value drawn for a slot is one that its form admits. -/
theorem Values.value_admitted (v : Values) {before after : List Char} {head : String}
    (h : enclosingName before after = head.toList) (s : ρ) :
    v.Admits head (String.ofList (before.reverse ++ after)) (v.value before after s).1 := by
  unfold Values.Admits
  split
  · next hid =>
      have hi := isIdentityHead_iff.mpr hid
      simp only [Values.value, h, hi, if_true]
      rfl
  · next hid =>
      have hi : ¬ isIdentityHead head.toList = true := fun hi => hid (isIdentityHead_iff.mp hi)
      simp only [Values.value, h, hi, String.ofList_toList]
      cases hp : v.pool.get? head with
      | none => exact coordinate_admitted s
      | some values =>
          cases values with
          | nil => exact absurd (Pool.get?_mem hp).1 (Nat.lt_irrefl 0)
          | cons first others =>
              exact List.get_mem (first :: others) (Sampler.position others.length s).1

end

/-- What holds of the values of the pool, of all names and of coordinates holds of whatever may
fill a slot. -/
theorem Values.Admits.property {v : Values} {P : String → Prop}
    (hpool : ∀ entry ∈ v.pool.entries, ∀ value ∈ entry.2, P value)
    (hnamer : ∀ hash length, P (v.namer hash length))
    (hcoordinate : ∀ (letter : Char) (number : Nat), 'A' ≤ letter → letter ≤ 'Z' →
      P (String.ofList [letter] ++ toString number))
    {head text value : String} (h : v.Admits head text value) : P value := by
  unfold Values.Admits at h
  split at h
  · exact h ▸ hnamer _ _
  · split at h
    · next values hp =>
        obtain ⟨-, entry, he, rfl⟩ := Pool.get?_mem hp
        exact hpool entry he value h
    · obtain ⟨letter, number, hlow, hhigh, -, rfl⟩ := h
      exact hcoordinate letter number hlow hhigh

/-- A coordinate is written with a capital and a numeral. -/
theorem coordinate_chars {letter : Char} (hlow : 'A' ≤ letter) (hhigh : letter ≤ 'Z')
    (number : Nat) : ∀ c ∈ (String.ofList [letter] ++ toString number).toList,
      ('A' ≤ c ∧ c ≤ 'Z') ∨ Decimal.isNumeral c = true := by
  intro c hc
  rw [String.toList_append, String.toList_ofList, List.singleton_append, List.mem_cons] at hc
  rcases hc with rfl | hc
  · exact .inl ⟨hlow, hhigh⟩
  · exact .inr (Decimal.Numeral.nat number c hc)

/-- A value that may fill a slot has no parenthesis if the given ones have none. -/
theorem Values.AllFlat.admitted {v : Values} (hv : v.AllFlat) {head text value : String}
    (h : v.Admits head text value) : Flat value := by
  refine h.property hv.pool hv.namer fun letter number hlow hhigh => ?_
  constructor
  · intro hc
    rcases coordinate_chars hlow hhigh number _ hc with hletter | hnumeral
    · exact absurd hletter (by decide)
    · cases hnumeral
  · intro hc
    rcases coordinate_chars hlow hhigh number _ hc with hletter | hnumeral
    · exact absurd hletter (by decide)
    · cases hnumeral

/-! ## The standard values -/

/-- Syllables are drawn one after another from the list. -/
theorem drawSyllables_succ (n : Nat) (s : Source) :
    ∃ word ∈ Namer.syllables, ∃ s',
      (Namer.drawSyllables (n + 1) s).1 = word ++ (Namer.drawSyllables n s').1 :=
  ⟨_, List.get_mem _ _, _, rfl⟩

/-- A syllable that is drawn has small letters only. -/
theorem drawSyllables_isLower (n : Nat) (s : Source) :
    ∀ c ∈ (Namer.drawSyllables n s).1.toList, c.isLower = true := by
  have hall : ∀ word ∈ Namer.syllables, ∀ c ∈ word.toList, c.isLower = true := by decide
  induction n generalizing s with
  | zero => exact List.forall_mem_nil _
  | succ n ih =>
      obtain ⟨word, hword, s', hdraw⟩ := drawSyllables_succ n s
      intro c hc
      rw [hdraw, String.toList_append, List.mem_append] at hc
      rcases hc with hc | hc
      · exact hall word hword c hc
      · exact ih s' c hc

/-- A name is the word that has been drawn, with a capital. There is a letter at least. -/
theorem exists_syllabic (hash : UInt64) (length : Nat) :
    ∃ c cs, (Namer.drawSyllables (max length 1) (.seeded hash)).1.toList = c :: cs ∧
      (Namer.syllabic hash length).toList = c.toUpper :: cs := by
  have hall : ∀ word ∈ Namer.syllables, word.toList ≠ [] := by decide
  have hword : (Namer.drawSyllables (max length 1) (.seeded hash)).1.toList ≠ [] := by
    obtain ⟨n, hn⟩ := Nat.exists_eq_add_one.mpr (Nat.le_max_right length 1)
    obtain ⟨word, hword, s', hdraw⟩ := drawSyllables_succ n (.seeded hash)
    rw [hn, hdraw, String.toList_append]
    exact List.append_ne_nil_of_left_ne_nil (hall word hword) _
  obtain ⟨c, cs, hcs⟩ := List.exists_cons_of_ne_nil hword
  refine ⟨c, cs, hcs, ?_⟩
  rw [Namer.syllabic, Namer.capitalised, hcs, String.toList_ofList]

theorem isAlpha_toUpper {c : Char} (h : c.isLower = true) : c.toUpper.isAlpha = true := by
  have hall : ∀ n < 26, (Char.ofNat (97 + n)).toUpper.isAlpha = true := by decide
  have hlower : (decide (97 ≤ c.toNat) && decide (c.toNat ≤ 122)) = true := h
  rw [Bool.and_eq_true, decide_eq_true_eq, decide_eq_true_eq] at hlower
  obtain ⟨hlow, hhigh⟩ := hlower
  have hc := hall (c.toNat - 97) (by omega)
  rwa [Nat.add_sub_cancel' hlow, Char.ofNat_toNat] at hc

/-- The name of a game is made of letters. -/
theorem syllabic_isAlpha (hash : UInt64) (length : Nat) :
    ∀ c ∈ (Namer.syllabic hash length).toList, c.isAlpha = true := by
  have hlower := drawSyllables_isLower (max length 1) (.seeded hash)
  obtain ⟨d, ds, hword, hname⟩ := exists_syllabic hash length
  rw [hword] at hlower
  intro c hc
  rw [hname] at hc
  rcases List.mem_cons.mp hc with rfl | hc
  · exact isAlpha_toUpper (hlower d List.mem_cons_self)
  · exact Bool.or_eq_true_iff.mpr (.inr (hlower c (List.mem_cons_of_mem d hc)))

theorem Values.standard_flat : ({} : Values).AllFlat where
  pool := by decide +kernel
  namer hash length := by
    constructor
    · intro hc
      cases syllabic_isAlpha hash length _ hc
    · intro hc
      cases syllabic_isAlpha hash length _ hc

end GameGrammar

import GameGrammar.Funnel.Restriction
import GameGrammar.Proofs.Slot.Simultaneous
import GameGrammar.Proofs.Text.Case
import Mathlib.Data.List.Chain
import Mathlib.Data.List.Find

/-! # The text gate and filled slots

Restrictions on a text look for words. Filling its slots neither brings one of these words into the
text nor takes one out of it, so the gate gives the same verdict before and after. -/

namespace GameGrammar

/-! ## Occurrences of a word -/

theorem occursIn_iff {word text : List Char} : occursIn word text = true ↔ word <:+: text := by
  induction text with
  | nil => simp [occursIn]
  | cons c cs ih =>
      rw [occursIn, Bool.or_eq_true, ih, List.isPrefixOf_iff_prefix, List.infix_cons_iff]

/-! ## Words that filling does not touch -/

/-- A word that stands neither across the sides of a slot nor in its marker, and in no coordinate.
-/
structure Steady (word : List Char) : Prop where
  unblank : ∀ c ∈ word, Text.isBlank c = false
  unquoted : '"' ∉ word
  unopened : ∀ c ∈ word, ¬ Opens c
  unclosed : ∀ c ∈ word, ¬ Closes c
  unmarked : ¬ word <:+: slotMarker
  foreign : ∃ c ∈ word, ¬ (('A' ≤ c ∧ c ≤ 'Z') ∨ Decimal.isNumeral c = true)

namespace Values

variable {ρ : Type} [Sampler ρ] {v : Values} {word : List Char}

/-- The word stands in no value of the pool and in no name. -/
structure Avoids (v : Values) (word : List Char) : Prop where
  pool : ∀ entry ∈ v.pool.entries, ∀ value ∈ entry.2, ¬ word <:+: value.toList
  namer : ∀ hash length, ¬ word <:+: (v.namer hash length).toList

theorem Avoids.value (hv : v.Avoids word) (hw : Steady word) (before after : List Char)
    (s : ρ) : ¬ word <:+: (v.value before after s).1.toList := by
  obtain ⟨head, text, hadmits⟩ := v.exists_admits before after s
  refine hadmits.property hv.pool hv.namer fun letter number hlow hhigh hword => ?_
  obtain ⟨c, hc, hforeign⟩ := hw.foreign
  exact hforeign (coordinate_chars hlow hhigh number c (hword.subset hc))

/-- What comes between the sides of a slot, marker or quoted value, neither holds the word nor lets
it reach across. -/
theorem Avoids.fillFrom_iff (hv : v.Avoids word) (hw : Steady word) (before rest : List Char)
    (s : ρ) : word <:+: (v.fillFrom before rest s).1 ↔ word <:+: before.reverse ++ rest := by
  fun_induction fillFrom (ρ := ρ) v before rest generalizing s with
  | case1 before rest hslot ih =>
      obtain ⟨⟨c, hc, hopens⟩, d, hd, hcloses⟩ := isSlot_iff.mp hslot
      have hfront : ∃ c ∈ before.reverse.getLast?, c ∉ word :=
        ⟨c, by rwa [List.getLast?_reverse], fun hm => hw.unopened c hm hopens⟩
      have hback : ∃ d ∈ rest.head?, d ∉ word := ⟨d, hd, fun hm => hw.unclosed d hm hcloses⟩
      have hmarker : word <:+: before.reverse ++ (slotMarker ++ rest) ↔
          word <:+: before.reverse ∨ word <:+: rest := by
        rw [Text.infix_append_iff_of_getLast? hfront, Text.infix_append_iff_of_head? hback,
          or_iff_right hw.unmarked]
      -- the quotes part the value from the text as the delimiters part the marker
      have hvalue (value : String) (hfree : ¬ word <:+: value.toList) :
          word <:+: ('"' :: value.toList.reverse ++ '"' :: before).reverse ++ rest ↔
            word <:+: before.reverse ∨ word <:+: rest := by
        have hsides : ('"' :: value.toList.reverse ++ '"' :: before).reverse ++ rest =
            before.reverse ++ '"' :: (value.toList ++ '"' :: rest) := by simp
        rw [hsides, Text.infix_append_iff_of_head? ⟨'"', rfl, hw.unquoted⟩,
          Text.infix_cons_iff_of_not_mem hw.unquoted,
          Text.infix_append_iff_of_head? ⟨'"', rfl, hw.unquoted⟩,
          Text.infix_cons_iff_of_not_mem hw.unquoted, or_iff_right hfree]
      have hfree := hv.value hw before (slotMarker ++ rest) s
      exact (ih _ _).trans ((hvalue _ hfree).trans hmarker.symm)
  | case2 before rest hslot ih =>
      refine (ih s).trans ?_
      simp [slotMarker]
  | case3 before c rest hc ih =>
      refine (ih s).trans ?_
      simp
  | case4 before =>
      rw [List.append_nil]
      exact Iff.rfl

/-- Filling neither brings in the word nor takes it out. -/
theorem Avoids.fill_iff (hv : v.Avoids word) (hw : Steady word) (text : String) (s : ρ) :
    word <:+: (v.fill text s).1.toList ↔ word <:+: text.toList := by
  have hfill : (v.fill text s).1.toList = (v.fillFrom [] (Text.trim text.toList) s).1 :=
    String.toList_ofList
  rw [hfill, hv.fillFrom_iff hw, List.reverse_nil, List.nil_append, Text.infix_trim_iff hw.unblank]

end Values

/-! ## The words of restrictions -/

namespace Restriction

/-- The words that restrictions look for in a text. -/
def words : List String :=
  ["(play", "(end", "(match", "boardless"]

/-- The verdict on a text goes by the words that it mentions. -/
theorem rejectsText_congr {x y : String} (h : ∀ word ∈ words, mentions x word = mentions y word)
    (r : Restriction) : r.rejectsText x = r.rejectsText y := by
  cases r with
  | requirePlay => exact congrArg not (h "(play" (by decide))
  | requireEnd => exact congrArg not (h "(end" (by decide))
  | forbidMatch => exact h "(match" (by decide)
  | forbidBoardlessText => exact h "boardless" (by decide)
  | _ => rfl

theorem words_steady {word : String} (h : word ∈ words) : Steady word.toList := by
  have hall : ∀ word ∈ words, word.toList.all (fun c => c.isAlpha || c == '(') = true := by decide
  have hchar : ∀ c ∈ word.toList, c.isAlpha = true ∨ c = '(' := by
    simpa using List.all_eq_true.mp (hall word h)
  have hunmarked : ∀ word ∈ words, ¬ word.toList <:+: slotMarker := by decide
  have hforeign : ∀ word ∈ words, '(' ∈ word.toList ∨ 'b' ∈ word.toList := by decide
  constructor
  · intro c hc
    rcases hchar c hc with halpha | rfl
    · exact Text.isBlank_of_isAlpha halpha
    · decide
  · intro hc
    rcases hchar _ hc with halpha | he
    · cases halpha
    · cases he
  · intro c hc
    rcases hchar c hc with halpha | rfl
    · exact not_opens_of_isAlpha halpha
    · decide
  · intro c hc
    rcases hchar c hc with halpha | rfl
    · exact not_closes_of_isAlpha halpha
    · decide
  · exact hunmarked word h
  · rcases hforeign word h with hc | hc
    · exact ⟨'(', hc, by decide⟩
    · exact ⟨'b', hc, by decide⟩

end Restriction

/-! ## Standard values -/

def isVowel (c : Char) : Bool :=
  ['a', 'e', 'i', 'o', 'u'].contains c

/-- Nowhere in a name do two consonants stand side by side. -/
theorem drawSyllables_isChain (n : Nat) (s : Random.Source) :
    (Namer.drawSyllables n s).1.toList.IsChain fun c d => isVowel c = true ∨ isVowel d = true := by
  have hinside : ∀ word ∈ Namer.syllables,
      word.toList.IsChain fun c d => isVowel c = true ∨ isVowel d = true := by decide +kernel
  have hlast : ∀ word ∈ Namer.syllables, word.toList.getLast?.all isVowel = true := by
    decide +kernel
  induction n generalizing s with
  | zero => exact .nil
  | succ n ih =>
      obtain ⟨word, hword, s', hdraw⟩ := drawSyllables_succ n s
      rw [hdraw, String.toList_append, List.isChain_append]
      refine ⟨hinside word hword, ih s', fun c hc d _ => .inl ?_⟩
      exact Option.all_eq_true _ _ |>.mp (hlast word hword) c hc

/-- A name begins with a capital, and what follows has no two consonants side by side. -/
theorem boardless_not_infix_syllabic (hash : UInt64) (length : Nat) :
    ¬ "boardless".toList <:+: (Namer.syllabic hash length).toList := by
  obtain ⟨c, cs, hword, hname⟩ := exists_syllabic hash length
  have hlower := drawSyllables_isLower (max length 1) (.seeded hash)
  have hchain := drawSyllables_isChain (max length 1) (.seeded hash)
  rw [hword] at hlower hchain
  rw [hname, List.infix_cons_iff]
  rintro (hfront | hrest)
  · have halpha : c.isAlpha = true := Bool.or_eq_true_iff.mpr (.inr (hlower c List.mem_cons_self))
    rw [← Char.isUpper_toUpper_eq_isAlpha, ← (List.cons_prefix_cons.mp hfront).1] at halpha
    cases halpha
  · have hword := List.IsChain.infix hchain.tail hrest
    exact absurd hword (by decide)

theorem Values.standard_avoids {word : String} (h : word ∈ Restriction.words) :
    ({} : Values).Avoids word.toList where
  pool := by
    have hall : ∀ word ∈ Restriction.words, ∀ entry ∈ ({} : Values).pool.entries,
        ∀ value ∈ entry.2, ¬ word.toList <:+: value.toList := by decide +kernel
    exact hall word h
  namer hash length := by
    have hall : ∀ word ∈ Restriction.words, '(' ∈ word.toList ∨ word = "boardless" := by decide
    rcases hall word h with hopening | rfl
    · intro hword
      cases syllabic_isAlpha hash length _ (hword.subset hopening)
    · exact boardless_not_infix_syllabic hash length

/-! ## The verdict on a filled text -/

/-- Values in which no word of a restriction stands leave the verdict as it is. -/
theorem textViolation?_fill_of_avoids {ρ : Type} [Sampler ρ] {v : Values}
    (hv : ∀ word ∈ Restriction.words, v.Avoids word.toList) (rs : Restrictions) (text : String)
    (s : ρ) : rs.textViolation? (v.fill text s).1 = rs.textViolation? text := by
  have hmentions : ∀ word ∈ Restriction.words,
      mentions (v.fill text s).1 word = mentions text word := by
    intro word hword
    have hiff := (hv word hword).fill_iff (Restriction.words_steady hword) text s
    rw [← occursIn_iff, ← occursIn_iff] at hiff
    exact Bool.eq_iff_iff.mpr hiff
  exact List.find?_congr fun r _ => Restriction.rejectsText_congr hmentions r

/-- Whatever restrictions are set, a text violates the same one first before and after its slots
have been filled with the standard values. -/
theorem textViolation?_fill {ρ : Type} [Sampler ρ] (rs : Restrictions) (text : String) (s : ρ) :
    rs.textViolation? (({} : Values).fill text s).1 = rs.textViolation? text :=
  textViolation?_fill_of_avoids (fun _ => Values.standard_avoids) rs text s

end GameGrammar

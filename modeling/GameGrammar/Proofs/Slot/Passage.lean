import GameGrammar.Proofs.Slot.Lookback
import GameGrammar.Proofs.Slot.Value
import GameGrammar.Proofs.Text.Characters

/-! # Filling from one end of a sketch to the other

Filling meets the slots of a sketch where completion has written them, and finds for each the
head of the form that wrote it. -/

namespace GameGrammar

/-! ## Filled sketches -/

/-- Filling the sketch gives `out`, where `before` is the text in front of it as it stands by
now and `after` the text behind it. Characters are kept, and each slot in turn gives way to a
quoted value that its form admits for the whole text as it stands at that moment. -/
inductive Fills (v : Values) : (before : List Char) → (sketch : Sketch) → (after : List Char) →
    (out : List Char) → Prop where
  | nil {before after : List Char} : Fills v before [] after []
  | char {before after out : List Char} {sketch : Sketch} {c : Char}
      (h : Fills v (before ++ [c]) sketch after out) :
      Fills v before (.char c :: sketch) after (c :: out)
  | slot {before after out : List Char} {sketch : Sketch} {head value : String}
      (hv : v.Admits head (String.ofList (before ++ slotMarker ++ sketch.chars ++ after)) value)
      (h : Fills v (before ++ '"' :: value.toList ++ ['"']) sketch after out) :
      Fills v before (.slot head :: sketch) after ('"' :: value.toList ++ '"' :: out)

namespace Fills

variable {v : Values} {before after : List Char}

theorem append {x y : Sketch} {out out' : List Char} (hx : Fills v before x (y.chars ++ after) out)
    (hy : Fills v (before ++ out) y after out') : Fills v before (x ++ y) after (out ++ out') := by
  induction x generalizing before out with
  | nil =>
      cases hx
      simpa using hy
  | cons s x ih =>
      cases hx with
      | char h =>
          exact .char (ih h (by simpa using hy))
      | slot hv h =>
          rw [List.append_assoc, List.cons_append]
          exact .slot (by simpa using hv) (ih h (by simpa using hy))

theorem plain (text : String) : Fills v before (Sketch.plain text) after text.toList := by
  have hchars (cs : List Char) : ∀ before, Fills v before (cs.map .char) after cs := by
    induction cs with
    | nil => exact fun _ => .nil
    | cons c cs ih => exact fun _ => .char (ih _)
  exact hchars text.toList before

end Fills

/-! ## Passing over a sketch -/

section

variable {ρ : Type} [Sampler ρ]

/-- Filling from the start of the sketch on comes to its end with `out` in place of it. -/
structure Passes (v : Values) (before : List Char) (sketch : Sketch) (after : List Char)
    (s : ρ) (out : List Char) (s' : ρ) : Prop where
  fills : Fills v before sketch after out
  run : v.fillFrom before.reverse (sketch.chars ++ after) s =
    v.fillFrom (before ++ out).reverse after s'

/-- The text does not go on with a letter of the marker. -/
def Edge (after : List Char) : Prop :=
  ∀ c ∈ after.head?, c ∉ slotMarker

/-- The text goes on with a character that may stand behind a slot. -/
def Stop (after : List Char) : Prop :=
  ∃ c ∈ after.head?, c = ' ' ∨ c = ')'

theorem Stop.edge {after : List Char} (h : Stop after) : Edge after := by
  obtain ⟨c, hc, hstop⟩ := h
  intro d hd
  obtain rfl : c = d := Option.mem_unique hc hd
  rcases hstop with rfl | rfl <;> decide

theorem fillFrom_char (v : Values) {before rest : List Char} {c : Char}
    (h : ¬ slotMarker <+: c :: rest) :
    v.fillFrom (ρ := ρ) before (c :: rest) = v.fillFrom (c :: before) rest := by
  rw [Values.fillFrom]
  rintro rest' rfl rfl
  exact h ⟨rest', rfl⟩

/-- A slot gives way to the value that is drawn for it, in quotes. -/
theorem fillFrom_slot (v : Values) {before rest : List Char} (h : isSlot before rest = true)
    (s : ρ) :
    v.fillFrom before (slotMarker ++ rest) s =
      v.fillFrom ('"' :: (v.value before (slotMarker ++ rest) s).1.toList.reverse ++ '"' :: before)
        rest (v.value before (slotMarker ++ rest) s).2 := by
  simp only [slotMarker, List.cons_append, List.nil_append, Values.fillFrom, h, if_true]
  rfl

namespace Passes

variable {v : Values} {before after : List Char} {s : ρ}

theorem append {x y : Sketch} {out out' : List Char} {s' s'' : ρ}
    (hx : Passes v before x (y.chars ++ after) s out s')
    (hy : Passes v (before ++ out) y after s' out' s'') :
    Passes v before (x ++ y) after s (out ++ out') s'' where
  fills := hx.fills.append hy.fills
  run := by
    rw [Sketch.chars_append, List.append_assoc, hx.run, hy.run, List.append_assoc]

theorem plain {text : String} (h : ¬ slotMarker <:+: text.toList) (ha : Edge after) :
    Passes v before (Sketch.plain text) after s text.toList s where
  fills := .plain text
  run := by
    rw [Sketch.chars_plain]
    generalize text.toList = cs at h
    induction cs generalizing before with
    | nil => simp
    | cons c cs ih =>
        have hc : ¬ slotMarker <+: c :: (cs ++ after) :=
          fun hp => h (Text.prefix_of_append hp ha).isInfix
        have hcs : ¬ slotMarker <:+: cs := fun hi => h (List.infix_cons hi)
        have htail : v.fillFrom (before ++ [c]).reverse (cs ++ after) s =
            v.fillFrom (before ++ [c] ++ cs).reverse after s := ih hcs
        rw [List.cons_append, fillFrom_char v hc]
        simpa using htail

theorem delimiter {c : Char} (hc : c ∉ slotMarker) :
    Passes v before [.char c] after s [c] s where
  fills := .char .nil
  run := by
    have hp : ¬ slotMarker <+: c :: after := by
      intro hp
      obtain ⟨rfl, -⟩ := List.cons_prefix_cons.mp hp
      exact hc List.mem_cons_self
    simpa [Sketch.chars, Symbol.chars] using congrFun (fillFrom_char v hp) s

theorem slot {head : String} (hv : v.AllFlat) (ha : Stop after)
    (hd : ∃ c ∈ before.getLast?, c = ' ' ∨ c = ':')
    (ho : enclosingName before.reverse (slotMarker ++ after) = head.toList) :
    ∃ value s', Passes v before [.slot head] after s ('"' :: value ++ ['"']) s' ∧
      Neutral ('"' :: value ++ ['"']) := by
  have hslot : isSlot before.reverse after = true := by
    obtain ⟨c, hc, hstop⟩ := ha
    obtain ⟨d, hd, hdelim⟩ := hd
    rw [Option.mem_def] at hc hd
    rw [isSlot, List.head?_reverse, hc, hd]
    rcases hstop with rfl | rfl <;> rcases hdelim with rfl | rfl <;> rfl
  have hvalue := v.value_admitted ho s
  rw [List.reverse_reverse] at hvalue
  have hflat := hv.admitted hvalue
  refine ⟨(v.value before.reverse (slotMarker ++ after) s).1.toList,
    (v.value before.reverse (slotMarker ++ after) s).2, ⟨?_, ?_⟩, ?_⟩
  · refine .slot ?_ .nil
    simpa using hvalue
  · have hstep := fillFrom_slot v hslot s
    simpa [Sketch.chars, Symbol.chars] using hstep
  · have hquote : ('(' ∉ ['"'] ∧ ')' ∉ ['"']) := by decide
    exact (Neutral.of_flat hquote.1 hquote.2).append
      ((Neutral.of_flat hflat.1 hflat.2).append (Neutral.of_flat hquote.1 hquote.2))

end Passes

/-- A form that is filled up to the end of the sketch: behind its head stands nothing that is
left open, and nothing that does not begin with a space. -/
structure Inside (v : Values) (head : String) (before : List Char) (sketch : Sketch)
    (after : List Char) (s : ρ) (tail : List Char) (s' : ρ) : Prop where
  inert : Inert head.toList
  word : ∀ c ∈ head.toList, Text.isBlank c = false
  passes : Passes v before sketch after s ('(' :: head.toList ++ tail) s'
  neutral : Neutral tail
  spaced : ∀ c ∈ tail.head?, c = ' '

/-- The text ends with a character that may stand in front of a slot. -/
def Gap (tail : List Char) : Prop :=
  ∃ c ∈ tail.getLast?, c = ' ' ∨ c = ':'

theorem Gap.ne_nil {tail : List Char} (h : Gap tail) : tail ≠ [] := by
  rintro rfl
  obtain ⟨c, hc, -⟩ := h
  cases hc

namespace Inside

variable {v : Values} {head : String} {before after tail : List Char} {s s' : ρ}

theorem append {out : List Char} {x y : Sketch} {s'' : ρ}
    (hx : Inside v head before x (y.chars ++ after) s tail s')
    (hy : Passes v (before ++ ('(' :: head.toList ++ tail)) y after s' out s'')
    (hn : Neutral out) (hs : tail ≠ [] ∨ out.head? = some ' ') :
    Inside v head before (x ++ y) after s (tail ++ out) s'' where
  inert := hx.inert
  word := hx.word
  passes := by simpa using hx.passes.append hy
  neutral := hx.neutral.append hn
  spaced := by
    cases tail with
    | nil =>
        intro c hc
        have ho : out.head? = some ' ' := by simpa using hs
        simpa [ho, eq_comm] using hc
    | cons c tail => simpa using hx.spaced c

/-- From behind a space or a colon the form is the one that is found. -/
theorem owner {sketch : Sketch} (h : Inside v head before sketch after s tail s')
    (hg : Gap tail) :
    enclosingName (before ++ ('(' :: head.toList ++ tail)).reverse after = head.toList := by
  apply enclosingName_eq h.inert h.word h.neutral
  cases tail with
  | nil => exact absurd rfl hg.ne_nil
  | cons c tail => rw [List.head?_cons, h.spaced c rfl]

end Inside

namespace Sketch

variable {v : Values}

theorem noMarker_of_chars {text : String} (h : 'g' ∉ text.toList) :
    ¬ slotMarker <:+: text.toList :=
  fun hm => h (hm.subset (by decide))

theorem noMarker_head {head : String} (h : Inert head.toList) :
    ¬ slotMarker <:+: ("(" ++ head).toList := by
  have htext : ("(" ++ head).toList = '(' :: head.toList := by simp
  rw [htext, List.infix_cons_iff]
  rintro (hp | hi)
  · exact absurd (List.cons_prefix_cons.mp hp).1 (by decide)
  · exact h.noMarker hi

theorem plain_label (l : String) : plain (l ++ ":") = plain l ++ [.char ':'] := by
  simp [plain]

/-- What is written after a value for its own sake: spaces and braces. -/
theorem passes_layout (text : String) (h : ∀ c ∈ text.toList, c ∈ [' ', '{', '}'])
    {before after : List Char} {s : ρ} (ha : Edge after) :
    Passes v before (plain text) after s text.toList s ∧ Neutral text.toList := by
  have ho : '(' ∉ text.toList := fun hm => absurd (h _ hm) (by decide)
  have hc : ')' ∉ text.toList := fun hm => absurd (h _ hm) (by decide)
  have hg : 'g' ∉ text.toList := fun hm => absurd (h _ hm) (by decide)
  exact ⟨.plain (noMarker_of_chars hg) ha, .of_flat ho hc⟩

mutual

/-- A closed sketch is filled wherever it stands, and then looked back over as a whole. -/
theorem Closed.passes (hv : v.AllFlat) {sketch : Sketch} (h : Closed sketch)
    (before after : List Char) (s : ρ) (ha : Edge after) :
    ∃ out s', Passes v before sketch after s out s' ∧ Neutral out :=
  match h with
  | .plain ht => ⟨_, _, .plain ht.noMarker ha, .of_flat ht.noOpening ht.noClosing⟩
  | @Closed.form head _ ho => by
      obtain ⟨tail, s', hi⟩ := ho.inside hv before ((plain ")").chars ++ after) s
        ⟨')', by simp, .inr rfl⟩
      have hbody : Neutral (head.toList ++ tail) :=
        (Neutral.of_flat hi.inert.noOpening hi.inert.noClosing).append hi.neutral
      refine ⟨_, s', hi.passes.append (.plain (noMarker_of_chars (by decide)) ha), ?_⟩
      simpa using hbody.form

/-- An open form is filled as far as it goes. -/
theorem Opened.inside (hv : v.AllFlat) {head : String} {sketch : Sketch} (h : Opened head sketch)
    (before after : List Char) (s : ρ) (ha : Stop after) :
    ∃ tail s', Inside v head before sketch after s tail s' :=
  match h with
  | .head hh hb => by
      refine ⟨[], s, hh, hb, ?_, .of_flat (by simp) (by simp), by simp⟩
      simpa using Passes.plain (noMarker_head hh) ha.edge
  | .brace hr => by
      obtain ⟨tail, s', hi, hg⟩ := hr.inside hv before ((plain "\x7b").chars ++ after) s
      obtain ⟨hp, hn⟩ := passes_layout (s := s') "\x7b" (by decide) ha.edge
      exact ⟨_, s', hi.append hp hn (.inl hg.ne_nil)⟩
  | .unbrace ho => by
      obtain ⟨tail, s', hi⟩ := ho.inside hv before ((plain " \x7d").chars ++ after) s
        ⟨' ', by simp, .inl rfl⟩
      obtain ⟨hp, hn⟩ := passes_layout (s := s') " \x7d" (by decide) ha.edge
      exact ⟨_, s', hi.append hp hn (.inr (by decide))⟩
  | .closed hr hc => by
      obtain ⟨tail, s', hi, hg⟩ := hr.inside hv before (chars _ ++ after) s
      obtain ⟨out, s'', hp, hn⟩ := hc.passes hv _ after s' ha.edge
      exact ⟨_, s'', hi.append hp hn (.inl hg.ne_nil)⟩
  | .slot hr => by
      obtain ⟨tail, s', hi, hg⟩ := hr.inside hv before (chars [.slot head] ++ after) s
      have hd : ∃ c ∈ (before ++ ('(' :: head.toList ++ tail)).getLast?, c = ' ' ∨ c = ':' := by
        obtain ⟨c, hc, hdelim⟩ := hg
        refine ⟨c, ?_, hdelim⟩
        rw [← List.append_assoc, List.getLast?_append, Option.mem_def.mp hc]
        rfl
      obtain ⟨value, s'', hp, hn⟩ := Passes.slot (s := s') hv ha hd (hi.owner hg)
      exact ⟨_, s'', hi.append hp hn (.inl hg.ne_nil)⟩

/-- A form is filled up to a place for a value, with a delimiter in front of it. -/
theorem Ready.inside (hv : v.AllFlat) {head : String} {sketch : Sketch} (h : Ready head sketch)
    (before after : List Char) (s : ρ) :
    ∃ tail s', Inside v head before sketch after s tail s' ∧ Gap tail :=
  match h with
  | .space ho => by
      obtain ⟨tail, s', hi⟩ := ho.inside hv before ((plain " ").chars ++ after) s
        ⟨' ', by simp, .inl rfl⟩
      have hp : Passes v (before ++ ('(' :: head.toList ++ tail)) [.char ' '] after s' [' '] s' :=
        .delimiter (by decide)
      exact ⟨_, s', hi.append hp (.of_flat (by decide) (by decide)) (.inr rfl), ' ', by simp,
        .inl rfl⟩
  | @Ready.label _ l _ hr hl => by
      obtain ⟨tail, s', hi, hg⟩ := hr.inside hv before ((plain (l ++ ":")).chars ++ after) s
      have hname : Passes v (before ++ ('(' :: head.toList ++ tail)) (plain l) (':' :: after) s'
          l.toList s' := .plain hl.noMarker (by simp [Edge, slotMarker])
      have hcolon : Passes v (before ++ ('(' :: head.toList ++ tail) ++ l.toList) [.char ':'] after
          s' [':'] s' := .delimiter (by decide)
      have hn : Neutral (l.toList ++ [':']) :=
        (Neutral.of_flat hl.noOpening hl.noClosing).append (.of_flat (by decide) (by decide))
      rw [plain_label] at hi ⊢
      exact ⟨_, s', hi.append (hname.append hcolon) hn (.inl hg.ne_nil), ':', by simp, .inr rfl⟩

end

end Sketch

end

end GameGrammar

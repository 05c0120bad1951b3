import GameGrammar.Completion.Engine
import GameGrammar.Proofs.Completion.Selection

/-! # Derivations

The texts of a rule are described by rules of derivation that mention neither policies nor
dialogues. A completion yields exactly the derivable texts, as far as the draws for a group
reach. -/

namespace GameGrammar.Completion

open Dialogue

/-! ## The rules of derivation -/

/-- The text of an answer of the primitive's kind. -/
inductive Primitive.Literal : Primitive → String → Prop where
  | int (n : Int32) : Literal .int (toString n)
  | dim (n : Int32) : Literal .dim (toString n)
  | boolean (b : Bool) : Literal .boolean (if b then "true" else "false")
  | float (x : Float32) : Literal .float (Decimal.pointText (.ofSingle x))

mutual

/-- The text stands for the rule at a depth. Of each group of a form, a member among the first
`reach` ones is written, or any member if there is no bound. -/
inductive Derives (reach : Option Nat) (g : Grammar) : Rule → Nat → String → Prop where
  | primitive {r : Rule} {d : Nat} {t : String} (p : Primitive) (hd : d ≤ 100)
      (hr : r.name = p.ruleName) (ht : p.Literal t) : Derives reach g r d t
  | terminal {r : Rule} {d : Nat} {t : String} (hd : d ≤ 100)
      (hc : .terminal t ∈ r.clauses) : Derives reach g r d t
  | reference {r inner : Rule} {d : Nat} {s t : String} (hd : d + 1 ≤ 99)
      (hc : .reference s ∈ r.clauses) (hs : g.resolve s = [inner])
      (ht : Derives reach g inner (d + 1) t) : Derives reach g r d t
  | form {r : Rule} {d : Nat} {head t : String} {args : List Argument} {kept : List Bool}
      (hd : d ≤ 100) (hc : .form head args ∈ r.clauses) (hk : Selection reach args kept)
      (ht : DerivesArguments reach g (marked args kept) d t) :
      Derives reach g r d ("(" ++ head ++ t ++ ")")

/-- Arguments one after another; those in more than two layers of braces leave no trace. -/
inductive DerivesArguments (reach : Option Nat) (g : Grammar) :
    List Argument → Nat → String → Prop where
  | nil {d : Nat} : DerivesArguments reach g [] d ""
  | omitted {a : Argument} {rest : List Argument} {d : Nat} {t : String} (ha : 2 < a.nesting)
      (ht : DerivesArguments reach g rest d t) : DerivesArguments reach g (a :: rest) d t
  | written {a : Argument} {rest : List Argument} {d : Nat} {v t : String} (ha : a.nesting ≤ 2)
      (hv : DerivesValue reach g a d a.nesting.toNat v)
      (ht : DerivesArguments reach g rest d t) :
      DerivesArguments reach g (a :: rest) d (" " ++ labelText a ++ v ++ t)

/-- The value of an argument in so many layers of braces. -/
inductive DerivesValue (reach : Option Nat) (g : Grammar) :
    Argument → Nat → Nat → String → Prop where
  | item {a : Argument} {d : Nat} {t : String} (ht : DerivesItem reach g a d t) :
      DerivesValue reach g a d 0 t
  | collection {a : Argument} {d layers count : Nat} {t : String}
      (ht : DerivesSeries reach g a d layers count t) :
      DerivesValue reach g a d (layers + 1) ("\x7b" ++ t ++ " \x7d")

/-- So many values, each after a space. -/
inductive DerivesSeries (reach : Option Nat) (g : Grammar) :
    Argument → Nat → Nat → Nat → String → Prop where
  | nil {a : Argument} {d layers : Nat} : DerivesSeries reach g a d layers 0 ""
  | cons {a : Argument} {d layers count : Nat} {v t : String}
      (hv : DerivesValue reach g a d layers v) (ht : DerivesSeries reach g a d layers count t) :
      DerivesSeries reach g a d layers (count + 1) (" " ++ v ++ t)

/-- One item: the word of a leaf category, the text of the one rule that the token stands for,
or the weak marker if it does not stand for exactly one. -/
inductive DerivesItem (reach : Option Nat) (g : Grammar) : Argument → Nat → String → Prop where
  | marker {a : Argument} {d : Nat} {c : Category} (ha : Category.ofToken? a.token = some c) :
      DerivesItem reach g a d c.marker
  | weak {a : Argument} {d : Nat} (ha : Category.ofToken? a.token = none)
      (hr : (g.resolve a.token).length ≠ 1) : DerivesItem reach g a d "?"
  | rule {a : Argument} {inner : Rule} {d : Nat} {t : String}
      (ha : Category.ofToken? a.token = none) (hr : g.resolve a.token = [inner])
      (ht : Derives reach g inner (d + 1) t) : DerivesItem reach g a d t

end

theorem Derives.depth_le {reach : Option Nat} {g : Grammar} {r : Rule} {d : Nat} {t : String}
    (h : Derives reach g r d t) : d ≤ 100 := by
  cases h <;> omega

/-! ## Depths that are not too deep -/

theorem Bounds.formTooDeep_eq_false {d : Nat} (hd : d ≤ 100) : formTooDeep {} d = false := by
  simpa [formTooDeep] using hd

/-- Where a form is not too deep, its arguments are never. -/
theorem Bounds.argumentTooDeep_eq_false {d : Nat} (hd : d ≤ 100) :
    argumentTooDeep {} (d + 1) = false := by
  simp only [argumentTooDeep, Option.any_some, decide_eq_false_iff_not]
  omega

/-! ## Forms -/

section

variable {reach : Option Nat} {g : Grammar} {expand : Rule → Dialogue String} {d : Nat}

theorem item_yields {head : String} {a : Argument} {t : String} (hd : d ≤ 100)
    (he : ∀ r t, (expand r).Yields t ↔ Derives reach g r (d + 1) t) :
    (item {} g expand head d a).Yields t ↔ DerivesItem reach g a d t := by
  simp only [item, Bounds.formTooDeep_eq_false hd, Bounds.argumentTooDeep_eq_false hd,
    Bool.false_eq_true, if_false, Medium.visit_dialogue]
  cases hc : Category.ofToken? a.token with
  | some c =>
      constructor
      · rintro rfl
        exact .marker hc
      · intro h
        cases h <;> simp_all
  | none =>
      match hr : g.resolve a.token with
      | [inner] =>
          simp only [he]
          constructor
          · exact .rule hc hr
          · intro h
            cases h <;> simp_all
      | [] =>
          constructor
          · rintro rfl
            exact .weak hc (by simp [hr])
          · intro h
            cases h <;> simp_all [weakMarker]
      | _ :: _ :: _ =>
          constructor
          · rintro rfl
            exact .weak hc (by simp [hr])
          · intro h
            cases h <;> simp_all [weakMarker]

/-- Pieces that are written behind a text are written behind it one after another. -/
theorem times_yields {a : Argument} {layers count : Nat} {piece : String → Dialogue String}
    (hp : ∀ out t, (piece out).Yields t ↔ ∃ v, DerivesValue reach g a d layers v ∧ t = out ++ v)
    {out t : String} :
    (times piece count out).Yields t ↔
      ∃ v, DerivesSeries reach g a d layers count v ∧ t = out ++ v := by
  induction count generalizing out with
  | zero =>
      simp only [times, yields_pure]
      constructor
      · rintro rfl
        exact ⟨"", .nil, by simp⟩
      · rintro ⟨v, hv, rfl⟩
        cases hv
        simp
  | succ count ih =>
      simp only [times, yields_bind, hp, ih]
      constructor
      · rintro ⟨_, ⟨v, hv, rfl⟩, u, hu, rfl⟩
        exact ⟨_, .cons hv hu, by simp [String.append_assoc]⟩
      · rintro ⟨_, hs, rfl⟩
        cases hs with
        | cons hv hu => exact ⟨_, ⟨_, hv, rfl⟩, _, hu, by simp [String.append_assoc]⟩

theorem nested_yields {a : Argument} {one : Dialogue String} {layers : Nat} {out t : String}
    (ho : ∀ t, one.Yields t ↔ DerivesItem reach g a d t) :
    (nested one layers out).Yields t ↔
      ∃ v, DerivesValue reach g a d layers v ∧ t = out ++ v := by
  induction layers generalizing out t with
  | zero =>
      simp only [nested, yields_bind, yields_pure, ho]
      constructor
      · rintro ⟨v, hv, rfl⟩
        exact ⟨v, .item hv, rfl⟩
      · rintro ⟨v, hv, rfl⟩
        cases hv with
        | item hv => exact ⟨v, hv, rfl⟩
  | succ layers ih =>
      simp only [nested, yields_bind, yields_pure, times_yields fun _ _ => ih]
      constructor
      · rintro ⟨count, -, _, ⟨v, hv, rfl⟩, rfl⟩
        exact ⟨_, .collection hv, by simp [String.append_assoc]⟩
      · rintro ⟨_, hv, rfl⟩
        cases hv with
        | @collection _ _ _ count v hv =>
            exact ⟨count, yields_question .itemCount _, _, ⟨v, hv, rfl⟩,
              by simp [String.append_assoc]⟩

theorem arguments_yields {one : Argument → Dialogue String} {args : List Argument}
    {out t : String} (ho : ∀ a t, (one a).Yields t ↔ DerivesItem reach g a d t) :
    (arguments one args out).Yields t ↔
      ∃ v, DerivesArguments reach g args d v ∧ t = out ++ v := by
  induction args generalizing out with
  | nil =>
      simp only [arguments, yields_pure]
      constructor
      · rintro rfl
        exact ⟨"", .nil, by simp⟩
      · rintro ⟨v, hv, rfl⟩
        cases hv
        simp
  | cons a args ih =>
      by_cases ha : 2 < a.nesting
      · simp only [arguments, if_pos ha, ih]
        constructor
        · rintro ⟨v, hv, rfl⟩
          exact ⟨v, .omitted ha hv, rfl⟩
        · rintro ⟨v, hv, rfl⟩
          cases hv with
          | omitted _ hv => exact ⟨v, hv, rfl⟩
          | written hle => exact absurd ha (UInt8.not_lt.mpr hle)
      · simp only [arguments, if_neg ha, yields_bind, nested_yields (ho a), ih]
        constructor
        · rintro ⟨_, ⟨v, hv, rfl⟩, u, hu, rfl⟩
          exact ⟨_, .written (UInt8.not_lt.mp ha) hv hu, by simp [String.append_assoc]⟩
        · rintro ⟨_, hv, rfl⟩
          cases hv with
          | omitted hlt => exact absurd hlt ha
          | written _ hv hu =>
              exact ⟨_, ⟨_, hv, rfl⟩, _, hu, by simp [String.append_assoc]⟩

end

/-! ## Rules -/

theorem literal_yields {p : Primitive} {t : String} :
    (p.literal : Dialogue String).Yields t ↔ p.Literal t := by
  cases p with
  | int =>
      refine yields_written.trans ⟨?_, ?_⟩
      · rintro ⟨n, rfl⟩
        exact .int n
      · intro h
        cases h with
        | int n => exact ⟨n, rfl⟩
  | dim =>
      refine yields_written.trans ⟨?_, ?_⟩
      · rintro ⟨n, rfl⟩
        exact .dim n
      · intro h
        cases h with
        | dim n => exact ⟨n, rfl⟩
  | boolean =>
      refine yields_written.trans ⟨?_, ?_⟩
      · rintro ⟨b, rfl⟩
        exact .boolean b
      · intro h
        cases h with
        | boolean b => exact ⟨b, rfl⟩
  | float =>
      refine yields_written.trans ⟨?_, ?_⟩
      · rintro ⟨x, rfl⟩
        exact .float x
      · intro h
        cases h with
        | float x => exact ⟨x, rfl⟩

theorem Primitive.ofName?_eq_some {name : String} {p : Primitive} :
    Primitive.ofName? name = some p ↔ name = p.ruleName := by
  constructor
  · intro h
    unfold Primitive.ofName? at h
    have hname := List.find?_some h
    exact (beq_iff_eq.mp hname).symm
  · rintro rfl
    cases p <;> decide

/-- Counting round and round reaches every item of the list and nothing else. -/
theorem exists_pick {α : Type} {first : α} {others : List α} {P : α → Prop} :
    (∃ i, P (pick first others i)) ↔ ∃ x ∈ first :: others, P x := by
  constructor
  · rintro ⟨i, hi⟩
    exact ⟨_, List.get_mem _ _, hi⟩
  · rintro ⟨x, hx, hP⟩
    obtain ⟨i, hi, rfl⟩ := List.getElem_of_mem hx
    refine ⟨i, ?_⟩
    have hpick : pick first others i = (first :: others)[i] := by
      simp only [pick, List.get_eq_getElem, Nat.mod_eq_of_lt hi]
    rwa [hpick]

theorem alternative_yields {b : Bounds} {g : Grammar} {expand : Rule → Dialogue String} {r : Rule}
    {d : Nat} {t : String} :
    (alternative b g expand r d).Yields t ↔
      ∃ c ∈ r.clauses, (clause b g expand d c).Yields t := by
  unfold alternative
  cases r.clauses with
  | nil => simp
  | cons first others =>
      rw [← exists_pick]
      simp only [yields_bind]
      constructor
      · rintro ⟨i, -, h⟩
        exact ⟨i, h⟩
      · rintro ⟨i, h⟩
        exact ⟨i, yields_question (.clause _) i, h⟩

/-- The bound on the members of a group that draws can reach. -/
abbrev groupReach : Option Nat :=
  some (maxGroupDraws + 1)

section

variable {g : Grammar} {expand : Rule → Dialogue String} {d : Nat}

theorem form_yields {head t : String} {args : List Argument} (hd : d ≤ 100)
    (he : ∀ r t, (expand r).Yields t ↔ Derives groupReach g r (d + 1) t) :
    (form {} g expand head args d).Yields t ↔
      ∃ kept v, Selection groupReach args kept ∧
        DerivesArguments groupReach g (marked args kept) d v ∧ t = "(" ++ head ++ v ++ ")" := by
  simp only [form, Bounds.formTooDeep_eq_false hd, Bool.false_eq_true, if_false, yields_bind,
    yields_pure, Medium.hold_dialogue, Output.words_text, select_yields,
    arguments_yields fun a t => item_yields hd he]
  constructor
  · rintro ⟨kept, hk, _, ⟨v, hv, rfl⟩, rfl⟩
    exact ⟨kept, v, hk, hv, rfl⟩
  · rintro ⟨kept, v, hk, hv, rfl⟩
    exact ⟨kept, hk, _, ⟨v, hv, rfl⟩, rfl⟩

theorem alternative_sound {r : Rule} {t : String} (hd : d ≤ 100)
    (he : ∀ r t, (expand r).Yields t ↔ Derives groupReach g r (d + 1) t)
    (h : (alternative {} g expand r d).Yields t) : Derives groupReach g r d t := by
  obtain ⟨c, hc, ht⟩ := alternative_yields.mp h
  cases c with
  | terminal text =>
      obtain rfl := yields_done.mp ht
      exact .terminal hd hc
  | reference s =>
      simp only [clause] at ht
      split at ht
      · next inner hs =>
        split at ht
        · cases ht
        · next hlt => exact .reference (by simp at hlt; omega) hc hs ((he inner t).mp ht)
      · cases ht
  | form head args =>
      obtain ⟨kept, v, hk, hv, rfl⟩ := (form_yields hd he).mp ht
      exact .form hd hc hk hv

/-- One step of completion yields what one rule of derivation gives, if the steps below do. -/
theorem step_yields {r : Rule} {t : String}
    (he : ∀ r t, (expand r).Yields t ↔ Derives groupReach g r (d + 1) t) :
    (step {} g expand r d).Yields t ↔ Derives groupReach g r d t := by
  by_cases hd : d ≤ 100
  case neg =>
    have hdeep : (100 : Nat) < d := by omega
    simp only [step, hdeep, if_true]
    exact ⟨fun h => h.elim, fun h => absurd h.depth_le hd⟩
  have hshallow : ¬ 100 < d := by omega
  -- a derivation either ends in a literal or goes through an alternative
  have hsplit : Derives groupReach g r d t →
      (∃ p, Primitive.ofName? r.name = some p ∧ p.Literal t) ∨
        (alternative {} g expand r d).Yields t := by
    intro h
    cases h with
    | primitive p _ hr ht => exact .inl ⟨p, Primitive.ofName?_eq_some.mpr hr, ht⟩
    | terminal _ hc => exact .inr (alternative_yields.mpr ⟨_, hc, rfl⟩)
    | reference hlt hc hs ht =>
        refine .inr (alternative_yields.mpr ⟨_, hc, ?_⟩)
        have : ¬ 100 ≤ d + 1 := by omega
        simpa [clause, hs, this] using (he _ t).mpr ht
    | form _ hc hk hv =>
        exact .inr (alternative_yields.mpr ⟨_, hc, (form_yields hd he).mpr ⟨_, _, hk, hv, rfl⟩⟩)
  simp only [step, hshallow, if_false, Medium.visit_dialogue, Medium.ask_dialogue]
  cases hp : Primitive.ofName? r.name with
  | none =>
      refine ⟨alternative_sound hd he, fun h => ?_⟩
      rcases hsplit h with ⟨p, hsome, -⟩ | halt
      · rw [hp] at hsome
        cases hsome
      · exact halt
  | some p =>
      simp only [yields_bind]
      constructor
      · rintro ⟨exit, -, h⟩
        cases exit
        · exact alternative_sound hd he (by simpa using h)
        · exact .primitive p hd (Primitive.ofName?_eq_some.mp hp)
            (literal_yields.mp (by simpa using h))
      · intro h
        rcases hsplit h with ⟨q, hsome, ht⟩ | halt
        · obtain rfl : p = q := by simpa [hp] using hsome
          exact ⟨true, yields_question .exit true, by simpa using literal_yields.mpr ht⟩
        · exact ⟨false, yields_question .exit false, by simpa using halt⟩

end

/-- A completion yields exactly the texts that have a derivation. -/
theorem complete_yields {g : Grammar} {r : Rule} {d : Nat} {t : String} :
    (complete g r d).Yields t ↔ Derives groupReach g r d t := by
  -- the levels that are left, one more than the depths still allowed
  induction hn : 101 - d generalizing r d t with
  | zero =>
      have hdeep : ¬ d ≤ 100 := by omega
      rw [complete, completeBy_eq]
      simp only [step, show (100 : Nat) < d by omega, if_true]
      exact ⟨fun h => h.elim, fun h => absurd h.depth_le hdeep⟩
  | succ n ih =>
      rw [complete, completeBy_eq]
      exact step_yields fun inner u => ih (by omega)

end GameGrammar.Completion

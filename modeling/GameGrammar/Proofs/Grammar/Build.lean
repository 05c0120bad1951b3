import GameGrammar.Grammar.Build
import Mathlib.Data.List.Nodup

/-! # Which rules make a grammar

A list of rules can be built if every rule is sound by itself and no name is given twice. In what
is built every rule is then found by its name. -/

namespace GameGrammar

/-! ## Sound rules -/

/-- The alternative has a head if it is a form. -/
def Clause.Headed : Clause → Prop
  | .form head _ => head ≠ ""
  | _ => True

/-- A rule with a name, with alternatives, and with heads for its forms. -/
structure Rule.Sound (r : Rule) : Prop where
  named : r.name ≠ ""
  nonempty : r.clauses ≠ []
  headed : ∀ c ∈ r.clauses, c.Headed

theorem Clause.not_headless_iff {c : Clause} : ¬ c.headless = true ↔ c.Headed := by
  cases c with
  | terminal text => simp [headless, Headed]
  | reference target => simp [headless, Headed]
  | form head args => simp [headless, Headed]

theorem Rule.defect?_eq_none_iff {r : Rule} : r.defect? = none ↔ r.Sound := by
  have hheads : ¬ r.clauses.any Clause.headless = true ↔ ∀ c ∈ r.clauses, c.Headed := by
    simp only [List.any_eq_true, not_exists, not_and, Clause.not_headless_iff]
  constructor
  · intro h
    unfold defect? at h
    split at h
    · cases h
    · next hname =>
        split at h
        · cases h
        · next hclauses =>
            split at h
            · cases h
            · next hany => exact ⟨hname, hclauses, hheads.mp hany⟩
  · intro h
    rw [defect?, if_neg h.named, if_neg h.nonempty, if_neg (hheads.mpr h.headed)]

/-! ## Names -/

/-- No name is found to be repeated if all are new and different from one another. -/
theorem firstRepeated?_eq_none_iff {seen names : List String} :
    firstRepeated? seen names = none ↔ (∀ name ∈ names, name ∉ seen) ∧ names.Nodup := by
  induction names generalizing seen with
  | nil => simp [firstRepeated?]
  | cons first names ih =>
      by_cases hfirst : first ∈ seen
      · simp [firstRepeated?, hfirst]
      · rw [firstRepeated?, if_neg hfirst, ih, List.nodup_cons, List.forall_mem_cons]
        simp only [List.mem_cons, not_or]
        constructor
        · rintro ⟨hnew, hnodup⟩
          exact ⟨⟨hfirst, fun name hname => (hnew name hname).2⟩,
            fun hmem => (hnew first hmem).1 rfl, hnodup⟩
        · rintro ⟨⟨-, hnew⟩, hnot, hnodup⟩
          refine ⟨fun name hname => ⟨?_, hnew name hname⟩, hnodup⟩
          rintro rfl
          exact hnot hname

namespace Grammar

/-! ## Lists of rules -/

/-- Every rule is sound, and no two rules have the same name. -/
structure WellFormed (rules : List Rule) : Prop where
  sound : ∀ r ∈ rules, r.Sound
  distinct : (rules.map Rule.name).Nodup

theorem defect?_eq_none_iff {rules : List Rule} : defect? rules = none ↔ WellFormed rules := by
  have hsingle : rules.findSome? Rule.defect? = none ↔ ∀ r ∈ rules, r.Sound := by
    simp only [List.findSome?_eq_none_iff, Rule.defect?_eq_none_iff]
  have hnames : firstRepeated? [] (rules.map Rule.name) = none ↔ (rules.map Rule.name).Nodup := by
    simp [firstRepeated?_eq_none_iff]
  constructor
  · intro h
    unfold defect? at h
    split at h
    · cases h
    · next hnone => exact ⟨hsingle.mp hnone, hnames.mp (Option.map_eq_none_iff.mp h)⟩
  · intro h
    simp only [defect?, hsingle.mpr h.sound]
    rw [hnames.mpr h.distinct]
    rfl

theorem wellFormed (g : Grammar) : WellFormed g.rules :=
  defect?_eq_none_iff.mp g.sound

/-- What is built of rules has these rules, in this order. -/
theorem ofRules_eq_ok_iff {rules : List Rule} {g : Grammar} :
    ofRules rules = .ok g ↔ g.rules = rules := by
  constructor
  · intro h
    unfold ofRules at h
    split at h
    · cases h
    · cases h
      rfl
  · rintro rfl
    unfold ofRules
    split
    · next d hd =>
        rw [g.sound] at hd
        cases hd
    · rfl

theorem exists_ofRules_iff {rules : List Rule} :
    (∃ g, ofRules rules = .ok g) ↔ WellFormed rules := by
  constructor
  · rintro ⟨g, hg⟩
    exact ofRules_eq_ok_iff.mp hg ▸ g.wellFormed
  · intro h
    exact ⟨⟨rules, defect?_eq_none_iff.mpr h⟩, ofRules_eq_ok_iff.mpr rfl⟩

/-! ## Rules by their names -/

/-- Every rule is found by its name, and by that name nothing else is. -/
def Indexed (g : Grammar) : Prop :=
  ∀ name r, g.rule? name = some r ↔ r ∈ g.rules ∧ r.name = name

theorem indexed (g : Grammar) : g.Indexed := by
  intro name r
  constructor
  · intro h
    exact ⟨List.mem_of_find?_eq_some h, by simpa using List.find?_some h⟩
  · rintro ⟨hr, rfl⟩
    cases hfound : g.rule? r.name with
    | none =>
        have hnot := List.find?_eq_none.mp hfound r hr
        simp at hnot
    | some found =>
        have hmem := List.mem_of_find?_eq_some hfound
        have hname : found.name = r.name := by simpa using List.find?_some hfound
        exact congrArg some (List.inj_on_of_nodup_map g.wellFormed.distinct hmem hr hname)

end Grammar

end GameGrammar

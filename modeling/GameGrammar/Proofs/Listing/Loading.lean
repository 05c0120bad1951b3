import GameGrammar.Proofs.Listing.Normal
import GameGrammar.Proofs.Snapshot.RoundTrip

/-! # Grammars from listings

A listing that can be read gives a grammar unless two rules of it share a name, and the grammar
passes every check that a snapshot of it is put to. -/

namespace GameGrammar

/-- The name that is found stands further to the left already, or among those seen. -/
theorem firstRepeated?_eq_some {seen names : List String} {name : String}
    (h : firstRepeated? seen names = some name) :
    name ∈ names ∧ (name ∈ seen ∨ 2 ≤ names.count name) := by
  induction names generalizing seen with
  | nil => cases h
  | cons first names ih =>
      unfold firstRepeated? at h
      split at h
      · next hseen =>
          cases h
          exact ⟨List.mem_cons_self, .inl hseen⟩
      · obtain ⟨hmem, hseen⟩ := ih h
        refine ⟨List.mem_cons_of_mem first hmem, ?_⟩
        by_cases hfirst : name = first
        · subst hfirst
          have hone := List.one_le_count_iff.mpr hmem
          rw [List.count_cons_self]
          exact .inr (by omega)
        · rw [List.mem_cons, or_iff_right hfirst] at hseen
          rwa [List.count_cons_of_ne (Ne.symm hfirst)]

namespace Listing

/-- What is read of a listing has no defect but a repeated name. -/
theorem defect?_of_parse {text : String} {found : List Rule} {d : Defect}
    (hp : parse text = .ok found) (hd : Grammar.defect? found = some d) :
    ∃ name, d = .duplicateRule name ∧ 2 ≤ (found.map Rule.name).count name := by
  have hsingle : found.findSome? Rule.defect? = none :=
    List.findSome?_eq_none_iff.mpr fun r hr =>
      Rule.defect?_eq_none_iff.mpr (parse_normal hp r hr).1.sound
  simp only [Grammar.defect?, hsingle] at hd
  obtain ⟨name, hname, rfl⟩ := Option.map_eq_some_iff.mp hd
  obtain ⟨-, hseen | htwo⟩ := firstRepeated?_eq_some hname
  · cases hseen
  · exact ⟨name, rfl, htwo⟩

/-- The only errors of a listing are that it cannot be read and that two rules share a name. -/
theorem load_error {text : String} {e : LoadError} (h : load text = .error e) :
    (∃ p, e = .parse p ∧ parse text = .error p) ∨
      ∃ found name, e = .defect (.duplicateRule name) ∧ parse text = .ok found ∧
        2 ≤ (found.map Rule.name).count name := by
  unfold load at h
  split at h
  · next p hp =>
      cases h
      exact .inl ⟨p, rfl, hp⟩
  · next found hp =>
      unfold Grammar.ofRules at h
      split at h
      · next d hd =>
          cases h
          obtain ⟨name, rfl, htwo⟩ := defect?_of_parse hp hd
          exact .inr ⟨found, name, rfl, hp, htwo⟩
      · cases h

/-- The groups of an alternative have numbers of their own if 32 bits are enough to count them. -/
theorem parse_grouped {text : String} {found : List Rule} (hp : parse text = .ok found)
    {r : Rule} (hr : r ∈ found) {c : Clause} (hc : c ∈ r.clauses)
    (hcount : groupCount c.args < 2 ^ 32) : Grouped 1 c.args := by
  have hclause := (parse_normal hp r hr).1.clauses c hc
  cases c with
  | terminal text => exact .nil
  | reference target => exact .nil
  | form head args =>
      rw [Clause.args] at hcount
      exact hclause.2.2.2.grouped Nat.one_pos (by omega)

theorem parse_groupCount_le {text : String} {found : List Rule} (hp : parse text = .ok found)
    {r : Rule} (hr : r ∈ found) {c : Clause} (hc : c ∈ r.clauses) :
    groupCount c.args ≤ text.length :=
  Nat.le_trans (groupCount_le_length c.args) ((parse_normal hp r hr).2 c hc)

/-- Whatever is read of a listing is in normal form, and the groups of an alternative have numbers
of their own wherever 32 bits are enough to count them. As a grammar it has no defect but a repeated
name, and no flaw in a snapshot. -/
theorem listing_normal (text : String) :
    (∀ found, parse text = .ok found →
      (∀ r ∈ found, r.Normal) ∧
      ∀ r ∈ found, ∀ c ∈ r.clauses, groupCount c.args ≤ text.length ∧
        (groupCount c.args < 2 ^ 32 → Grouped 1 c.args)) ∧
    (∀ e, load text = .error e →
      (∃ p, e = .parse p ∧ parse text = .error p) ∨
        ∃ found name, e = .defect (.duplicateRule name) ∧ parse text = .ok found ∧
          2 ≤ (found.map Rule.name).count name) ∧
    ∀ g source, load text = .ok g →
      Snapshot.restore (Snapshot.payloadOf g source) = .ok g := by
  refine ⟨fun found hp => ⟨fun r hr => (parse_normal hp r hr).1, ?_⟩, fun e => load_error,
    fun g source h => Snapshot.restore_payloadOf (load_named h) source⟩
  exact fun r hr c hc => ⟨parse_groupCount_le hp hr hc, parse_grouped hp hr hc⟩

theorem listing_normal_choice :
    (∃ found, parse "a ::= (h [b | c] d)" = .ok found ∧ found.length = 1 ∧
      (∀ r ∈ found, r.Normal) ∧ ∀ r ∈ found, ∀ c ∈ r.clauses, Grouped 1 c.args) ∧
    (∃ e, load "a ::= b a ::= c" = .error e ∧
      ∃ found name, e = .defect (.duplicateRule name) ∧
        parse "a ::= b a ::= c" = .ok found ∧ 2 ≤ (found.map Rule.name).count name) ∧
    ∃ g, load "a ::= b" = .ok g ∧ Snapshot.restore (Snapshot.payloadOf g none) = .ok g := by
  refine ⟨?_, ?_, ?_⟩
  · have hp : parse "a ::= (h [b | c] d)" = .ok [⟨"a", [.form "h" [
        { token := "b", optional := true, group := 1 },
        { token := "c", optional := true, group := 1 }, { token := "d" }]]⟩] := by
      with_unfolding_all rfl
    obtain ⟨hnormal, hgrouped⟩ := (listing_normal "a ::= (h [b | c] d)").1 _ hp
    refine ⟨_, hp, rfl, hnormal, fun r hr c hc => (hgrouped r hr c hc).2 ?_⟩
    exact Nat.lt_of_le_of_lt (hgrouped r hr c hc).1 (by decide)
  · have hl : load "a ::= b a ::= c" = .error (.defect (.duplicateRule "a")) := by
      with_unfolding_all rfl
    refine ⟨_, hl, ((listing_normal "a ::= b a ::= c").2.1 _ hl).resolve_left ?_⟩
    rintro ⟨p, hp, -⟩
    cases hp
  · have hl : load "a ::= b" = .ok ⟨[⟨"a", [.terminal "b"]⟩], by decide⟩ := by
      with_unfolding_all rfl
    exact ⟨_, hl, (listing_normal "a ::= b").2.2 _ none hl⟩

end Listing

end GameGrammar

import GameGrammar.Store.Save

/-! # Names as steps of a path

Whatever a name is, its component is a single step down. A path that is extended by it goes the way
that it went before, and then into the place of that name. -/

namespace GameGrammar

/-! ## Components -/

/-- The name leads one step down and no further: it stands neither for the directory itself nor for
the one above, and holds nothing that divides a path, on whatever system, nor any control
character. -/
structure IsComponent (name : String) : Prop where
  ne_empty : name ≠ ""
  ne_here : name ≠ "."
  ne_above : name ≠ ".."
  clean : ∀ c ∈ name.toList, c ≠ '/' ∧ c ≠ '\\' ∧ c ≠ ':' ∧ Text.isControl c = false

theorem componentChar_of_clean {c : Char}
    (h : c ≠ '/' ∧ c ≠ '\\' ∧ c ≠ ':' ∧ Text.isControl c = false) : componentChar c = c := by
  simp [componentChar, h]

theorem componentChar_clean (c : Char) :
    componentChar c ≠ '/' ∧ componentChar c ≠ '\\' ∧ componentChar c ≠ ':' ∧
      Text.isControl (componentChar c) = false := by
  by_cases h : c ≠ '/' ∧ c ≠ '\\' ∧ c ≠ ':' ∧ Text.isControl c = false
  · rw [componentChar_of_clean h]
    exact h
  · have hdivides : c = '/' ∨ c = '\\' ∨ c = ':' ∨ Text.isControl c = true := by
      simpa only [Decidable.not_and_iff_not_or_not, ne_eq, Decidable.not_not,
        Bool.not_eq_false] using h
    have hreplaced : componentChar c = '_' := by
      simp [componentChar, hdivides, or_assoc]
    rw [hreplaced]
    decide

theorem component_isComponent (name : String) : IsComponent (component name) := by
  simp only [component]
  by_cases h : String.ofList (name.toList.map componentChar) = "" ∨
      String.ofList (name.toList.map componentChar) = "." ∨
      String.ofList (name.toList.map componentChar) = ".."
  · rw [if_pos (by simpa [or_assoc] using h)]
    exact ⟨by decide, by decide, by decide, by decide⟩
  · rw [if_neg (by simpa [or_assoc] using h)]
    simp only [not_or] at h
    refine ⟨h.1, h.2.1, h.2.2, ?_⟩
    intro c hc
    rw [String.toList_ofList, List.mem_map] at hc
    obtain ⟨original, -, rfl⟩ := hc
    exact componentChar_clean original

/-- Components stay as they are. -/
theorem IsComponent.component_eq {name : String} (h : IsComponent name) :
    component name = name := by
  have hclean : name.toList.map componentChar = name.toList := by
    rw [List.map_congr_left fun c hc => componentChar_of_clean (h.clean c hc)]
    exact List.map_id _
  rw [component, hclean, String.ofList_toList]
  exact if_neg (by simp [h.ne_empty, h.ne_here, h.ne_above])

namespace IsComponent

variable {name : String} (h : IsComponent name)

include h

theorem slash_not_mem : '/' ∉ name.toList :=
  fun hmem => (h.clean _ hmem).1 rfl

theorem null_not_mem : '\x00' ∉ name.toList :=
  fun hmem => absurd (h.clean _ hmem).2.2.2 (by decide)

theorem toList_ne_nil : name.toList ≠ [] := by
  simpa using h.ne_empty

/-- A component is not one of the pieces that lead nowhere or up. -/
theorem turn?_eq_none (p : Place) : Disk.turn? p name.toList = none := by
  have hhere : name.toList ≠ ['.'] := fun he => h.ne_here (String.toList_inj.mp he)
  have habove : name.toList ≠ ['.', '.'] := fun he => h.ne_above (String.toList_inj.mp he)
  simp [Disk.turn?, h.ne_empty, hhere, habove]

end IsComponent

/-! ## Pieces -/

theorem pieces_ne_nil (x : List Char) : pieces x ≠ [] := by
  cases x with
  | nil => simp [pieces]
  | cons c x =>
      unfold pieces
      split
      · simp
      · split <;> simp

theorem pieces_append_slash (x y : List Char) : pieces (x ++ '/' :: y) = pieces x ++ pieces y := by
  induction x with
  | nil => simp [pieces]
  | cons c x ih =>
      by_cases hc : c = '/'
      · simp [pieces, hc, ih]
      · cases hx : pieces x with
        | nil => exact absurd hx (pieces_ne_nil x)
        | cons first rest => simp [pieces, hc, ih, hx]

theorem pieces_of_undivided {x : List Char} (h : '/' ∉ x) : pieces x = [x] := by
  induction x with
  | nil => rfl
  | cons c x ih =>
      simp only [List.mem_cons, not_or] at h
      simp [pieces, Ne.symm h.1, ih h.2]

/-! ## Extended paths -/

/-- The pieces of a path, without an empty one behind a slash at its end. -/
def steps (path : String) : List (List Char) :=
  if (pieces path.toList).getLast? = some [] then (pieces path.toList).dropLast
  else pieces path.toList

/-- Only a slash at the end of a path is followed by an empty piece. -/
theorem getLast?_of_empty_piece {x : List Char} (h : (pieces x).getLast? = some []) :
    x = [] ∨ x.getLast? = some '/' := by
  induction x with
  | nil => exact .inl rfl
  | cons c x ih =>
      right
      cases hx : pieces x with
      | nil => exact absurd hx (pieces_ne_nil x)
      | cons first rest =>
          by_cases hc : c = '/'
          · subst hc
            rw [pieces, if_pos rfl, List.getLast?_cons_of_ne_nil (pieces_ne_nil x)] at h
            rcases ih h with rfl | hlast
            · rfl
            · simp [List.getLast?_cons, hlast]
          · rw [pieces, if_neg hc, hx] at h
            cases rest with
            | nil => simp at h
            | cons second rest =>
                rcases ih (by simpa [hx] using h) with rfl | hlast
                · simp [pieces] at hx
                · simp [List.getLast?_cons, hlast]

/-- A component is one more step. -/
theorem pieces_joinPath (root : String) {name : String} (h : IsComponent name) :
    pieces (joinPath root name).toList = steps root ++ [name.toList] := by
  have hname : pieces name.toList = [name.toList] := pieces_of_undivided h.slash_not_mem
  have hhead : ¬ name.toList.head? = some '/' := fun he =>
    h.slash_not_mem (List.mem_of_head? he)
  by_cases hroot : root = ""
  · subst hroot
    rw [joinPath, if_pos (by simp), hname]
    rfl
  · rw [joinPath, if_neg (by simpa [hroot] using hhead)]
    by_cases hlast : root.toList.getLast? = some '/'
    · rw [if_pos hlast]
      obtain ⟨init, hinit⟩ := List.getLast?_eq_some_iff.mp hlast
      have hpieces : pieces root.toList = pieces init ++ [[]] := by
        rw [hinit, pieces_append_slash]
        rfl
      have hsteps : steps root = pieces init := by
        simp [steps, hpieces]
      rw [hsteps, String.toList_append, hinit, List.append_assoc, List.singleton_append,
        pieces_append_slash, hname]
    · rw [if_neg hlast]
      have hfull : ¬ (pieces root.toList).getLast? = some [] := fun hempty =>
        (getLast?_of_empty_piece hempty).elim (by simpa using hroot) hlast
      rw [steps, if_neg hfull, String.toList_append, String.toList_append, List.append_assoc]
      exact (pieces_append_slash root.toList name.toList).trans (by rw [hname])

theorem joinPath_ne_nil (root : String) {name : String} (h : IsComponent name) :
    (joinPath root name).toList ≠ [] := by
  intro hnil
  have hlast := congrArg List.getLast? (pieces_joinPath root h)
  rw [hnil, List.getLast?_concat] at hlast
  exact h.toList_ne_nil (Option.some.inj hlast).symm

theorem steps_joinPath (root : String) {name : String} (h : IsComponent name) :
    steps (joinPath root name) = steps root ++ [name.toList] := by
  have hlast : ¬ (pieces (joinPath root name).toList).getLast? = some [] := by
    rw [pieces_joinPath root h, List.getLast?_concat, Option.some.injEq]
    exact h.toList_ne_nil
  rw [steps, if_neg hlast, pieces_joinPath root h]

theorem head?_joinPath (root : String) {name : String} (h : IsComponent name) :
    (joinPath root name).toList.head? = some '/' ↔ root.toList.head? = some '/' := by
  have hhead : ¬ name.toList.head? = some '/' := fun he =>
    h.slash_not_mem (List.mem_of_head? he)
  by_cases hroot : root = ""
  · subst hroot
    simpa [joinPath] using hhead
  · rw [joinPath, if_neg (by simpa [hroot] using hhead)]
    cases hcs : root.toList with
    | nil => exact absurd hcs (by simpa using hroot)
    | cons c cs => split <;> simp [hcs]

theorem null_not_mem_joinPath {root name : String} (hroot : '\x00' ∉ root.toList)
    (h : IsComponent name) : '\x00' ∉ (joinPath root name).toList := by
  unfold joinPath
  split
  · exact h.null_not_mem
  · split
    · simp [hroot, h.null_not_mem]
    · simp [hroot, h.null_not_mem]

end GameGrammar

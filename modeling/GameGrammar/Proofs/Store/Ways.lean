import GameGrammar.Proofs.Listing.Named
import GameGrammar.Proofs.Store.Paths

/-! # Ways on a disk

A way that can be gone leads through directories that are there, so that making it changes nothing.
Where one directory is missing on it, making it puts that one, and the rest is a way that can be
gone. -/

namespace GameGrammar

namespace Disk

variable {α : Type}

/-! ## Entries -/

theorem get?_top (d : Disk α) : d.get? [] = some .directory :=
  if_pos rfl

theorem get?_put_self (d : Disk α) {p : Place} {e : Entry α} (h : p = [] → e = .directory) :
    (d.put p e).get? p = some e := by
  by_cases hp : p = []
  · rw [h hp, hp, get?_top]
  · have hgone : (d.entries.filter (·.1 != p)).find? (·.1 == p) = none := by
      rw [List.find?_eq_none]
      intro entry hentry
      simpa using (List.mem_filter.mp hentry).2
    rw [get?, if_neg hp, put, List.find?_append, hgone]
    simp

theorem get?_put_of_ne (d : Disk α) {p q : Place} (e : Entry α) (h : q ≠ p) :
    (d.put p e).get? q = d.get? q := by
  have hkept : (d.entries.filter (·.1 != p)).find? (·.1 == q) = d.entries.find? (·.1 == q) := by
    rw [List.find?_filter]
    congr 1
    funext entry
    by_cases hentry : entry.1 = q
    · simp [hentry, h]
    · simp [hentry]
  rw [get?, get?, put, List.find?_append, hkept]
  simp [Ne.symm h]

theorem mem_entries_put {d : Disk α} {p q : Place} {e e' : Entry α} :
    (q, e') ∈ (d.put p e).entries ↔ q ≠ p ∧ (q, e') ∈ d.entries ∨ q = p ∧ e' = e := by
  simp [put, and_comm]

/-- Putting an entry below a place changes nothing elsewhere. -/
theorem get?_put_below (d : Disk α) {p q r : Place} (e : Entry α) (hr : p <+: r)
    (hq : ¬ p <+: q) : (d.put r e).get? q = d.get? q := by
  have hne : q ≠ r := by
    rintro rfl
    exact hq hr
  exact get?_put_of_ne d e hne

/-- No entry below a place is hidden by another one. -/
def Single (d : Disk α) (p : Place) : Prop :=
  ∀ entry ∈ d.entries, p <+: entry.1 → d.get? entry.1 = some entry.2

theorem Single.put {d : Disk α} {p r : Place} {e : Entry α} (h : d.Single p)
    (hr : r = [] → e = .directory) : (d.put r e).Single p := by
  rintro ⟨q, e'⟩ hmem hbelow
  rcases mem_entries_put.mp hmem with ⟨hne, hold⟩ | ⟨rfl, rfl⟩
  · rw [get?_put_of_ne _ _ hne]
    exact h _ hold hbelow
  · exact get?_put_self _ hr

theorem mem_entries_of_get? {d : Disk α} {q : Place} {e : Entry α} (h : d.get? q = some e) :
    q = [] ∧ e = .directory ∨ (q, e) ∈ d.entries := by
  by_cases hq : q = []
  · rw [hq, get?_top, Option.some.injEq] at h
    exact .inl ⟨hq, h.symm⟩
  · rw [get?, if_neg hq, Option.map_eq_some_iff] at h
    obtain ⟨entry, hfind, rfl⟩ := h
    have hplace : entry.1 = q := by simpa using List.find?_some hfind
    exact .inr (hplace ▸ List.mem_of_find?_eq_some hfind)

theorem get?_ne_none_of_mem {d : Disk α} {q : Place} {e : Entry α} (h : (q, e) ∈ d.entries) :
    d.get? q ≠ none := by
  by_cases hq : q = []
  · simp [hq, get?_top]
  · simpa [get?, hq] using ⟨e, h⟩

theorem mem_filesBelow {d : Disk α} {p q : Place} {content : α} :
    (q, content) ∈ d.filesBelow p ↔ p <+: q ∧ (q, .file content) ∈ d.entries := by
  simp only [filesBelow, List.mem_filterMap]
  constructor
  · rintro ⟨⟨place, e⟩, hmem, h⟩
    cases e with
    | directory => simp at h
    | file written =>
        simp only [Option.ite_none_right_eq_some, Option.some.injEq, Prod.mk.injEq,
          List.isPrefixOf_iff_prefix] at h
        obtain ⟨hbelow, rfl, rfl⟩ := h
        exact ⟨hbelow, hmem⟩
  · intro h
    exact ⟨_, h.2, by simp [h.1]⟩

/-! ## Following paths -/

theorem enter_eq_ok_iff {d : Disk α} {p q : Place} {piece : List Char} :
    d.enter p piece = .ok q ↔
      turn? p piece = some q ∨ turn? p piece = none ∧ d.nameFits (String.ofList piece) = true ∧
        p ++ [String.ofList piece] = q ∧ d.get? q = some .directory := by
  unfold enter
  cases turn? p piece with
  | some turned => simp
  | none =>
      cases hfits : d.nameFits (String.ofList piece) with
      | false => simp
      | true =>
          rcases hget : d.get? (p ++ [String.ofList piece]) with _ | _ | content
          all_goals
            simp only [hget, Bool.not_true, Bool.false_eq_true, if_false, reduceCtorEq, false_or,
              true_and, Except.ok.injEq, false_iff, not_and]
          · rintro rfl
            simp [hget]
          · exact ⟨fun h => ⟨h, h ▸ hget⟩, And.left⟩
          · rintro rfl
            simp [hget]

theorem enter_component (d : Disk α) (p : Place) {name : String} (h : IsComponent name) :
    d.enter p name.toList =
      if d.nameFits name then
        match d.get? (p ++ [name]) with
        | some .directory => .ok (p ++ [name])
        | some (.file _) => .error .notDirectory
        | none => .error .missing
      else .error .tooLong := by
  cases hfits : d.nameFits name with
  | false => simp [enter, h.turn?_eq_none, hfits]
  | true =>
      rcases hget : d.get? (p ++ [name]) with _ | _ | content
      all_goals simp [enter, h.turn?_eq_none, hfits, hget]

theorem walk_cons_eq_ok_iff {d : Disk α} {p q : Place} {piece : List Char}
    {ways : List (List Char)} :
    d.walk p (piece :: ways) = .ok q ↔
      ∃ next, d.enter p piece = .ok next ∧ d.walk next ways = .ok q :=
  Listing.bind_eq_ok

theorem walk_append (d : Disk α) (p : Place) (first second : List (List Char)) :
    d.walk p (first ++ second) = d.walk p first >>= fun q => d.walk q second := by
  induction first generalizing p with
  | nil => rfl
  | cons piece first ih =>
      rw [List.cons_append, walk, walk]
      cases d.enter p piece with
      | error e => rfl
      | ok q => exact ih q

/-- An empty piece behind a slash at the end leads nowhere else. -/
theorem walk_steps (d : Disk α) (p : Place) (path : String) :
    d.walk p (steps path) = d.walk p (pieces path.toList) := by
  unfold steps
  split
  · next hlast =>
      obtain ⟨init, hinit⟩ := List.getLast?_eq_some_iff.mp hlast
      rw [hinit, List.dropLast_concat, walk_append]
      cases d.walk p init with
      | error e => rfl
      | ok q => rfl
  · rfl

/-- A way on one disk is one on another where the directories of the first are still there. -/
theorem walk_mono {d d' : Disk α} (hlimits : d'.limits = d.limits)
    (hkept : ∀ q, d.get? q = some .directory → d'.get? q = some .directory)
    {p q : Place} {ways : List (List Char)} (h : d.walk p ways = .ok q) :
    d'.walk p ways = .ok q := by
  induction ways generalizing p with
  | nil => exact h
  | cons piece ways ih =>
      rw [walk_cons_eq_ok_iff] at h ⊢
      obtain ⟨next, hstep, hrest⟩ := h
      refine ⟨next, ?_, ih hrest⟩
      rw [enter_eq_ok_iff] at hstep ⊢
      simp only [nameFits, hlimits] at hstep ⊢
      exact hstep.imp_right fun ⟨hturn, hfits, hplace, hget⟩ =>
        ⟨hturn, hfits, hplace, hkept _ hget⟩

/-- More directories leave a way as it is. -/
theorem walk_put_directory {d : Disk α} (r : Place) {p q : Place} {ways : List (List Char)}
    (h : d.walk p ways = .ok q) : (d.put r .directory).walk p ways = .ok q := by
  have hlimits : (d.put r .directory).limits = d.limits := rfl
  refine walk_mono hlimits ?_ h
  intro place hget
  by_cases hplace : place = r
  · subst hplace
    exact get?_put_self _ fun _ => rfl
  · rw [get?_put_of_ne _ _ hplace, hget]

/-- Where a path begins. -/
def origin (d : Disk α) (path : String) : Place :=
  if path.toList.head? = some '/' then [] else d.here

theorem route_eq_ok {d : Disk α} {path : String} {start : Place} {ways : List (List Char)}
    (h : d.route path = .ok (start, ways)) :
    '\x00' ∉ path.toList ∧ start = d.origin path ∧ ways = pieces path.toList := by
  simp only [route] at h
  split at h
  · cases h
  · next hnull =>
      split at h
      · cases h
      · split at h
        · cases h
        · cases h
          exact ⟨by simpa using hnull, rfl, rfl⟩

theorem route_joinPath (d : Disk α) {root name : String} (hroot : '\x00' ∉ root.toList)
    (h : IsComponent name) :
    d.route (joinPath root name) =
      if d.limits.path.any (· < (joinPath root name).utf8ByteSize) then .error .tooLong
      else .ok (d.origin root, steps root ++ [name.toList]) := by
  have hnull : ¬ (joinPath root name).toList.contains '\x00' = true := by
    simpa using null_not_mem_joinPath hroot h
  simp only [route, origin, if_neg hnull, if_neg (joinPath_ne_nil root h), head?_joinPath root h,
    pieces_joinPath root h]

theorem walk_joinPath {d : Disk α} {root name : String} {p : Place} (h : IsComponent name)
    (hroot : d.walk (d.origin root) (steps root) = .ok p) (hfits : d.nameFits name = true)
    (hget : d.get? (p ++ [name]) = some .directory) :
    d.walk (d.origin (joinPath root name)) (steps (joinPath root name)) = .ok (p ++ [name]) := by
  have horigin : d.origin (joinPath root name) = d.origin root := by
    simp only [origin, head?_joinPath root h]
  have henter : d.enter p name.toList = .ok (p ++ [name]) := by
    rw [enter_component d p h, if_pos hfits, hget]
  rw [horigin, steps_joinPath root h, walk_append, hroot]
  exact walk_cons_eq_ok_iff.mpr ⟨_, henter, rfl⟩

/-- A place that is named is one step below an existing directory. -/
theorem exists_steps_of_locate {d : Disk α} {path : String} {p : Place}
    (h : d.locate path = .ok p) :
    '\x00' ∉ path.toList ∧ ∃ ways parent piece, steps path = ways ++ [piece] ∧
      d.walk (d.origin path) ways = .ok parent ∧ turn? parent piece = none ∧
      d.nameFits (String.ofList piece) = true ∧ p = parent ++ [String.ofList piece] := by
  obtain ⟨⟨start, ways⟩, hroute, h⟩ := Listing.bind_eq_ok.mp h
  obtain ⟨hclean, rfl, rfl⟩ := route_eq_ok hroute
  obtain ⟨parent, hwalk, h⟩ := Listing.bind_eq_ok.mp h
  have hpieces := pieces_ne_nil path.toList
  have hlast := List.getLast?_eq_some_getLast hpieces
  simp only [List.getLastD_eq_getLast?, hlast, Option.getD_some] at h
  split at h
  · cases h
  · next hturn =>
      split at h
      · next hfits =>
          cases h
          have hfull : ¬ (pieces path.toList).getLast? = some [] := by
            rw [hlast, Option.some.injEq]
            intro hnil
            simp [hnil, turn?] at hturn
          refine ⟨hclean, _, parent, _, ?_, hwalk, hturn, hfits, rfl⟩
          rw [steps, if_neg hfull, List.dropLast_concat_getLast]
      · cases h

/-! ## Making directories -/

theorem makeWay_of_enter {d : Disk α} {p q : Place} {piece : List Char}
    (h : d.enter p piece = .ok q) (rest : List (List Char)) :
    d.makeWay p (piece :: rest) = d.makeWay q rest := by
  simp [makeWay, makeStep, h]

theorem makeWay_of_missing {d : Disk α} {p : Place} {piece : List Char}
    (h : d.enter p piece = .error .missing) (rest : List (List Char)) :
    d.makeWay p (piece :: rest) =
      (d.put (p ++ [String.ofList piece]) .directory).makeWay
        (p ++ [String.ofList piece]) rest := by
  simp [makeWay, makeStep, h]

theorem makeWay_of_refused {d : Disk α} {p : Place} {piece : List Char} {e : PathError}
    (h : d.enter p piece = .error e) (he : e ≠ .missing) (rest : List (List Char)) :
    d.makeWay p (piece :: rest) = (d, some e) := by
  cases e with
  | missing => exact absurd rfl he
  | _ => simp [makeWay, makeStep, h]

theorem makeWay_of_walk {d : Disk α} {p q : Place} {ways : List (List Char)}
    (h : d.walk p ways = .ok q) (rest : List (List Char)) :
    d.makeWay p (ways ++ rest) = d.makeWay q rest := by
  induction ways generalizing p with
  | nil =>
      cases h
      rfl
  | cons piece ways ih =>
      obtain ⟨next, hstep, hrest⟩ := walk_cons_eq_ok_iff.mp h
      rw [List.cons_append, makeWay_of_enter hstep, ih hrest]

/-- A directory that is put where no file is can only have been missing. -/
theorem enter_of_put {d : Disk α} {r p q : Place} {piece : List Char}
    (hfile : ∀ content, d.get? r ≠ some (.file content))
    (h : (d.put r .directory).enter p piece = .ok q) :
    d.enter p piece = .ok q ∨
      d.enter p piece = .error .missing ∧ p ++ [String.ofList piece] = r ∧ q = r := by
  rw [enter_eq_ok_iff] at h
  rcases h with hturn | ⟨hturn, hfits, hplace, hget⟩
  · exact .inl (enter_eq_ok_iff.mpr (.inl hturn))
  · have hfits' : d.nameFits (String.ofList piece) = true := hfits
    by_cases hq : q = r
    · subst hq
      rcases hold : d.get? q with _ | _ | content
      · exact .inr ⟨by simp [enter, hturn, hfits', hplace, hold], hplace, rfl⟩
      · exact .inl (enter_eq_ok_iff.mpr (.inr ⟨hturn, hfits', hplace, hold⟩))
      · exact absurd hold (hfile content)
    · rw [get?_put_of_ne _ _ hq] at hget
      exact .inl (enter_eq_ok_iff.mpr (.inr ⟨hturn, hfits', hplace, hget⟩))

/-- A way that could be gone if there were a directory at a place is made by at most putting one
there. -/
theorem makeWay_of_leads {d : Disk α} {r p q : Place} {ways : List (List Char)}
    (hfile : ∀ content, d.get? r ≠ some (.file content))
    (h : (d.put r .directory).walk p ways = .ok q) (rest : List (List Char)) :
    ∃ made, (made = d ∨ made = d.put r .directory) ∧ made.walk p ways = .ok q ∧
      d.makeWay p (ways ++ rest) = made.makeWay q rest := by
  induction ways generalizing p with
  | nil =>
      cases h
      exact ⟨d, .inl rfl, rfl, rfl⟩
  | cons piece ways ih =>
      obtain ⟨next, hput, hrest⟩ := walk_cons_eq_ok_iff.mp h
      rcases enter_of_put hfile hput with hstep | ⟨hmissing, hplace, rfl⟩
      · obtain ⟨made, hmade, hwalk, hway⟩ := ih hrest
        refine ⟨made, hmade, ?_, ?_⟩
        · refine walk_cons_eq_ok_iff.mpr ⟨next, ?_, hwalk⟩
          rcases hmade with rfl | rfl
          · exact hstep
          · exact hput
        · rw [List.cons_append, makeWay_of_enter hstep, hway]
      · -- From here on the disk is the one with the directory, on which the rest can be gone.
        refine ⟨_, .inr rfl, h, ?_⟩
        rw [List.cons_append, makeWay_of_missing hmissing, hplace, makeWay_of_walk hrest]

/-! ## Single steps of a save -/

theorem makeWay_component (d : Disk α) (p : Place) {name : String} (h : IsComponent name)
    (hfile : ∀ content, d.get? (p ++ [name]) ≠ some (.file content)) :
    d.makeWay p [name.toList] =
      if d.nameFits name then
        (if d.get? (p ++ [name]) = none then d.put (p ++ [name]) .directory else d, none)
      else (d, some .tooLong) := by
  have henter := d.enter_component p h
  split
  · next hfits =>
      rw [if_pos hfits] at henter
      rcases hget : d.get? (p ++ [name]) with _ | _ | content
      · rw [hget] at henter
        rw [makeWay_of_missing henter, String.ofList_toList, makeWay, if_pos rfl]
      · rw [hget] at henter
        rw [makeWay_of_enter henter, makeWay, if_neg (by simp)]
      · exact absurd hget (hfile content)
  · next hfits =>
      rw [if_neg hfits] at henter
      exact makeWay_of_refused henter (by decide) []

theorem saveAt_of_made {d made : Disk String} {directory : String} (path text : String)
    (h : d.makeDirectories directory = (made, none)) :
    d.saveAt directory path text = (made.write path text).toOption.getD made := by
  rw [saveAt, h]

theorem saveAt_of_refused {d made : Disk String} {directory : String} {e : PathError}
    (path text : String) (h : d.makeDirectories directory = (made, some e)) :
    d.saveAt directory path text = made := by
  rw [saveAt, h]

theorem makeDirectories_joinPath {d : Disk α} {root name : String} (hpath : d.limits.path = none)
    (hroot : '\x00' ∉ root.toList) (h : IsComponent name) :
    d.makeDirectories (joinPath root name) =
      d.makeWay (d.origin root) (steps root ++ [name.toList]) := by
  simp [makeDirectories, route_joinPath d hroot h, hpath]

theorem locate_joinPath {d : Disk α} {directory name : String} {p : Place}
    (hpath : d.limits.path = none) (hclean : '\x00' ∉ directory.toList) (h : IsComponent name)
    (hwalk : d.walk (d.origin directory) (steps directory) = .ok p) :
    d.locate (joinPath directory name) =
      if d.nameFits name then .ok (p ++ [name]) else .error .tooLong := by
  simp [locate, route_joinPath d hclean h, hpath, hwalk, bind, Except.bind, h.turn?_eq_none]

theorem write_joinPath {d : Disk α} {directory name : String} {p : Place} (content : α)
    (hpath : d.limits.path = none) (hclean : '\x00' ∉ directory.toList) (h : IsComponent name)
    (hwalk : d.walk (d.origin directory) (steps directory) = .ok p)
    (hdirectory : d.get? (p ++ [name]) ≠ some .directory) :
    d.write (joinPath directory name) content =
      if d.nameFits name then .ok (d.put (p ++ [name]) (.file content)) else .error .tooLong := by
  rw [write, locate_joinPath hpath hclean h hwalk]
  split
  · cases hget : d.get? (p ++ [name]) with
    | none => simp [bind, Except.bind, hget]
    | some e =>
        cases e with
        | directory => exact absurd hget hdirectory
        | file written => simp [bind, Except.bind, hget]
  · rfl

end Disk

end GameGrammar

import GameGrammar.Proofs.Funnel.Observation
import GameGrammar.Proofs.Store.Ways

/-! # What saves leave on a disk

A store begins below a root at which nothing lies yet. After any saves, the files below it are those
that the last save under each pair of components has left, and the rest of the disk is as it was. -/

namespace GameGrammar

/-! ## What is kept -/

namespace Save

variable {α : Type} (s : Save)

/-- The place of the save in a store. -/
def place (p : Place) : Place :=
  p ++ [component s.bucket, component s.file]

/-- Both components have a length that the disk takes. -/
def fits (d : Disk α) : Bool :=
  d.nameFits (component s.bucket) && d.nameFits (component s.file)

theorem prefix_place (p : Place) : p <+: s.place p :=
  List.prefix_append p _

end Save

/-- The text of the last save to a place, passing over those that do not fit. -/
def lastText? {α : Type} (d : Disk α) (p : Place) (saves : List Save) (q : Place) : Option String :=
  (saves.filter fun s => s.fits d && s.place p == q).getLast?.map Save.text

section LastText

variable {α : Type} {d : Disk α} {p q : Place} {saves : List Save} {s : Save}

theorem lastText?_concat_self (h : s.fits d = true) :
    lastText? d p (saves ++ [s]) (s.place p) = some s.text := by
  simp [lastText?, List.filter_append, h]

theorem lastText?_concat_of_ne (h : s.place p ≠ q) :
    lastText? d p (saves ++ [s]) q = lastText? d p saves q := by
  simp [lastText?, List.filter_append, h]

theorem lastText?_concat_of_unfit (h : s.fits d = false) :
    lastText? d p (saves ++ [s]) q = lastText? d p saves q := by
  simp [lastText?, List.filter_append, h]

/-- Files are kept at the places of the saves that fit, and nowhere else. -/
theorem lastText?_eq_none_iff :
    lastText? d p saves q = none ↔ ∀ s ∈ saves, s.fits d = true → s.place p ≠ q := by
  simp [lastText?]

theorem lastText?_above {above : Place} (h : above.length ≤ 1) :
    lastText? d p saves (p ++ above) = none := by
  rw [lastText?_eq_none_iff]
  intro s _ _ hplace
  have hlength := congrArg List.length hplace
  simp only [Save.place, List.length_append, List.length_cons, List.length_nil] at hlength
  omega

end LastText

/-! ## Stores -/

namespace Disk

/-- The root names this place, whether or not there is a directory at it yet, and nothing else lies
there. -/
structure Vacant (d : Disk String) (root : String) (p : Place) : Prop where
  clean : '\x00' ∉ root.toList
  leads : (d.put p .directory).walk (d.origin root) (pieces root.toList) = .ok p
  empty : ∀ entry ∈ d.entries, p <+: entry.1 → entry = (p, .directory)

/-- The second disk is the first one with what these saves have left below a place. -/
structure Holds (d : Disk String) (p : Place) (saves : List Save) (d' : Disk String) : Prop where
  limits_eq : d'.limits = d.limits
  here_eq : d'.here = d.here
  outside : ∀ q, ¬ p <+: q → d'.get? q = d.get? q
  files : ∀ q content, p <+: q →
    (d'.get? q = some (.file content) ↔ lastText? d p saves q = some content)
  directories : ∀ q, d'.get? (p ++ q) = some .directory → q.length ≤ 1
  single : d'.Single p

theorem Vacant.get?_eq {d : Disk String} {root : String} {p q : Place} {e : Entry String}
    (h : d.Vacant root p) (hq : p <+: q) (hget : d.get? q = some e) : q = p ∧ e = .directory := by
  rcases mem_entries_of_get? hget with ⟨rfl, rfl⟩ | hmem
  · exact ⟨(List.prefix_nil.mp hq).symm, rfl⟩
  · simpa using h.empty _ hmem hq

/-- Where the directory above is there, the root itself may be absent. -/
theorem vacant_of_locate {d : Disk String} {root : String} {p : Place} (h : d.locate root = .ok p)
    (hempty : ∀ entry ∈ d.entries, p <+: entry.1 → entry = (p, .directory)) :
    d.Vacant root p := by
  obtain ⟨hclean, ways, parent, piece, hsteps, hwalk, hturn, hfits, rfl⟩ :=
    exists_steps_of_locate h
  have henter : (d.put (parent ++ [String.ofList piece]) .directory).enter parent piece =
      .ok (parent ++ [String.ofList piece]) :=
    enter_eq_ok_iff.mpr (.inr ⟨hturn, hfits, rfl, get?_put_self _ fun _ => rfl⟩)
  refine ⟨hclean, ?_, hempty⟩
  rw [← walk_steps, hsteps, walk_append, walk_put_directory _ hwalk]
  exact walk_cons_eq_ok_iff.mpr ⟨_, henter, rfl⟩

theorem Vacant.holds {d : Disk String} {root : String} {p : Place} (h : d.Vacant root p) :
    Holds d p [] d where
  limits_eq := rfl
  here_eq := rfl
  outside := fun _ _ => rfl
  files := by
    intro q content hq
    constructor
    · intro hget
      exact absurd (h.get?_eq hq hget).2 (by simp)
    · intro htext
      simp [lastText?] at htext
  directories := by
    intro q hget
    have hq : p ++ q = p := (h.get?_eq (List.prefix_append p q) hget).1
    have hnil : q = [] := by simpa using hq
    simp [hnil]
  single := by
    intro entry hmem hbelow
    obtain rfl := h.empty entry hmem hbelow
    cases hget : d.get? p with
    | none => exact absurd hget (get?_ne_none_of_mem hmem)
    | some e => rw [(h.get?_eq hbelow hget).2]

namespace Holds

variable {d d' : Disk String} {root : String} {p : Place} {saves : List Save} {s : Save}

theorem no_file_above (h : Holds d p saves d') (above : Place) (habove : above.length ≤ 1)
    (content : String) : d'.get? (p ++ above) ≠ some (.file content) := by
  intro hget
  rw [h.files _ _ (List.prefix_append p above), lastText?_above habove] at hget
  cases hget

theorem put_directory (h : Holds d p saves d') (above : Place) (habove : above.length ≤ 1) :
    Holds d p saves (d'.put (p ++ above) .directory) where
  limits_eq := h.limits_eq
  here_eq := h.here_eq
  outside := by
    intro q hq
    rw [get?_put_below _ _ (List.prefix_append p above) hq, h.outside q hq]
  files := by
    intro q content hq
    by_cases hput : q = p ++ above
    · subst hput
      rw [get?_put_self _ fun _ => rfl, lastText?_above habove]
      simp
    · rw [get?_put_of_ne _ _ hput, h.files q content hq]
  directories := by
    intro q hget
    by_cases hput : q = above
    · rwa [hput]
    · rw [get?_put_of_ne _ _ (by simpa using hput)] at hget
      exact h.directories q hget
  single := h.single.put fun _ => rfl

theorem refuse (h : Holds d p saves d') (hfits : s.fits d = false) :
    Holds d p (saves ++ [s]) d' where
  limits_eq := h.limits_eq
  here_eq := h.here_eq
  outside := h.outside
  files := by
    intro q content hq
    rw [lastText?_concat_of_unfit hfits]
    exact h.files q content hq
  directories := h.directories
  single := h.single

theorem put_file (h : Holds d p saves d') (hfits : s.fits d = true) :
    Holds d p (saves ++ [s]) (d'.put (s.place p) (.file s.text)) where
  limits_eq := h.limits_eq
  here_eq := h.here_eq
  outside := by
    intro q hq
    rw [get?_put_below _ _ (s.prefix_place p) hq, h.outside q hq]
  files := by
    intro q content hq
    by_cases hput : q = s.place p
    · subst hput
      rw [get?_put_self _ (by simp [Save.place]), lastText?_concat_self hfits]
      simp
    · rw [get?_put_of_ne _ _ hput, lastText?_concat_of_ne (Ne.symm hput), h.files q content hq]
  directories := by
    intro q hget
    by_cases hput : p ++ q = s.place p
    · rw [hput, get?_put_self _ (by simp [Save.place])] at hget
      cases hget
    · rw [get?_put_of_ne _ _ hput] at hget
      exact h.directories q hget
  single := h.single.put (by simp [Save.place])

theorem origin_eq (h : Holds d p saves d') (path : String) : d'.origin path = d.origin path := by
  rw [origin, origin, h.here_eq]

theorem nameFits_eq (h : Holds d p saves d') (name : String) :
    d'.nameFits name = d.nameFits name := by
  rw [nameFits, nameFits, h.limits_eq]

/-- The root still leads to its place. -/
theorem leads (h : Holds d p saves d') (hvacant : d.Vacant root p) :
    (d'.put p .directory).walk (d.origin root) (steps root) = .ok p := by
  have hlimits : (d'.put p .directory).limits = (d.put p .directory).limits := h.limits_eq
  rw [walk_steps]
  -- No way that was there led through the store, where there were no directories.
  refine walk_mono hlimits ?_ hvacant.leads
  intro q hget
  by_cases hq : q = p
  · subst hq
    exact get?_put_self _ fun _ => rfl
  · rw [get?_put_of_ne _ _ hq] at hget ⊢
    rw [h.outside q fun hbelow => hq (hvacant.get?_eq hbelow hget).1, hget]

/-- The root is made, unless it is there. -/
theorem makeRoot (h : Holds d p saves d') (hvacant : d.Vacant root p)
    (rest : List (List Char)) :
    ∃ made, Holds d p saves made ∧ made.walk (d.origin root) (steps root) = .ok p ∧
      d'.makeWay (d.origin root) (steps root ++ rest) = made.makeWay p rest := by
  obtain ⟨made, hmade, hwalk, hway⟩ := makeWay_of_leads (r := p)
    (by simpa using h.no_file_above [] (by simp)) (h.leads hvacant) rest
  refine ⟨made, ?_, hwalk, hway⟩
  rcases hmade with rfl | rfl
  · exact h
  · simpa using h.put_directory [] (by simp)

/-- A directory below the root is made, unless it is there. -/
theorem makeBelow (h : Holds d p saves d')
    (hroot : d'.walk (d.origin root) (steps root) = .ok p) {name : String}
    (hname : IsComponent name) (hfits : d.nameFits name = true) :
    ∃ made, Holds d p saves made ∧ d'.makeWay p [name.toList] = (made, none) ∧
      made.walk (made.origin (joinPath root name)) (steps (joinPath root name)) =
        .ok (p ++ [name]) := by
  have hfile := h.no_file_above [name] (by simp)
  rw [makeWay_component d' p hname hfile, if_pos (by rw [h.nameFits_eq, hfits])]
  rw [← h.origin_eq] at hroot
  by_cases hnone : d'.get? (p ++ [name]) = none
  · rw [if_pos hnone]
    have hholds := h.put_directory [name] (by simp)
    have hfits' : (d'.put (p ++ [name]) .directory).nameFits name = true := by
      rw [hholds.nameFits_eq, hfits]
    exact ⟨_, hholds, rfl, walk_joinPath hname (walk_put_directory _ hroot) hfits'
      (get?_put_self _ fun _ => rfl)⟩
  · rw [if_neg hnone]
    refine ⟨d', h, rfl, walk_joinPath hname hroot (by rw [h.nameFits_eq, hfits]) ?_⟩
    rcases hget : d'.get? (p ++ [name]) with _ | _ | content
    · exact absurd hget hnone
    · rfl
    · exact absurd hget (hfile content)

/-- One more save. -/
theorem save (h : Holds d p saves d') (hvacant : d.Vacant root p) (hpath : d.limits.path = none)
    (s : Save) : Holds d p (saves ++ [s]) (d'.save root s.text s.bucket s.file) := by
  have hbucket := component_isComponent s.bucket
  have hfile := component_isComponent s.file
  obtain ⟨made, hholds, hroot, hway⟩ := h.makeRoot hvacant [(component s.bucket).toList]
  have hmake : d'.makeDirectories (joinPath root (component s.bucket)) =
      made.makeWay p [(component s.bucket).toList] := by
    rw [makeDirectories_joinPath (by rw [h.limits_eq, hpath]) hvacant.clean hbucket, h.origin_eq,
      hway]
  cases hfits : d.nameFits (component s.bucket) with
  | false =>
      -- The root may have been made for a directory that is then refused.
      rw [makeWay_component made p hbucket (hholds.no_file_above [_] (by simp)),
        hholds.nameFits_eq, hfits, if_neg (by simp)] at hmake
      rw [Disk.save, saveAt_of_refused _ _ hmake]
      exact hholds.refuse (by simp [Save.fits, hfits])
  | true =>
      obtain ⟨ready, hready, hbelow, hwalk⟩ := hholds.makeBelow hroot hbucket hfits
      have hplace : p ++ [component s.bucket] ++ [component s.file] = s.place p := by
        simp [Save.place]
      have hwrite := write_joinPath s.text (by rw [hready.limits_eq, hpath])
        (null_not_mem_joinPath hvacant.clean hbucket) hfile hwalk (by
          intro hget
          rw [List.append_assoc] at hget
          exact absurd (hready.directories _ hget) (by simp))
      rw [Disk.save, saveAt_of_made _ _ (hmake.trans hbelow), hwrite, hready.nameFits_eq, hplace]
      cases hfits' : d.nameFits (component s.file) with
      | false => exact hready.refuse (by simp [Save.fits, hfits'])
      | true => exact hready.put_file (by simp [Save.fits, hfits, hfits'])

/-- Any number of saves more. -/
theorem handed (h : Holds d p saves d') (hvacant : d.Vacant root p) (hpath : d.limits.path = none)
    (more : List Save) : Holds d p (saves ++ more) (Sink.handed (Disk.save root) more d') := by
  -- The saves so far are carried along, so that each save finds what those before it have left.
  induction more generalizing saves d' with
  | nil => simpa [Sink.handed] using h
  | cons s more ih => simpa [Sink.handed] using ih (h.save hvacant hpath s)

theorem mem_filesBelow_iff (h : Holds d p saves d') (q : Place) (content : String) :
    (q, content) ∈ d'.filesBelow p ↔ lastText? d p saves q = some content := by
  rw [mem_filesBelow]
  constructor
  · intro ⟨hbelow, hmem⟩
    exact (h.files q content hbelow).mp (h.single _ hmem hbelow)
  · intro htext
    have hbelow : p <+: q := by
      by_contra hbelow
      have hnone : lastText? d p saves q = none :=
        lastText?_eq_none_iff.mpr fun s _ _ hplace => hbelow (hplace ▸ s.prefix_place p)
      rw [hnone] at htext
      cases htext
    refine ⟨hbelow, ?_⟩
    rcases mem_entries_of_get? ((h.files q content hbelow).mpr htext) with ⟨-, he⟩ | hmem
    · cases he
    · exact hmem

end Holds

/-! ## Blocked roots -/

/-- A file at the root stands in the way of every directory below it. -/
theorem save_of_fetch {d : Disk String} {root content : String} (h : d.fetch root = .ok content)
    (s : Save) : d.save root s.text s.bucket s.file = d := by
  obtain ⟨p, hlocate, h⟩ := Listing.bind_eq_ok.mp h
  obtain ⟨hclean, ways, parent, piece, hsteps, hwalk, hturn, hfits, rfl⟩ :=
    exists_steps_of_locate hlocate
  rcases hget : d.get? (parent ++ [String.ofList piece]) with _ | _ | written
  · simp [hget] at h
  · simp [hget] at h
  · have hbucket := component_isComponent s.bucket
    have henter : d.enter parent piece = .error .notDirectory := by
      simp [enter, hturn, hfits, hget]
    have hmake : ∃ e, d.makeDirectories (joinPath root (component s.bucket)) = (d, some e) := by
      rw [makeDirectories, route_joinPath d hclean hbucket]
      split
      · next hroute =>
          split at hroute
          · cases hroute
          · cases hroute
            rw [hsteps, List.append_assoc, makeWay_of_walk hwalk]
            exact ⟨_, makeWay_of_refused henter (by decide) _⟩
      · exact ⟨_, rfl⟩
    obtain ⟨e, hmake⟩ := hmake
    exact saveAt_of_refused _ _ hmake

theorem handed_of_fetch {d : Disk String} {root content : String}
    (h : d.fetch root = .ok content) (saves : List Save) :
    Sink.handed (Disk.save root) saves d = d := by
  induction saves with
  | nil => rfl
  | cons s saves ih =>
      rw [Sink.handed, List.foldl_cons, save_of_fetch h s]
      exact ih

/-! ## Stores that begin empty -/

/-- Below a root at which nothing lies, saves leave exactly the last text under each pair of
components that fit; elsewhere they leave everything as it was, and everywhere if the root is a
file. For every name has a component, which is a single step down and its own component. -/
theorem saves_confined (d : Disk String) (root : String) :
    (∀ p, d.limits.path = none → d.Vacant root p → ∀ saves,
      (∀ q content, (q, content) ∈ (Sink.handed (Disk.save root) saves d).filesBelow p ↔
        lastText? d p saves q = some content) ∧
      ∀ q, ¬ p <+: q → (Sink.handed (Disk.save root) saves d).get? q = d.get? q) ∧
    (∀ content, d.fetch root = .ok content → ∀ saves,
      Sink.handed (Disk.save root) saves d = d) ∧
    ∀ name, IsComponent (component name) ∧ component (component name) = component name := by
  refine ⟨?_, ?_, ?_⟩
  · intro p hpath hvacant saves
    have hholds := hvacant.holds.handed hvacant hpath saves
    rw [List.nil_append] at hholds
    exact ⟨hholds.mem_filesBelow_iff, hholds.outside⟩
  · intro content hfetch saves
    exact handed_of_fetch hfetch saves
  · intro name
    have hcomponent := component_isComponent name
    exact ⟨hcomponent, hcomponent.component_eq⟩

/-- A directory with one file in it. -/
def workDisk : Disk String where
  entries := [(["work"], .directory), (["work", "notes"], .file "old")]
  limits := { path := none }
  here := ["work"]

/-- A name of 64 characters that take 256 bytes. -/
def longName : String :=
  String.ofList (List.replicate 64 '🎲')

/-- Names that would lead elsewhere, that share a component, or that are too long. -/
def hostileSaves : List Save :=
  [⟨"first", "accepted", "../../Tac"⟩, ⟨"second", "accepted", "..\\../Tac"⟩, ⟨"third", "..", ""⟩,
    ⟨"fourth", "accepted", longName⟩]

theorem component_longName : component longName = longName := by
  have hchars : longName.toList = List.replicate 64 '🎲' := String.toList_ofList
  refine IsComponent.component_eq ⟨by decide +kernel, by decide +kernel, by decide +kernel, ?_⟩
  intro c hc
  rw [hchars] at hc
  rw [List.eq_of_mem_replicate hc]
  decide

theorem saves_confined_hostileSaves :
    (["work", "out", "accepted", ".._.._Tac"], "second") ∈
        (Sink.handed (Disk.save "out") hostileSaves workDisk).filesBelow ["work", "out"] ∧
      (∀ content, (["work", "out", "accepted", ".._.._Tac"], content) ∈
        (Sink.handed (Disk.save "out") hostileSaves workDisk).filesBelow ["work", "out"] →
          content = "second") ∧
      (Sink.handed (Disk.save "out") hostileSaves workDisk).get? ["work", "notes"] =
        some (.file "old") ∧
      Sink.handed (Disk.save "notes") hostileSaves workDisk = workDisk := by
  obtain ⟨hfiles, houtside⟩ := (saves_confined workDisk "out").1 ["work", "out"] rfl
    (vacant_of_locate (by rfl) (by decide)) hostileSaves
  have hlong : Save.fits ⟨"fourth", "accepted", longName⟩ workDisk = false := by
    rw [Save.fits, component_longName]
    decide +kernel
  have hsaves : hostileSaves = hostileSaves.take 3 ++ [⟨"fourth", "accepted", longName⟩] := rfl
  have hlast : lastText? workDisk ["work", "out"] hostileSaves
      ["work", "out", "accepted", ".._.._Tac"] = some "second" := by
    rw [hsaves, lastText?_concat_of_unfit hlong]
    decide +kernel
  refine ⟨(hfiles _ _).mpr hlast, ?_, ?_, ?_⟩
  · intro content hcontent
    simpa [hlast, eq_comm] using (hfiles _ _).mp hcontent
  · rw [houtside _ (by decide)]
    rfl
  · exact (saves_confined workDisk "notes").2.1 "old" (by rfl) hostileSaves

end Disk

end GameGrammar

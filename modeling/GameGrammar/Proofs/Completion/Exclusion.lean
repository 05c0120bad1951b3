import GameGrammar.Proofs.Completion.Progress
import GameGrammar.Proofs.Completion.Replay
import GameGrammar.Proofs.Completion.Selection

/-! # Groups are exclusive

The draws for a group drop its members one by one, and draws that name none are wasted. However a
policy draws, one member is left in the end, and it is known from the draws which one. -/

namespace GameGrammar.Completion

open Dialogue

/-! ## Settling a group -/

/-- The members that none of the drawn positions names. -/
def undrawn (members drawn : List Nat) : List Nat :=
  members.filter (· ∉ drawn)

/-- Draws settle a group of which one member is kept. -/
structure Settled (bound : Nat) (members drawn : List Nat) (kept : Nat) : Prop where
  /-- Of the members that are left, the earliest one is kept. -/
  earliest : (undrawn members drawn).head? = some kept
  /-- A draw is asked for only while there are two members left at least. -/
  contested : ∀ n < drawn.length, 2 ≤ (undrawn members (drawn.take n)).length
  bounded : drawn.length ≤ bound
  /-- No other member is left, unless the draws have come to their bound. -/
  decided : drawn.length < bound → undrawn members drawn = [kept]

@[simp] theorem undrawn_nil (members : List Nat) : undrawn members [] = members := by
  simp [undrawn]

theorem undrawn_cons {members : List Nat} (hn : members.Nodup) (x : Nat) (drawn : List Nat) :
    undrawn members (x :: drawn) = undrawn (members.erase x) drawn := by
  rw [undrawn, undrawn, hn.erase_eq_filter, List.filter_filter]
  congr 1
  funext m
  by_cases hx : m = x <;> simp [hx]

/-- A draw drops one member at most. -/
theorem length_le_undrawn {members : List Nat} (hn : members.Nodup) (drawn : List Nat) :
    members.length ≤ (undrawn members drawn).length + drawn.length := by
  induction drawn generalizing members with
  | nil => simp
  | cons x drawn ih =>
      have hlength := ih (hn.erase x)
      have herase := List.le_length_erase (a := x) (l := members)
      rw [undrawn_cons hn, List.length_cons]
      omega

namespace Settled

variable {bound kept : Nat} {members drawn : List Nat}

theorem single (bound kept : Nat) : Settled bound [kept] [] kept where
  earliest := rfl
  contested _ h := absurd h (Nat.not_lt_zero _)
  bounded := Nat.zero_le _
  decided _ := rfl

/-- Without draws the first member is kept. -/
theorem undecided (m : Nat) (others : List Nat) : Settled 0 (m :: others) [] m where
  earliest := by simp
  contested _ h := absurd h (Nat.not_lt_zero _)
  bounded := Nat.le_refl _
  decided h := absurd h (Nat.lt_irrefl _)

theorem draw {x : Nat} (hn : members.Nodup) (hm : 2 ≤ members.length)
    (h : Settled bound (members.erase x) drawn kept) :
    Settled (bound + 1) members (x :: drawn) kept where
  earliest := by
    rw [undrawn_cons hn]
    exact h.earliest
  contested n hlt := by
    cases n with
    | zero => simpa using hm
    | succ n =>
        rw [List.take_succ_cons, undrawn_cons hn]
        exact h.contested n (Nat.lt_of_succ_lt_succ hlt)
  bounded := Nat.succ_le_succ h.bounded
  decided hlt := by
    rw [undrawn_cons hn]
    exact h.decided (Nat.lt_of_succ_lt_succ hlt)

/-- Only so many draws drop all members but one. -/
theorem min_le_length (h : Settled bound members drawn kept) (hn : members.Nodup) :
    min (members.length - 1) bound ≤ drawn.length := by
  by_cases hlt : drawn.length < bound
  · have hlength := length_le_undrawn hn drawn
    rw [h.decided hlt, List.length_singleton] at hlength
    omega
  · omega

theorem mem (h : Settled bound members drawn kept) : kept ∈ members :=
  (List.mem_filter.mp (List.mem_of_head? h.earliest)).1

end Settled

/-! ## The questions -/

/-- The questions about one group, with the draws as answers. -/
def drawing (argCount : Nat) (draws : List Nat) : List Exchange :=
  draws.map fun i => ⟨.orGroup argCount, i⟩

/-- The questions about the optional arguments outside the groups, in their order. Each has the
answer that the argument is dropped if it is not kept. -/
def dropping (depth : Nat) (args : List Argument) (kept : List Bool) : List Exchange :=
  ((args.zip kept).filter fun x => x.1.group = 0 && x.1.optional).map
    fun x => ⟨.drop depth, !x.2⟩

/-- Whatever is drawn for a group settles it. -/
theorem settle_runs {argCount bound : Nat} {members kept : List Nat} {talk : List Exchange}
    (hn : members.Nodup) (hne : members ≠ [])
    (h : (settle argCount bound members).Runs talk (some kept)) :
    ∃ draws m, talk = drawing argCount draws ∧ kept = [m] ∧
      Settled bound members (draws.map (· % argCount)) m := by
  induction bound generalizing members talk with
  | zero =>
      match members with
      | [m] =>
          obtain ⟨rfl, rfl⟩ := runs_done.mp h
          exact ⟨[], m, rfl, rfl, .single 0 m⟩
      | m :: n :: others =>
          obtain ⟨rfl, rfl⟩ := runs_done.mp h
          exact ⟨[], m, rfl, rfl, .undecided m (n :: others)⟩
  | succ bound ih =>
      match members with
      | [m] =>
          obtain ⟨rfl, rfl⟩ := runs_done.mp h
          exact ⟨[], m, rfl, rfl, .single _ m⟩
      | m :: n :: others =>
          obtain ⟨i, first, rest, rfl, hfirst, hrest⟩ := runs_bind.mp h
          rw [runs_question] at hfirst
          have htwo : 2 ≤ (m :: n :: others).length := by simp
          have hleft : (m :: n :: others).erase (i % argCount) ≠ [] := by
            have hlength := List.le_length_erase (a := i % argCount) (l := m :: n :: others)
            exact List.ne_nil_of_length_pos (by omega)
          obtain ⟨draws, k, rfl, rfl, hsettled⟩ := ih (hn.erase _) hleft hrest
          refine ⟨i :: draws, k, ?_, rfl, hsettled.draw hn htwo⟩
          rw [hfirst]
          rfl

/-- A group is settled if there is a member. -/
theorem settle_positions_runs {args : List Argument} {group : UInt32} {talk : List Exchange}
    {kept : List Nat} (hg : ∃ a ∈ args, a.group = group)
    (h : (settle args.length maxGroupDraws (positions args group)).Runs talk (some kept)) :
    ∃ draws m, talk = drawing args.length draws ∧ kept = [m] ∧
      Settled maxGroupDraws (positions args group) (draws.map (· % args.length)) m :=
  settle_runs (nodup_positions args group) (positions_ne_nil hg) h

/-- Groups without repetition are settled one after another, each by draws of its own. -/
theorem settleAll_runs {args : List Argument} {groups : List UInt32} {talk : List Exchange}
    {kept : List Nat} (hg : ∀ g ∈ groups, ∃ a ∈ args, a.group = g) (hn : groups.Nodup)
    (h : (settleAll args groups).Runs talk (some kept)) :
    ∃ (draws : UInt32 → List Nat) (survivor : UInt32 → Nat),
      talk = groups.flatMap (fun g => drawing args.length (draws g)) ∧
      kept = groups.map survivor ∧
      ∀ g ∈ groups, Settled maxGroupDraws (positions args g) ((draws g).map (· % args.length))
        (survivor g) := by
  induction groups generalizing talk kept with
  | nil =>
      obtain ⟨rfl, rfl⟩ := runs_done.mp h
      exact ⟨fun _ => [], fun _ => 0, rfl, rfl, List.forall_mem_nil _⟩
  | cons g groups ih =>
      obtain ⟨hnot, hn⟩ := List.nodup_cons.mp hn
      obtain ⟨hgroup, hgroups⟩ := List.forall_mem_cons.mp hg
      simp only [settleAll, runs_bind, runs_pure] at h
      obtain ⟨_, first, _, rfl, hfirst, _, rest, _, rfl, hrest, rfl, rfl⟩ := h
      obtain ⟨drawsHere, m, rfl, rfl, hsettled⟩ := settle_positions_runs hgroup hfirst
      obtain ⟨draws, survivor, rfl, rfl, hothers⟩ := ih hgroups hn hrest
      have hother : ∀ h ∈ groups, h ≠ g := fun h hh he => hnot (he ▸ hh)
      refine ⟨Function.update draws g drawsHere, Function.update survivor g m, ?_, ?_, ?_⟩
      · have htail : ∀ h ∈ groups, drawing args.length (Function.update draws g drawsHere h) =
            drawing args.length (draws h) := fun h hh => by
          rw [Function.update_of_ne (hother h hh)]
        rw [List.flatMap_cons, Function.update_self, List.flatMap_congr htail, List.append_nil]
      · have htail : ∀ h ∈ groups, Function.update survivor g m h = survivor h := fun h hh =>
          Function.update_of_ne (hother h hh) _ _
        rw [List.map_cons, Function.update_self, List.map_congr_left htail]
        rfl
      · refine List.forall_mem_cons.mpr ⟨?_, fun h hh => ?_⟩
        · rw [Function.update_self, Function.update_self]
          exact hsettled
        · rw [Function.update_of_ne (hother h hh), Function.update_of_ne (hother h hh)]
          exact hothers h hh

theorem dropping_cons (depth : Nat) (a : Argument) (args : List Argument) (mark : Bool)
    (others : List Bool) :
    dropping depth (a :: args) (mark :: others) =
      dropping depth [a] [mark] ++ dropping depth args others := by
  simp only [dropping, List.zip_cons_cons, List.zip_nil_right, ← List.map_append,
    ← List.filter_append, List.singleton_append]

theorem keeps_runs {survivors : List Nat} {depth i : Nat} {a : Argument} {talk : List Exchange}
    {mark : Bool} (h : (keeps survivors depth a i).Runs talk (some mark)) :
    talk = dropping depth [a] [mark] := by
  unfold keeps at h
  by_cases hg : 0 < a.group
  · rw [if_pos hg] at h
    have h0 : a.group ≠ 0 := by
      intro h0
      simp [h0] at hg
    simpa [dropping, h0] using (runs_pure.mp h).1
  · rw [if_neg hg] at h
    have h0 : a.group = 0 := by simpa using hg
    cases ho : a.optional with
    | false =>
        rw [ho] at h
        simpa [dropping, h0, ho] using (runs_pure.mp h).1
    | true =>
        rw [ho] at h
        simp only [if_true, runs_bind, runs_pure] at h
        obtain ⟨dropped, first, _, rfl, hfirst, rfl, rfl⟩ := h
        rw [runs_question.mp hfirst]
        simp [dropping, h0, ho]

/-- Outside the groups the marks and the answers about dropping say the same. -/
theorem marks_runs {survivors : List Nat} {depth : Nat} {l : List (Argument × Nat)}
    {talk : List Exchange} {kept : List Bool}
    (h : (marks survivors depth l).Runs talk (some kept)) :
    talk = dropping depth (l.map Prod.fst) kept := by
  induction l generalizing talk kept with
  | nil =>
      obtain ⟨rfl, rfl⟩ := runs_done.mp h
      rfl
  | cons x l ih =>
      simp only [marks, runs_bind, runs_pure] at h
      obtain ⟨mark, first, _, rfl, hfirst, others, rest, _, rfl, hrest, rfl, rfl⟩ := h
      rw [List.map_cons, dropping_cons, ← keeps_runs hfirst, ← ih hrest, List.append_nil]

/-! ## The selection -/

/-- The whole course of a selection: first the groups are settled in the order of their numbers,
then the optional arguments outside of them are asked about in order. -/
theorem select_runs {args : List Argument} {depth : Nat} {talk : List Exchange}
    {kept : List Bool} (h : (select args depth).Runs talk (some kept)) :
    ∃ draws : UInt32 → List Nat,
      talk = (groupNumbers args).flatMap (fun g => drawing args.length (draws g)) ++
        dropping depth args kept ∧
      ∀ g ∈ groupNumbers args, ∃ survivor,
        Settled maxGroupDraws (positions args g) ((draws g).map (· % args.length)) survivor ∧
        ∀ i, Member args g i → (kept[i]? = some true ↔ i = survivor) := by
  rw [select, runs_bind] at h
  obtain ⟨survivors, first, rest, rfl, hfirst, hrest⟩ := h
  obtain ⟨draws, survivor, rfl, rfl, hsettled⟩ :=
    settleAll_runs (fun g hg => (mem_groupNumbers.mp hg).2) (nodup_groupNumbers args) hfirst
  have hdrop := marks_runs hrest
  rw [List.zipIdx_map_fst] at hdrop
  refine ⟨draws, by rw [hdrop], fun g hg => ⟨survivor g, hsettled g hg, ?_⟩⟩
  rintro i ⟨a, ha, rfl⟩
  have hmember (g : UInt32) (hg : g ∈ groupNumbers args) : Member args g (survivor g) :=
    mem_positions.mp (hsettled g hg).mem
  have hmark := ((marks_yields.mp hrest.yields).2 i a i (by simp [List.getElem?_zipIdx, ha])).1
    (mem_groupNumbers.mp hg).1
  rw [hmark, Option.some.injEq]
  exact contains_survivors hmember ha (mem_groupNumbers.mp hg).1

/-- Whatever a policy answers, a selection comes to an end. Of each group one member is kept, and of
the other arguments all but the optional ones that the policy drops. In increasing order of their
numbers the groups are settled by at most a thousand draws each, and by no fewer than it takes to
drop all members but one; the member kept is the earliest one that no draw has named. Then each
optional argument outside the groups is asked about once, in order, and no other argument is. -/
theorem select_exclusive {σ : Type} (args : List Argument) (depth : Nat) (p : Policy σ) (s : σ) :
    ∃ (kept : List Bool) (draws : UInt32 → List Nat),
      (∀ earlier, (select args depth).run p.recorded (s, earlier) =
        (some kept, ((select args depth).run p s).2,
          Exchange.record ((groupNumbers args).flatMap (fun g => drawing args.length (draws g)) ++
            dropping depth args kept) ++ earlier)) ∧
      Selection none args kept ∧
      (groupNumbers args).Pairwise (· < ·) ∧
      (∀ g, g ∈ groupNumbers args ↔ 0 < g ∧ ∃ a ∈ args, a.group = g) ∧
      ∀ g ∈ groupNumbers args,
        min (args.countP (·.group == g) - 1) maxGroupDraws ≤ (draws g).length ∧
        (draws g).length ≤ maxGroupDraws ∧
        ∃ survivor,
          Settled maxGroupDraws (positions args g) ((draws g).map (· % args.length)) survivor ∧
          ∀ i, Member args g i → (kept[i]? = some true ↔ i = survivor) := by
  obtain ⟨talk, hruns, hrecorded⟩ := (select args depth).exists_runs p s
  obtain ⟨kept, hkept⟩ := (select_succeeds args depth).exists_run p s
  rw [hkept] at hruns hrecorded
  obtain ⟨draws, rfl, hgroups⟩ := select_runs hruns
  refine ⟨kept, draws, hrecorded, (select_yields.mp hruns.yields).unbounded,
    groupNumbers_increasing args, fun g => mem_groupNumbers, fun g hg => ?_⟩
  obtain ⟨survivor, hsettled, hkept⟩ := hgroups g hg
  have hleast := hsettled.min_le_length (nodup_positions args g)
  rw [length_positions, List.length_map] at hleast
  exact ⟨hleast, by simpa using hsettled.bounded, survivor, hsettled, hkept⟩

end GameGrammar.Completion

import GameGrammar.Completion.Selection
import GameGrammar.Proofs.Completion.Outcome
import Mathlib.Data.List.Nodup
import Mathlib.Tactic.Choose

/-! # Which arguments a form may keep

Settling a group asks for members to drop, so that it may end with any member that is not too
far from the front. Every other mark is free, required or dropped as its argument says. -/

namespace GameGrammar.Completion

open Dialogue

/-! ## Selections -/

/-- The argument at position `i` belongs to the group. -/
def Member (args : List Argument) (group : UInt32) (i : Nat) : Prop :=
  ∃ a, args[i]? = some a ∧ a.group = group

/-- How many members of the group stand before position `i`. -/
def membersBefore (args : List Argument) (group : UInt32) (i : Nat) : Nat :=
  (args.take i).countP (·.group == group)

/-- A member that is among the first `reach` ones of its group, or any member if there is no
bound. -/
def Reachable (reach : Option Nat) (args : List Argument) (group : UInt32) (i : Nat) : Prop :=
  Member args group i ∧ ∀ bound ∈ reach, membersBefore args group i < bound

/-- A choice of arguments keeps every required independent one, any of the optional independent
ones, and of each group exactly one member in reach. -/
structure Selection (reach : Option Nat) (args : List Argument) (kept : List Bool) : Prop where
  length_eq : kept.length = args.length
  required : ∀ (i : Nat) (a : Argument), args[i]? = some a → a.group = 0 → a.optional = false →
    kept[i]? = some true
  single : ∀ group, 0 < group → (∃ a ∈ args, a.group = group) →
    ∃ i, Reachable reach args group i ∧ ∀ j, Member args group j → (kept[j]? = some true ↔ j = i)

/-- Without the bound there is still a single member of each group that is kept. -/
theorem Selection.unbounded {reach : Option Nat} {args : List Argument} {kept : List Bool}
    (h : Selection reach args kept) : Selection none args kept where
  length_eq := h.length_eq
  required := h.required
  single group hg hmem := by
    obtain ⟨i, hi, hone⟩ := h.single group hg hmem
    exact ⟨i, ⟨hi.1, by simp⟩, hone⟩

theorem mem_of_mem_marked {α : Type} {a : α} {items : List α} {marks : List Bool}
    (h : a ∈ marked items marks) : a ∈ items := by
  fun_induction marked items marks with
  | case1 x rest others ih =>
      rcases List.mem_cons.mp h with rfl | h
      · exact List.mem_cons_self
      · exact List.mem_cons_of_mem x (ih h)
  | case2 x rest kept others hk ih => exact List.mem_cons_of_mem x (ih h)
  | case3 => cases h

theorem Member.group_eq {args : List Argument} {g h : UInt32} {i : Nat}
    (hg : Member args g i) (hh : Member args h i) : g = h := by
  obtain ⟨a, ha, rfl⟩ := hg
  obtain ⟨b, hb, rfl⟩ := hh
  rw [ha] at hb
  exact congrArg Argument.group (Option.some.inj hb)

/-! ## Members of a group -/

theorem positions_cons (a : Argument) (args : List Argument) (group : UInt32) :
    positions (a :: args) group =
      if a.group = group then 0 :: (positions args group).map (· + 1)
      else (positions args group).map (· + 1) := by
  have hshift : (args.zipIdx 1).filterMap (fun x => if x.1.group = group then some x.2 else none) =
      (positions args group).map (· + 1) := by
    rw [positions, List.zipIdx_succ, List.filterMap_map, List.map_filterMap]
    congr 1
    funext x
    by_cases h : x.1.group = group <;> simp [h]
  by_cases h : a.group = group
  · simp [positions, h] at hshift ⊢
    exact hshift
  · simp [positions, h] at hshift ⊢
    exact hshift

/-- Members are listed in order: the one at index `j` has `j` others before it. -/
theorem positions_getElem?_eq_some {args : List Argument} {group : UInt32} {i j : Nat} :
    (positions args group)[j]? = some i ↔
      Member args group i ∧ membersBefore args group i = j := by
  induction args generalizing i j with
  | nil => simp [positions, Member]
  | cons a args ih =>
      rw [positions_cons]
      by_cases h : a.group = group
      · cases j with
        | zero => cases i <;> simp [h, Member, membersBefore]
        | succ j => cases i <;> simp [h, Member, membersBefore, ih]
      · cases i <;> simp [h, Member, membersBefore, ih]

theorem mem_positions {args : List Argument} {group : UInt32} {i : Nat} :
    i ∈ positions args group ↔ Member args group i := by
  rw [List.mem_iff_getElem?]
  simp only [positions_getElem?_eq_some]
  exact ⟨fun ⟨_, h, _⟩ => h, fun h => ⟨_, h, rfl⟩⟩

theorem lt_length_of_mem_positions {args : List Argument} {group : UInt32} {i : Nat}
    (h : i ∈ positions args group) : i < args.length := by
  obtain ⟨a, ha, -⟩ := mem_positions.mp h
  exact (List.getElem?_eq_some_iff.mp ha).1

theorem positions_ne_nil {args : List Argument} {group : UInt32}
    (h : ∃ a ∈ args, a.group = group) : positions args group ≠ [] := by
  obtain ⟨a, ha, hgroup⟩ := h
  obtain ⟨i, hi⟩ := List.mem_iff_getElem?.mp ha
  exact List.ne_nil_of_mem (mem_positions.mpr ⟨a, hi, hgroup⟩)

theorem length_positions (args : List Argument) (group : UInt32) :
    (positions args group).length = args.countP (·.group == group) := by
  induction args with
  | nil => rfl
  | cons a args ih =>
      rw [positions_cons, List.countP_cons, ← ih]
      by_cases h : a.group = group <;> simp [h]

theorem nodup_positions (args : List Argument) (group : UInt32) :
    (positions args group).Nodup := by
  rw [List.nodup_iff_getElem?_ne_getElem?]
  intro j k hjk hk heq
  have hget := List.getElem?_eq_getElem hk
  have hj := (positions_getElem?_eq_some.mp (heq.trans hget)).2
  have hk' := (positions_getElem?_eq_some.mp hget).2
  omega

theorem mem_groupNumbers {args : List Argument} {group : UInt32} :
    group ∈ groupNumbers args ↔ 0 < group ∧ ∃ a ∈ args, a.group = group := by
  simp [groupNumbers, and_comm]

theorem nodup_eraseDups {α : Type} [BEq α] [LawfulBEq α] (xs : List α) : xs.eraseDups.Nodup := by
  induction h : xs.length using Nat.strongRecOn generalizing xs with
  | ind n ih =>
      cases xs with
      | nil => simp
      | cons x xs =>
          have hlt : (xs.filter fun y => !y == x).length < n := by
            have := List.length_filter_le (fun y => !y == x) xs
            simp only [List.length_cons] at h
            omega
          rw [List.eraseDups_cons, List.nodup_cons]
          exact ⟨by simp [List.mem_eraseDups], ih _ hlt _ rfl⟩

theorem nodup_groupNumbers (args : List Argument) : (groupNumbers args).Nodup := by
  rw [groupNumbers, (List.mergeSort_perm _ _).nodup_iff]
  exact nodup_eraseDups _

theorem groupNumbers_increasing (args : List Argument) :
    (groupNumbers args).Pairwise (· < ·) := by
  have hsorted : (groupNumbers args).Pairwise fun g h => decide (g ≤ h) = true := by
    apply List.pairwise_mergeSort
    · intro a b c hab hbc
      exact decide_eq_true (UInt32.le_trans (of_decide_eq_true hab) (of_decide_eq_true hbc))
    · intro a b
      simpa using UInt32.le_total a b
  refine (hsorted.and (nodup_groupNumbers args)).imp fun h => ?_
  exact UInt32.lt_of_le_of_ne (of_decide_eq_true h.1) h.2

/-! ## Settling a group -/

/-- A draw moves each member that is left at most one place to the front. -/
theorem getElem?_of_erase {members : List Nat} {x j m : Nat}
    (h : (members.erase x)[j]? = some m) : ∃ i, i ≤ j + 1 ∧ members[i]? = some m := by
  induction members generalizing j with
  | nil => simp at h
  | cons y members ih =>
      by_cases hy : y = x
      · rw [hy, List.erase_cons_head] at h
        exact ⟨j + 1, Nat.le_refl _, by simpa using h⟩
      · rw [List.erase_cons_tail (by simpa using hy)] at h
        cases j with
        | zero => exact ⟨0, Nat.zero_le _, by simpa using h⟩
        | succ j =>
            obtain ⟨i, hi, hm⟩ := ih (by simpa using h)
            exact ⟨i + 1, Nat.succ_le_succ hi, by simpa using hm⟩

/-- With `draws` draws any of the first `draws + 1` members may be the one that is left. -/
theorem settle_yields {argCount draws : Nat} {members kept : List Nat}
    (hmem : ∀ m ∈ members, m < argCount) (hne : members ≠ []) :
    (settle argCount draws members).Yields kept ↔
      ∃ j m, j ≤ draws ∧ members[j]? = some m ∧ kept = [m] := by
  induction draws generalizing members with
  | zero =>
      match members with
      | [m] => simp [settle]
      | m :: n :: rest => simp [settle]
  | succ draws ih =>
      match members with
      | [m] =>
          simp only [settle, yields_done]
          constructor
          · rintro rfl
            exact ⟨0, m, Nat.zero_le _, rfl, rfl⟩
          · rintro ⟨j, n, -, hn, rfl⟩
            obtain ⟨rfl, rfl⟩ : j = 0 ∧ m = n := by simpa [List.getElem?_cons] using hn
            rfl
      | m :: n :: rest =>
          have hstep (x : Nat) : (settle argCount draws ((m :: n :: rest).erase x)).Yields kept ↔
              ∃ j k, j ≤ draws ∧ ((m :: n :: rest).erase x)[j]? = some k ∧ kept = [k] := by
            refine ih (fun k hk => hmem k (List.mem_of_mem_erase hk)) fun hnil => ?_
            have hlen := List.le_length_erase (a := x) (l := m :: n :: rest)
            simp [hnil] at hlen
          simp only [settle, yields_bind, hstep]
          constructor
          · rintro ⟨a, -, j, k, hj, hk, rfl⟩
            obtain ⟨i, hi, hm⟩ := getElem?_of_erase hk
            exact ⟨i, k, by omega, hm, rfl⟩
          · rintro ⟨j, k, hj, hk, rfl⟩
            -- the member in front is dropped, unless it is the one to keep
            cases j with
            | zero =>
                refine ⟨n, yields_question (.orGroup argCount) n, 0, k, Nat.zero_le _, ?_, rfl⟩
                rw [Nat.mod_eq_of_lt (hmem n (by simp))]
                by_cases h : m = n <;> simp_all [List.erase_cons]
            | succ j =>
                refine ⟨m, yields_question (.orGroup argCount) m, j, k,
                  Nat.le_of_succ_le_succ hj, ?_, rfl⟩
                rw [Nat.mod_eq_of_lt (hmem m (by simp))]
                simpa using hk

/-- The members that settling may leave are the ones in reach of its draws. -/
theorem settle_positions_yields {args : List Argument} {group : UInt32} {kept : List Nat}
    (hg : ∃ a ∈ args, a.group = group) :
    (settle args.length maxGroupDraws (positions args group)).Yields kept ↔
      ∃ i, Reachable (some (maxGroupDraws + 1)) args group i ∧ kept = [i] := by
  rw [settle_yields (fun m hm => lt_length_of_mem_positions hm) (positions_ne_nil hg)]
  constructor
  · rintro ⟨j, i, hj, hi, rfl⟩
    obtain ⟨hm, rfl⟩ := positions_getElem?_eq_some.mp hi
    exact ⟨i, ⟨hm, by simpa using Nat.lt_succ_of_le hj⟩, rfl⟩
  · rintro ⟨i, ⟨hm, hb⟩, rfl⟩
    exact ⟨_, i, Nat.le_of_lt_succ (hb _ rfl), positions_getElem?_eq_some.mpr ⟨hm, rfl⟩, rfl⟩

/-! ## Marks -/

/-- Groups without repetition are settled one by one, each by a member in its reach. -/
theorem settleAll_yields {args : List Argument} {groups : List UInt32} {kept : List Nat}
    (hg : ∀ g ∈ groups, ∃ a ∈ args, a.group = g) (hn : groups.Nodup) :
    (settleAll args groups).Yields kept ↔
      ∃ f : UInt32 → Nat, (∀ g ∈ groups, Reachable (some (maxGroupDraws + 1)) args g (f g)) ∧
        kept = groups.map f := by
  induction groups generalizing kept with
  | nil => simp [settleAll]
  | cons g groups ih =>
      have hg' : ∀ h ∈ groups, ∃ a ∈ args, a.group = h := fun h hh => hg h (by simp [hh])
      obtain ⟨hnot, hn'⟩ := List.nodup_cons.mp hn
      simp only [settleAll, yields_bind, yields_pure, settle_positions_yields (hg g (by simp)),
        ih hg' hn']
      constructor
      · rintro ⟨_, ⟨i, hi, rfl⟩, _, ⟨f, hf, rfl⟩, rfl⟩
        refine ⟨fun h => if h = g then i else f h, ?_, ?_⟩
        · intro h hh
          by_cases he : h = g
          · simpa [he] using hi
          · simpa [he] using hf h (by simpa [he] using hh)
        · simp only [List.map_cons, ite_true, List.singleton_append, List.cons.injEq, true_and]
          apply List.map_congr_left
          intro h hh
          rw [if_neg]
          rintro rfl
          exact hnot hh
      · rintro ⟨f, hf, rfl⟩
        exact ⟨[f g], ⟨f g, hf g (by simp), rfl⟩, groups.map f,
          ⟨f, fun h hh => hf h (by simp [hh]), rfl⟩, rfl⟩

theorem keeps_yields {survivors : List Nat} {depth i : Nat} {a : Argument} {b : Bool} :
    (keeps survivors depth a i).Yields b ↔
      (0 < a.group → b = survivors.contains i) ∧
        (a.group = 0 → a.optional = false → b = true) := by
  unfold keeps
  by_cases hg : 0 < a.group
  · have h0 : a.group ≠ 0 := by
      rintro h
      simp [h] at hg
    simp [hg, h0]
  · have h0 : a.group = 0 := by simpa using hg
    cases ho : a.optional
    · simp [h0]
    · suffices h : ∃ x, (question (Question.drop depth)).Yields x ∧ b = !x by simpa [h0] using h
      exact ⟨!b, yields_question (.drop depth) _, by simp⟩

theorem marks_yields {survivors : List Nat} {depth : Nat} {l : List (Argument × Nat)}
    {kept : List Bool} :
    (marks survivors depth l).Yields kept ↔
      kept.length = l.length ∧ ∀ (n : Nat) (a : Argument) (i : Nat), l[n]? = some (a, i) →
        (0 < a.group → kept[n]? = some (survivors.contains i)) ∧
          (a.group = 0 → a.optional = false → kept[n]? = some true) := by
  induction l generalizing kept with
  | nil => simp [marks]
  | cons x l ih =>
      obtain ⟨a, i⟩ := x
      simp only [marks, yields_bind, yields_pure, keeps_yields, ih]
      constructor
      · rintro ⟨b, hb, others, ⟨hlen, ho⟩, rfl⟩
        refine ⟨by simp [hlen], fun n c k hc => ?_⟩
        cases n with
        | zero =>
            obtain ⟨rfl, rfl⟩ : a = c ∧ i = k := by simpa using hc
            simpa using hb
        | succ n => simpa using ho n c k (by simpa using hc)
      · rintro ⟨hlen, hk⟩
        cases kept with
        | nil => simp at hlen
        | cons b others =>
            refine ⟨b, by simpa using hk 0 a i rfl, others, ⟨by simpa using hlen, ?_⟩, rfl⟩
            intro n c k hc
            simpa using hk (n + 1) c k (by simpa using hc)

/-! ## The selection of a form -/

/-- Where each group has one survivor, a member survives if it is the one of its own group. -/
theorem contains_survivors {args : List Argument} {f : UInt32 → Nat} {a : Argument} {i : Nat}
    (hf : ∀ g ∈ groupNumbers args, Member args g (f g)) (ha : args[i]? = some a)
    (hg : 0 < a.group) :
    ((groupNumbers args).map f).contains i = true ↔ i = f a.group := by
  rw [List.contains_eq_mem, decide_eq_true_eq, List.mem_map]
  constructor
  · rintro ⟨g, hgroup, rfl⟩
    rw [(hf g hgroup).group_eq ⟨a, ha, rfl⟩]
  · rintro rfl
    exact ⟨a.group, mem_groupNumbers.mpr ⟨hg, a, List.mem_of_getElem? ha, rfl⟩, rfl⟩

theorem Selection.exists_survivors {reach : Option Nat} {args : List Argument}
    {kept : List Bool} (h : Selection reach args kept) :
    ∃ f : UInt32 → Nat, ∀ g ∈ groupNumbers args, Reachable reach args g (f g) ∧
      ∀ j, Member args g j → (kept[j]? = some true ↔ j = f g) := by
  have hone : ∀ g, ∃ i, g ∈ groupNumbers args → Reachable reach args g i ∧
      ∀ j, Member args g j → (kept[j]? = some true ↔ j = i) := by
    intro g
    by_cases hg : g ∈ groupNumbers args
    · obtain ⟨hpos, hmem⟩ := mem_groupNumbers.mp hg
      obtain ⟨i, hi⟩ := h.single g hpos hmem
      exact ⟨i, fun _ => hi⟩
    · exact ⟨0, fun hin => absurd hin hg⟩
  choose f hf using hone
  exact ⟨f, hf⟩

/-- What a policy can make a form keep is exactly the selections that its draws can reach. -/
theorem select_yields {args : List Argument} {depth : Nat} {kept : List Bool} :
    (select args depth).Yields kept ↔ Selection (some (maxGroupDraws + 1)) args kept := by
  have hgroups : ∀ g ∈ groupNumbers args, ∃ a ∈ args, a.group = g :=
    fun g hg => (mem_groupNumbers.mp hg).2
  simp only [select, yields_bind, settleAll_yields hgroups (nodup_groupNumbers args), marks_yields]
  constructor
  · rintro ⟨_, ⟨f, hf, rfl⟩, hlen, hk⟩
    have hget {i : Nat} {a : Argument} (ha : args[i]? = some a) :=
      hk i a i (by simp [List.getElem?_zipIdx, ha])
    refine ⟨by simpa using hlen, fun i a ha => (hget ha).2, fun g hg hmem => ?_⟩
    refine ⟨f g, hf g (mem_groupNumbers.mpr ⟨hg, hmem⟩), fun j hj => ?_⟩
    obtain ⟨a, ha, rfl⟩ := hj
    rw [(hget ha).1 hg, Option.some.injEq]
    exact contains_survivors (fun h hh => (hf h hh).1) ha hg
  · intro h
    obtain ⟨f, hf⟩ := h.exists_survivors
    refine ⟨_, ⟨f, fun g hg => (hf g hg).1, rfl⟩, by simpa using h.length_eq, fun n a i hi => ?_⟩
    obtain ⟨ha, rfl⟩ : args[n]? = some a ∧ n = i := by
      simpa [List.getElem?_zipIdx] using hi
    refine ⟨fun hg => ?_, fun h0 ho => h.required n a ha h0 ho⟩
    have hn : n < kept.length := by
      rw [h.length_eq]
      exact (List.getElem?_eq_some_iff.mp ha).1
    have hmem : a.group ∈ groupNumbers args :=
      mem_groupNumbers.mpr ⟨hg, a, List.mem_of_getElem? ha, rfl⟩
    have hkept := (hf a.group hmem).2 n ⟨a, ha, rfl⟩
    rw [List.getElem?_eq_getElem hn, Option.some.injEq] at hkept ⊢
    rw [Bool.eq_iff_iff, hkept, contains_survivors (fun g hg => (hf g hg).1.1) ha hg]

end GameGrammar.Completion

import GameGrammar.Policy.Fixed
import GameGrammar.Proofs.Completion.Selection
import Mathlib.Order.Bounds.Basic

/-! # The earliest member of a group

The fixed policy always names the last argument. That drops the last argument of a form if it is a
member of the group that is being settled, and otherwise it drops nothing. Either way the draws
never touch the first member of a group, and it is the one that is left. -/

namespace GameGrammar

/-- A dialogue whose first part comes to a value goes on from there. -/
theorem Dialogue.run_bind {α β σ : Type} {d : Dialogue α} {p : Policy σ} {s s' : σ} {value : α}
    (h : d.run p s = (some value, s')) (k : α → Dialogue β) :
    (d >>= k).run p s = (k value).run p s' := by
  change (d.bind k).run p s = _
  induction d generalizing s with
  | done v =>
      cases h
      rfl
  | fail => cases h
  | ask q next ih => exact ih _ h

namespace Completion

open Dialogue

/-! ## Members in order -/

theorem positions_increasing (args : List Argument) (group : UInt32) :
    (positions args group).Pairwise (· < ·) := by
  induction args with
  | nil => simp [positions]
  | cons a args ih =>
      have hshift : ((positions args group).map (· + 1)).Pairwise (· < ·) := by
        apply List.pairwise_map.mpr
        exact ih.imp Nat.succ_lt_succ
      rw [positions_cons]
      by_cases h : a.group = group
      · simp [h, hshift]
      · simp [h, hshift]

/-- The first of the positions is the least one that a member has. -/
theorem mem_take_one_positions {args : List Argument} {group : UInt32} {i : Nat} :
    i ∈ (positions args group).take 1 ↔ IsLeast {j | Member args group j} i := by
  have hmember : {j | Member args group j} = {j | j ∈ positions args group} := by
    simp [mem_positions]
  have hsorted := positions_increasing args group
  rw [hmember]
  cases hpositions : positions args group with
  | nil => simp [IsLeast]
  | cons first others =>
      rw [hpositions] at hsorted
      have hfirst : IsLeast {j | j ∈ first :: others} first := by
        refine ⟨List.mem_cons_self, fun j hj => ?_⟩
        rcases List.mem_cons.mp hj with rfl | hj
        · exact Nat.le_refl _
        · exact Nat.le_of_lt (List.rel_of_pairwise_cons hsorted hj)
      simp only [List.take_succ_cons, List.take_zero, List.mem_singleton]
      constructor
      · intro h
        exact h ▸ hfirst
      · intro h
        exact h.unique hfirst

/-- The first member of a group survives it, and no other member does. -/
theorem mem_survivors {args : List Argument} {group : UInt32} {i : Nat} (hg : 0 < group)
    (hi : Member args group i) :
    (i ∈ (groupNumbers args).flatMap fun g => (positions args g).take 1) ↔
      IsLeast {j | Member args group j} i := by
  rw [List.mem_flatMap]
  constructor
  · intro h
    obtain ⟨g, -, hfirst⟩ := h
    have hleast := mem_take_one_positions.mp hfirst
    rwa [hi.group_eq hleast.1]
  · intro h
    obtain ⟨a, ha, hgroup⟩ := hi
    have hmem : ∃ a ∈ args, a.group = group := ⟨a, List.mem_of_getElem? ha, hgroup⟩
    exact ⟨group, mem_groupNumbers.mpr ⟨hg, hmem⟩, mem_take_one_positions.mpr h⟩

/-! ## Selecting with the fixed policy -/

section

variable (f : FixedAnswers)

/-- However many draws there may be, the first member is kept. -/
theorem settle_fixed {argCount : Nat} (bound : Nat) {members : List Nat}
    (hsorted : members.Pairwise (· < ·)) (hlt : ∀ m ∈ members, m < argCount) :
    (settle argCount bound members).run f.policy () = (some (members.take 1), ()) := by
  induction bound generalizing members with
  | zero =>
      match members with
      | [] => rfl
      | [m] => rfl
      | m :: n :: others => rfl
  | succ bound ih =>
      match members with
      | [] => rfl
      | [m] => rfl
      | m :: n :: others =>
          have hm : m < n := List.rel_of_pairwise_cons hsorted List.mem_cons_self
          have hn : n < argCount := hlt n (by simp)
          -- there is a member behind the first one, so that the first is not the last argument
          have hdrawn : m ≠ (argCount - 1) % argCount := by
            rw [Nat.mod_eq_of_lt (by omega)]
            omega
          have herase : (m :: n :: others).erase ((argCount - 1) % argCount) =
              m :: (n :: others).erase ((argCount - 1) % argCount) :=
            List.erase_cons_tail (by simpa using hdrawn)
          have hsub := List.erase_sublist (a := (argCount - 1) % argCount) (l := m :: n :: others)
          have hrest := ih (hsorted.sublist hsub) fun k hk => hlt k (hsub.subset hk)
          rw [herase, List.take_succ_cons] at hrest
          have hdraw : (question (.orGroup argCount)).run f.policy () =
              (some (argCount - 1), ()) := rfl
          refine (run_bind hdraw _).trans ?_
          rw [herase, hrest]
          rfl

theorem settleAll_fixed (args : List Argument) (groups : List UInt32) :
    (settleAll args groups).run f.policy () =
      (some (groups.flatMap fun g => (positions args g).take 1), ()) := by
  induction groups with
  | nil => rfl
  | cons g groups ih =>
      have hsettle := settle_fixed f maxGroupDraws (positions_increasing args g)
        fun m hm => lt_length_of_mem_positions hm
      rw [settleAll, run_bind hsettle, run_bind ih]
      rfl

/-- The policy drops all optional arguments outside the groups, or none of them. -/
theorem keeps_fixed (survivors : List Nat) (depth : Nat) (a : Argument) (i : Nat) :
    (keeps survivors depth a i).run f.policy () =
      (some (if 0 < a.group then survivors.contains i else !(a.optional && f.drop)), ()) := by
  by_cases hg : 0 < a.group
  · rw [keeps, if_pos hg, if_pos hg]
    rfl
  · rw [keeps, if_neg hg, if_neg hg]
    cases a.optional with
    | false => rfl
    | true => rfl

theorem marks_fixed (survivors : List Nat) (depth : Nat) (l : List (Argument × Nat)) :
    (marks survivors depth l).run f.policy () =
      (some (l.map fun x =>
        if 0 < x.1.group then survivors.contains x.2 else !(x.1.optional && f.drop)), ()) := by
  induction l with
  | nil => rfl
  | cons x l ih =>
      rw [marks, run_bind (keeps_fixed f survivors depth x.1 x.2), run_bind ih]
      rfl

/-- Whatever the settings of the fixed policy are, a form keeps of each group the member that comes
first among its arguments, and no other one. The settings only have a part in the optional arguments
outside the groups, which are dropped together. -/
theorem fixed_keeps_earliest (args : List Argument) (depth : Nat) :
    ∃ kept, (select args depth).run f.policy () = (some kept, ()) ∧ kept.length = args.length ∧
      (∀ g, 0 < g → (∃ a ∈ args, a.group = g) →
        ∃ first, IsLeast {i | Member args g i} first ∧
          ∀ i, Member args g i → (kept[i]? = some true ↔ i = first)) ∧
      ∀ (i : Nat) (a : Argument), args[i]? = some a → a.group = 0 →
        kept[i]? = some (!(a.optional && f.drop)) := by
  refine ⟨_, (run_bind (settleAll_fixed f args (groupNumbers args)) _).trans
    (marks_fixed f _ depth args.zipIdx), by simp, ?_, ?_⟩
  · intro g hg hmem
    obtain ⟨first, hfirst⟩ := List.exists_mem_of_ne_nil ((positions args g).take 1)
      (by simpa using positions_ne_nil hmem)
    have hleast := mem_take_one_positions.mp hfirst
    refine ⟨first, hleast, fun i hi => ?_⟩
    obtain ⟨a, ha, rfl⟩ := hi
    simp only [List.getElem?_map, List.getElem?_zipIdx, ha, Option.map_some, Nat.zero_add,
      if_pos hg, Option.some.injEq, List.contains_iff_mem]
    rw [mem_survivors hg ⟨a, ha, rfl⟩]
    constructor
    · intro h
      exact h.unique hleast
    · intro h
      exact h ▸ hleast
  · intro i a ha h0
    simp [List.getElem?_zipIdx, ha, h0]

end

end Completion

end GameGrammar

import GameGrammar.Proofs.Completion.Derivation
import GameGrammar.Proofs.Grammar.Resolve

/-! # How far the draws for a group reach

A group is settled by at most a thousand draws. Where a group has more members than these can
drop, a derivation may keep a member that no policy can; otherwise the two agree. -/

namespace GameGrammar.Completion

open Dialogue

/-! ## Groups that draws can settle -/

/-- Every selection of a form of the rule under one bound is a selection under the other. -/
def Widens (reach reach' : Option Nat) (r : Rule) : Prop :=
  ∀ head args kept, .form head args ∈ r.clauses → Selection reach args kept →
    Selection reach' args kept

section

variable {reach reach' : Option Nat} {g : Grammar}

mutual

theorem Derives.widen (hg : ∀ r ∈ g.rules, Widens reach reach' r) {r : Rule} {d : Nat}
    {t : String} (hr : Widens reach reach' r) :
    Derives reach g r d t → Derives reach' g r d t
  | .primitive p hd hn ht => .primitive p hd hn ht
  | .terminal hd hc => .terminal hd hc
  | .reference hd hc hs ht =>
      .reference hd hc hs (ht.widen hg (hg _ (Grammar.mem_rules_of_resolve_eq hs)))
  | .form hd hc hk ht => .form hd hc (hr _ _ _ hc hk) (ht.widen hg)

theorem DerivesArguments.widen (hg : ∀ r ∈ g.rules, Widens reach reach' r)
    {args : List Argument} {d : Nat} {t : String} :
    DerivesArguments reach g args d t → DerivesArguments reach' g args d t
  | .nil => .nil
  | .omitted ha ht => .omitted ha (ht.widen hg)
  | .written ha hv ht => .written ha (hv.widen hg) (ht.widen hg)

theorem DerivesValue.widen (hg : ∀ r ∈ g.rules, Widens reach reach' r) {a : Argument}
    {d layers : Nat} {t : String} :
    DerivesValue reach g a d layers t → DerivesValue reach' g a d layers t
  | .item ht => .item (ht.widen hg)
  | .collection ht => .collection (ht.widen hg)

theorem DerivesSeries.widen (hg : ∀ r ∈ g.rules, Widens reach reach' r) {a : Argument}
    {d layers count : Nat} {t : String} :
    DerivesSeries reach g a d layers count t → DerivesSeries reach' g a d layers count t
  | .nil => .nil
  | .cons hv ht => .cons (hv.widen hg) (ht.widen hg)

theorem DerivesItem.widen (hg : ∀ r ∈ g.rules, Widens reach reach' r) {a : Argument}
    {d : Nat} {t : String} : DerivesItem reach g a d t → DerivesItem reach' g a d t
  | .marker ha => .marker ha
  | .weak ha hr => .weak ha hr
  | .rule ha hr ht =>
      .rule ha hr (ht.widen hg (hg _ (Grammar.mem_rules_of_resolve_eq hr)))

end

end

/-- No group of a form of the rule has more members than `n`. -/
def GroupsWithin (n : Nat) (r : Rule) : Prop :=
  ∀ head args, .form head args ∈ r.clauses → ∀ group, 0 < group →
    args.countP (·.group == group) ≤ n

theorem Reachable.of_countP_le {args : List Argument} {group : UInt32} {i n : Nat}
    {reach : Option Nat} (h : Reachable reach args group i)
    (hn : args.countP (·.group == group) ≤ n) : Reachable (some n) args group i := by
  obtain ⟨⟨a, ha, hg⟩, -⟩ := h
  refine ⟨⟨a, ha, hg⟩, ?_⟩
  intro bound hb
  obtain rfl := Option.mem_some_iff.mp hb
  -- the member itself is not among those before it
  have hlt := (List.getElem?_eq_some_iff.mp ha).1
  have hsucc : (args.take (i + 1)).countP (·.group == group) = membersBefore args group i + 1 := by
    rw [List.take_add_one, ha, List.countP_append]
    simp [membersBefore, hg]
  have hle := (List.take_sublist (i + 1) args).countP_le (p := (·.group == group))
  omega

theorem widens_of_groupsWithin {n : Nat} {r : Rule} (h : GroupsWithin n r) :
    Widens none (some n) r := by
  intro head args kept hc hk
  refine ⟨hk.length_eq, hk.required, fun group hg hmem => ?_⟩
  obtain ⟨i, hi, hone⟩ := hk.single group hg hmem
  exact ⟨i, hi.of_countP_le (h head args hc group hg), hone⟩

theorem widens_none (reach : Option Nat) (r : Rule) : Widens reach none r :=
  fun _ _ _ _ hk => hk.unbounded

/-! ## A crowded group -/

theorem mem_marked {α : Type} {xs : List α} {kept : List Bool} {x : α}
    (h : x ∈ marked xs kept) : ∃ i : Nat, xs[i]? = some x ∧ kept[i]? = some true := by
  induction xs generalizing kept with
  | nil => simp [marked] at h
  | cons y xs ih =>
      cases kept with
      | nil => simp [marked] at h
      | cons b kept =>
          by_cases hb : b = true ∧ x = y
          · exact ⟨0, by simp [hb]⟩
          · have hrest : x ∈ marked xs kept := by
              cases b <;> simp_all [marked]
            obtain ⟨i, hi⟩ := ih hrest
            exact ⟨i + 1, by simpa using hi⟩

/-- A slot for whole numbers and one for others, in one group. -/
def whole : Argument :=
  { token := "int", group := 1 }

def fraction : Argument :=
  { token := "float", group := 1 }

/-- So many slots of one kind before one of the other kind. -/
def crowd (n : Nat) : List Argument :=
  List.replicate n whole ++ [fraction]

def crowdRule (n : Nat) : Rule :=
  ⟨"<crowd>", [.form "choice" (crowd n)]⟩

def crowdGrammar (n : Nat) : Grammar :=
  ⟨[crowdRule n], rfl⟩

theorem member_crowd {n i : Nat} {group : UInt32} (h : Member (crowd n) group i) : group = 1 := by
  obtain ⟨a, ha, rfl⟩ := h
  have hmem := List.mem_of_getElem? ha
  simp only [crowd, List.mem_append, List.mem_replicate, List.mem_singleton] at hmem
  rcases hmem with ⟨-, rfl⟩ | rfl <;> rfl

theorem crowd_last (n : Nat) : (crowd n)[n]? = some fraction := by
  simp [crowd]

theorem membersBefore_crowd (n : Nat) : membersBefore (crowd n) 1 n = n := by
  rw [membersBefore, crowd, List.take_left' (List.length_replicate ..), List.countP_replicate]
  rfl

/-- Dropping all members before the last is a selection. -/
theorem selection_last (n : Nat) :
    Selection none (crowd n) (List.replicate n false ++ [true]) := by
  have hlast (j : Nat) : (List.replicate n false ++ [true])[j]? = some true ↔ j = n := by
    rw [List.getElem?_append, List.length_replicate, List.getElem?_replicate]
    by_cases hj : j < n
    · simp [hj, Nat.ne_of_lt hj]
    · simp only [hj, if_false, List.getElem?_singleton]
      by_cases he : j = n <;> simp [he]
      omega
  refine ⟨by simp [crowd], fun i a ha h0 => ?_, fun group hg hmem => ?_⟩
  · have hone := member_crowd ⟨a, ha, h0⟩
    cases hone
  · obtain ⟨a, ha, rfl⟩ := hmem
    obtain ⟨i, hi⟩ := List.mem_iff_getElem?.mp ha
    have hone := member_crowd ⟨a, hi, rfl⟩
    refine ⟨n, ⟨⟨fraction, crowd_last n, hone.symm⟩, by simp⟩, fun j _ => hlast j⟩

theorem marked_last (n : Nat) :
    marked (crowd n) (List.replicate n false ++ [true]) = [fraction] := by
  induction n with
  | zero => rfl
  | succ n ih => simpa [crowd, List.replicate_succ, marked] using ih

theorem derives_last (n : Nat) :
    Derives none (crowdGrammar n) (crowdRule n) 0 "(choice float)" := by
  have hitem : DerivesItem none (crowdGrammar n) fraction 0 "float" :=
    .marker (c := .float) rfl
  have hargs : DerivesArguments none (crowdGrammar n) [fraction] 0
      (" " ++ labelText fraction ++ "float" ++ "") :=
    .written (by decide) (.item hitem) .nil
  rw [← marked_last n] at hargs
  have hmem : .form "choice" (crowd n) ∈ (crowdRule n).clauses := List.mem_singleton_self _
  exact .form (by decide) hmem (selection_last n) hargs

/-- A selection that stops short of the last member keeps only members of the first kind. -/
theorem marked_crowd {n : Nat} {kept : List Bool} {a : Argument}
    (hk : Selection (some n) (crowd n) kept) (ha : a ∈ marked (crowd n) kept) : a = whole := by
  obtain ⟨i, hi, ht⟩ := mem_marked ha
  have hmem := List.mem_of_getElem? hi
  obtain ⟨k, ⟨-, hb⟩, hone⟩ := hk.single 1 (by decide) ⟨fraction, by simp [crowd], rfl⟩
  obtain rfl := (hone i ⟨a, hi, member_crowd ⟨a, hi, rfl⟩⟩).mp ht
  have hlt : i ≠ n := by
    rintro rfl
    have := hb _ rfl
    rw [membersBefore_crowd] at this
    omega
  rw [crowd, List.getElem?_append, List.length_replicate, List.getElem?_replicate] at hi
  by_cases hin : i < n
  · simpa [hin, eq_comm] using hi
  · simp [hin, List.getElem?_singleton] at hi
    omega

theorem derivesArguments_whole {reach : Option Nat} {g : Grammar} {args : List Argument} {d : Nat}
    {t : String} (h : DerivesArguments reach g args d t) (ha : ∀ a ∈ args, a = whole) :
    t = "" ∨ ∃ u, t = " int" ++ u := by
  cases h with
  | nil => exact .inl rfl
  | @omitted a _ _ _ hlt =>
      obtain rfl : a = whole := ha a (by simp)
      exact absurd hlt (by decide)
  | @written a _ _ v u _ hv =>
      refine .inr ⟨u, ?_⟩
      obtain rfl : a = whole := ha a (by simp)
      cases hv with
      | item hv =>
          cases hv with
          | marker hc =>
              obtain rfl : Category.int = _ := Option.some.inj hc
              rfl
          | weak hc => cases hc
          | rule hc => cases hc

/-! ## Completion and derivation -/

/-- The texts that some policy completes a rule with are the derivable ones, where a group is
settled by one of its first 1001 members. If no group is larger than that, any member will do. -/
theorem completes_iff_derives (g : Grammar) (r : Rule) (d : Nat) (t : String) :
    ((∃ (σ : Type) (p : Policy σ) (s : σ), ((complete g r d).run p s).1 = some t) ↔
      Derives (some 1001) g r d t) ∧
    (Derives (some 1001) g r d t → Derives none g r d t) ∧
    ((∀ rule ∈ r :: g.rules, GroupsWithin 1001 rule) →
      Derives none g r d t → Derives (some 1001) g r d t) := by
  refine ⟨yields_iff_exists_run.symm.trans complete_yields, fun ht => ?_, fun h ht => ?_⟩
  · exact ht.widen (fun rule _ => widens_none _ rule) (widens_none _ r)
  · have hw (rule : Rule) (hr : rule ∈ r :: g.rules) := widens_of_groupsWithin (h rule hr)
    exact ht.widen (fun rule hr => hw rule (List.mem_cons_of_mem _ hr)) (hw r (by simp))

theorem groupsWithin_crowd (n : Nat) : ∀ rule ∈ crowdRule n :: (crowdGrammar n).rules,
    GroupsWithin (n + 1) rule := by
  intro rule hr head args hc group _
  obtain rfl : rule = crowdRule n := by simpa [crowdGrammar] using hr
  obtain ⟨-, rfl⟩ : head = "choice" ∧ args = crowd n := by simpa [crowdRule] using hc
  simpa [crowd] using List.countP_le_length (p := (·.group == group)) (l := crowd n)

/-- In a group of 1001 the last member can still be the one that is left. -/
theorem last_member_completed :
    (∀ rule ∈ crowdRule 1000 :: (crowdGrammar 1000).rules, GroupsWithin 1001 rule) ∧
      ∃ (σ : Type) (p : Policy σ) (s : σ),
        ((complete (crowdGrammar 1000) (crowdRule 1000) 0).run p s).1 = some "(choice float)" := by
  have h := completes_iff_derives (crowdGrammar 1000) (crowdRule 1000) 0 "(choice float)"
  exact ⟨groupsWithin_crowd 1000, h.1.mpr (h.2.2 (groupsWithin_crowd 1000) (derives_last 1000))⟩

/-- The last member of a group of 1002 is derivable, but no policy brings it about. -/
theorem late_member_not_completed :
    Derives none (crowdGrammar 1001) (crowdRule 1001) 0 "(choice float)" ∧
      ∀ (σ : Type) (p : Policy σ) (s : σ),
        ((complete (crowdGrammar 1001) (crowdRule 1001) 0).run p s).1 ≠ some "(choice float)" := by
  refine ⟨derives_last 1001, fun σ p s h => ?_⟩
  have hd := complete_yields.mp (yields_of_run h)
  generalize ht : "(choice float)" = t at hd
  cases hd with
  | primitive p _ hr => cases p <;> exact absurd hr (by decide)
  | terminal _ hc => simp [crowdRule] at hc
  | reference _ hc => simp [crowdRule] at hc
  | form _ hc hk hv =>
      obtain ⟨rfl, rfl⟩ : _ = "choice" ∧ _ = crowd 1001 := by simpa [crowdRule] using hc
      rcases derivesArguments_whole hv fun a ha => marked_crowd hk ha with rfl | ⟨u, rfl⟩
      · exact absurd ht (by decide)
      · have hlist := congrArg String.toList ht
        simp [String.toList_append] at hlist

end GameGrammar.Completion

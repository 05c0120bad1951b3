import GameGrammar.Grammar.Build
import GameGrammar.Proofs.Overflow

/-! # Numbers of groups

A builder of forms counts the groups of alternatives, and from a number that it is given explicitly
it counts on. A group is told apart from all that stands before it as long as this count does not
run out of the numbers that have 32 bits. Where it does, the program breaks down or counts from zero
again, depending on how it is built. -/

namespace GameGrammar.FormBuilder

/-! ## The count without bounds -/

def Request.isChoice : Request → Bool
  | .choice _ => true
  | _ => false

/-- How many groups of alternatives are asked for. -/
def choices (requests : List Request) : Nat :=
  requests.countP Request.isChoice

/-- After the requests there is a number left: the groups can be counted from one, and those that
come after a number given explicitly can be counted from there. -/
structure Roomy (requests : List Request) : Prop where
  counted : 1 + choices requests < 2 ^ 32
  given : ∀ a later, .given a :: later <:+ requests →
    a.group.toNat + 1 + choices later < 2 ^ 32

/-- The number after the next request, where `n` is the number before it. -/
def advance (n : Nat) : Request → Nat
  | .choice _ => n + 1
  | .given a => max n (a.group.toNat + 1)
  | _ => n

/-- The number of the next group if numbers had no bound. -/
def demand (requests : List Request) : Nat :=
  requests.foldl advance 1

theorem le_advance (n : Nat) (r : Request) : n ≤ advance n r := by
  cases r with
  | choice members => exact Nat.le_succ n
  | given a => exact Nat.le_max_left _ _
  | _ => exact Nat.le_refl n

theorem le_foldl_advance (requests : List Request) (n : Nat) :
    n ≤ requests.foldl advance n := by
  induction requests generalizing n with
  | nil => exact Nat.le_refl n
  | cons r requests ih => exact Nat.le_trans (le_advance n r) (ih _)

theorem choices_cons (r : Request) (requests : List Request) :
    choices (r :: requests) = choices requests + if r.isChoice then 1 else 0 :=
  List.countP_cons

theorem forall_given_cons {P : Argument → List Request → Prop} {r : Request}
    {requests : List Request} :
    (∀ a later, .given a :: later <:+ r :: requests → P a later) ↔
      (∀ a, r = .given a → P a requests) ∧
        ∀ a later, .given a :: later <:+ requests → P a later := by
  constructor
  · intro h
    exact ⟨fun a hr => h a requests (hr ▸ List.suffix_rfl),
      fun a later hs => h a later (hs.trans (List.suffix_cons r requests))⟩
  · rintro ⟨hfirst, hrest⟩ a later hs
    rcases List.suffix_cons_iff.mp hs with heq | hs
    · obtain ⟨rfl, rfl⟩ := List.cons.inj heq
      exact hfirst a rfl
    · exact hrest a later hs

/-- The count stays below a bound if it does so from its start and from each number given
explicitly. -/
theorem foldl_advance_lt_iff (requests : List Request) (n bound : Nat) :
    requests.foldl advance n < bound ↔
      n + choices requests < bound ∧ ∀ a later, .given a :: later <:+ requests →
        a.group.toNat + 1 + choices later < bound := by
  induction requests generalizing n with
  | nil => simp [choices]
  | cons r requests ih =>
      rw [List.foldl_cons, ih, forall_given_cons, choices_cons, ← and_assoc]
      refine and_congr_left fun _ => ?_
      cases r with
      | choice members =>
          simp only [advance, Request.isChoice, if_true, reduceCtorEq, false_imp_iff,
            implies_true, and_true]
          omega
      | given a =>
          simp only [advance, Request.isChoice, Bool.false_eq_true, if_false,
            Request.given.injEq, forall_eq']
          omega
      | _ => simp [advance, Request.isChoice]

theorem demand_lt_iff {requests : List Request} : demand requests < 2 ^ 32 ↔ Roomy requests :=
  (foldl_advance_lt_iff requests 1 _).trans ⟨fun h => ⟨h.1, h.2⟩, fun h => ⟨h.counted, h.given⟩⟩

instance (requests : List Request) : Decidable (Roomy requests) :=
  decidable_of_iff _ demand_lt_iff

/-! ## The count of a builder -/

/-- The builder has counted up to the number, and all numbers so far are smaller. -/
structure Ahead (b : FormBuilder) (n : Nat) : Prop where
  counter : b.nextGroup.toNat = n
  positive : 0 < n
  below : ∀ a ∈ b.args, a.group.toNat < n

theorem ahead_empty : Ahead {} 1 where
  counter := rfl
  positive := Nat.one_pos
  below := nofun

/-- Adding arguments, where the count goes on as it should. -/
theorem Ahead.extend {b : FormBuilder} {n m : Nat} (h : b.Ahead n) (hm : n ≤ m)
    {args : List Argument} (hargs : ∀ a ∈ args, a.group.toNat < m) {next : UInt32}
    (hnext : next.toNat = m) : Ahead ⟨b.args ++ args, next⟩ m where
  counter := hnext
  positive := Nat.lt_of_lt_of_le h.positive hm
  below := by
    intro x hx
    rcases List.mem_append.mp hx with hx | hx
    · exact Nat.lt_of_lt_of_le (h.below x hx) hm
    · exact hargs x hx

section

variable {b : FormBuilder} {n : Nat}

theorem Ahead.add (h : b.Ahead n) {a : Argument} (hn : max n (a.group.toNat + 1) < 2 ^ 32) :
    ∃ b' : FormBuilder, (∀ o, b.add o a = some b') ∧ b'.Ahead (max n (a.group.toNat + 1)) := by
  have hcounter := h.counter
  have hbelow : ∀ x ∈ [a], x.group.toNat < max n (a.group.toNat + 1) := by
    intro x hx
    obtain rfl := List.mem_singleton.mp hx
    exact Nat.le_max_right _ _
  by_cases hle : b.nextGroup ≤ a.group
  · have hfits : a.group.toNat + 1 < 2 ^ 32 := by omega
    have hnext : (a.group + 1).toNat = max n (a.group.toNat + 1) := by
      rw [UInt32.le_iff_toNat_le] at hle
      rw [UInt32.toNat_add, UInt32.toNat_one]
      omega
    refine ⟨_, fun o => ?_, h.extend (Nat.le_max_left _ _) hbelow hnext⟩
    rw [FormBuilder.add, if_pos hle, Overflow.succ_of_lt hfits]
    rfl
  · have hnext : b.nextGroup.toNat = max n (a.group.toNat + 1) := by
      rw [UInt32.le_iff_toNat_le] at hle
      omega
    refine ⟨_, fun o => ?_, h.extend (Nat.le_max_left _ _) hbelow hnext⟩
    rw [FormBuilder.add, if_neg hle]
    rfl

/-- An argument without a group does not touch the count. -/
theorem Ahead.add_ungrouped (h : b.Ahead n) {a : Argument} (ha : a.group = 0) :
    ∃ b' : FormBuilder, (∀ o, b.add o a = some b') ∧ b'.Ahead n := by
  have hmax : max n (a.group.toNat + 1) = n := by
    rw [ha]
    exact Nat.max_eq_left h.positive
  have hn : n < 2 ^ 32 := h.counter ▸ b.nextGroup.toNat_lt
  have hadd := h.add (a := a) (hmax.symm ▸ hn)
  rwa [hmax] at hadd

theorem Ahead.addChoice (h : b.Ahead n) (hn : n + 1 < 2 ^ 32) (members : List Argument) :
    ∃ b' : FormBuilder, (∀ o, b.addChoice o members = some b') ∧ b'.Ahead (n + 1) := by
  have hcounter := h.counter
  have hfits : b.nextGroup.toNat + 1 < 2 ^ 32 := by omega
  have hnext : (b.nextGroup + 1).toNat = n + 1 := by
    rw [UInt32.toNat_add, UInt32.toNat_one]
    omega
  have hmembers : ∀ x ∈ members.map (fun a => { a with group := b.nextGroup }),
      x.group.toNat < n + 1 := by
    intro x hx
    obtain ⟨a, -, rfl⟩ := List.mem_map.mp hx
    simp [hcounter]
  refine ⟨_, fun o => ?_, h.extend (Nat.le_succ n) hmembers hnext⟩
  rw [FormBuilder.addChoice, Overflow.succ_of_lt hfits]
  rfl

/-- One request keeps the builder ahead, unless the count runs out. -/
theorem Ahead.step (h : b.Ahead n) {r : Request} (hn : advance n r < 2 ^ 32) :
    ∃ b' : FormBuilder, (∀ o, b.step o r = some b') ∧ b'.Ahead (advance n r) := by
  cases r with
  | choice members => exact h.addChoice hn members
  | given a => exact h.add hn
  | _ => exact h.add_ungrouped rfl

theorem Ahead.foldlM (h : b.Ahead n) {requests : List Request}
    (hn : requests.foldl advance n < 2 ^ 32) :
    ∃ b' : FormBuilder, (∀ o, requests.foldlM (FormBuilder.step o) b = some b') ∧
      b'.Ahead (requests.foldl advance n) := by
  induction requests generalizing b n with
  | nil => exact ⟨b, fun _ => rfl, h⟩
  | cons r requests ih =>
      obtain ⟨b₁, hstep, h₁⟩ := h.step (Nat.lt_of_le_of_lt (le_foldl_advance requests _) hn)
      obtain ⟨b', hrest, h'⟩ := ih h₁ hn
      refine ⟨b', fun o => ?_, h'⟩
      rw [List.foldlM_cons, hstep o]
      exact hrest o

theorem Roomy.ahead {requests : List Request} (h : Roomy requests) :
    ∃ b, (∀ o, run o requests = some b) ∧ b.Ahead (demand requests) :=
  ahead_empty.foldlM (demand_lt_iff.mpr h)

/-- The request that uses up the last number leaves the count at zero, if the program does not break
down over it. -/
theorem Ahead.step_exhausted (h : b.Ahead n) {r : Request} (hn : 2 ^ 32 ≤ advance n r) :
    ∃ b' : FormBuilder, b'.nextGroup = 0 ∧ ∀ o, b.step o r = o.settle false b' := by
  have hcounter := h.counter
  have hlt := b.nextGroup.toNat_lt
  cases r with
  | choice members =>
      simp only [advance] at hn
      have hnext : b.nextGroup + 1 = 0 := by
        rw [← UInt32.toNat_inj, UInt32.toNat_add, UInt32.toNat_one, UInt32.toNat_zero]
        omega
      have hfull : 2 ^ 32 ≤ b.nextGroup.toNat + 1 := by omega
      let members' := members.map fun a => { a with group := b.nextGroup }
      refine ⟨⟨b.args ++ members', b.nextGroup + 1⟩, hnext, fun o => ?_⟩
      rw [FormBuilder.step, FormBuilder.addChoice, Overflow.succ_of_le hfull, Overflow.map_settle]
  | given a =>
      have ha := a.group.toNat_lt
      simp only [advance] at hn
      have hnext : a.group + 1 = 0 := by
        rw [← UInt32.toNat_inj, UInt32.toNat_add, UInt32.toNat_one, UInt32.toNat_zero]
        omega
      have hfull : 2 ^ 32 ≤ a.group.toNat + 1 := by omega
      have hle : b.nextGroup ≤ a.group := by
        rw [UInt32.le_iff_toNat_le]
        omega
      refine ⟨⟨b.args ++ [a], a.group + 1⟩, hnext, fun o => ?_⟩
      rw [FormBuilder.step, FormBuilder.add, if_pos hle, Overflow.succ_of_le hfull,
        Overflow.map_settle]
  | _ =>
      simp only [advance] at hn
      omega

/-- A program that breaks down over the count gets through the requests just where the count stays
within its bounds. -/
theorem Ahead.foldlM_breaks_isSome_iff (h : b.Ahead n) (requests : List Request) :
    (requests.foldlM (FormBuilder.step .breaks) b).isSome ↔
      requests.foldl advance n < 2 ^ 32 := by
  induction requests generalizing b n with
  | nil =>
      have hn : n < 2 ^ 32 := h.counter ▸ b.nextGroup.toNat_lt
      simpa using hn
  | cons r requests ih =>
      rw [List.foldlM_cons, List.foldl_cons]
      by_cases hn : advance n r < 2 ^ 32
      · obtain ⟨b₁, hstep, h₁⟩ := h.step hn
        rw [hstep .breaks]
        exact ih h₁
      · have hle := le_foldl_advance requests (advance n r)
        obtain ⟨b₁, -, hsettle⟩ := h.step_exhausted (Nat.le_of_not_lt hn)
        rw [hsettle .breaks]
        exact iff_of_false nofun (by omega)

theorem run_breaks_isSome_iff (requests : List Request) :
    (run .breaks requests).isSome ↔ Roomy requests :=
  (ahead_empty.foldlM_breaks_isSome_iff requests).trans demand_lt_iff

end

/-! ## The numbers of groups -/

section

variable {o : Overflow} {b b' : FormBuilder}

theorem args_prefix_add {a : Argument} (h : b.add o a = some b') : b.args <+: b'.args := by
  obtain ⟨next, -, rfl⟩ := Option.map_eq_some_iff.mp h
  exact List.prefix_append _ _

/-- The members of a group get the number that the builder has counted up to. -/
theorem args_addChoice {members : List Argument} (h : b.addChoice o members = some b') :
    b'.args = b.args ++ members.map fun a => { a with group := b.nextGroup } := by
  obtain ⟨next, -, rfl⟩ := Option.map_eq_some_iff.mp h
  rfl

theorem args_prefix_step {r : Request} (h : b.step o r = some b') : b.args <+: b'.args := by
  cases r with
  | choice members =>
      rw [args_addChoice h]
      exact List.prefix_append _ _
  | _ => exact args_prefix_add h

theorem args_prefix_foldlM {requests : List Request}
    (h : requests.foldlM (step o) b = some b') : b.args <+: b'.args := by
  induction requests generalizing b with
  | nil =>
      obtain rfl := Option.some.inj h
      exact List.prefix_rfl
  | cons r requests ih =>
      rw [List.foldlM_cons] at h
      obtain ⟨b₁, hstep, hrest⟩ := Option.bind_eq_some_iff.mp h
      exact (args_prefix_step hstep).trans (ih hrest)

theorem run_append (x y : List Request) :
    run o (x ++ y) = (run o x).bind fun b => y.foldlM (step o) b :=
  List.foldlM_append

end

/-- The number of a group that is asked for next marks a group, and no argument so far has it. -/
def Fresh (b : FormBuilder) : Prop :=
  0 < b.nextGroup ∧ ∀ a ∈ b.args, a.group ≠ b.nextGroup

instance (b : FormBuilder) : Decidable b.Fresh :=
  inferInstanceAs (Decidable (_ ∧ _))

theorem Ahead.fresh {b : FormBuilder} {n : Nat} (h : b.Ahead n) : b.Fresh := by
  constructor
  · rw [UInt32.lt_iff_toNat_lt, h.counter]
    exact h.positive
  · rintro a ha heq
    have hlt := h.below a ha
    rw [heq, h.counter] at hlt
    exact Nat.lt_irrefl n hlt

/-- Where a list of requests uses up the last number, its last request does. -/
theorem run_of_exhausted {requests : List Request} (hroom : Roomy requests.dropLast)
    (hnone : ¬ Roomy requests) :
    ∃ b : FormBuilder, b.nextGroup = 0 ∧ ∀ o, run o requests = o.settle false b := by
  rcases List.eq_nil_or_concat requests with rfl | ⟨earlier, r, rfl⟩
  · exact absurd (by decide) hnone
  rw [List.concat_eq_append] at hroom hnone ⊢
  rw [List.dropLast_concat] at hroom
  rw [← demand_lt_iff, demand, List.foldl_append] at hnone
  obtain ⟨b₁, hrun, h₁⟩ := hroom.ahead
  obtain ⟨b, hzero, hstep⟩ := h₁.step_exhausted (Nat.le_of_not_lt hnone)
  refine ⟨b, hzero, fun o => ?_⟩
  rw [run_append, hrun o, ← hstep o]
  exact bind_pure _

/-- Whatever is asked of a builder before and after, the members of a group keep the number that
they are given. As long as there is a number left it is fresh. The request that uses up the last
number breaks the program down, or else the group that comes next gets the number of arguments that
have no group. -/
theorem choice_fresh (before : List Request) (members : List Argument) (after : List Request) :
    (∀ o b b', run o before = some b →
        run o (before ++ .choice members :: after) = some b' →
        b.args ++ members.map (fun a => { a with group := b.nextGroup }) <+: b'.args) ∧
      (Roomy before → ∃ b : FormBuilder, (∀ o, run o before = some b) ∧ b.Fresh) ∧
      ((run .breaks before).isSome ↔ Roomy before) ∧
      (Roomy before.dropLast → ¬ Roomy before →
        ∃ b, run .wraps before = some b ∧ b.nextGroup = 0) := by
  refine ⟨fun o b b' hbefore hrun => ?_, fun h => ?_, run_breaks_isSome_iff before,
    fun hroom hnone => ?_⟩
  · rw [run_append, hbefore, Option.bind_some, List.foldlM_cons] at hrun
    obtain ⟨b₁, hchoice, hafter⟩ := Option.bind_eq_some_iff.mp hrun
    rw [← args_addChoice hchoice]
    exact args_prefix_foldlM hafter
  · obtain ⟨b, hrun, hahead⟩ := h.ahead
    exact ⟨b, hrun, hahead.fresh⟩
  · obtain ⟨b, hzero, hsettle⟩ := run_of_exhausted hroom hnone
    exact ⟨b, hsettle .wraps, hzero⟩

/-- An explicit number, a group, an argument without a group, and one more group. -/
def numberedRequests : List Request :=
  [.given { token := "<a>", group := 3 }, .choice [{ token := "<b>" }, { token := "<c>" }],
    .argument "<d>"]

/-- The last number of all is given explicitly. -/
def lastNumber : List Request :=
  [.given { token := "<a>", group := 4294967295 }]

theorem choice_fresh_numberedRequests :
    Roomy numberedRequests ∧ (∃ b : FormBuilder, (∀ o, run o numberedRequests = some b) ∧ b.Fresh) ∧
      (run .breaks (numberedRequests ++ [.choice [{ token := "<e>" }]])).map
        (fun b => b.args.map (·.group)) = some [3, 4, 4, 0, 5] ∧
      Roomy lastNumber.dropLast ∧ ¬ Roomy lastNumber ∧
      ∃ b, run .wraps lastNumber = some b ∧ b.nextGroup = 0 := by
  have hroom : Roomy numberedRequests := by decide
  have hdrop : Roomy lastNumber.dropLast := by decide
  have hlast : ¬ Roomy lastNumber := by decide
  exact ⟨hroom, (choice_fresh _ [] []).2.1 hroom, by decide, hdrop, hlast,
    (choice_fresh _ [] []).2.2.2 hdrop hlast⟩

/-- Where no number is left, the program breaks down, or else the alternatives are independent
arguments. -/
theorem lastNumber_not_fresh :
    run .breaks lastNumber = none ∧ (run .wraps lastNumber).any (¬ ·.Fresh) ∧
      (run .wraps (lastNumber ++ [.choice [{ token := "<b>" }, { token := "<c>" }]])).map
        (fun b => b.args.map (·.group)) = some [4294967295, 0, 0] := by
  decide

end GameGrammar.FormBuilder

import GameGrammar.Proofs.Grammar.Build
import GameGrammar.Proofs.Listing.Item
import GameGrammar.Proofs.Listing.Named
import Mathlib.Algebra.Ring.Nat

/-! # Normal forms

However an alternative is written in a listing, what is read of it is in normal form: names are
names, words are free of blanks and of the characters that would end them, and groups are numbered
as they come. -/

namespace GameGrammar

namespace Listing

/-! ## Numbers of groups -/

/-- Groups are numbered from `k` on: a group is a block of at least two neighbours, all of them
optional or all required, and blocks are numbered in order, with 32 bits. -/
inductive Blocks : (k : Nat) → List Argument → Prop where
  | nil {k : Nat} : Blocks k []
  | single {k : Nat} {a : Argument} {rest : List Argument} (ha : a.group = 0)
      (h : Blocks k rest) : Blocks k (a :: rest)
  | block {k : Nat} {members rest : List Argument} (hlen : 2 ≤ members.length)
      (hm : ∀ a ∈ members, a.group = UInt32.ofNat k)
      (ho : (∀ a ∈ members, a.optional = true) ∨ ∀ a ∈ members, a.optional = false)
      (h : Blocks (k + 1) rest) : Blocks k (members ++ rest)

/-- How many groups there are: blocks of neighbours with the same number, which is not zero. -/
def groupCount : List Argument → Nat
  | [] => 0
  | a :: rest =>
    groupCount rest + if a.group = 0 ∨ rest.head?.map (·.group) = some a.group then 0 else 1

theorem groupCount_le_length (args : List Argument) : groupCount args ≤ args.length := by
  induction args with
  | nil => exact Nat.le_refl 0
  | cons a rest ih =>
      rw [groupCount, List.length_cons]
      split <;> omega

theorem groupCount_cons_ungrouped {a : Argument} (ha : a.group = 0) (rest : List Argument) :
    groupCount (a :: rest) = groupCount rest := by
  rw [groupCount, if_pos (.inl ha), Nat.add_zero]

/-- A block whose number does not go on behind it is a group of its own. -/
theorem groupCount_append {members rest : List Argument} {n : UInt32} (hne : members ≠ [])
    (hn : n ≠ 0) (hm : ∀ a ∈ members, a.group = n) (hrest : rest.head?.map (·.group) ≠ some n) :
    groupCount (members ++ rest) = groupCount rest + 1 := by
  induction members with
  | nil => exact absurd rfl hne
  | cons a members ih =>
      obtain ⟨rfl, hm⟩ := List.forall_mem_cons.mp hm
      rw [List.cons_append, groupCount]
      cases members with
      | nil => rw [List.nil_append, if_neg (not_or.mpr ⟨hn, hrest⟩)]
      | cons b members =>
          have hb : b.group = a.group := hm b List.mem_cons_self
          rw [ih (List.cons_ne_nil b members) hm, if_pos (.inr (congrArg some hb)), Nat.add_zero]

theorem ungrouped_of_groupCount {args : List Argument} (h : groupCount args = 0) :
    ∀ a ∈ args, a.group = 0 := by
  induction args with
  | nil => nofun
  | cons a rest ih =>
      obtain ⟨hrest, hif⟩ := Nat.add_eq_zero_iff.mp h
      have hzero := ih hrest
      refine List.forall_mem_cons.mpr ⟨?_, hzero⟩
      split at hif
      · next ha =>
          rcases ha with ha | ha
          · exact ha
          · obtain ⟨b, hb, hgroup⟩ := Option.map_eq_some_iff.mp ha
            rw [← hgroup, hzero b (List.mem_of_mem_head? hb)]
      · cases hif

theorem Grouped.of_ungrouped {args : List Argument} (h : ∀ a ∈ args, a.group = 0)
    (next : UInt32) : Grouped next args := by
  induction args with
  | nil => exact .nil
  | cons a rest ih =>
      obtain ⟨ha, hrest⟩ := List.forall_mem_cons.mp h
      exact .single ha (ih hrest)

/-- The first argument has no group, or else it has the first number. -/
theorem Blocks.head_group {k : Nat} {args : List Argument} (h : Blocks k args) {n : UInt32}
    (hn : args.head?.map (·.group) = some n) : n = 0 ∨ n = UInt32.ofNat k := by
  cases h with
  | nil => cases hn
  | single ha _ => exact .inl ((Option.some.inj hn).symm.trans ha)
  | block hlen hm _ _ =>
      obtain ⟨a, ha, rfl⟩ := Option.map_eq_some_iff.mp hn
      rw [List.head?_append_of_ne_nil _ (List.ne_nil_of_length_pos (Nat.zero_lt_of_lt hlen))] at ha
      exact .inr (hm a (List.mem_of_mem_head? ha))

/-- As long as numbers do not run out, no two blocks share one. -/
theorem Blocks.grouped {k : Nat} {args : List Argument} (h : Blocks k args) (hk : 0 < k)
    (hn : k + groupCount args ≤ 2 ^ 32) : Grouped (UInt32.ofNat k) args := by
  induction h with
  | nil => exact .nil
  | single ha _ ih =>
      rw [groupCount_cons_ungrouped ha] at hn
      exact .single ha (ih hk hn)
  | @block k members rest hlen hm ho hrest ih =>
      by_cases hfits : k < 2 ^ 32
      · have hpos : 0 < UInt32.ofNat k := by
          rw [UInt32.lt_iff_toNat_lt, UInt32.toNat_ofNat_of_lt' hfits]
          exact hk
        have hhead : rest.head?.map (·.group) ≠ some (UInt32.ofNat k) := by
          intro heq
          rcases hrest.head_group heq with hzero | hsucc
          · exact absurd (hzero ▸ hpos) (by decide)
          · rw [UInt32.ofNat_add] at hsucc
            exact absurd (UInt32.left_eq_add.mp hsucc) (by decide)
        have hne : members ≠ [] := List.ne_nil_of_length_pos (Nat.zero_lt_of_lt hlen)
        have hne' : UInt32.ofNat k ≠ 0 := fun hzero => absurd (hzero ▸ hpos) (by decide)
        rw [groupCount_append hne hne' hm hhead] at hn
        have hgrouped := ih (Nat.succ_pos k) (by omega)
        rw [UInt32.ofNat_add] at hgrouped
        exact .block hpos hlen hm ho hgrouped
      · -- no number is left, and no group either
        have hnone : groupCount (members ++ rest) = 0 := by omega
        exact .of_ungrouped (ungrouped_of_groupCount hnone) _

end Listing

open Listing

/-! ## Alternatives and rules -/

/-- What an alternative of a listing may be read as. -/
def Clause.Normal : Clause → Prop
  | .terminal text =>
      text ≠ "" ∧ (∀ c ∈ text.toList, isTerminalChar c = true) ∧ ¬ BeginsDelimited text
  | .reference target => IsDelimited target
  | .form head args =>
      head ≠ "" ∧ (∀ c ∈ head.toList, isHeadChar c = true) ∧ (∀ a ∈ args, a.Writable) ∧
        Blocks 1 args

structure Rule.Normal (r : Rule) : Prop where
  name : IsSymbol r.name
  nonempty : r.clauses ≠ []
  clauses : ∀ c ∈ r.clauses, c.Normal

namespace Listing

theorem IsDelimited.ne_empty {w : String} (h : IsDelimited w) : w ≠ "" := by
  obtain ⟨name, -, rfl⟩ := h
  simp

theorem IsSymbol.ne_empty {w : String} (h : IsSymbol w) : w ≠ "" :=
  h.elim (fun hn => hn.1) IsDelimited.ne_empty

end Listing

theorem Clause.Normal.worded {c : Clause} (h : c.Normal) : c.Worded := by
  cases c with
  | terminal text => exact fun c hc => isBlank_of_isTerminalChar (h.2.1 c hc)
  | reference target => exact IsDelimited.ne_empty h
  | form head args =>
      obtain ⟨-, hhead, hargs, -⟩ := h
      refine ⟨fun c hc => isBlank_of_isHeadChar (hhead c hc), fun a ha => ?_⟩
      obtain ⟨htoken, hlabel⟩ := hargs a ha
      exact ⟨htoken.ne_empty, fun l hl c hc => isBlank_of_isNameChar ((hlabel l hl).2 c hc)⟩

theorem Clause.Normal.headed {c : Clause} (h : c.Normal) : c.Headed := by
  cases c with
  | terminal text => trivial
  | reference target => trivial
  | form head args => exact h.1

theorem Rule.Normal.sound {r : Rule} (h : r.Normal) : r.Sound where
  named := h.name.ne_empty
  nonempty := h.nonempty
  headed := fun c hc => (h.clauses c hc).headed

namespace Listing

/-! ## Tokens -/

theorem delimited?_isDelimited {s rest : List Char} {w : String}
    (h : delimited? s = some (w, rest)) : IsDelimited w := by
  unfold delimited? at h
  split at h
  · split at h
    · next hn =>
        cases h
        exact ⟨_, (word?_eq_some hn).2, rfl⟩
    · cases h
  · cases h

theorem symbol?_isSymbol {s rest : List Char} {w : String}
    (h : symbol? s = some (w, rest)) : IsSymbol w := by
  unfold symbol? at h
  split at h
  · next hd =>
      cases h
      exact .inr (delimited?_isDelimited hd)
  · exact .inl (word?_eq_some h).2

theorem label?_isName {s rest : List Char} {l : String} (h : label? s = some (l, rest)) :
    IsName l := by
  unfold label? at h
  split at h
  · next hn =>
      cases h
      exact (word?_eq_some hn).2
  · cases h

/-! ## Arguments -/

theorem nestedToken_isSymbol {s rest : List Char} {depth : UInt8} {token : String}
    (h : nestedToken s = .found (depth, token) rest) : IsSymbol token := by
  unfold nestedToken at h
  simp only at h
  split at h
  · cases h
  · next hs =>
      cases h
      exact symbol?_isSymbol hs
  · cases h
  · next hs =>
      split at h
      · cases h
        exact symbol?_isSymbol hs
      · cases h

/-- An argument as it is read by itself: brackets and group come from around it. -/
structure Plain (a : Argument) : Prop where
  writable : a.Writable
  required : a.optional = false
  ungrouped : a.group = 0

theorem argument_plain {s rest : List Char} {a : Argument} (h : argument s = .found a rest) :
    Plain a := by
  unfold argument at h
  split at h
  · next l middle hl =>
      obtain ⟨⟨depth, token⟩, hn, rfl⟩ := Reading.map_eq_found_iff.mp h
      refine ⟨⟨nestedToken_isSymbol hn, fun l' hl' => ?_⟩, rfl, rfl⟩
      obtain rfl : l = l' := Option.some.inj hl'
      exact label?_isName hl
  · obtain ⟨⟨depth, token⟩, hn, rfl⟩ := Reading.map_eq_found_iff.mp h
    exact ⟨⟨nestedToken_isSymbol hn, nofun⟩, rfl, rfl⟩

/-- Every member takes a character of the text at least. -/
theorem moreMembers_normal {s rest : List Char} {more : List Argument}
    (h : moreMembers s = .ok (more, rest)) :
    (∀ a ∈ more, Plain a) ∧ more.length + rest.length ≤ s.length := by
  fun_induction moreMembers s generalizing more rest with
  | case1 s bar hb a middle ha hlen _ _ ih =>
      obtain ⟨⟨others, last⟩, hm, h⟩ := bind_eq_ok.mp h
      cases h
      obtain ⟨hothers, hsize⟩ := ih hm
      refine ⟨List.forall_mem_cons.mpr ⟨argument_plain ha, hothers⟩, ?_⟩
      have hs := skip_length s
      have hbar := skip_length bar
      simp only [hb, List.length_cons] at hs ⊢
      omega
  | case2 => cases h; simp
  | case3 => cases h
  | case4 => cases h; simp

theorem members_normal {s rest : List Char} {found : List Argument}
    (h : members s = .found found rest) :
    found ≠ [] ∧ (∀ a ∈ found, Plain a) ∧ found.length + rest.length ≤ s.length := by
  unfold members at h
  split at h
  · next a middle ha =>
      obtain ⟨⟨more, last⟩, hm, h⟩ := bind_eq_ok.mp (Reading.ofCommitted_eq_found.mp h)
      cases h
      obtain ⟨hmore, hsize⟩ := moreMembers_normal hm
      refine ⟨by simp, List.forall_mem_cons.mpr ⟨argument_plain ha, hmore⟩, ?_⟩
      have hs := skip_length s
      have hlen := argument_length ha
      rw [List.length_cons]
      omega
  · cases h
  · cases h

/-! ## Items -/

namespace Item

/-- How many arguments the item has. -/
def size : Item → Nat
  | .single _ => 1
  | .choice members => members.length

theorem ofMembers_size (members : List Argument) : (ofMembers members).size = members.length := by
  unfold ofMembers
  split
  · rfl
  · rfl

/-- One member is an argument by itself, and several are a group. -/
theorem ofMembers_writable {members : List Argument} (hne : members ≠ [])
    (hm : ∀ a ∈ members, a.Writable ∧ a.group = 0)
    (ho : (∀ a ∈ members, a.optional = true) ∨ ∀ a ∈ members, a.optional = false) :
    (ofMembers members).Writable := by
  cases members with
  | nil => exact absurd rfl hne
  | cons a members =>
      cases members with
      | nil => exact hm a List.mem_cons_self
      | cons b members =>
          rw [ofMembers_of_two (by simp)]
          exact ⟨by simp, fun c hc => (hm c hc).1, ho⟩

end Item

theorem optionalItem_normal {s rest : List Char} {i : Item}
    (h : optionalItem s = .ok (i, rest)) : i.Writable ∧ i.size + rest.length ≤ s.length := by
  obtain ⟨⟨found, middle⟩, hm, h⟩ := bind_eq_ok.mp h
  obtain ⟨⟨_, last⟩, hc, h⟩ := bind_eq_ok.mp h
  cases h
  obtain ⟨hne, hfound, hsize⟩ := members_normal (required_length hm)
  constructor
  · refine Item.ofMembers_writable (by simpa using hne) (fun a ha => ?_) (.inl fun a ha => ?_)
    · obtain ⟨b, hb, rfl⟩ := List.mem_map.mp ha
      exact ⟨(hfound b hb).writable, (hfound b hb).ungrouped⟩
    · obtain ⟨b, -, rfl⟩ := List.mem_map.mp ha
      rfl
  · have hlen := closing_length hc
    rw [Item.ofMembers_size, List.length_map]
    omega

theorem choiceItem_normal {s rest : List Char} {i : Item}
    (h : choiceItem s = .ok (i, rest)) : i.Writable ∧ i.size + rest.length ≤ s.length := by
  obtain ⟨⟨found, middle⟩, hm, h⟩ := bind_eq_ok.mp h
  obtain ⟨⟨_, last⟩, hc, h⟩ := bind_eq_ok.mp h
  cases h
  obtain ⟨hne, hfound, hsize⟩ := members_normal (required_length hm)
  constructor
  · exact Item.ofMembers_writable hne
      (fun a ha => ⟨(hfound a ha).writable, (hfound a ha).ungrouped⟩)
      (.inr fun a ha => (hfound a ha).required)
  · have hlen := closing_length hc
    rw [Item.ofMembers_size]
    omega

theorem item_normal {s rest : List Char} {i : Item} (h : item s = .found i rest) :
    i.Writable ∧ i.size + rest.length ≤ s.length := by
  unfold item at h
  split at h
  · obtain ⟨hi, hsize⟩ := optionalItem_normal (Reading.ofCommitted_eq_found.mp h)
    exact ⟨hi, Nat.le_trans hsize (Nat.le_succ _)⟩
  · obtain ⟨hi, hsize⟩ := choiceItem_normal (Reading.ofCommitted_eq_found.mp h)
    exact ⟨hi, Nat.le_trans hsize (Nat.le_succ _)⟩
  · obtain ⟨a, ha, rfl⟩ := Reading.map_eq_found_iff.mp h
    have hplain := argument_plain ha
    have hlen := argument_length ha
    refine ⟨⟨hplain.writable, hplain.ungrouped⟩, ?_⟩
    simp only [Item.size]
    omega

theorem items_normal {s rest : List Char} {found : List Item}
    (h : items s = .ok (found, rest)) :
    (∀ i ∈ found, i.Writable) ∧ (found.map Item.size).sum + rest.length ≤ s.length := by
  fun_induction items s generalizing found rest with
  | case1 s i middle hi _ _ ih =>
      obtain ⟨⟨more, last⟩, hm, h⟩ := bind_eq_ok.mp h
      cases h
      obtain ⟨hitem, hsize⟩ := item_normal hi
      obtain ⟨hmore, hsum⟩ := ih hm
      refine ⟨List.forall_mem_cons.mpr ⟨hitem, hmore⟩, ?_⟩
      have hs := skip_length s
      rw [List.map_cons, List.sum_cons]
      omega
  | case2 => cases h; simp
  | case3 => cases h

/-! ## Forms -/

theorem numbered_length (next : UInt32) (found : List Item) :
    (numbered next found).length = (found.map Item.size).sum := by
  induction found generalizing next with
  | nil => rfl
  | cons i found ih =>
      cases i with
      | single a =>
          rw [numbered, List.length_cons, ih, List.map_cons, List.sum_cons, Item.size,
            Nat.add_comm]
      | choice members =>
          rw [numbered, List.length_append, List.length_map, ih, List.map_cons, List.sum_cons,
            Item.size]

/-- Choices become blocks, numbered as they come. -/
theorem numbered_blocks {found : List Item} (h : ∀ i ∈ found, i.Writable) (k : Nat) :
    (∀ a ∈ numbered (UInt32.ofNat k) found, a.Writable) ∧
      Blocks k (numbered (UInt32.ofNat k) found) := by
  induction found generalizing k with
  | nil => exact ⟨by simp [numbered], .nil⟩
  | cons i found ih =>
      have htail (k : Nat) := ih (fun j hj => h j (List.mem_cons_of_mem i hj)) k
      have hi := h i List.mem_cons_self
      cases i with
      | single a =>
          obtain ⟨hw, hblocks⟩ := htail k
          exact ⟨List.forall_mem_cons.mpr ⟨hi.1, hw⟩, .single hi.2 hblocks⟩
      | choice members =>
          obtain ⟨hlen, hmembers, ho⟩ := hi
          obtain ⟨hw, hblocks⟩ := htail (k + 1)
          rw [UInt32.ofNat_add] at hw hblocks
          have hmap {P : Argument → Prop}
              (hP : ∀ a ∈ members, P { a with group := UInt32.ofNat k }) :
              ∀ a ∈ members.map fun a => { a with group := UInt32.ofNat k }, P a := by
            intro a ha
            obtain ⟨b, hb, rfl⟩ := List.mem_map.mp ha
            exact hP b hb
          refine ⟨List.forall_mem_append.mpr ⟨hmap hmembers, hw⟩, .block ?_ ?_ ?_ hblocks⟩
          · rwa [List.length_map]
          · exact hmap fun _ _ => rfl
          · exact ho.imp hmap hmap

theorem form_normal {s rest : List Char} {c : Clause} (h : form s = .ok (c, rest)) :
    c.Normal ∧ c.args.length ≤ s.length := by
  unfold form at h
  simp only at h
  split at h
  · cases h
  · next head after hw =>
      obtain ⟨⟨found, middle⟩, hi, h⟩ := bind_eq_ok.mp h
      obtain ⟨⟨_, last⟩, _, h⟩ := bind_eq_ok.mp h
      cases h
      obtain ⟨-, hne, hchars⟩ := word?_eq_some hw
      obtain ⟨hitems, hsum⟩ := items_normal hi
      obtain ⟨hwritable, hblocks⟩ := numbered_blocks hitems 1
      refine ⟨⟨hne, hchars, hwritable, hblocks⟩, ?_⟩
      have hs := skip_length s
      have hlen := word?_length hw
      simp only [Clause.args, numbered_length]
      omega

/-- An alternative is a word only if it does not begin with a delimited name, which would have
been read first. -/
theorem alternative_normal {s rest : List Char} {c : Clause}
    (h : alternative s = .ok (c, rest)) : c.Normal ∧ c.args.length ≤ s.length := by
  have hs := skip_length s
  unfold alternative at h
  split at h
  · next after he =>
      obtain ⟨hc, hsize⟩ := form_normal (mapError_eq_ok.mp h)
      rw [he, List.length_cons] at hs
      exact ⟨hc, by omega⟩
  · split at h
    · next hd =>
        cases h
        exact ⟨delimited?_isDelimited hd, Nat.zero_le _⟩
    · next hnone =>
        split at h
        · next text last hw =>
            cases h
            obtain ⟨htext, hne, hchars⟩ := word?_eq_some hw
            refine ⟨⟨hne, hchars, ?_⟩, Nat.zero_le _⟩
            rintro ⟨name, hname, t, ht⟩
            rw [htext, ← ht, List.append_assoc, delimited?_append ⟨name, hname, rfl⟩] at hnone
            cases hnone
        · cases h

/-! ## Rules -/

theorem moreAlternatives_normal {s rest : List Char} {more : List Clause}
    (h : moreAlternatives s = .ok (more, rest)) :
    ∀ c ∈ more, c.Normal ∧ c.args.length ≤ s.length := by
  fun_induction moreAlternatives s generalizing more rest with
  | case1 s bar hb c middle ha hlen _ ih =>
      obtain ⟨⟨others, last⟩, hm, h⟩ := bind_eq_ok.mp h
      cases h
      have hs := skip_length s
      rw [hb, List.length_cons] at hs
      obtain ⟨hc, hsize⟩ := alternative_normal ha
      refine List.forall_mem_cons.mpr ⟨⟨hc, by omega⟩, fun d hd => ?_⟩
      obtain ⟨hd, hsize⟩ := ih hm d hd
      exact ⟨hd, by omega⟩
  | case2 => cases h
  | case3 => cases h; simp

theorem definition_normal {s rest : List Char} {clauses : List Clause}
    (h : definition s = .ok (clauses, rest)) :
    clauses ≠ [] ∧ ∀ c ∈ clauses, c.Normal ∧ c.args.length ≤ s.length := by
  have hs := skip_length s
  unfold definition at h
  split at h
  · next after he =>
      obtain ⟨⟨first, middle⟩, ha, h⟩ := bind_eq_ok.mp h
      obtain ⟨⟨more, last⟩, hm, h⟩ := bind_eq_ok.mp h
      cases h
      simp only [he, List.length_cons] at hs
      have hlen := alternative_length ha
      obtain ⟨hc, hsize⟩ := alternative_normal ha
      refine ⟨by simp, List.forall_mem_cons.mpr ⟨⟨hc, by omega⟩, fun d hd => ?_⟩⟩
      obtain ⟨hd, hsize⟩ := moreAlternatives_normal hm d hd
      exact ⟨hd, by omega⟩
  · cases h

theorem rule_normal {s rest : List Char} {r : Rule} (h : rule s = .found r rest) :
    r.Normal ∧ ∀ c ∈ r.clauses, c.args.length ≤ s.length := by
  have hs := skip_length s
  unfold rule at h
  split at h
  · cases h
  · next name after hn =>
      split at h
      · next hd =>
          cases h
          have hlen := symbol?_length hn
          obtain ⟨hne, hclauses⟩ := definition_normal hd
          refine ⟨⟨symbol?_isSymbol hn, hne, fun c hc => (hclauses c hc).1⟩, fun c hc => ?_⟩
          have hsize := (hclauses c hc).2
          omega
      · cases h

theorem rules_normal {s rest : List Char} {found : List Rule}
    (h : rules s = .ok (found, rest)) :
    ∀ r ∈ found, r.Normal ∧ ∀ c ∈ r.clauses, c.args.length ≤ s.length := by
  fun_induction rules s generalizing found rest with
  | case1 s r middle hr hlen ih =>
      obtain ⟨⟨more, last⟩, hm, h⟩ := bind_eq_ok.mp h
      cases h
      refine List.forall_mem_cons.mpr ⟨rule_normal hr, fun q hq => ?_⟩
      obtain ⟨hq, hsize⟩ := ih hm q hq
      exact ⟨hq, fun c hc => Nat.le_trans (hsize c hc) (Nat.le_of_lt hlen)⟩
  | case2 => cases h; simp
  | case3 => cases h

theorem read_normal {s : List Char} {found : List Rule} (h : read s = .ok found) :
    ∀ r ∈ found, r.Normal ∧ ∀ c ∈ r.clauses, c.args.length ≤ s.length := by
  obtain ⟨⟨rs, rest⟩, hr, h⟩ := bind_eq_ok.mp h
  simp only at h
  split at h
  · cases h
    exact rules_normal hr
  · cases h

/-! ## Listings -/

/-- What is read is in normal form, and no alternative of it has more arguments than the text has
characters. -/
theorem parse_normal {text : String} {found : List Rule} (h : parse text = .ok found) :
    ∀ r ∈ found, r.Normal ∧ ∀ c ∈ r.clauses, c.args.length ≤ text.length := by
  rw [← String.length_toList]
  exact read_normal (mapError_eq_ok.mp h)

theorem parse_of_load {text : String} {g : Grammar} (h : load text = .ok g) :
    parse text = .ok g.rules := by
  unfold load at h
  split at h
  · cases h
  · next found hp => rw [hp, Grammar.ofRules_eq_ok_iff.mp (mapError_eq_ok.mp h)]

/-- A grammar that comes from a listing is made of names and words. -/
theorem load_worded {text : String} {g : Grammar} (h : load text = .ok g) : g.Worded :=
  fun r hr c hc => ((parse_normal (parse_of_load h) r hr).1.clauses c hc).worded

/-- A grammar that comes from a listing has no empty reference and no argument without a
token. -/
theorem load_named {text : String} {g : Grammar} (h : load text = .ok g) : g.Named :=
  (load_worded h).named

end Listing

end GameGrammar

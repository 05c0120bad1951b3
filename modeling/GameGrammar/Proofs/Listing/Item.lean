import GameGrammar.Proofs.Listing.Argument

/-! # Reading back items

The items of a form are read one after another, and numbering the groups among them gives the
arguments of the form back. -/

namespace GameGrammar.Listing

/-! ## Members -/

/-- What encloses a list of arguments is closed here. -/
def Shut (s : List Char) : Prop :=
  ∃ f c rest, Pad f ∧ s = f ++ c :: rest ∧ (c = ']' ∨ c = ')')

theorem Shut.free {s : List Char} (h : Shut s) : Free s := by
  obtain ⟨f, c, rest, hf, rfl, hc⟩ := h
  apply free_pad hf
  intro d hd
  cases hd
  rcases hc with rfl | rfl <;> decide

/-- The next character closes a list of arguments. -/
def Closed (s : List Char) : Prop :=
  ∃ c rest, skip s = c :: rest ∧ (c = ']' ∨ c = ')')

theorem Shut.closed {s : List Char} (h : Shut s) : Closed s := by
  obtain ⟨f, c, rest, hf, rfl, hc⟩ := h
  refine ⟨c, rest, skip_token hf.filler ?_ ?_, hc⟩
  · rcases hc with rfl | rfl <;> decide
  · rcases hc with rfl | rfl <;> decide

theorem moreMembers_stop {s : List Char} (h : (skip s).head? ≠ some '|') :
    moreMembers s = .ok ([], s) := by
  rw [moreMembers]
  split
  · next hb =>
      rw [hb] at h
      exact absurd rfl h
  · rfl

theorem moreMembers_bar {s bar rest : List Char} {a : Argument} (hb : skip s = '|' :: bar)
    (ha : argument (skip bar) = .found a rest) {more : List Argument} {last : List Char}
    (hm : moreMembers rest = .ok (more, last)) : moreMembers s = .ok (a :: more, last) := by
  rw [moreMembers]
  split
  · next bar' hb' =>
      obtain rfl : bar = bar' := by rw [hb] at hb'; exact (List.cons.inj hb').2
      split
      · next a' rest' ha' =>
          rw [ha] at ha'
          cases ha'
          simp only [hm]
          rfl
      · next ha' => rw [ha] at ha'; cases ha'
      · next ha' => rw [ha] at ha'; cases ha'
  · next hne => exact absurd hb (hne bar)

/-- The members behind the first one are read, each after its bar. -/
theorem moreMembers_laidOut {first : Argument} {more : List Argument}
    (ha : ∀ a ∈ first :: more, a.Writable) {t : List Char}
    (ht : LaidOut (membersPieces (first :: more)) t) {s : List Char} (hs : Shut s) :
    ∃ u, argument (t ++ s) = .found (bare first) u ∧ StartsArgument (t ++ s) ∧
      moreMembers u = .ok (more.map bare, s) := by
  induction more generalizing first t with
  | nil =>
      obtain ⟨harg, hstart⟩ := argument_laidOut (ha first List.mem_cons_self) ht hs.free
      obtain ⟨c, rest, hskip, hc⟩ := hs.closed
      refine ⟨s, harg, hstart, moreMembers_stop ?_⟩
      rw [hskip]
      rcases hc with rfl | rfl <;> simp
  | cons next more ih =>
      obtain ⟨x, _, rfl, hx, f, _, hf, rfl, _, rfl, f', y, hf', rfl, hy⟩ := laidOut_append.mp ht
      obtain ⟨u, harg, hstart, hmore⟩ := ih (fun a h => ha a (List.mem_cons_of_mem first h)) hy
      have htext : x ++ (f ++ ("|".toList ++ (f' ++ y))) ++ s =
          x ++ (f ++ '|' :: (f' ++ (y ++ s))) := by simp
      obtain ⟨hfirst, hfront⟩ := argument_laidOut (ha first List.mem_cons_self) hx
        (free_layout hf ('|' :: (f' ++ (y ++ s))))
      have hbar : skip (f ++ '|' :: (f' ++ (y ++ s))) = '|' :: (f' ++ (y ++ s)) :=
        skip_token hf.1 (by decide) (by decide)
      have hnext : skip (f' ++ (y ++ s)) = y ++ s := skip_solid hf'.1 hstart.solid
      rw [htext]
      exact ⟨_, hfirst, hfront, moreMembers_bar hbar (by rw [hnext]; exact harg) hmore⟩

theorem members_laidOut {found : List Argument} (hne : found ≠ [])
    (ha : ∀ a ∈ found, a.Writable) {f t : List Char} (hf : Pad f)
    (ht : LaidOut (membersPieces found) t) {s : List Char} (hs : Shut s) :
    members (f ++ (t ++ s)) = .found (found.map bare) s := by
  cases found with
  | nil => exact absurd rfl hne
  | cons first more =>
      obtain ⟨u, harg, hstart, hmore⟩ := moreMembers_laidOut ha ht hs
      simp only [members, skip_solid hf.filler hstart.solid, harg, hmore]
      rfl

/-! ## Items -/

/-- What an item is before its groups are numbered. -/
def Item.unnumbered : Item → Item
  | .single a => .single a
  | .choice found => .choice (found.map fun a => { a with group := 0 })

/-- The item can be written out: an independent argument, or at least two arguments that are all
optional or all required. -/
def Item.Writable : Item → Prop
  | .single a => a.Writable ∧ a.group = 0
  | .choice found => 2 ≤ found.length ∧ (∀ a ∈ found, a.Writable) ∧
      ((∀ a ∈ found, a.optional = true) ∨ ∀ a ∈ found, a.optional = false)

/-- The text goes on with the first character of an item. -/
def StartsItem (s : List Char) : Prop :=
  StartsArgument s ∨ ∃ c rest, s = c :: rest ∧ (c = '[' ∨ c = '(')

theorem StartsItem.solid {s : List Char} (h : StartsItem s) : Solid s := by
  rcases h with h | ⟨c, rest, rfl, hc⟩
  · exact h.solid
  · refine ⟨c, rest, rfl, ?_⟩
    rcases hc with rfl | rfl <;> decide

/-- The members between brackets are optional. -/
theorem optionalItem_laidOut (found : List Argument) (hne : found ≠ [])
    (ha : ∀ a ∈ found, a.Writable) {t : List Char}
    (ht : LaidOut (bracketed (membersPieces found)) t) (s : List Char) :
    ∃ inner, t ++ s = '[' :: inner ∧
      optionalItem inner =
        .ok (.ofMembers ((found.map bare).map fun a => { a with optional := true }), s) := by
  obtain ⟨_, rfl, f, _, hf, rfl, h⟩ := ht
  obtain ⟨x, _, rfl, hx, f', _, hf', rfl, _, rfl, rfl⟩ := laidOut_append.mp h
  refine ⟨f ++ (x ++ (f' ++ ']' :: s)), by simp, ?_⟩
  have hshut : Shut (f' ++ ']' :: s) := ⟨f', ']', s, hf', rfl, .inl rfl⟩
  have hclose := closing_filler hf'.filler (c := ']') (by decide) (by decide) .closingBracket s
  simp only [optionalItem, members_laidOut hne ha hf hx hshut, Reading.required, bind,
    Except.bind, hclose]

theorem choiceItem_laidOut {found : List Argument} (hne : found ≠ [])
    (ha : ∀ a ∈ found, a.Writable) {t : List Char}
    (ht : LaidOut (parenthesized (membersPieces found)) t) (s : List Char) :
    ∃ inner, t ++ s = '(' :: inner ∧
      choiceItem inner = .ok (.ofMembers (found.map bare), s) := by
  obtain ⟨_, rfl, f, _, hf, rfl, h⟩ := ht
  obtain ⟨x, _, rfl, hx, f', _, hf', rfl, _, rfl, rfl⟩ := laidOut_append.mp h
  refine ⟨f ++ (x ++ (f' ++ ')' :: s)), by simp, ?_⟩
  have hshut : Shut (f' ++ ')' :: s) := ⟨f', ')', s, hf', rfl, .inr rfl⟩
  have hclose := closing_filler hf'.filler (c := ')') (by decide) (by decide)
    .closingParenthesis s
  simp only [choiceItem, members_laidOut hne ha hf hx hshut, Reading.required, bind,
    Except.bind, hclose]

theorem item_of_startsArgument {s : List Char} (h : StartsArgument s) :
    item s = (argument s).map .single := by
  obtain ⟨c, rest, rfl, hc⟩ := h
  unfold item
  split
  · next he =>
      obtain rfl := (List.cons.inj he).1
      rcases hc with hc | hc | hc <;> cases hc
  · next he =>
      obtain rfl := (List.cons.inj he).1
      rcases hc with hc | hc | hc <;> cases hc
  · rfl

theorem ofMembers_of_two {found : List Argument} (h : 2 ≤ found.length) :
    Item.ofMembers found = .choice found := by
  match found with
  | _ :: _ :: _ => rfl

theorem item_laidOut {i : Item} (hi : i.Writable) {t : List Char} (ht : LaidOut (itemPieces i) t)
    {s : List Char} (hs : Free s) :
    item (t ++ s) = .found i.unnumbered s ∧ StartsItem (t ++ s) := by
  cases i with
  | single a =>
      obtain ⟨ha, hgroup⟩ := hi
      cases ho : a.optional with
      | true =>
          simp only [itemPieces, ho, if_true] at ht
          obtain ⟨inner, he, hitem⟩ := optionalItem_laidOut [a] (by simp)
            (by simpa using ha) ht s
          have hsame : { bare a with optional := true } = a := by
            rw [bare, ← hgroup, ← ho]
          simp only [List.map_cons, List.map_nil, Item.ofMembers, hsame] at hitem
          rw [he]
          exact ⟨by simp only [item, hitem]; rfl, .inr ⟨'[', inner, rfl, .inl rfl⟩⟩
      | false =>
          simp only [itemPieces, ho, Bool.false_eq_true, if_false] at ht
          obtain ⟨harg, hstart⟩ := argument_laidOut ha ht hs
          have hsame : bare a = a := by
            rw [bare, ← hgroup, ← ho]
          rw [item_of_startsArgument hstart, harg, hsame]
          exact ⟨rfl, .inl hstart⟩
  | choice found =>
      obtain ⟨hlen, ha, ho⟩ := hi
      have hne : found ≠ [] := by
        rintro rfl
        simp at hlen
      by_cases hall : found.all (·.optional) = true
      · simp only [itemPieces, hall, if_true] at ht
        obtain ⟨inner, he, hitem⟩ := optionalItem_laidOut found hne ha ht s
        have hmembers : (found.map bare).map (fun a => { a with optional := true }) =
            found.map fun a => { a with group := 0 } := by
          rw [List.map_map]
          apply List.map_congr_left
          intro a hmem
          simp only [Function.comp, bare, ← List.all_eq_true.mp hall a hmem]
        rw [hmembers, ofMembers_of_two (by simpa using hlen)] at hitem
        rw [he]
        exact ⟨by simp only [item, hitem]; rfl, .inr ⟨'[', inner, rfl, .inl rfl⟩⟩
      · simp only [itemPieces, hall, Bool.false_eq_true, if_false] at ht
        obtain ⟨inner, he, hitem⟩ := choiceItem_laidOut hne ha ht s
        have hnone : ∀ a ∈ found, a.optional = false := by
          rcases ho with ho | ho
          · exact absurd (List.all_eq_true.mpr ho) hall
          · exact ho
        have hmembers : found.map bare = found.map fun a => { a with group := 0 } := by
          apply List.map_congr_left
          intro a hmem
          simp only [bare, ← hnone a hmem]
        rw [hmembers, ofMembers_of_two (by simpa using hlen)] at hitem
        rw [he]
        exact ⟨by simp only [item, hitem]; rfl, .inr ⟨'(', inner, rfl, .inr rfl⟩⟩

/-! ## Items of a form -/

theorem items_found {s rest last : List Char} {i : Item} {more : List Item}
    (hi : item (skip s) = .found i rest) (hm : items rest = .ok (more, last)) :
    items s = .ok (i :: more, last) := by
  rw [items]
  split
  · next j rest' hj =>
      rw [hi] at hj
      cases hj
      simp only [hm]
      rfl
  · next hj => rw [hi] at hj; cases hj
  · next hj => rw [hi] at hj; cases hj

/-- No item begins with what closes a list of them. -/
theorem item_shut {c : Char} (hc : c = ']' ∨ c = ')') (rest : List Char) :
    item (c :: rest) = .absent (c :: rest) := by
  have hname : name? (c :: rest) = none := by
    apply word?_eq_none
    intro d hd
    cases hd
    rcases hc with rfl | rfl <;> rfl
  have hlabel : label? (c :: rest) = none := by
    simp only [label?, hname]
  have hopen : openBraces (c :: rest) = (0, c :: rest) := by
    rw [openBraces]
    rintro s hs
    rcases hc with rfl | rfl <;> cases hs
  have hsymbol : symbol? (c :: rest) = none := by
    rw [symbol?, delimited?_eq_none (by rcases hc with rfl | rfl <;> decide), hname]
  have hargument : argument (c :: rest) = .absent (c :: rest) := by
    simp only [argument, hlabel, nestedToken, hopen, Nat.zero_min, hsymbol, Reading.map]
  unfold item
  split
  · next he => rcases hc with rfl | rfl <;> cases he
  · next he => rcases hc with rfl | rfl <;> cases he
  · rw [hargument]
    rfl

theorem items_closed {s : List Char} (hs : Closed s) : items s = .ok ([], s) := by
  obtain ⟨c, rest, hskip, hc⟩ := hs
  have habsent := item_shut hc rest
  rw [items]
  split
  · next hj => rw [hskip, habsent] at hj; cases hj
  · rfl
  · next hj => rw [hskip, habsent] at hj; cases hj

theorem items_laidOut {found : List Item} (hi : ∀ i ∈ found, i.Writable) {t : List Char}
    (ht : LaidOut (itemsPieces found) t) {s : List Char} (hs : Shut s) :
    items (t ++ s) = .ok (found.map Item.unnumbered, s) ∧ Free (t ++ s) := by
  induction found generalizing t with
  | nil =>
      cases ht
      exact ⟨items_closed hs.closed, hs.free⟩
  | cons i found ih =>
      obtain ⟨f, _, hf, rfl, ht⟩ := ht
      obtain ⟨x, y, rfl, hx, hy⟩ := laidOut_append.mp ht
      obtain ⟨hrest, hfree⟩ := ih (fun j hj => hi j (List.mem_cons_of_mem i hj)) hy
      obtain ⟨hitem, hstart⟩ := item_laidOut (hi i List.mem_cons_self) hx hfree
      have htext : f ++ (x ++ y) ++ s = f ++ (x ++ (y ++ s)) := by simp
      rw [htext]
      refine ⟨items_found ?_ hrest, free_layout hf _⟩
      rw [skip_solid hf.1 hstart.solid]
      exact hitem

/-! ## Groups -/

/-- A block of one group in front of arguments of other groups is one item. -/
theorem gather_block {next : UInt32} (hn : 0 < next) {members rest : List Argument}
    (hne : members ≠ []) (hm : ∀ a ∈ members, a.group = next)
    (hrest : ∀ b bs more, gather rest = .choice (b :: bs) :: more → b.group ≠ next) :
    gather (members ++ rest) = .choice members :: gather rest := by
  have hn0 : next ≠ 0 := by
    rintro rfl
    exact absurd hn (by decide)
  induction members with
  | nil => exact absurd rfl hne
  | cons a members ih =>
      have ha := hm a List.mem_cons_self
      have ha0 : a.group ≠ 0 := ha ▸ hn0
      cases members with
      | nil =>
          rw [List.singleton_append, gather, attach_new ha0]
          rw [ha]
          exact hrest
      | cons b members =>
          have hb := hm b (by simp)
          rw [List.cons_append, gather, ih (by simp) fun c hc => hm c (List.mem_cons_of_mem a hc),
            attach_same ha0 (hb.trans ha.symm)]

/-- The items of grouped arguments can be written out, the next group that comes up is the next
number, and numbering them gives the arguments back. -/
theorem Grouped.gather_spec {next : UInt32} {args : List Argument} (h : Grouped next args)
    (ha : ∀ a ∈ args, a.Writable) :
    (∀ i ∈ gather args, i.Writable) ∧
      (∀ b bs more, gather args = .choice (b :: bs) :: more → b.group = next) ∧
      numbered next ((gather args).map Item.unnumbered) = args := by
  induction h with
  | nil => exact ⟨by simp [gather], by simp [gather], rfl⟩
  | @single next a rest hgroup h ih =>
      obtain ⟨hw, -, hnum⟩ := ih fun b hb => ha b (List.mem_cons_of_mem a hb)
      have hgather : gather (a :: rest) = .single a :: gather rest := by
        rw [gather, attach_single hgroup]
      rw [hgather]
      refine ⟨?_, by simp, ?_⟩
      · exact List.forall_mem_cons.mpr ⟨⟨ha a List.mem_cons_self, hgroup⟩, hw⟩
      · simp only [List.map_cons, Item.unnumbered, numbered, hnum]
  | @block next members rest hn hlen hm ho h ih =>
      obtain ⟨hw, hfirst, hnum⟩ := ih fun b hb => ha b (List.mem_append_right members hb)
      have hne : members ≠ [] := by
        rintro rfl
        simp at hlen
      have hgather : gather (members ++ rest) = .choice members :: gather rest := by
        apply gather_block hn hne hm
        intro b bs more hb
        rw [hfirst b bs more hb]
        simp
      rw [hgather]
      refine ⟨?_, ?_, ?_⟩
      · exact List.forall_mem_cons.mpr
          ⟨⟨hlen, fun a h => ha a (List.mem_append_left rest h), ho⟩, hw⟩
      · rintro b bs more hb
        cases hb
        exact hm b List.mem_cons_self
      · simp only [List.map_cons, Item.unnumbered, numbered, hnum, List.map_map]
        congr 1
        rw [List.map_congr_left (g := id), List.map_id]
        intro a hmem
        simp only [Function.comp, id, ← hm a hmem]

end GameGrammar.Listing

import GameGrammar.Proofs.Completion.Arguments
import GameGrammar.Proofs.Completion.Correspondence

/-! # What completion visits

An account of a completion is a dialogue that also tells which rules it comes to, and at which
depth, as it goes on. It tells so whether or not the completion fails in the end. Without what it
tells it is the dialogue of the completion. -/

namespace GameGrammar

/-- A dialogue that tells of visits in between. -/
inductive Account (α : Type) where
  | done (value : α)
  | fail
  | ask (q : Question) (next : q.Answer → Account α)
  | tell (v : Visit) (rest : Account α)

namespace Account

variable {α β σ : Type}

/-- Goes on with the value of the first account, unless it fails. -/
def bind : Account α → (α → Account β) → Account β
  | .done value, k => k value
  | .fail, _ => .fail
  | .ask q next, k => .ask q fun a => (next a).bind k
  | .tell v rest, k => .tell v (rest.bind k)

instance : Monad Account where
  pure := .done
  bind := bind

/-- A dialogue in which no rule is visited. -/
def quiet : Dialogue α → Account α
  | .done value => .done value
  | .fail => .fail
  | .ask q next => .ask q fun a => quiet (next a)

/-- The dialogue, without what is told in between. -/
def dialogue : Account α → Dialogue α
  | .done value => .done value
  | .fail => .fail
  | .ask q next => .ask q fun a => (next a).dialogue
  | .tell _ rest => rest.dialogue

/-- The visits that are told of when the dialogue is held with a policy. -/
def visits (p : Policy σ) : Account α → σ → List Visit
  | .done _, _ => []
  | .fail, _ => []
  | .ask q next, s =>
    let (a, s) := p.answer q s
    (next a).visits p s
  | .tell v rest, s => v :: rest.visits p s

theorem dialogue_quiet (d : Dialogue α) : (quiet d).dialogue = d := by
  induction d with
  | done value => rfl
  | fail => rfl
  | ask q next ih => exact congrArg (Dialogue.ask q) (funext ih)

theorem dialogue_bind (a : Account α) (k : α → Account β) :
    (a >>= k).dialogue = a.dialogue >>= fun value => (k value).dialogue := by
  change (a.bind k).dialogue = a.dialogue.bind _
  induction a with
  | done value => rfl
  | fail => rfl
  | ask q next ih => exact congrArg (Dialogue.ask q) (funext ih)
  | tell v rest ih => exact ih

/-! ## Accounts of completion -/

open Completion Medium

instance : Medium Account where
  hold := quiet
  visit := .tell

instance : Faithful Account where
  dialogue := dialogue
  dialogue_pure _ := rfl
  dialogue_bind := dialogue_bind
  dialogue_hold := dialogue_quiet
  dialogue_visit _ _ := rfl

/-- The account of completing a rule that stands at the given depth. -/
def completeBy (b : Bounds) (g : Grammar) (r : Rule) (depth : Nat) : Account String :=
  completion b g r depth

/-- The account is one of completion: it asks what completion asks and comes to the same. -/
theorem completeBy_dialogue (b : Bounds) (g : Grammar) (r : Rule) (depth : Nat) :
    (completeBy b g r depth).dialogue = Completion.completeBy b g r depth := by
  have hkept : (Relations.everywhere (ω := String) Eq).Kept g fun _ => True := by
    refine Relations.kept_everywhere (fun _ => rfl) ?_ (fun _ _ => rfl) fun _ _ _ _ _ _ _ => rfl
    rintro v w _ _ rfl rfl
    rfl
  have hkind (r : Rule) : OfKind (fun _ => True) r := fun _ _ => trivial
  exact (completion_lockstep (m := Account) hkept (fun r _ => hkind r) b (hkind r) depth).eq

/-! ## What accounts tell -/

/-- Whatever the answers are, each visit that is told of has the property. -/
inductive Tells (P : Visit → Prop) : Account α → Prop where
  | done (value : α) : Tells P (.done value)
  | fail : Tells P .fail
  | ask (q : Question) {next : q.Answer → Account α} (h : ∀ a, Tells P (next a)) :
      Tells P (.ask q next)
  | tell (v : Visit) {rest : Account α} (hv : P v) (h : Tells P rest) : Tells P (.tell v rest)

section

variable {P : Visit → Prop}

theorem tells_quiet (d : Dialogue α) : (quiet d).Tells P := by
  induction d with
  | done value => exact .done value
  | fail => exact .fail
  | ask q next ih => exact .ask q ih

theorem Tells.bind {a : Account α} {k : α → Account β} (ha : a.Tells P)
    (hk : ∀ value, (k value).Tells P) : (a >>= k).Tells P := by
  induction ha with
  | done value => exact hk value
  | fail => exact .fail
  | ask q _ ih => exact .ask q ih
  | tell v hv _ ih => exact .tell v hv ih

/-- No policy is told of any other visit. -/
theorem Tells.visits {a : Account α} (h : a.Tells P) (p : Policy σ) (s : σ) :
    ∀ v ∈ a.visits p s, P v := by
  induction h generalizing s with
  | done value => exact List.forall_mem_nil _
  | fail => exact List.forall_mem_nil _
  | ask q _ ih => exact ih _ _
  | tell v hv _ ih => exact List.forall_mem_cons.mpr ⟨hv, ih s⟩

theorem tells_sequential : Sequential (m := Account) fun _ a => a.Tells P where
  pure := .done
  bind := Tells.bind

theorem literal_tells (p : Primitive) : (p.literal : Account String).Tells P := by
  cases p <;> exact (tells_quiet _).bind fun _ => .done _

end

end Account

/-- References lead to depths below the limit and arguments to one level beyond it at most. What is
expanded stands within the limit. -/
def Visit.Within (limit : Nat) : Visit → Prop
  | .referred _ depth => depth < limit
  | .demanded _ depth => depth ≤ limit + 1
  | .expanded _ depth => depth ≤ limit

namespace Account

open Completion

section

variable {b : Bounds} {g : Grammar} {expand : Rule → Account String} {depth : Nat}

theorem item_tells (he : ∀ inner, (expand inner).Tells (Visit.Within b.rule))
    (hd : depth ≤ b.rule) (head : String) (a : Argument) :
    (item b g expand head depth a).Tells (Visit.Within b.rule) := by
  unfold item
  split
  · exact .fail
  · split
    · exact .done _
    · split
      · split
        · exact .fail
        · exact .tell _ (Nat.succ_le_succ hd) (he _)
      · exact .done _

theorem clause_tells (he : ∀ inner, (expand inner).Tells (Visit.Within b.rule))
    (hd : depth ≤ b.rule) (c : Clause) :
    (clause b g expand depth c).Tells (Visit.Within b.rule) := by
  cases c with
  | terminal text => exact .done text
  | reference target =>
      simp only [clause]
      split
      · split
        · exact .fail
        · next hreach => exact .tell _ (Nat.not_le.mp hreach) (he _)
      · exact .fail
  | form head args =>
      simp only [clause, form]
      split
      · exact .fail
      · refine (tells_quiet _).bind fun kept => ?_
        have hitems : ∀ a ∈ marked args kept,
            (item b g expand head depth a).Tells (Visit.Within b.rule) :=
          fun a _ => item_tells he hd head a
        have harguments := tells_sequential.arguments hitems (tells_quiet _) ("(" ++ head)
        exact harguments.bind fun out => .done _

theorem alternative_tells (he : ∀ inner, (expand inner).Tells (Visit.Within b.rule))
    (hd : depth ≤ b.rule) (r : Rule) :
    (alternative b g expand r depth).Tells (Visit.Within b.rule) := by
  unfold alternative
  split
  · exact .fail
  · exact (tells_quiet _).bind fun i => clause_tells he hd _

/-- A rule is expanded after the test of its depth, and so what it leads to stands at most one level
below the limit. -/
theorem step_tells (he : ∀ inner, (expand inner).Tells (Visit.Within b.rule)) (r : Rule)
    (depth : Nat) : (step b g expand r depth).Tells (Visit.Within b.rule) := by
  unfold step
  split
  · exact .fail
  · next hdeep =>
      have hd : depth ≤ b.rule := Nat.not_lt.mp hdeep
      refine .tell _ hd ?_
      split
      · exact alternative_tells he hd r
      · refine (tells_quiet _).bind fun exit => ?_
        split
        · exact literal_tells _
        · exact alternative_tells he hd r

end

/-- Whatever the bounds on forms and arguments are, and whether or not it fails, completion visits
no rule beyond the bound on rules. -/
theorem completeBy_tells (b : Bounds) (g : Grammar) (r : Rule) (depth : Nat) :
    (completeBy b g r depth).Tells (Visit.Within b.rule) := by
  unfold completeBy completion
  generalize b.rule + 1 - depth = levels
  induction levels generalizing r depth with
  | zero => exact .fail
  | succ levels ih => exact step_tells (fun inner => ih inner _) r depth

end Account

end GameGrammar

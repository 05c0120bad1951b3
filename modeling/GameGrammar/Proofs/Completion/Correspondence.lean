import GameGrammar.Proofs.Completion.Derivation
import GameGrammar.Proofs.Completion.Lockstep
import GameGrammar.Proofs.Grammar.Resolve

/-! # What completions have in common

Whatever a completion is held in and whatever it writes, it asks what the completion to a text asks.
What it writes goes with the text if it does so in each of the places where something is
written. -/

namespace GameGrammar.Completion

open Dialogue Medium Output

/-! ## Media -/

/-- A medium that holds a dialogue, whatever else it does. -/
class Faithful (m : Type → Type) [Monad m] [Medium m] where
  dialogue {α : Type} : m α → Dialogue α
  dialogue_pure {α : Type} (value : α) : dialogue (pure value) = .done value
  dialogue_bind {α β : Type} (x : m α) (k : α → m β) :
    dialogue (x >>= k) = dialogue x >>= fun value => dialogue (k value)
  dialogue_hold {α : Type} (d : Dialogue α) : dialogue (hold d) = d
  dialogue_visit {α : Type} (v : Visit) (x : m α) : dialogue (visit v x) = dialogue x

open Faithful

instance : Faithful Dialogue where
  dialogue d := d
  dialogue_pure _ := rfl
  dialogue_bind _ _ := rfl
  dialogue_hold _ := rfl
  dialogue_visit _ _ := rfl

/-! ## Outputs -/

/-- How outputs go with texts: completed rules; forms of some head up to where a space or their end
may follow; such forms up to where a value may follow; values in a form of that head. -/
structure Relations (ω : Type) where
  rule : ω → String → Prop
  opened : (head : String) → ω → String → Prop
  ready : (head : String) → ω → String → Prop
  value : (head : String) → ω → String → Prop

/-- The relations hold of whatever completion writes, from one place to the next, for alternatives
of some kind. -/
structure Relations.Kept {ω : Type} [Append ω] [Output ω] (R : Relations ω) (g : Grammar)
    (kind : Clause → Prop) : Prop where
  terminal : ∀ t, kind (.terminal t) → R.rule (words t) t
  literal : ∀ (p : Primitive) t, p.Literal t → R.rule (words t) t
  head : ∀ head args, kind (.form head args) → R.opened head (words ("(" ++ head)) ("(" ++ head)
  space : ∀ head out t, R.opened head out t → R.ready head (out ++ words " ") (t ++ " ")
  label : ∀ head args, kind (.form head args) → ∀ a ∈ args, ∀ out t, R.ready head out t →
    R.ready head (out ++ words (labelText a)) (t ++ labelText a)
  value : ∀ head out t v u, R.ready head out t → R.value head v u →
    R.opened head (out ++ v) (t ++ u)
  brace : ∀ head out t, R.ready head out t → R.opened head (out ++ words "\x7b") (t ++ "\x7b")
  unbrace : ∀ head out t, R.opened head out t →
    R.opened head (out ++ words " \x7d") (t ++ " \x7d")
  close : ∀ head out t, R.opened head out t → R.rule (out ++ words ")") (t ++ ")")
  leaf : ∀ head c, R.value head (leaf head c) c.marker
  weak : ∀ head args, kind (.form head args) → ∀ a ∈ args, Category.ofToken? a.token = none →
    (g.resolve a.token).length ≠ 1 → R.value head (weak a.token) weakMarker
  nested : ∀ head v t, R.rule v t → R.value head v t

/-- One relation in all places. -/
def Relations.everywhere {ω : Type} (R : ω → String → Prop) : Relations ω where
  rule := R
  opened _ := R
  ready _ := R
  value _ := R

/-- Where words and what is put together from parts need no more than the parts do, leaves and weak
markers are left. -/
theorem Relations.kept_everywhere {ω : Type} [Append ω] [Output ω] {R : ω → String → Prop}
    {g : Grammar} {kind : Clause → Prop} (hwords : ∀ t, R (words t) t)
    (happend : ∀ v w t u, R v t → R w u → R (v ++ w) (t ++ u))
    (hleaf : ∀ head c, R (leaf head c) c.marker)
    (hweak : ∀ head args, kind (.form head args) → ∀ a ∈ args,
      Category.ofToken? a.token = none → (g.resolve a.token).length ≠ 1 →
        R (weak a.token) weakMarker) : (everywhere R).Kept g kind where
  terminal t _ := hwords t
  literal _ t _ := hwords t
  head _ _ _ := hwords _
  space _ _ _ h := happend _ _ _ _ h (hwords _)
  label _ _ _ _ _ _ _ h := happend _ _ _ _ h (hwords _)
  value _ _ _ _ _ h hv := happend _ _ _ _ h hv
  brace _ _ _ h := happend _ _ _ _ h (hwords _)
  unbrace _ _ _ h := happend _ _ _ _ h (hwords _)
  close _ _ _ h := happend _ _ _ _ h (hwords _)
  leaf := hleaf
  weak := hweak
  nested _ _ _ h := h

/-! ## Writing arguments -/

section

variable {m : Type → Type} [Monad m] [Medium m] [Faithful m] {ω : Type} [Append ω] [Output ω]

@[simp] theorem dialogue_fail {α : Type} : dialogue (fail : m α) = .fail :=
  dialogue_hold .fail

@[simp] theorem dialogue_ask (q : Question) : dialogue (ask q : m q.Answer) = question q :=
  dialogue_hold _

variable {R : Relations ω} {g : Grammar} {kind : Clause → Prop} {head : String}

theorem times_lockstep (hR : R.Kept g kind) {piece : ω → m ω}
    {piece' : String → Dialogue String}
    (hp : ∀ out t, R.ready head out t →
      Lockstep (R.opened head) (dialogue (piece out)) (piece' t))
    {n : Nat} {out : ω} {t : String} (h : R.opened head out t) :
    Lockstep (R.opened head) (dialogue (times piece n out)) (times piece' n t) := by
  induction n generalizing out t with
  | zero =>
      rw [times, dialogue_pure]
      exact .done h
  | succ n ih =>
      rw [times, dialogue_bind]
      exact (hp _ _ (hR.space _ _ _ h)).bind fun _ _ h => ih h

theorem nested_lockstep (hR : R.Kept g kind) {one : m ω} {one' : Dialogue String}
    (h1 : Lockstep (R.value head) (dialogue one) one') {layers : Nat} {out : ω} {t : String}
    (h : R.ready head out t) :
    Lockstep (R.opened head) (dialogue (nested one layers out)) (nested one' layers t) := by
  induction layers generalizing out t with
  | zero =>
      rw [nested, dialogue_bind]
      refine h1.bind fun v u hv => ?_
      rw [dialogue_pure]
      exact .done (hR.value _ _ _ _ _ h hv)
  | succ layers ih =>
      rw [nested, dialogue_bind, dialogue_ask]
      refine .question_bind _ fun count => ?_
      rw [dialogue_bind]
      refine (times_lockstep hR (fun _ _ => ih) (hR.brace _ _ _ h)).bind fun inner u hi => ?_
      rw [dialogue_pure]
      exact .done (hR.unbrace _ _ _ hi)

theorem arguments_lockstep (hR : R.Kept g kind) {one : Argument → m ω}
    {one' : Argument → Dialogue String} {all args : List Argument} (hkind : kind (.form head all))
    (hall : ∀ a ∈ args, a ∈ all)
    (h1 : ∀ a ∈ args, Lockstep (R.value head) (dialogue (one a)) (one' a)) {out : ω} {t : String}
    (h : R.opened head out t) :
    Lockstep (R.opened head) (dialogue (arguments one args out)) (arguments one' args t) := by
  induction args generalizing out t with
  | nil =>
      rw [arguments, dialogue_pure]
      exact .done h
  | cons a args ih =>
      obtain ⟨ha, hall⟩ := List.forall_mem_cons.mp hall
      obtain ⟨ha1, h1⟩ := List.forall_mem_cons.mp h1
      have ih {out : ω} {t : String} (h : R.opened head out t) := ih hall h1 h
      unfold arguments
      split
      · exact ih h
      · have hready := hR.label _ _ hkind a ha _ _ (hR.space _ _ _ h)
        rw [dialogue_bind]
        exact (nested_lockstep hR ha1 hready).bind fun _ _ h => ih h

omit [Append ω] in
/-- Both write the words that an answer stands for. -/
theorem answer_lockstep {q : Question} {text : q.Answer → String}
    (h : ∀ a, R.rule (words (text a)) (text a)) :
    Lockstep R.rule (dialogue (ask q >>= fun a => pure (words (text a)) : m ω))
      (question q >>= fun a => pure (text a)) := by
  rw [dialogue_bind, dialogue_ask]
  refine .question_bind _ fun a => ?_
  rw [dialogue_pure]
  exact .done (h a)

theorem literal_lockstep (hR : R.Kept g kind) (p : Primitive) :
    Lockstep R.rule (dialogue (p.literal : m ω)) p.literal := by
  cases p with
  | int => exact answer_lockstep fun n => hR.literal .int _ (.int n)
  | dim => exact answer_lockstep fun n => hR.literal .dim _ (.dim n)
  | boolean => exact answer_lockstep fun b => hR.literal .boolean _ (.boolean b)
  | float => exact answer_lockstep fun x => hR.literal .float _ (.float x)

/-! ## Rules -/

/-- All alternatives of the rule are of the kind. -/
abbrev OfKind (kind : Clause → Prop) (r : Rule) : Prop :=
  ∀ c ∈ r.clauses, kind c

section

variable {b : Bounds} {expand : Rule → m ω} {expand' : Rule → Dialogue String}

/-- The rules of the grammar, one level further down. -/
abbrev InStep (R : Relations ω) (g : Grammar) (expand : Rule → m ω)
    (expand' : Rule → Dialogue String) : Prop :=
  ∀ r ∈ g.rules, Lockstep R.rule (dialogue (expand r)) (expand' r)

theorem item_lockstep (hR : R.Kept g kind) (he : InStep R g expand expand')
    {args : List Argument} (hkind : kind (.form head args)) (depth : Nat) {a : Argument}
    (ha : a ∈ args) :
    Lockstep (R.value head) (dialogue (item b g expand head depth a))
      (item b g expand' head depth a) := by
  unfold item
  split
  · rw [dialogue_fail]
    exact .fail
  · cases hc : Category.ofToken? a.token with
    | some c =>
        simp only [dialogue_pure]
        exact .done (hR.leaf head c)
    | none =>
        have hweak := hR.weak head args hkind a ha hc
        rcases hr : g.resolve a.token with _ | ⟨r, _ | _⟩
        · simp only [dialogue_pure]
          exact .done (hweak (by simp [hr]))
        · simp only
          split
          · rw [dialogue_fail]
            exact .fail
          · rw [dialogue_visit]
            have hrule := he r (Grammar.mem_rules_of_resolve_eq hr)
            exact hrule.mono fun v t h => hR.nested head v t h
        · simp only [dialogue_pure]
          exact .done (hweak (by simp [hr]))

theorem form_lockstep (hR : R.Kept g kind) (he : InStep R g expand expand')
    {args : List Argument} (hkind : kind (.form head args)) (depth : Nat) :
    Lockstep R.rule (dialogue (form b g expand head args depth))
      (form b g expand' head args depth) := by
  unfold form
  split
  · rw [dialogue_fail]
    exact .fail
  · rw [dialogue_bind, dialogue_hold]
    refine (Lockstep.refl (fun _ => rfl) (select args depth)).bind (R := Eq) ?_
    rintro kept _ rfl
    rw [dialogue_bind]
    have hitems : ∀ a ∈ marked args kept, Lockstep (R.value head)
        (dialogue (item b g expand head depth a)) (item b g expand' head depth a) :=
      fun a ha => item_lockstep hR he hkind depth (mem_of_mem_marked ha)
    have harguments := arguments_lockstep hR hkind (fun a => mem_of_mem_marked) hitems
      (hR.head head args hkind)
    refine harguments.bind fun out t h => ?_
    rw [dialogue_pure]
    exact .done (hR.close _ _ _ h)

theorem clause_lockstep (hR : R.Kept g kind) (he : InStep R g expand expand') {c : Clause}
    (hc : kind c) (depth : Nat) :
    Lockstep R.rule (dialogue (clause b g expand depth c)) (clause b g expand' depth c) := by
  cases c with
  | terminal text =>
      rw [clause, dialogue_pure]
      exact .done (hR.terminal text hc)
  | reference target =>
      simp only [clause]
      rcases hr : g.resolve target with _ | ⟨r, _ | _⟩
      · simp only [dialogue_fail]
        exact .fail
      · simp only
        split
        · rw [dialogue_fail]
          exact .fail
        · rw [dialogue_visit]
          exact he r (Grammar.mem_rules_of_resolve_eq hr)
      · simp only [dialogue_fail]
        exact .fail
  | form head args => exact form_lockstep hR he hc depth

theorem alternative_lockstep (hR : R.Kept g kind) (he : InStep R g expand expand') {r : Rule}
    (hr : OfKind kind r) (depth : Nat) :
    Lockstep R.rule (dialogue (alternative b g expand r depth))
      (alternative b g expand' r depth) := by
  unfold alternative
  cases hc : r.clauses with
  | nil =>
      simp only [dialogue_fail]
      exact .fail
  | cons first others =>
      rw [dialogue_bind, dialogue_ask]
      refine .question_bind _ fun i => clause_lockstep hR he (hr _ ?_) depth
      rw [hc]
      exact List.get_mem _ _

theorem step_lockstep (hR : R.Kept g kind) (he : InStep R g expand expand') {r : Rule}
    (hr : OfKind kind r) (depth : Nat) :
    Lockstep R.rule (dialogue (step b g expand r depth)) (step b g expand' r depth) := by
  unfold step
  split
  · rw [dialogue_fail]
    exact .fail
  · rw [dialogue_visit, visit_dialogue]
    cases Primitive.ofName? r.name with
    | none => exact alternative_lockstep hR he hr depth
    | some p =>
        rw [dialogue_bind, dialogue_ask]
        refine .question_bind _ fun exits => ?_
        cases exits
        · exact alternative_lockstep hR he hr depth
        · exact literal_lockstep hR p

end

theorem within_lockstep (hR : R.Kept g kind) (hg : ∀ r ∈ g.rules, OfKind kind r) (b : Bounds)
    {r : Rule} (hr : OfKind kind r) (levels depth : Nat) :
    Lockstep R.rule (dialogue (within b g levels r depth : m ω)) (within b g levels r depth) := by
  induction levels generalizing r depth with
  | zero =>
      rw [within, dialogue_fail]
      exact .fail
  | succ levels ih =>
      exact step_lockstep hR (fun inner hi => ih (hg inner hi) (depth + 1)) hr depth

/-- A completion asks what the completion to a text asks, fails where it fails, and what it writes
goes with the text. -/
theorem completion_lockstep (hR : R.Kept g kind) (hg : ∀ r ∈ g.rules, OfKind kind r)
    (b : Bounds) {r : Rule} (hr : OfKind kind r) (depth : Nat) :
    Lockstep R.rule (dialogue (completion b g r depth : m ω)) (completeBy b g r depth) :=
  within_lockstep hR hg b hr _ depth

end

end GameGrammar.Completion

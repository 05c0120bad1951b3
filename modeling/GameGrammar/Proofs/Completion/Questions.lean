import GameGrammar.Completion.Generate
import GameGrammar.Proofs.Completion.Arguments
import GameGrammar.Proofs.Completion.Selection
import GameGrammar.Proofs.Grammar.Build
import GameGrammar.Proofs.Grammar.Resolve

/-! # What completion asks

A policy may rely on the questions that it is asked: there is something to choose from, and ranges,
depths and numbers of arguments are what they should be. Completion sees to that by itself, as a
policy does not look at a question twice. -/

namespace GameGrammar

/-! ## Questions of a dialogue -/

/-- The questions that a record tells of. -/
def asked (log : List Event) : List Question :=
  log.filterMap fun
    | .answered q _ => some q
    | .reseeded _ => none

namespace Dialogue

variable {α β σ : Type} {P Q : Question → Prop}

/-- Whatever the answers are, each question has the property. -/
inductive Asks (P : Question → Prop) : Dialogue α → Prop where
  | done (value : α) : Asks P (.done value)
  | fail : Asks P .fail
  | ask (q : Question) {next : q.Answer → Dialogue α} (hq : P q) (h : ∀ a, Asks P (next a)) :
      Asks P (.ask q next)

theorem asks_question {q : Question} (hq : P q) : (question q).Asks P :=
  .ask q hq fun a => .done a

theorem Asks.bind {d : Dialogue α} {k : α → Dialogue β} (hd : d.Asks P)
    (hk : ∀ a, (k a).Asks P) : (d >>= k).Asks P := by
  induction hd with
  | done value => exact hk value
  | fail => exact .fail
  | ask q hq _ ih => exact .ask q hq ih

theorem Asks.mono {d : Dialogue α} (hd : d.Asks P) (hPQ : ∀ q, P q → Q q) : d.Asks Q := by
  induction hd with
  | done value => exact .done value
  | fail => exact .fail
  | ask q hq _ ih => exact .ask q (hPQ q hq) ih

/-- A policy is asked nothing else, in any run. -/
theorem Asks.recorded {d : Dialogue α} (hd : d.Asks P) (p : Policy σ) (s : σ)
    (earlier : List Event) :
    ∀ q ∈ asked (d.run p.recorded (s, earlier)).2.2, q ∈ asked earlier ∨ P q := by
  induction hd generalizing s earlier with
  | done value => exact fun q hq => .inl hq
  | fail => exact fun q hq => .inl hq
  | ask first hfirst _ ih =>
      intro q hq
      rcases ih _ _ _ q hq with hmem | hP
      · rcases List.mem_cons.mp hmem with rfl | hmem
        · exact .inr hfirst
        · exact .inl hmem
      · exact .inr hP

end Dialogue

/-! ## Proper questions -/

/-- The arguments of some form among the alternatives of the rules. -/
def Listed (rules : List Rule) (args : List Argument) : Prop :=
  ∃ r ∈ rules, ∃ head, .form head args ∈ r.clauses

namespace Question

/-- What is asked about the arguments of a form at some depth. -/
def Selects (args : List Argument) (depth : Nat) : Question → Prop
  | .orGroup argCount => argCount = args.length ∧ 2 ≤ argCount
  | .drop d => d = depth
  | _ => False

/-- What can be asked while some rules are completed. Any answer about a group, counted round and
round, is the position of an argument. -/
def Proper (rules : List Rule) : Question → Prop
  | .rule candidates =>
    2 ≤ candidates.length ∧ (candidates.map (·.name)).Nodup ∧ ∀ r ∈ candidates, r ∈ rules
  | .clause clauses => clauses ≠ [] ∧ ∃ r ∈ rules, r.clauses = clauses
  | .integer low high => (low, high) = (-10, 1000) ∨ (low, high) = (0, 20)
  | .float low high => low = -10.0 ∧ high = 1000.0
  | .orGroup argCount =>
    2 ≤ argCount ∧ ∃ args, Listed rules args ∧ argCount = args.length ∧
      ∀ answer, answer % argCount < args.length
  | .drop depth => depth ≤ 100
  | .exit | .boolean | .itemCount => True

theorem Selects.proper {args : List Argument} {depth : Nat} {q : Question}
    (h : q.Selects args depth) {rules : List Rule} (hargs : Listed rules args)
    (hd : depth ≤ 100) : q.Proper rules := by
  cases q with
  | orGroup argCount =>
      obtain ⟨rfl, htwo⟩ := h
      have hpos : 0 < args.length := by omega
      exact ⟨htwo, args, hargs, rfl, fun answer => Nat.mod_lt answer hpos⟩
  | drop d =>
      obtain rfl : d = depth := h
      exact hd
  | _ => exact h.elim

end Question

namespace Completion

open Dialogue

/-! ## Selecting arguments -/

theorem length_positions_le (args : List Argument) (group : UInt32) :
    (positions args group).length ≤ args.length := by
  calc (positions args group).length
      _ ≤ args.zipIdx.length := List.length_filterMap_le _ _
      _ = args.length := List.length_zipIdx

theorem settle_asks {args : List Argument} (depth draws : Nat) {members : List Nat}
    (h : members.length ≤ args.length) :
    (settle args.length draws members).Asks (Question.Selects args depth) := by
  induction draws generalizing members with
  | zero =>
      match members with
      | [] => exact .done []
      | [m] => exact .done [m]
      | m :: _ :: _ => exact .done [m]
  | succ draws ih =>
      match members with
      | [] => exact .done []
      | [m] => exact .done [m]
      | m :: n :: rest =>
          have htwo : 2 ≤ args.length := by
            simp only [List.length_cons] at h
            omega
          have hask : (Question.orGroup args.length).Selects args depth := ⟨rfl, htwo⟩
          exact (asks_question hask).bind fun i => ih (Nat.le_trans List.length_erase_le h)

theorem settleAll_asks (args : List Argument) (depth : Nat) (groups : List UInt32) :
    (settleAll args groups).Asks (Question.Selects args depth) := by
  induction groups with
  | nil => exact .done []
  | cons group groups ih =>
      have hgroup := settle_asks depth maxGroupDraws (length_positions_le args group)
      exact hgroup.bind fun kept => ih.bind fun others => .done _

theorem keeps_asks (args : List Argument) (survivors : List Nat) (depth : Nat) (a : Argument)
    (i : Nat) : (keeps survivors depth a i).Asks (Question.Selects args depth) := by
  have hdrop : (Question.drop depth).Selects args depth := rfl
  unfold keeps
  by_cases hgroup : 0 < a.group
  · rw [if_pos hgroup]
    exact .done _
  · rw [if_neg hgroup]
    by_cases hoptional : a.optional = true
    · rw [if_pos hoptional]
      exact (asks_question hdrop).bind fun dropped => .done _
    · rw [if_neg hoptional]
      exact .done _

theorem marks_asks (args : List Argument) (survivors : List Nat) (depth : Nat)
    (rest : List (Argument × Nat)) :
    (marks survivors depth rest).Asks (Question.Selects args depth) := by
  induction rest with
  | nil => exact .done []
  | cons x rest ih =>
      exact (keeps_asks args survivors depth _ _).bind fun kept => ih.bind fun others => .done _

theorem select_asks (args : List Argument) (depth : Nat) :
    (select args depth).Asks (Question.Selects args depth) :=
  (settleAll_asks args depth _).bind fun survivors => marks_asks args survivors depth _

/-! ## Writing arguments -/

section

variable {P : Question → Prop}

theorem asks_sequential : Sequential (m := Dialogue) fun _ d => d.Asks P where
  pure := .done
  bind := Asks.bind

theorem item_asks {b : Bounds} {g : Grammar} {expand : Rule → Dialogue String}
    (he : ∀ inner ∈ g.rules, (expand inner).Asks P) (head : String) (depth : Nat)
    (a : Argument) : (item b g expand head depth a).Asks P := by
  unfold item
  split
  · exact .fail
  · split
    · exact .done _
    · split
      · next inner hinner =>
          split
          · exact .fail
          · exact he inner (Grammar.mem_rules_of_resolve_eq hinner)
      · exact .done _

end

theorem literal_asks (p : Primitive) (rules : List Rule) :
    (p.literal : Dialogue String).Asks (Question.Proper rules) := by
  cases p with
  | int => exact (asks_question (.inl rfl)).bind fun n => .done _
  | dim => exact (asks_question (.inr rfl)).bind fun n => .done _
  | boolean => exact (asks_question trivial).bind fun b => .done _
  | float => exact (asks_question ⟨rfl, rfl⟩).bind fun x => .done _

/-! ## Rules -/

section

variable {g : Grammar} {expand : Rule → Dialogue String} {rules : List Rule} {depth : Nat}

theorem form_asks (he : ∀ inner ∈ g.rules, (expand inner).Asks (Question.Proper rules))
    (head : String) {args : List Argument} (hargs : Listed rules args) :
    (form {} g expand head args depth).Asks (Question.Proper rules) := by
  unfold form
  split
  · exact .fail
  · next hdepth =>
      have hd : depth ≤ 100 := by simpa [Bounds.formTooDeep] using hdepth
      have hselect := (select_asks args depth).mono fun q hq => hq.proper hargs hd
      refine hselect.bind fun kept => ?_
      have hitems : ∀ a ∈ marked args kept,
          (item {} g expand head depth a).Asks (Question.Proper rules) :=
        fun a _ => item_asks he head depth a
      have harguments := asks_sequential.arguments hitems (asks_question trivial) ("(" ++ head)
      exact harguments.bind fun out => .done _

theorem clause_asks (he : ∀ inner ∈ g.rules, (expand inner).Asks (Question.Proper rules))
    {r : Rule} (hr : r ∈ rules) {c : Clause} (hc : c ∈ r.clauses) :
    (clause {} g expand depth c).Asks (Question.Proper rules) := by
  cases c with
  | terminal text => exact .done text
  | reference target =>
      simp only [clause]
      split
      · next inner hinner =>
          split
          · exact .fail
          · exact he inner (Grammar.mem_rules_of_resolve_eq hinner)
      · exact .fail
  | form head args => exact form_asks he head ⟨r, hr, head, hc⟩

theorem alternative_asks (he : ∀ inner ∈ g.rules, (expand inner).Asks (Question.Proper rules))
    {r : Rule} (hr : r ∈ rules) :
    (alternative {} g expand r depth).Asks (Question.Proper rules) := by
  unfold alternative
  split
  · exact .fail
  · next first others hclauses =>
      have hask : (Question.clause (first :: others)).Proper rules := ⟨by simp, r, hr, hclauses⟩
      refine (asks_question hask).bind fun i => clause_asks he hr ?_
      rw [hclauses]
      exact List.get_mem _ _

theorem step_asks (he : ∀ inner ∈ g.rules, (expand inner).Asks (Question.Proper rules))
    {r : Rule} (hr : r ∈ rules) : (step {} g expand r depth).Asks (Question.Proper rules) := by
  unfold step
  split
  · exact .fail
  · rw [Medium.visit_dialogue]
    split
    · exact alternative_asks he hr
    · next p _ =>
        refine (asks_question trivial).bind fun exit => ?_
        split
        · exact literal_asks p rules
        · exact alternative_asks he hr

end

theorem within_asks {g : Grammar} {rules : List Rule} (hg : ∀ r ∈ g.rules, r ∈ rules)
    (levels : Nat) {r : Rule} (hr : r ∈ rules) (depth : Nat) :
    (within {} g levels r depth : Dialogue String).Asks (Question.Proper rules) := by
  induction levels generalizing r depth with
  | zero => exact .fail
  | succ levels ih => exact step_asks (fun inner hinner => ih (hg inner hinner) _) hr

/-- The rule may be any one: what is asked is about its own alternatives or those of the grammar. -/
theorem complete_asks (g : Grammar) (r : Rule) (depth : Nat) :
    (complete g r depth).Asks (Question.Proper (r :: g.rules)) :=
  within_asks (fun _ hr => List.mem_cons_of_mem r hr) _ List.mem_cons_self depth

end Completion

/-! ## Start symbols -/

namespace Grammar

theorem nodup_resolve (g : Grammar) (name : String) :
    ((g.resolve name).map (·.name)).Nodup := by
  unfold resolve
  split
  · exact List.nodup_nil
  · simp only
    split
    · exact List.nodup_singleton _
    · split
      · exact List.nodup_singleton _
      · exact g.wellFormed.distinct.sublist (List.filter_sublist.map _)

theorem start_asks {g : Grammar} {symbol : String} {d : Dialogue String}
    (h : g.start? symbol = some d) : d.Asks (Question.Proper g.rules) := by
  have hcomplete (r : Rule) (hr : r ∈ g.resolve symbol) :
      (Completion.complete g r 0).Asks (Question.Proper g.rules) :=
    Completion.within_asks (fun _ hr => hr) _ (mem_rules_of_mem_resolve hr) 0
  rcases hs : g.resolve symbol with _ | ⟨first, _ | ⟨second, others⟩⟩
  · simp [start?, hs] at h
  · simp only [start?, hs, Option.some.injEq] at h
    exact h ▸ hcomplete first (by simp [hs])
  · simp only [start?, hs, Option.some.injEq] at h
    have hask : (Question.rule (first :: second :: others)).Proper g.rules := by
      refine ⟨by simp, hs ▸ g.nodup_resolve symbol, fun r hr => ?_⟩
      exact mem_rules_of_mem_resolve (hs ▸ hr)
    rw [← h]
    refine (Dialogue.asks_question hask).bind fun i => hcomplete _ ?_
    rw [hs]
    exact List.get_mem _ _

end Grammar

end GameGrammar

import GameGrammar.Proofs.Snapshot.RoundTrip

/-! # Snapshots that are refused

Not every grammar that can be built can be restored: a reference to nothing and an argument without
a token stop no builder, but they do stop the reader of a snapshot. -/

namespace GameGrammar.Snapshot

/-! ## Flaws -/

/-- An alternative has the flaw that it names nothing where it must name a rule. -/
inductive HasFlaw (rule : String) : Clause → Flaw → Prop where
  | reference : HasFlaw rule (.reference "") (.emptyReference rule)
  | argument {head : String} {args : List Argument} (h : ∃ a ∈ args, a.token = "") :
      HasFlaw rule (.form head args) (.emptyToken rule)

theorem clauseFlaw?_eq_some_iff {rule : String} {c : Clause} {flaw : Flaw} :
    clauseFlaw? rule c = some flaw ↔ HasFlaw rule c flaw := by
  constructor
  · intro h
    cases c with
    | terminal text => cases h
    | reference target =>
        obtain ⟨rfl, hflaw⟩ := Option.ite_none_right_eq_some.mp h
        cases hflaw
        exact .reference
    | form head args =>
        obtain ⟨hany, hflaw⟩ := Option.ite_none_right_eq_some.mp h
        cases hflaw
        exact .argument (by simpa using hany)
  · intro h
    cases h with
    | reference => rfl
    | argument hany => exact if_pos (by simpa using hany)

/-- The first alternative that does not go by a name has this flaw. -/
def FirstFlaw (rules : List Rule) (flaw : Flaw) : Prop :=
  ∃ before r after, rules = before ++ r :: after ∧ (∀ q ∈ before, q.Named) ∧
    ∃ earlier c later, r.clauses = earlier ++ c :: later ∧ (∀ d ∈ earlier, d.Named) ∧
      HasFlaw r.name c flaw

/-- The counts of a payload are right, so that only its alternatives may be flawed. -/
theorem flaw?_payloadOf_eq (g : Grammar) (source : Option String) :
    flaw? (payloadOf g source) =
      g.rules.findSome? fun r => r.clauses.findSome? (clauseFlaw? r.name) := by
  have hcount : ¬(payloadOf g source).ruleCount ≠ (payloadOf g source).rules.length :=
    fun h => h rfl
  have hclauses :
      ¬(payloadOf g source).clauseCount ≠ totalClauses (payloadOf g source).rules :=
    fun h => h rfl
  rw [flaw?, if_neg hcount, if_neg hclauses]
  rfl

theorem flaw?_payloadOf_eq_some_iff {g : Grammar} {flaw : Flaw} (source : Option String) :
    flaw? (payloadOf g source) = some flaw ↔ FirstFlaw g.rules flaw := by
  rw [flaw?_payloadOf_eq, List.findSome?_eq_some_iff, FirstFlaw]
  simp only [List.findSome?_eq_some_iff, List.findSome?_eq_none_iff, clauseFlaw?_eq_some_iff,
    clauseFlaw?_eq_none_iff, Rule.Named]
  constructor
  · rintro ⟨before, r, after, hrules, ⟨earlier, c, later, hclauses, hc, hearlier⟩, hbefore⟩
    exact ⟨before, r, after, hrules, hbefore, earlier, c, later, hclauses, hearlier, hc⟩
  · rintro ⟨before, r, after, hrules, hbefore, earlier, c, later, hclauses, hearlier, hc⟩
    exact ⟨before, r, after, hrules, ⟨earlier, c, later, hclauses, hc, hearlier⟩, hbefore⟩

namespace FirstFlaw

variable {g : Grammar} {flaw flaw' : Flaw}

theorem not_named (h : FirstFlaw g.rules flaw) : ¬ g.Named := by
  intro hn
  have hflaw := (flaw?_payloadOf_eq_some_iff none).mpr h
  rw [flaw?_payloadOf hn] at hflaw
  cases hflaw

theorem unique (h : FirstFlaw g.rules flaw) (h' : FirstFlaw g.rules flaw') : flaw = flaw' := by
  have hflaw := (flaw?_payloadOf_eq_some_iff none).mpr h
  rw [(flaw?_payloadOf_eq_some_iff none).mpr h'] at hflaw
  exact (Option.some.inj hflaw).symm

end FirstFlaw

theorem named_or_flaw (g : Grammar) : g.Named ∨ ∃ flaw, FirstFlaw g.rules flaw := by
  cases h : flaw? (payloadOf g none) with
  | some flaw => exact .inr ⟨flaw, (flaw?_payloadOf_eq_some_iff none).mp h⟩
  | none => exact .inl (flaw?_eq_none_iff.mp h).2.2

/-! ## What is refused -/

variable {g : Grammar} {source : Option String}

/-- What a snapshot of a grammar is refused for is found in the grammar. -/
theorem decode_encode_eq (hsize : g.size < 2 ^ 32)
    (hlen : (payloadOf g source).write.length < 2 ^ 32) :
    decode (encode g source) = (restore (payloadOf g source)).mapError .invalid := by
  have hcontents := contents_encode g source (by omega) (by omega) []
  rw [List.append_nil] at hcontents
  simp only [decode, hcontents, bind, Except.bind]

theorem restore_payloadOf_of_flaw {flaw : Flaw} (h : FirstFlaw g.rules flaw) :
    restore (payloadOf g source) = .error flaw := by
  rw [restore, (flaw?_payloadOf_eq_some_iff source).mpr h]

/-- A snapshot of a grammar gives the grammar back if all of its references and arguments go by a
name. If not, it is refused for the first that does not. -/
theorem decode_encode_iff (g : Grammar) (source : Option String) (hsize : g.size < 2 ^ 32)
    (hlen : (payloadOf g source).write.length < 2 ^ 32) :
    (decode (encode g source) = .ok g ↔ g.Named) ∧
    ∀ refusal, decode (encode g source) = .error refusal ↔
      ∃ flaw, refusal = .invalid flaw ∧ FirstFlaw g.rules flaw := by
  rw [decode_encode_eq hsize hlen]
  rcases named_or_flaw g with hn | ⟨flaw, hf⟩
  · rw [restore_payloadOf hn]
    refine ⟨iff_of_true rfl hn, fun refusal => iff_of_false nofun ?_⟩
    rintro ⟨flaw, -, hf⟩
    exact hf.not_named hn
  · rw [restore_payloadOf_of_flaw hf]
    refine ⟨iff_of_false nofun hf.not_named, fun refusal => ?_⟩
    constructor
    · intro h
      cases h
      exact ⟨flaw, rfl, hf⟩
    · rintro ⟨flaw', rfl, hf'⟩
      rw [hf.unique hf']
      rfl

/-- A rule that refers to nothing. -/
def nameless : Grammar where
  rules := [⟨"<a>", [.reference ""]⟩]
  sound := by decide

theorem decode_encode_iff_nameless :
    nameless.size < 2 ^ 32 ∧ (payloadOf nameless none).write.length < 2 ^ 32 ∧
      ¬ nameless.Named ∧ decode (encode nameless none) ≠ .ok nameless := by
  have hsize : nameless.size < 2 ^ 32 := by decide
  have hlen : (payloadOf nameless none).write.length < 2 ^ 32 := by decide +kernel
  have hn : ¬ nameless.Named := fun h =>
    h _ (List.mem_singleton_self _) _ (List.mem_singleton_self _) rfl
  exact ⟨hsize, hlen, hn, mt (decode_encode_iff nameless none hsize hlen).1.mp hn⟩

/-- It can be built, and its snapshot is refused. -/
theorem nameless_refused :
    Grammar.ofRules [⟨"<a>", [.reference ""]⟩] = .ok nameless ∧
      decode (encode nameless none) = .error (.invalid (.emptyReference "<a>")) := by
  refine ⟨ofRules_rules nameless, ?_⟩
  rw [decode_encode_eq (by decide) (by decide +kernel)]
  rfl

end GameGrammar.Snapshot

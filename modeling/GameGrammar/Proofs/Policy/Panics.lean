import GameGrammar.Policy.Fixed
import GameGrammar.Proofs.Completion.Questions
import GameGrammar.Proofs.Completion.Replay
import GameGrammar.Proofs.Policy.Drawing

/-! # Runs that do not panic

A random policy takes the questions as they come, so that its safety rests on what completion asks.
A run of a policy with valid odds comes to an end, whatever it draws. -/

namespace GameGrammar

/-! ## Playing -/

section

variable {σ α : Type}

/-- Holds the dialogue with a policy that may panic. -/
def Dialogue.play (answer : (q : Question) → StateT σ Option q.Answer) :
    Dialogue α → StateT σ Option (Option α)
  | .done value => return some value
  | .fail => return none
  | .ask q next => do
    let a ← answer q
    (next a).play answer

/-- An attempt at a text with a policy that may panic. -/
def Grammar.play (g : Grammar) (answer : (q : Question) → StateT σ Option q.Answer)
    (seeded : UInt64 → σ) (symbol : String) (seed : UInt64) :
    StateT σ Option (Except UnknownSymbol (Option String)) :=
  match (g.start? symbol : Option (Dialogue String)) with
  | none => return .error ⟨symbol⟩
  | some d => do
    set (seeded seed)
    return .ok (← d.play answer)

end

/-! ## Safe runs -/

section

variable {σ α β : Type}

theorem isSome_bind {x : StateT σ Option α} {k : α → StateT σ Option β} {s : σ}
    (hx : (x s).isSome) (hk : ∀ a s, (k a s).isSome) : ((x >>= k) s).isSome := by
  obtain ⟨⟨a, next⟩, ha⟩ := Option.isSome_iff_exists.mp hx
  have hbind : (x >>= k) s = (x s).bind fun (a, next) => k a next := rfl
  rw [hbind, ha]
  exact hk a next

/-- A dialogue is safe from panics if those questions are that it can ask. -/
theorem Dialogue.Asks.isSome_play {P : Question → Prop} {d : Dialogue α} (hd : d.Asks P)
    {answer : (q : Question) → StateT σ Option q.Answer}
    (hanswer : ∀ q, P q → ∀ s, (answer q s).isSome) (s : σ) : (d.play answer s).isSome := by
  induction hd generalizing s with
  | done value => rfl
  | fail => rfl
  | ask q hq _ ih => exact isSome_bind (hanswer q hq s) ih

theorem Grammar.isSome_play (g : Grammar) {answer : (q : Question) → StateT σ Option q.Answer}
    (hanswer : ∀ q, q.Proper g.rules → ∀ s, (answer q s).isSome) (seeded : UInt64 → σ)
    (symbol : String) (seed : UInt64) (s : σ) :
    (g.play answer seeded symbol seed s).isSome := by
  by_cases h : g.resolve symbol = []
  · simp only [play, start?_eq_none.mpr h]
    rfl
  · obtain ⟨d, hd⟩ := exists_start h
    simp only [play, hd]
    refine isSome_bind rfl fun _ s => isSome_bind ?_ fun _ _ => rfl
    exact (start_asks hd).isSome_play hanswer s

/-- With valid odds, a proper question is answered without a panic. -/
theorem Odds.isSome_play {o : Odds ℚ} (ho : o.error? = none) {D : Drawing ℚ σ} (hD : D.Sound)
    {rules : List Rule} {q : Question} (hq : q.Proper rules) (s : σ) : (o.play D q s).isSome := by
  obtain ⟨hprob, hitems⟩ := error?_eq_none_iff.mp ho
  cases q with
  | rule candidates =>
      have hpos : 0 < candidates.length := by
        have htwo := hq.1
        omega
      exact hD.isSome_position hpos s
  | clause clauses => exact hD.isSome_position (List.length_pos_of_ne_nil hq.1) s
  | exit => exact hD.chance _ (hprob .exit).1 (hprob .exit).2 s
  | integer low high =>
      have hbound : low ≤ max high low := by
        by_cases h : high ≤ low
        · have hmax : max high low = low := if_pos h
          rw [hmax]
          exact Int32.le_refl low
        · have hmax : max high low = high := if_neg h
          rw [hmax]
          exact (Int32.le_total high low).resolve_left h
      exact hD.integer _ _ hbound s
  | boolean => exact hD.coin s
  | float low high =>
      obtain ⟨rfl, rfl⟩ := hq
      simp only [play]
      split
      · rfl
      · exact hD.float s
  | orGroup argCount =>
      obtain ⟨i, next, hi, -⟩ := hD.index (max argCount 1) (by omega) s
      exact Option.isSome_iff_exists.mpr ⟨_, hi⟩
  | drop depth =>
      obtain ⟨p, hp, hlow, hhigh⟩ := o.dropAt_isProbability (D.number depth)
      simp only [play, hp]
      exact hD.chance p hlow hhigh s
  | itemCount => exact isSome_bind (hD.count _ _ hitems s) fun _ _ => rfl

end

/-! ## Runs of the policy itself -/

theorem Dialogue.run_of_play {σ α : Type} {answer : (q : Question) → StateT σ Option q.Answer}
    {p : Policy σ} (hp : ∀ q s x, answer q s = some x → p.answer q s = x) {d : Dialogue α} {s : σ}
    {x : Option α × σ} (h : d.play answer s = some x) : d.run p s = x := by
  induction d generalizing s with
  | done value => exact Option.some.inj h
  | fail => exact Option.some.inj h
  | ask q next ih =>
      obtain ⟨⟨a, s'⟩, ha, hx⟩ := Option.bind_eq_some_iff.mp h
      rw [run, hp q s _ ha]
      exact ih a hx

/-- A generation that does not panic is the generation of the policy with these odds. -/
theorem Grammar.generate_of_play {g : Grammar} {o : Odds Float} {symbol : String} {seed : UInt64}
    {s : Random.Source} {x : Except UnknownSymbol (Option String) × Random.Source}
    (h : g.play (o.play .floats) .seeded symbol seed s = some x) :
    g.generate o.policy symbol seed s = x := by
  by_cases hstart : g.resolve symbol = []
  · simp only [play, start?_eq_none.mpr hstart] at h
    rw [generate_of_unknown hstart]
    exact Option.some.inj h
  · obtain ⟨d, hd⟩ := exists_start hstart
    simp only [play, hd] at h
    obtain ⟨⟨text, next⟩, htext, hx⟩ := Option.bind_eq_some_iff.mp h
    have hrun : d.run o.policy (.seeded seed) = (text, next) :=
      Dialogue.run_of_play (fun q s x => Odds.draw_of_play) htext
    have hseed : o.policy.reseed seed s = .seeded seed := rfl
    rw [generate_of_start hd, hseed, hrun]
    exact Option.some.inj hx

/-! ## Proper questions and safe runs -/

open Completion in
/-- In every run, of a policy of any kind, all questions are proper: while a rule is completed, be
it one of the grammar or not, while a text is generated, and while the arguments of one form are
selected. A random policy that plays by the standard odds or by others that are valid therefore
never panics, however it draws. -/
theorem runs_proper (g : Grammar) :
    (∀ {σ : Type} (p : Policy σ) (s : σ),
      (∀ r depth, ∀ q ∈ asked ((complete g r depth).run p.recorded (s, [])).2.2,
        q.Proper (r :: g.rules)) ∧
      (∀ symbol seed, ∀ q ∈ asked (g.generate p.recorded symbol seed (s, [])).2.2,
        q.Proper g.rules) ∧
      ∀ args depth, ∀ q ∈ asked ((select args depth).run p.recorded (s, [])).2.2,
        q.Selects args depth) ∧
    ∀ o : Odds ℚ, o = .written ∨ o.error? = none →
      ∀ {σ : Type} (D : Drawing ℚ σ), D.Sound → ∀ s,
        (∀ r depth, ((complete g r depth).play (o.play D) s).isSome) ∧
        ∀ symbol seed, (g.play (o.play D) D.seeded symbol seed s).isSome := by
  refine ⟨fun p s => ⟨?_, ?_, ?_⟩, fun o ho σ D hD s => ?_⟩
  · intro r depth q hq
    exact ((complete_asks g r depth).recorded p s [] q hq).resolve_left List.not_mem_nil
  · intro symbol seed q hq
    by_cases h : g.resolve symbol = []
    · simp [Grammar.generate_of_unknown h, asked] at hq
    · obtain ⟨d, hd⟩ := Grammar.exists_start h
      rw [Grammar.generate_of_start hd, Policy.recorded_reseed] at hq
      exact ((Grammar.start_asks hd).recorded p _ _ q hq).resolve_left List.not_mem_nil
  · intro args depth q hq
    exact ((select_asks args depth).recorded p s [] q hq).resolve_left List.not_mem_nil
  · have hvalid : o.error? = none := by
      rcases ho with rfl | ho
      · exact Odds.error?_written
      · exact ho
    have hanswer (rules : List Rule) (q : Question) (hq : q.Proper rules) (s : σ) :
        (o.play D q s).isSome := Odds.isSome_play hvalid hD hq s
    constructor
    · intro r depth
      exact (complete_asks g r depth).isSome_play (hanswer _) s
    · intro symbol seed
      exact g.isSome_play (hanswer _) D.seeded symbol seed s

/-- True with probability `p`, which a word of the source is compared with. -/
def exactChance (p : ℚ) : Random.Draw Bool := do
  if p = 1 then return true
  else return decide (((← Random.word64).toNat : ℤ) < (p * 18446744073709551616).floor)

/-- A stall with a group and an optional argument. -/
def eastStall : Rule where
  name := "<east.stall>"
  clauses := [.form "sell" [{ token := "int", optional := true },
    { token := "<int>", group := 1 }, { token := "float", group := 1 }]]

/-- A stall that goes by the same name. -/
def westStall : Rule where
  name := "<west.stall>"
  clauses := [.terminal "closed"]

def market : Grammar where
  rules := [eastStall, westStall, ⟨"<int>", [.terminal "many"]⟩]
  sound := by decide

theorem runs_proper_market :
    asked (market.generate (FixedAnswers.policy {}).recorded "stall" 0 ((), [])).2.2 =
        [.clause [.terminal "many"], .exit, .drop 0, .orGroup 3, .clause eastStall.clauses,
          .rule [eastStall, westStall]] ∧
      (∀ q ∈ asked (market.generate (FixedAnswers.policy {}).recorded "stall" 0 ((), [])).2.2,
        q.Proper market.rules) ∧
      (Drawing.ofSource (fun depth => (depth : ℚ)) exactChance).Sound ∧
      (market.play (Odds.written.play (Drawing.ofSource (fun depth => (depth : ℚ)) exactChance))
        .seeded "stall" 7 (.seeded 0)).isSome := by
  have hsound := Drawing.ofSource_sound (fun depth => (depth : ℚ)) exactChance
  obtain ⟨hasked, hplayed⟩ := runs_proper market
  refine ⟨?_, ?_, hsound, ?_⟩
  · with_unfolding_all rfl
  · exact (hasked (FixedAnswers.policy {}) ()).2.1 "stall" 0
  · exact (hplayed .written (.inl rfl) _ hsound (.seeded 0)).2 "stall" 7

end GameGrammar

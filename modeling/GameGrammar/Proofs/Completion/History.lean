import GameGrammar.Proofs.Completion.Generation

/-! # Generation after other uses

A random policy begins anew with every seed. What a generator has been used for before, and what it
was first seeded with, is therefore of no account for what it generates. -/

namespace GameGrammar

variable {σ : Type}

/-! ## Uses of a generator -/

/-- What a generator can be asked to do, and what can be asked of its policy directly. -/
inductive Use where
  | generate (symbol : String) (seed : UInt64)
  | complete (r : Rule) (depth : Nat)
  | answer (q : Question)
  | reseed (seed : UInt64)

namespace Grammar

/-- The state of the policy after one use. -/
def afterUse (g : Grammar) (p : Policy σ) (s : σ) : Use → σ
  | .generate symbol seed => (g.generate p symbol seed s).2
  | .complete r depth => ((Completion.complete g r depth).run p s).2
  | .answer q => (p.answer q s).2
  | .reseed seed => p.reseed seed s

/-- The state of the policy after some uses, one after another. -/
def afterUses (g : Grammar) (p : Policy σ) (history : List Use) (s : σ) : σ :=
  history.foldl (g.afterUse p) s

/-- The results of one seed after another, and the state of the policy in the end. -/
def generateAll (g : Grammar) (p : Policy σ) (symbol : String) :
    List UInt64 → σ → List (Except UnknownSymbol (Option String)) × σ
  | [], s => ([], s)
  | seed :: seeds, s =>
    let (result, s) := g.generate p symbol seed s
    let (results, s) := generateAll g p symbol seeds s
    (result :: results, s)

/-! ## The past forgotten -/

section

variable {g : Grammar} {p : Policy σ} {symbol : String}

/-- Each seed has the result that it has with a policy in any other state. -/
theorem generateAll_forgetful (hp : p.Forgetful) (seeds : List UInt64) (s fresh : σ) :
    (g.generateAll p symbol seeds s).1 =
      seeds.map fun seed => (g.generate p symbol seed fresh).1 := by
  induction seeds generalizing s with
  | nil => rfl
  | cons seed seeds ih =>
      rw [generateAll, List.map_cons, ← ih (g.generate p symbol seed s).2,
        g.generate_forgetful hp fresh s]

/-- Seeds that are shared out to several generators have the results that one has with them all. -/
theorem generateAll_flatMap (hp : p.Forgetful) (shares : List (σ × List UInt64)) (s : σ) :
    (g.generateAll p symbol (shares.flatMap (·.2)) s).1 =
      shares.flatMap fun share => (g.generateAll p symbol share.2 share.1).1 := by
  rw [generateAll_forgetful hp _ s s, List.map_flatMap]
  congr 1
  funext share
  rw [generateAll_forgetful hp share.2 share.1 s]

end

/-- After any uses of a generator with a random policy, a symbol and a seed have the result that
they have with a policy of the same odds that is fresh from any other seed. One generator goes
through a list of seeds with the results that several have, each fresh from a seed of its own, that
go through parts of the list. -/
theorem generation_forgets (g : Grammar) (o : Odds Float) (symbol : String) :
    (∀ (history : List Use) (first other seed : UInt64),
      (g.generate o.policy symbol seed (g.afterUses o.policy history (.seeded first))).1 =
        (g.generate o.policy symbol seed (.seeded other)).1) ∧
    ∀ (first : UInt64) (shares : List (UInt64 × List UInt64)),
      (g.generateAll o.policy symbol (shares.flatMap (·.2)) (.seeded first)).1 =
        shares.flatMap fun share =>
          (g.generateAll o.policy symbol share.2 (.seeded share.1)).1 := by
  constructor
  · intro history first other seed
    exact generate_forgetful o.policy_forgetful _ _
  · intro first shares
    have h : (g.generateAll o.policy symbol _ (.seeded first)).1 = _ :=
      generateAll_flatMap o.policy_forgetful
        (shares.map fun share => (.seeded share.1, share.2)) (.seeded first)
    simpa only [List.flatMap_map] using h

end Grammar

end GameGrammar

import GameGrammar.Completion.Generate
import GameGrammar.Proofs.Completion.Correspondence

/-! # Completion with its weak markers kept apart

An outline is a completed text in which each weak marker still knows the token that it stands for.
Completion may write an outline in place of the text. -/

namespace GameGrammar

/-- Words of a completed text, or a weak marker. -/
inductive Stretch where
  | words (text : String)
  /-- The weak marker of an argument with this token. -/
  | weak (token : String)
  deriving DecidableEq

abbrev Outline :=
  List Stretch

def Stretch.text : Stretch → String
  | .words text => text
  | .weak _ => Completion.weakMarker

def Stretch.weakToken? : Stretch → Option String
  | .words _ => none
  | .weak token => some token

namespace Outline

/-- The completed text that the outline is of. -/
def spelling : Outline → String
  | [] => ""
  | stretch :: rest => stretch.text ++ spelling rest

/-- The tokens that the weak markers stand for, in the order of the text. -/
def weakTokens (o : Outline) : List String :=
  o.filterMap Stretch.weakToken?

@[simp] theorem spelling_nil : spelling [] = "" :=
  rfl

@[simp] theorem spelling_words (text : String) (o : Outline) :
    spelling (.words text :: o) = text ++ o.spelling :=
  rfl

@[simp] theorem spelling_weak (token : String) (o : Outline) :
    spelling (.weak token :: o) = Completion.weakMarker ++ o.spelling :=
  rfl

@[simp] theorem spelling_append (x y : Outline) :
    spelling (x ++ y) = x.spelling ++ y.spelling := by
  induction x with
  | nil => simp
  | cons stretch x ih => simp [spelling, ih, String.append_assoc]

@[simp] theorem weakTokens_nil : weakTokens [] = [] :=
  rfl

@[simp] theorem weakTokens_words (text : String) (o : Outline) :
    weakTokens (.words text :: o) = o.weakTokens :=
  rfl

@[simp] theorem weakTokens_weak (token : String) (o : Outline) :
    weakTokens (.weak token :: o) = token :: o.weakTokens :=
  rfl

@[simp] theorem weakTokens_append (x y : Outline) :
    weakTokens (x ++ y) = x.weakTokens ++ y.weakTokens :=
  List.filterMap_append

/-! ## Completion to an outline -/

open Completion

/-- A weak marker keeps the argument's token. -/
instance : Output Outline where
  words text := [.words text]
  weak token := [.weak token]

@[simp] theorem output_words (text : String) : (Output.words text : Outline) = [.words text] :=
  rfl

@[simp] theorem output_leaf (head : String) (c : Category) :
    (Output.leaf head c : Outline) = [.words c.marker] :=
  rfl

@[simp] theorem output_weak (token : String) : (Output.weak token : Outline) = [.weak token] :=
  rfl

/-- What comes of generating an outline, with the outline spelled out. -/
def spelled {σ : Type} :
    Except UnknownSymbol (Option Outline) × σ → Except UnknownSymbol (Option String) × σ
  | (outcome, s) => (outcome.map (Option.map spelling), s)

end Outline

namespace Grammar

/-- One attempt at an outline. -/
def generateOutline {σ : Type} (g : Grammar) (p : Policy σ) (symbol : String) (seed : UInt64)
    (s : σ) : Except UnknownSymbol (Option Outline) × σ :=
  g.produce p symbol seed s

/-- An argument of the grammar has this token. -/
def Uses (g : Grammar) (token : String) : Prop :=
  ∃ r ∈ g.rules, ∃ c ∈ r.clauses, ∃ a ∈ c.args, a.token = token

/-- The token of an argument that is neither a leaf category nor the name of exactly one rule. -/
structure Unsettled (g : Grammar) (token : String) : Prop where
  used : g.Uses token
  noLeaf : Category.ofToken? token = none
  notOne : (g.resolve token).length ≠ 1

end Grammar

namespace Outline

open Completion Dialogue

/-! ## The two completions in lockstep -/

/-- The outline is spelled as the text, and its weak markers stand for unsettled tokens. -/
def Spells (g : Grammar) (o : Outline) (text : String) : Prop :=
  text = o.spelling ∧ ∀ token ∈ o.weakTokens, g.Unsettled token

/-- Words are spelled as they are, and what is put together is spelled one after another. -/
theorem spells_kept (g : Grammar) :
    (Relations.everywhere (Spells g)).Kept g fun c => ∀ a ∈ c.args, g.Uses a.token := by
  refine Relations.kept_everywhere (fun t => ⟨by simp, by simp⟩) ?_
    (fun head c => ⟨by simp, by simp⟩) ?_
  · rintro v w _ _ ⟨rfl, hv⟩ ⟨rfl, hw⟩
    exact ⟨by simp, by simpa [or_imp, forall_and] using ⟨hv, hw⟩⟩
  · intro head args hused a ha hleaf hmany
    exact ⟨by simp, by simpa using ⟨hused a ha, hleaf, hmany⟩⟩

/-- Completion to an outline asks what completion asks, and the outline is spelled as the
text. -/
theorem completion_spells {g : Grammar} {r : Rule} (hr : r ∈ g.rules) (depth : Nat) :
    Lockstep (Spells g) (completion {} g r depth) (complete g r depth) := by
  have hused (r : Rule) (hr : r ∈ g.rules) : OfKind (fun c => ∀ a ∈ c.args, g.Uses a.token) r :=
    fun c hc a ha => ⟨r, hr, c, hc, a, ha, rfl⟩
  exact completion_lockstep (m := Dialogue) (spells_kept g) hused {} (hused r hr) depth

end Outline

/-! ## Generation -/

namespace Grammar

open Dialogue

theorem start_lockstep (g : Grammar) (symbol : String) :
    Option.Rel (Lockstep (Outline.Spells g)) (g.start? symbol) (g.start? symbol) := by
  unfold start?
  rcases hr : g.resolve symbol with _ | ⟨first, _ | ⟨second, others⟩⟩
  · exact .none
  · exact .some (Outline.completion_spells (mem_rules_of_resolve_eq hr) 0)
  · have hrules : ∀ r ∈ first :: second :: others, r ∈ g.rules := fun r hmem =>
      mem_rules_of_mem_resolve (hr ▸ hmem)
    exact .some (.question_bind _ fun i =>
      Outline.completion_spells (hrules _ (List.get_mem _ _)) 0)

variable {σ : Type} (g : Grammar) (p : Policy σ) (symbol : String) (seed : UInt64) (s : σ)

/-- Generation goes by way of an outline, whatever comes of it. -/
theorem generate_eq_spelled :
    g.generate p symbol seed s = Outline.spelled (g.generateOutline p symbol seed s) := by
  have hstart := g.start_lockstep symbol
  unfold generate generateOutline produce
  generalize (g.start? symbol : Option (Dialogue Outline)) = outlined at hstart ⊢
  generalize (g.start? symbol : Option (Dialogue String)) = plain at hstart ⊢
  cases hstart with
  | none => rfl
  | @some d d' hd =>
      obtain ⟨hrel, hstate⟩ := hd.run_rel p (p.reseed seed s)
      rcases hrun : d.run p (p.reseed seed s) with ⟨o, s₁⟩
      rcases hrun' : d'.run p (p.reseed seed s) with ⟨text, s₂⟩
      rw [hrun, hrun'] at hrel hstate
      obtain rfl : s₁ = s₂ := hstate
      simp only [hrun, hrun']
      cases hrel with
      | none => rfl
      | some h =>
          obtain ⟨rfl, -⟩ := h
          rfl

/-- The weak markers of a generated outline stand for unsettled tokens. -/
theorem unsettled_of_mem_weakTokens {o : Outline} {s' : σ}
    (h : g.generateOutline p symbol seed s = (.ok (some o), s')) {token : String}
    (ht : token ∈ o.weakTokens) : g.Unsettled token := by
  have hstart := g.start_lockstep symbol
  unfold generateOutline produce at h
  generalize (g.start? symbol : Option (Dialogue Outline)) = outlined at hstart h
  generalize (g.start? symbol : Option (Dialogue String)) = plain at hstart
  cases hstart with
  | none => cases h
  | @some d d' hd =>
      obtain ⟨hrel, -⟩ := hd.run_rel p (p.reseed seed s)
      simp only [Prod.mk.injEq, Except.ok.injEq] at h
      rw [h.1] at hrel
      generalize (d'.run p (p.reseed seed s)).1 = text at hrel
      cases hrel with
      | some h => exact h.2 token ht

end Grammar

end GameGrammar

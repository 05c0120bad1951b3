import GameGrammar.Grammar.Basic

/-! # Policies

A policy answers every question that comes up while a rule is completed: it is the only source
of choice. It may be anything that keeps a state and answers from it. -/

namespace GameGrammar

/-- A choice that completion leaves to the policy. -/
inductive Question where
  /-- Which of several rules of the same name. -/
  | rule (candidates : List Rule)
  /-- Which alternative of a rule. -/
  | clause (clauses : List Clause)
  /-- Whether to end a primitive rule with a literal. -/
  | exit
  | integer (low high : Int32)
  | boolean
  | float (low high : Float32)
  /-- Which argument to drop in favour of the others of its group. -/
  | orGroup (argCount : Nat)
  /-- Whether to drop an optional argument. -/
  | drop (depth : Nat)
  /-- How many items a collection has. -/
  | itemCount

/-- The kinds of answers. -/
inductive AnswerKind where
  /-- A position, counted round and round, or a number of items. -/
  | number
  | truth
  | integer
  | float
  deriving DecidableEq

namespace AnswerKind

abbrev Value : AnswerKind → Type
  | .number => Nat
  | .truth => Bool
  | .integer => Int32
  | .float => Float32

end AnswerKind

namespace Question

abbrev kind : Question → AnswerKind
  | .rule _ | .clause _ | .orGroup _ | .itemCount => .number
  | .exit | .boolean | .drop _ => .truth
  | .integer _ _ => .integer
  | .float _ _ => .float

/-- The answers to a question. -/
abbrev Answer (q : Question) : Type :=
  q.kind.Value

end Question

/-- How questions are answered from a state, and how the state starts again from a seed. -/
structure Policy (σ : Type) where
  answer : (q : Question) → σ → q.Answer × σ
  reseed : UInt64 → σ → σ := fun _ s => s

/-- Something that has happened to a policy. -/
inductive Event where
  | answered (q : Question) (a : q.Answer)
  | reseeded (seed : UInt64)

namespace Policy

variable {σ : Type}

/-- The policy together with a record of what has happened to it, latest first. -/
def recorded (p : Policy σ) : Policy (σ × List Event) where
  answer q s :=
    let (a, next) := p.answer q s.1
    (a, next, .answered q a :: s.2)
  reseed seed s := (p.reseed seed s.1, .reseeded seed :: s.2)

end Policy

end GameGrammar

/-! # The game engine

The engine parses, compiles and plays candidate texts. It keeps a state of its own, and any
call may give a result, give nothing, raise an error or break down. -/

namespace GameGrammar

/-! ## Results -/

/-- What a call of the engine comes to. -/
inductive Reply (α : Type) where
  | value (result : α)
  | nothing
  | raised (message : String)
  | panicked (message : String)

/-- What the engine's parser has to say about a text. -/
structure Diagnosis where
  errors : List String := []
  warnings : List String := []

namespace Diagnosis

/-- Warnings do not count. -/
def clean (d : Diagnosis) : Bool :=
  d.errors.isEmpty

end Diagnosis

/-- What is known about a compiled game. -/
structure Game where
  missingRequirement : Bool := false
  willCrash : Bool := false
  subgames : Bool := false
  boardless : Bool := false
  deductionPuzzle : Bool := false
  cards : Bool := false
  dominoes : Bool := false
  largePiece : Bool := false
  alternating : Bool := true
  hiddenInformation : Bool := false
  players : UInt64 := 2
  name : String := ""

namespace Game

/-- Flagged by the compiler as not fit to be played. -/
def flagged (g : Game) : Bool :=
  g.missingRequirement || g.willCrash

end Game

/-- A move of a simulated game. It is no decision if it was forced or automatic. -/
structure Move where
  decision : Bool

/-- The moves of one simulation, in order. -/
structure Trial where
  moves : List Move := []

namespace Trial

def size (t : Trial) : Nat :=
  t.moves.length

def allDecisions (t : Trial) : Bool :=
  t.moves.all (·.decision)

/-- A trial of so many decisions. -/
def ofDecisions (n : Nat) : Trial :=
  ⟨List.replicate n ⟨true⟩⟩

end Trial

/-! ## Calls -/

/-- An engine with states of type `ε`. -/
structure Engine (ε : Type) where
  parse : String → ε → Reply Diagnosis × ε
  compile : String → ε → Reply Game × ε
  /-- One simulation from the start, stopped after so many moves. -/
  playout : Game → UInt64 → ε → Reply Trial × ε

/-- A call that has been made. -/
inductive Call where
  | parse (text : String)
  | compile (text : String)
  | playout (moveCap : UInt64)
  deriving DecidableEq

namespace Engine

variable {ε : Type}

/-- The engine together with a record of the calls made, latest first. A call is recorded
whatever becomes of it. -/
def recorded (e : Engine ε) : Engine (ε × List Call) where
  parse text s :=
    let (r, next) := e.parse text s.1
    (r, next, .parse text :: s.2)
  compile text s :=
    let (r, next) := e.compile text s.1
    (r, next, .compile text :: s.2)
  playout game moveCap s :=
    let (r, next) := e.playout game moveCap s.1
    (r, next, .playout moveCap :: s.2)

end Engine

end GameGrammar

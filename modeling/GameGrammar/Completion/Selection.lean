import GameGrammar.Completion.Dialogue

/-! # Selecting arguments

Of the arguments of a form that share a group number one is kept; an optional argument outside
the groups is kept unless the policy drops it. The groups are settled first, in the order of
their numbers. -/

namespace GameGrammar.Completion

/-- So many draws may be asked for one group. After that its earliest member left is kept. -/
def maxGroupDraws : Nat :=
  1000

/-- The group numbers of the arguments, in increasing order. -/
def groupNumbers (args : List Argument) : List UInt32 :=
  (((args.map (·.group)).filter (0 < ·)).eraseDups).mergeSort (· ≤ ·)

/-- The positions of the members of a group. -/
def positions (args : List Argument) (group : UInt32) : List Nat :=
  args.zipIdx.filterMap fun (a, i) => if a.group = group then some i else none

/-- Drops members until one is left. Each draw names a position among all arguments, counted
round and round; one that is no member any more is wasted. -/
def settle (argCount : Nat) : Nat → List Nat → Dialogue (List Nat)
  | _, [] => .done []
  | _, [m] => .done [m]
  | 0, m :: _ => .done [m]
  | draws + 1, members => do
    let i ← Dialogue.question (.orGroup argCount)
    settle argCount draws (members.erase (i % argCount))

/-- The positions kept from each of the groups. -/
def settleAll (args : List Argument) : List UInt32 → Dialogue (List Nat)
  | [] => .done []
  | group :: groups => do
    let kept ← settle args.length maxGroupDraws (positions args group)
    return kept ++ (← settleAll args groups)

/-- Whether an argument is kept, given the positions that survive in the groups. -/
def keeps (survivors : List Nat) (depth : Nat) (a : Argument) (i : Nat) : Dialogue Bool :=
  if 0 < a.group then pure (survivors.contains i)
  else if a.optional then do
    let dropped ← Dialogue.question (.drop depth)
    return !dropped
  else pure true

/-- A mark for each of the arguments: whether it is kept. -/
def marks (survivors : List Nat) (depth : Nat) : List (Argument × Nat) → Dialogue (List Bool)
  | [] => .done []
  | (a, i) :: rest => do
    let kept ← keeps survivors depth a i
    let others ← marks survivors depth rest
    return kept :: others

/-- A mark for each argument of a form: whether it is written out. -/
def select (args : List Argument) (depth : Nat) : Dialogue (List Bool) := do
  let survivors ← settleAll args (groupNumbers args)
  marks survivors depth args.zipIdx

/-- The items of a list whose mark is set. -/
def marked {α : Type} : List α → List Bool → List α
  | a :: rest, kept :: others => if kept then a :: marked rest others else marked rest others
  | _, _ => []

end GameGrammar.Completion

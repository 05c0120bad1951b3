import GameGrammar.Digest.Blake
import GameGrammar.Grammar.Build
import GameGrammar.Snapshot.Codec

/-! # Payload of a snapshot

The payload holds the rules of a grammar and, ahead of them, their number, the number of their
alternatives, and the digest of the listing that they come from, if there is one. -/

namespace GameGrammar.Snapshot

structure Payload where
  ruleCount : Nat
  clauseCount : Nat
  source : Option Digest.Bytes32
  rules : List Rule

/-! ## Writing -/

def writeArgument (a : Argument) : Bytes :=
  writeString a.token ++ writeOption writeString a.label ++ writeBool a.optional ++
    [a.nesting] ++ writeNat a.group.toNat

def writeClause : Clause → Bytes
  | .terminal text => writeNat 0 ++ writeString text
  | .reference target => writeNat 1 ++ writeString target
  | .form head args => writeNat 2 ++ writeString head ++ writeList writeArgument args

def writeRule (r : Rule) : Bytes :=
  writeString r.name ++ writeList writeClause r.clauses

def writeDigest (d : Digest.Bytes32) : Bytes :=
  d.toList

def Payload.write (p : Payload) : Bytes :=
  writeNat p.ruleCount ++ writeNat p.clauseCount ++ writeOption writeDigest p.source ++
    writeList writeRule p.rules

/-! ## Reading -/

def readArgument : Reader Argument := fun s => do
  let (token, s) ← readString s
  let (label, s) ← readOption readString s
  let (optional, s) ← readBool s
  let (nesting, s) ← readByte s
  let (group, s) ← readNat 4 s
  return ({ token, label, optional, nesting, group := group.toUInt32 }, s)

def readClause : Reader Clause := fun s => do
  let (variant, s) ← readNat 4 s
  match variant with
  | 0 =>
    let (text, s) ← readString s
    return (.terminal text, s)
  | 1 =>
    let (target, s) ← readString s
    return (.reference target, s)
  | 2 =>
    let (head, s) ← readString s
    let (args, s) ← readList readArgument s
    return (.form head args, s)
  | _ => none

def readRule : Reader Rule := fun s => do
  let (name, s) ← readString s
  let (clauses, s) ← readList readClause s
  return (⟨name, clauses⟩, s)

def readDigest : Reader Digest.Bytes32 := fun s => do
  let (front, s) ← readBytes 32 s
  if h : front.toArray.size = 32 then return (⟨front.toArray, h⟩, s) else none

def readPayload : Reader Payload := fun s => do
  let (ruleCount, s) ← readNat 8 s
  let (clauseCount, s) ← readNat 8 s
  let (source, s) ← readOption readDigest s
  let (rules, s) ← readList readRule s
  return ({ ruleCount, clauseCount, source, rules }, s)

end GameGrammar.Snapshot

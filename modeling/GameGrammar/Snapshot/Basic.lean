import GameGrammar.Snapshot.Payload

/-! # Snapshots

A snapshot is a grammar in binary form: a header of 32 bytes and the payload. The header holds a
mark, the version of the format, the number of rules, and length and checksum of the payload.
Bytes after the payload are of no account. -/

namespace GameGrammar.Snapshot

/-! ## Errors -/

/-- Why a payload that can be decoded does not give a grammar. -/
inductive Flaw where
  | headerRules (listed held : Nat)
  | ruleCount (listed held : Nat)
  | clauseCount (listed held : Nat)
  | emptyReference (rule : String)
  | emptyToken (rule : String)
  | defect (defect : Defect)
  deriving DecidableEq

namespace Flaw

def message : Flaw → String
  | .headerRules listed held => s!"header lists {listed} rules, payload holds {held}"
  | .ruleCount listed held => s!"metadata says {listed} rules but payload has {held}"
  | .clauseCount listed held => s!"metadata says {listed} clauses but payload has {held}"
  | .emptyReference rule => s!"rule '{rule}' has an empty reference"
  | .emptyToken rule => s!"rule '{rule}' has a constructor argument without a token"
  | .defect d => d.message

end Flaw

/-- Why bytes are no snapshot of a grammar. -/
inductive Refusal where
  | mark
  | version (found : Nat)
  | checksum
  | length (needed present : Nat)
  | undecodable
  | invalid (flaw : Flaw)
  deriving DecidableEq

/-- The first four bytes. -/
def mark : Bytes :=
  [76, 71, 82, 77]

def formatVersion : Nat :=
  1

def headerSize : Nat :=
  32

namespace Refusal

def message : Refusal → String
  | .mark => "not a grammar snapshot"
  | .version found =>
    s!"snapshot format v{found} is not supported (expected v{formatVersion})"
  | .checksum => "snapshot payload is corrupt"
  | .length needed present => s!"snapshot truncated: need {needed} bytes, have {present}"
  | .undecodable => "cannot decode snapshot payload"
  | .invalid flaw => "invalid snapshot: " ++ flaw.message

end Refusal

/-! ## The header -/

structure Header where
  version : Nat
  ruleCount : Nat
  payloadLength : Nat
  checksum : Bytes
  deriving DecidableEq

/-- The first sixteen bytes of the digest. -/
def checksum (payload : Bytes) : Bytes :=
  (Digest.blake3 payload.toArray).toList.take 16

/-- A number that does not fit into 32 bits is cut down to the greatest one that does. -/
def saturated (n : Nat) : Nat :=
  min n 4294967295

namespace Header

def ofPayload (payload : Bytes) (ruleCount : Nat) : Header where
  version := formatVersion
  ruleCount := saturated ruleCount
  payloadLength := saturated payload.length
  checksum := Snapshot.checksum payload

/-- The two bytes after the version are not in use. -/
def write (h : Header) : Bytes :=
  mark ++ littleEndian 2 h.version ++ [0, 0] ++ littleEndian 4 h.ruleCount ++
    littleEndian 4 h.payloadLength ++ h.checksum

/-- The bytes from `start` on, `width` of them, as a number. -/
def field (bytes : Bytes) (start width : Nat) : Nat :=
  ofLittleEndian ((bytes.drop start).take width)

def read (bytes : Bytes) : Except Refusal Header :=
  if bytes.length < headerSize then .error (.length headerSize bytes.length)
  else if bytes.take 4 ≠ mark then .error .mark
  else .ok {
    version := field bytes 4 2
    ruleCount := field bytes 8 4
    payloadLength := field bytes 12 4
    checksum := (bytes.drop 16).take 16 }

/-- The payload behind the header, if it is complete and unharmed. -/
def payload (h : Header) (bytes : Bytes) : Except Refusal Bytes :=
  let body := bytes.drop headerSize
  if h.version ≠ formatVersion then .error (.version h.version)
  else if body.length < h.payloadLength then .error (.length h.payloadLength body.length)
  else if Snapshot.checksum (body.take h.payloadLength) ≠ h.checksum then .error .checksum
  else .ok (body.take h.payloadLength)

end Header

/-! ## Writing -/

def totalClauses (rules : List Rule) : Nat :=
  (rules.flatMap (·.clauses)).length

/-- The snapshot of a grammar, with the digest of the listing that it comes from. -/
def encode (g : Grammar) (source : Option String) : Bytes :=
  let payload := Payload.write {
    ruleCount := g.size
    clauseCount := g.clauseCount
    source := source.map fun text => Digest.blake3 text.toUTF8.data
    rules := g.rules }
  (Header.ofPayload payload g.size).write ++ payload

/-! ## Reading -/

/-- The payload of a snapshot, checked against its header. -/
def contents (bytes : Bytes) : Except Refusal Payload := do
  let header ← Header.read bytes
  let payload ← header.payload bytes
  match readPayload payload with
  | none => .error .undecodable
  | some (p, _) =>
    if header.ruleCount = p.rules.length then .ok p
    else .error (.invalid (.headerRules header.ruleCount p.rules.length))

/-- What a snapshot may not hold in an alternative of the named rule. -/
def clauseFlaw? (rule : String) : Clause → Option Flaw
  | .reference target => if target = "" then some (.emptyReference rule) else none
  | .form _ args => if args.any (·.token == "") then some (.emptyToken rule) else none
  | .terminal _ => none

/-- The first flaw of a payload: its counts come before its rules. -/
def flaw? (p : Payload) : Option Flaw :=
  if p.ruleCount ≠ p.rules.length then some (.ruleCount p.ruleCount p.rules.length)
  else if p.clauseCount ≠ totalClauses p.rules then
    some (.clauseCount p.clauseCount (totalClauses p.rules))
  else p.rules.findSome? fun r => r.clauses.findSome? (clauseFlaw? r.name)

/-- The grammar of a payload without flaws. -/
def restore (p : Payload) : Except Flaw Grammar :=
  match flaw? p with
  | some flaw => .error flaw
  | none => (Grammar.ofRules p.rules).mapError .defect

/-- The grammar in a snapshot. -/
def decode (bytes : Bytes) : Except Refusal Grammar := do
  let p ← contents bytes
  (restore p).mapError .invalid

/-- The digest of the listing that a snapshot comes from. -/
def sourceDigest (bytes : Bytes) : Except Refusal (Option Digest.Bytes32) := do
  let p ← contents bytes
  return p.source

end GameGrammar.Snapshot

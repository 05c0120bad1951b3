/-! # Binary coding

Values are coded as bytes one after another, without names or types. Whole numbers of more than
eight bits have one byte if they are small, and otherwise a byte that tells their width and
then their bytes, the lowest first. A reader takes a value from the front of a list of bytes
and returns the rest, or refuses. -/

namespace GameGrammar.Snapshot

abbrev Bytes :=
  List UInt8

/-- Takes a value from the front of some bytes. -/
abbrev Reader (α : Type) :=
  Bytes → Option (α × Bytes)

/-! ## Whole numbers -/

/-- The lowest `width` bytes of a number, the lowest first. -/
def littleEndian : (width n : Nat) → Bytes
  | 0, _ => []
  | width + 1, n => n.toUInt8 :: littleEndian width (n / 256)

/-- The number whose bytes are given, the lowest first. -/
def ofLittleEndian : Bytes → Nat
  | [] => 0
  | b :: rest => b.toNat + 256 * ofLittleEndian rest

/-- Exactly `n` bytes. -/
def readBytes (n : Nat) : Reader Bytes := fun s =>
  let front := s.take n
  if front.length = n then some (front, s.drop n) else none

def readLittleEndian (width : Nat) : Reader Nat := fun s => do
  let (front, rest) ← readBytes width s
  return (ofLittleEndian front, rest)

/-- The shortest code of a number of up to 64 bits. -/
def writeNat (n : Nat) : Bytes :=
  if n < 251 then [n.toUInt8]
  else if n < 65536 then 251 :: littleEndian 2 n
  else if n < 4294967296 then 252 :: littleEndian 4 n
  else 253 :: littleEndian 8 n

/-- A number of up to `bytes` bytes. A longer code than necessary is taken, but none that is
wider than the number may be. -/
def readNat (bytes : Nat) : Reader Nat
  | [] => none
  | b :: rest =>
    if b < 251 then some (b.toNat, rest)
    else if b = 251 then readLittleEndian 2 rest
    else if b = 252 && 4 ≤ bytes then readLittleEndian 4 rest
    else if b = 253 && 8 ≤ bytes then readLittleEndian 8 rest
    else none

def readByte : Reader UInt8
  | [] => none
  | b :: rest => some (b, rest)

/-! ## Compound values -/

def writeBool (b : Bool) : Bytes :=
  [if b then 1 else 0]

def readBool : Reader Bool
  | 0 :: rest => some (false, rest)
  | 1 :: rest => some (true, rest)
  | _ => none

def writeOption {α : Type} (write : α → Bytes) : Option α → Bytes
  | none => [0]
  | some a => 1 :: write a

def readOption {α : Type} (read : Reader α) : Reader (Option α)
  | 0 :: rest => some (none, rest)
  | 1 :: rest => do
    let (a, rest) ← read rest
    return (some a, rest)
  | _ => none

/-- The number of items, then the items. -/
def writeList {α : Type} (write : α → Bytes) (items : List α) : Bytes :=
  writeNat items.length ++ items.flatMap write

def readItems {α : Type} (read : Reader α) : Nat → Reader (List α)
  | 0, s => some ([], s)
  | n + 1, s => do
    let (a, s) ← read s
    let (rest, s) ← readItems read n s
    return (a :: rest, s)

def readList {α : Type} (read : Reader α) : Reader (List α) := fun s => do
  let (n, s) ← readNat 8 s
  readItems read n s

/-- The number of bytes, then the text in UTF-8. -/
def writeString (text : String) : Bytes :=
  let bytes := text.toUTF8.toList
  writeNat bytes.length ++ bytes

def readString : Reader String := fun s => do
  let (n, s) ← readNat 8 s
  let (front, s) ← readBytes n s
  let text ← String.fromUTF8? ⟨front.toArray⟩
  return (text, s)

end GameGrammar.Snapshot

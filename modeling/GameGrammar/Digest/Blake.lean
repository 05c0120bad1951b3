import GameGrammar.Word.Mixing

/-! # The BLAKE3 digest

A message is cut into chunks of 1024 bytes and these into blocks of 64 bytes. Each chunk is
condensed to a chaining value; chaining values are joined in pairs, level by level, until one
node is left, whose last step is marked as the root. -/

namespace GameGrammar.Digest

abbrev Chain :=
  Vector UInt32 8

/-- The first half of the initial chain, which stands in every compression. -/
def opening : Vector UInt32 4 :=
  #v[0x6a09e667, 0xbb67ae85, 0x3c6ef372, 0xa54ff53a]

def closing : Vector UInt32 4 :=
  #v[0x510e527f, 0x9b05688c, 0x1f83d9ab, 0x5be0cd19]

def initial : Chain :=
  opening ++ closing

/-! ## Compression -/

/-- So many rounds, each with the message words in another order. -/
def rounds : Nat → Words → Words → Words
  | 0, s, _ => s
  | n + 1, s, m => rounds n (Words.round Words.rotateRight m s) m.reordered

/-- The marks of a compression, as bits of one word. -/
def chunkStart : UInt32 := 1
def chunkEnd : UInt32 := 2
def parentNode : UInt32 := 4
def rootNode : UInt32 := 8

/-- A compression that is ready to run: all that it takes except the mark of the root. -/
structure Node where
  chain : Chain
  words : Words
  counter : UInt64
  size : UInt32
  flags : UInt32

namespace Node

/-- The chaining value of a node, with further marks. -/
def condense (n : Node) (marks : UInt32) : Chain :=
  let start : Words := n.chain ++ opening ++
    #v[n.counter.toUInt32, (n.counter >>> 32).toUInt32, n.size, n.flags ||| marks]
  let s := rounds 7 start n.words
  Vector.ofFn fun i : Fin 8 => s.get (i.castAdd 8) ^^^ s.get (i.natAdd 8)

def join (left right : Node) : Node where
  chain := initial
  words := left.condense 0 ++ right.condense 0
  counter := 0
  size := 64
  flags := parentNode

end Node

/-! ## Chunks -/

/-- Four bytes, the lowest first; missing bytes are zero. -/
def wordAt (bytes : Array UInt8) (i : Nat) : UInt32 :=
  let byte (j : Nat) : UInt32 := (bytes.getD (i + j) 0).toUInt32
  byte 0 ||| (byte 1 <<< 8) ||| (byte 2 <<< 16) ||| (byte 3 <<< 24)

/-- The block of `size` bytes that begins at `i`. Bytes behind it count as zero. -/
def blockAt (bytes : Array UInt8) (i size : Nat) : Words :=
  let block := bytes.extract i (i + size)
  Vector.ofFn fun j => wordAt block (4 * j.val)

/-- The node of the chunk whose remaining `blocks + 1` blocks begin at `i` and end at `stop`. -/
def chunkNode (bytes : Array UInt8) (number : UInt64) (stop : Nat) :
    Nat → Nat → UInt32 → Chain → Node
  | 0, i, mark, chain =>
    ⟨chain, blockAt bytes i (stop - i), number, (stop - i).toUInt32, mark ||| chunkEnd⟩
  | blocks + 1, i, mark, chain =>
    let node : Node := ⟨chain, blockAt bytes i 64, number, 64, mark⟩
    chunkNode bytes number stop blocks (i + 64) 0 (node.condense 0)

/-- The node of chunk `number` of the message. -/
def chunk (bytes : Array UInt8) (number : Nat) : Node :=
  let start := 1024 * number
  let stop := min (start + 1024) bytes.size
  chunkNode bytes number.toUInt64 stop ((stop - start - 1) / 64) start chunkStart initial

/-! ## The tree -/

/-- Joins neighbours; an odd last node goes up as it is. -/
def joinPairs : List Node → List Node
  | left :: right :: rest => left.join right :: joinPairs rest
  | rest => rest

/-- The node left over after at most `levels` levels of joining. -/
def joinAll : Nat → List Node → Option Node
  | _, [] => none
  | _, [n] => some n
  | 0, n :: _ => some n
  | levels + 1, nodes => joinAll levels (joinPairs nodes)

/-- A digest of 32 bytes. -/
abbrev Bytes32 :=
  Vector UInt8 32

def byteOf (h : Chain) (i : Fin 32) : UInt8 :=
  ((h.toList.getD (i.val / 4) 0) >>> (8 * (i.val % 4)).toUInt32).toUInt8

def blake3 (bytes : Array UInt8) : Bytes32 :=
  let count := max 1 ((bytes.size + 1023) / 1024)
  let nodes := (List.range count).map (chunk bytes)
  match joinAll count nodes with
  | some root => Vector.ofFn (byteOf (root.condense rootNode))
  | none => Vector.replicate 32 0

end GameGrammar.Digest

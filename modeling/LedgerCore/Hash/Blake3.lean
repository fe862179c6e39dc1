/-
The BLAKE3 digest of a byte string. The input is cut into chunks of 1024
bytes and each chunk into blocks of 64; blocks are chained through the
compression function, and chunks are the leaves of a binary tree whose left
subtrees are as large a power of two as leaves something for the right.
The digest is the first half of the root's compression.
-/
import LedgerCore.Hash

namespace LedgerCore.Blake3

-- ============================================================ compression

/-- A chaining value. -/
abbrev Chain := Vector UInt32 8

/-- The words of a block, or the state of a compression. -/
abbrev Words := Vector UInt32 16

/-- The initial chaining value. -/
def initial : Chain := #v[
  0x6a09e667, 0xbb67ae85, 0x3c6ef372, 0xa54ff53a,
  0x510e527f, 0x9b05688c, 0x1f83d9ab, 0x5be0cd19]

/-- Where each message word of the next round comes from. -/
def permutation : Vector (Fin 16) 16 :=
  #v[2, 6, 3, 10, 7, 0, 4, 13, 1, 11, 12, 5, 9, 14, 15, 8]

/-- The marks a compression carries. -/
def chunkStart : UInt32 := 1

@[inherit_doc chunkStart]
def chunkEnd : UInt32 := 2

@[inherit_doc chunkStart]
def parentNode : UInt32 := 4

@[inherit_doc chunkStart]
def rootNode : UInt32 := 8

/-- Rotation to the right. -/
def rotateRight (w : UInt32) (count : UInt32) : UInt32 :=
  (w >>> count) ||| (w <<< (32 - count))

/-- Stirs two message words into four words of the state. -/
def mix (x y : UInt32) (a b c d : Fin 16) (s : Words) : Words :=
  let s := s.set a (s[a] + s[b] + x)
  let s := s.set d (rotateRight (s[d] ^^^ s[a]) 16)
  let s := s.set c (s[c] + s[d])
  let s := s.set b (rotateRight (s[b] ^^^ s[c]) 12)
  let s := s.set a (s[a] + s[b] + y)
  let s := s.set d (rotateRight (s[d] ^^^ s[a]) 8)
  let s := s.set c (s[c] + s[d])
  s.set b (rotateRight (s[b] ^^^ s[c]) 7)

/-- One round: the columns of the state, then its diagonals. -/
def round (m s : Words) : Words :=
  let s := mix m[0] m[1] 0 4 8 12 s
  let s := mix m[2] m[3] 1 5 9 13 s
  let s := mix m[4] m[5] 2 6 10 14 s
  let s := mix m[6] m[7] 3 7 11 15 s
  let s := mix m[8] m[9] 0 5 10 15 s
  let s := mix m[10] m[11] 1 6 11 12 s
  let s := mix m[12] m[13] 2 7 8 13 s
  mix m[14] m[15] 3 4 9 14 s

/-- The message words of the next round. -/
def permute (m : Words) : Words := permutation.map fun i => m[i]

/-- Rounds in a row, the message permuted after each. -/
def rounds : Nat → Words → Words → Words
  | 0, _, s => s
  | n + 1, m, s => rounds n (permute m) (round m s)

/-- One block waiting to be compressed. -/
structure Node where
  chain : Chain
  block : Words
  counter : Nat
  length : Nat
  marks : UInt32

namespace Node

/-- The next chaining value: the two halves of the final state combined. -/
def compress (node : Node) : Chain :=
  let tail : Vector UInt32 8 := #v[initial[0], initial[1], initial[2], initial[3],
    UInt32.ofNat node.counter, UInt32.ofNat (node.counter / 0x100000000),
    UInt32.ofNat node.length, node.marks]
  let final := rounds 7 node.block (node.chain ++ tail)
  .ofFn fun i => final.get ⟨i.val, by omega⟩ ^^^ final.get ⟨i.val + 8, by omega⟩

/-- The same block as the root of the tree. -/
def asRoot (node : Node) : Node := { node with counter := 0, marks := node.marks ||| rootNode }

end Node

-- ================================================================= chunks

/-- The word that four bytes spell, least significant first. -/
def wordAt (bytes : Bytes) (i : Nat) : UInt32 :=
  UInt32.ofNat (Bytes.toNatLE ((bytes.drop (4 * i)).take 4))

/-- The words of a block; a short block is filled up with zeros. -/
def blockWords (bytes : Bytes) : Words := .ofFn fun i => wordAt bytes i.val

/-- The last block of a chunk, chained to those before it. -/
def chainBlocks (counter : Nat) (chain : Chain) (marks : UInt32) (bytes : Bytes) : Node :=
  if bytes.length ≤ 64 then
    ⟨chain, blockWords bytes, counter, bytes.length, marks ||| chunkEnd⟩
  else
    let block : Node := ⟨chain, blockWords (bytes.take 64), counter, 64, marks⟩
    chainBlocks counter block.compress 0 (bytes.drop 64)
termination_by bytes.length
decreasing_by simp only [List.length_drop]; omega

/-- The node of the chunk with that number. -/
def chunkNode (counter : Nat) (chunk : Bytes) : Node :=
  chainBlocks counter initial chunkStart chunk

-- =================================================================== tree

/-- The number of bytes the left subtree takes of more than one chunk: the
largest power of two of chunks that leaves some byte for the right. -/
def leftBytes (length : Nat) : Nat := 1024 * Nat.pow 2 ((length - 1) / 1024).log2

/-- The left part of a long input leaves something to the right one. -/
theorem leftBytes_lt {length : Nat} (h : 1024 < length) : leftBytes length < length := by
  have hpos : (length - 1) / 1024 ≠ 0 := by omega
  have below : Nat.pow 2 ((length - 1) / 1024).log2 ≤ (length - 1) / 1024 := Nat.log2_self_le hpos
  unfold leftBytes
  omega

/-- The left part is not empty, so the right one is shorter than the whole. -/
theorem leftBytes_pos (length : Nat) : 0 < leftBytes length := by
  unfold leftBytes
  have positive : 0 < Nat.pow 2 ((length - 1) / 1024).log2 := Nat.two_pow_pos _
  omega

/-- The root of the tree over some bytes, the first chunk having that number. -/
def treeNode (counter : Nat) (bytes : Bytes) : Node :=
  if bytes.length ≤ 1024 then chunkNode counter bytes
  else
    let left := leftBytes bytes.length
    let leftChain := (treeNode counter (bytes.take left)).compress
    let rightChain := (treeNode (counter + left / 1024) (bytes.drop left)).compress
    ⟨initial, leftChain ++ rightChain, 0, 64, parentNode⟩
termination_by bytes.length
decreasing_by
  · have : leftBytes bytes.length < bytes.length := leftBytes_lt (by omega)
    simp only [List.length_take]; omega
  · have := leftBytes_pos bytes.length
    simp only [List.length_drop]; omega

/-- The bytes of a chaining value. -/
def chainBytes (chain : Chain) : Bytes :=
  chain.toList.flatMap fun word => Bytes.littleEndian 4 word.toNat

/-- Words of four bytes each. -/
theorem length_flatMap_littleEndian (words : List UInt32) :
    (words.flatMap fun word => Bytes.littleEndian 4 word.toNat).length = 4 * words.length := by
  induction words with
  | nil => rfl
  | cons word rest ih => simp only [List.flatMap_cons, List.length_append, ih,
      Bytes.length_littleEndian, List.length_cons]; omega

theorem length_chainBytes (chain : Chain) : (chainBytes chain).length = 32 := by
  rw [chainBytes, length_flatMap_littleEndian, Vector.length_toList]

/-- The digest of a byte string. -/
def digest (bytes : Bytes) : Hash :=
  ⟨chainBytes (treeNode 0 bytes).asRoot.compress, length_chainBytes _⟩

end LedgerCore.Blake3

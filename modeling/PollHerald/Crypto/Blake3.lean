import PollHerald.Crypto.Words
import PollHerald.Width

set_option autoImplicit false

/-! The hash BLAKE3. The message is cut into chunks of 1024 bytes, each chunk is hashed block by
block, and the chunk hashes are joined in a binary tree whose left side is always a full tree. -/

namespace PollHerald.Crypto.Blake3

def initial : Vector UInt32 8 :=
  #v[0x6a09e667, 0xbb67ae85, 0x3c6ef372, 0xa54ff53a,
     0x510e527f, 0x9b05688c, 0x1f83d9ab, 0x5be0cd19]

def permutation : Vector (Fin 16) 16 :=
  #v[2, 6, 3, 10, 7, 0, 4, 13, 1, 11, 12, 5, 9, 14, 15, 8]

def chunkStart : UInt32 := 1
def chunkEnd : UInt32 := 2
def parent : UInt32 := 4
def root : UInt32 := 8

def rotateRight (word count : UInt32) : UInt32 :=
  (word >>> count) ||| (word <<< (32 - count))

def mix (a b c d : Fin 16) (x y : UInt32) (state : Vector UInt32 16) : Vector UInt32 16 :=
  let a₁ := state[a] + state[b] + x
  let d₁ := rotateRight (state[d] ^^^ a₁) 16
  let c₁ := state[c] + d₁
  let b₁ := rotateRight (state[b] ^^^ c₁) 12
  let a₂ := a₁ + b₁ + y
  let d₂ := rotateRight (d₁ ^^^ a₂) 8
  let c₂ := c₁ + d₂
  let b₂ := rotateRight (b₁ ^^^ c₂) 7
  (((state.set a a₂).set b b₂).set c c₂).set d d₂

def round (state block : Vector UInt32 16) : Vector UInt32 16 :=
  let columns :=
    mix 3 7 11 15 block[6] block[7] <| mix 2 6 10 14 block[4] block[5] <|
    mix 1 5 9 13 block[2] block[3] <| mix 0 4 8 12 block[0] block[1] state
  mix 3 4 9 14 block[14] block[15] <| mix 2 7 8 13 block[12] block[13] <|
    mix 1 6 11 12 block[10] block[11] <| mix 0 5 10 15 block[8] block[9] columns

def rounds : Nat → Vector UInt32 16 → Vector UInt32 16 → Vector UInt32 16
  | 0, state, _ => state
  | count + 1, state, block =>
    rounds count (round state block) (permutation.map fun index => block[index])

/-- One compression, of which the result is taken in different ways. -/
structure Node where
  chaining : Vector UInt32 8
  block : Vector UInt32 16
  counter : Nat
  length : Nat
  flags : UInt32

def Node.compress (node : Node) : Vector UInt32 16 :=
  let input : Vector UInt32 16 :=
    node.chaining ++ #v[initial[0], initial[1], initial[2], initial[3],
      node.counter.toUInt32, (node.counter / Width.bound32).toUInt32,
      node.length.toUInt32, node.flags]
  let output := rounds 7 input node.block
  Vector.ofFn fun index =>
    if low : index.val < 8 then output[index] ^^^ output[index.val + 8]
    else output[index] ^^^ node.chaining[index.val - 8]

def Node.chain (node : Node) : Vector UInt32 8 :=
  let output := node.compress
  Vector.ofFn fun index => output[index.val]

def blockWords (bytes : List UInt8) : Vector UInt32 16 :=
  Vector.ofFn fun index => (ofLittleEndian ((bytes.drop (4 * index.val)).take 4)).toUInt32

/-- The last compression of a chunk, after those of its earlier blocks. -/
def chunkNode (counter : Nat) (chaining : Vector UInt32 8) (flags : UInt32) :
    List (List UInt8) → Node
  | [] => { chaining, block := blockWords [], counter, length := 0, flags := flags ||| chunkEnd }
  | [last] =>
    { chaining, block := blockWords last, counter, length := last.length
      flags := flags ||| chunkEnd }
  | block :: rest =>
    let node : Node :=
      { chaining, block := blockWords block, counter, length := block.length, flags }
    chunkNode counter node.chain 0 rest

/-- The number of chunks on the left of a tree of `count` chunks: the greatest power of two below
`count`. -/
def leftCount (count : Nat) : Nat :=
  Nat.pow 2 (count - 1).log2

private theorem leftCount_lt {count : Nat} (several : 2 ≤ count) : leftCount count < count := by
  have below : Nat.pow 2 (count - 1).log2 ≤ count - 1 := Nat.log2_self_le (by omega)
  unfold leftCount
  omega

/-- The node at the top of the tree of the chunks, of which the first has the number `counter`. -/
def treeNode (counter : Nat) (chunks : List (List UInt8)) : Node :=
  if 2 ≤ chunks.length then
    let count := leftCount chunks.length
    let left := treeNode counter (chunks.take count)
    let right := treeNode (counter + count) (chunks.drop count)
    { chaining := initial, block := left.chain ++ right.chain, counter := 0, length := 64
      flags := parent }
  else
    chunkNode counter initial chunkStart (blocks 64 (chunks.headD []))
  termination_by chunks.length
  decreasing_by
    · have := leftCount_lt (by assumption : 2 ≤ chunks.length)
      simp only [List.length_take]
      omega
    · have : 0 < leftCount chunks.length := Nat.two_pow_pos _
      simp only [List.length_drop]
      omega

def hash (message : List UInt8) : List UInt8 :=
  let top := treeNode 0 (blocks 1024 message)
  let words := { top with counter := 0, flags := top.flags ||| root : Node }.chain
  words.toList.flatMap fun word => littleEndian 4 word.toNat

end PollHerald.Crypto.Blake3

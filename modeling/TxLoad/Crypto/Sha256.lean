import TxLoad.Bytes

/-! # The SHA-256 digest and the keyed digest over it

Words are 32 bits wide and big-endian. The padding is a one bit, zeros, and the length of the input
in bits as a number of 64 bits.
-/

namespace TxLoad.Crypto.Sha256

abbrev State := Vector UInt32 8

/-- The bytes that one block takes up. -/
def blockSize : Nat := 64

def initial : State :=
  #v[0x6a09e667, 0xbb67ae85, 0x3c6ef372, 0xa54ff53a, 0x510e527f, 0x9b05688c, 0x1f83d9ab, 0x5be0cd19]

def roundConstants : List UInt32 :=
  [0x428a2f98, 0x71374491, 0xb5c0fbcf, 0xe9b5dba5, 0x3956c25b, 0x59f111f1, 0x923f82a4, 0xab1c5ed5,
    0xd807aa98, 0x12835b01, 0x243185be, 0x550c7dc3, 0x72be5d74, 0x80deb1fe, 0x9bdc06a7, 0xc19bf174,
    0xe49b69c1, 0xefbe4786, 0x0fc19dc6, 0x240ca1cc, 0x2de92c6f, 0x4a7484aa, 0x5cb0a9dc, 0x76f988da,
    0x983e5152, 0xa831c66d, 0xb00327c8, 0xbf597fc7, 0xc6e00bf3, 0xd5a79147, 0x06ca6351, 0x14292967,
    0x27b70a85, 0x2e1b2138, 0x4d2c6dfc, 0x53380d13, 0x650a7354, 0x766a0abb, 0x81c2c92e, 0x92722c85,
    0xa2bfe8a1, 0xa81a664b, 0xc24b8b70, 0xc76c51a3, 0xd192e819, 0xd6990624, 0xf40e3585, 0x106aa070,
    0x19a4c116, 0x1e376c08, 0x2748774c, 0x34b0bcb5, 0x391c0cb3, 0x4ed8aa4a, 0x5b9cca4f, 0x682e6ff3,
    0x748f82ee, 0x78a5636f, 0x84c87814, 0x8cc70208, 0x90befffa, 0xa4506ceb, 0xbef9a3f7, 0xc67178f2]

def rotateRight (word count : UInt32) : UInt32 := word >>> count ||| word <<< (32 - count)

def wordOfBytes (bytes : Bytes) : UInt32 :=
  bytes.foldl (fun n byte => n <<< 8 ||| byte.toUInt32) 0

def wordBytes (word : UInt32) : Bytes :=
  [(word >>> 24).toUInt8, (word >>> 16).toUInt8, (word >>> 8).toUInt8, word.toUInt8]

/-- The words of a block, the newest first. -/
def blockWords (block : Bytes) : List UInt32 :=
  (List.range 16).reverse.map fun i => wordOfBytes ((block.drop (4 * i)).take 4)

/-- One more word in front of words that stand newest first. -/
def extend (words : List UInt32) : List UInt32 :=
  let back (n : Nat) : UInt32 := words.getD (n - 1) 0
  let s0 := rotateRight (back 15) 7 ^^^ rotateRight (back 15) 18 ^^^ back 15 >>> 3
  let s1 := rotateRight (back 2) 17 ^^^ rotateRight (back 2) 19 ^^^ back 2 >>> 10
  (back 16 + s0 + back 7 + s1) :: words

/-- The 64 words that the rounds of one block take up, in their order. -/
def expandedWords (block : Bytes) : List UInt32 :=
  ((List.range 48).foldl (fun words _ => extend words) (blockWords block)).reverse

def round (s : State) (input : UInt32 × UInt32) : State :=
  let (constant, word) := input
  let (a, b, c, d) := (s[0], s[1], s[2], s[3])
  let (e, f, g, h) := (s[4], s[5], s[6], s[7])
  let choice := (e &&& f) ^^^ (~~~e &&& g)
  let majority := (a &&& b) ^^^ (a &&& c) ^^^ (b &&& c)
  let t1 := h + (rotateRight e 6 ^^^ rotateRight e 11 ^^^ rotateRight e 25) + choice + constant
    + word
  let t2 := (rotateRight a 2 ^^^ rotateRight a 13 ^^^ rotateRight a 22) + majority
  #v[t1 + t2, a, b, c, d + t1, e, f, g]

def absorb (s : State) (block : Bytes) : State :=
  let rounds := (roundConstants.zip (expandedWords block)).foldl round s
  Vector.ofFn fun i => s[i] + rounds[i]

def padding (length : Nat) : Bytes :=
  let zeros := (119 - length % blockSize) % blockSize
  0x80 :: List.replicate zeros 0x00 ++ Bytes.ofNatPadded 8 (8 * length)

/-- The input in blocks of `blockSize` bytes. -/
def blocks (bytes : Bytes) : List Bytes :=
  if bytes.isEmpty then [] else bytes.take blockSize :: blocks (bytes.drop blockSize)
termination_by bytes.length
decreasing_by
  rename_i h
  have hNonempty : bytes ≠ [] := by simpa using h
  have hPositive : 0 < bytes.length := List.length_pos_iff.2 hNonempty
  simp only [List.length_drop, blockSize]
  omega

def digest (bytes : Bytes) : Bytes :=
  let final := (blocks (bytes ++ padding bytes.length)).foldl absorb initial
  final.toList.flatMap wordBytes

/-- The digest of `message` under a key of at most one block. -/
def keyed (key message : Bytes) : Bytes :=
  let block := key ++ List.replicate (blockSize - key.length) 0x00
  digest (block.map (· ^^^ 0x5c) ++ digest (block.map (· ^^^ 0x36) ++ message))

end TxLoad.Crypto.Sha256

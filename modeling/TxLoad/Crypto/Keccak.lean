import TxLoad.Bytes

/-! # The Keccak digest of 256 bits

A sponge over 25 lanes of 64 bits, of which 17 take up input. The padding is a one bit, zeros and a
one bit. A lane holds its bytes in little-endian order; lane `x + 5 * y` stands in column `x` of
row `y`.
-/

namespace TxLoad.Crypto.Keccak

abbrev State := Vector UInt64 25

/-- The bytes that one block takes up. -/
def rate : Nat := 136

def roundConstants : List UInt64 :=
  [0x0000000000000001, 0x0000000000008082, 0x800000000000808A, 0x8000000080008000,
    0x000000000000808B, 0x0000000080000001, 0x8000000080008081, 0x8000000000008009,
    0x000000000000008A, 0x0000000000000088, 0x0000000080008009, 0x000000008000000A,
    0x000000008000808B, 0x800000000000008B, 0x8000000000008089, 0x8000000000008003,
    0x8000000000008002, 0x8000000000000080, 0x000000000000800A, 0x800000008000000A,
    0x8000000080008081, 0x8000000000008080, 0x0000000080000001, 0x8000000080008008]

/-- By how many bits each lane is turned. -/
def turns : Vector UInt64 25 :=
  #v[0, 1, 62, 28, 27, 36, 44, 6, 55, 20, 3, 10, 43, 25, 39, 41, 45, 15, 21, 8, 18, 2, 61, 56, 14]

def rotateLeft (lane count : UInt64) : UInt64 :=
  if count = 0 then lane else lane <<< count ||| lane >>> (64 - count)

/-- The lane in column `x` and row `y`, both taken modulo five. -/
def lane (s : State) (x y : Nat) : UInt64 := s.get ⟨x % 5 + 5 * (y % 5), by omega⟩

def columnParity (s : State) (x : Nat) : UInt64 :=
  lane s x 0 ^^^ lane s x 1 ^^^ lane s x 2 ^^^ lane s x 3 ^^^ lane s x 4

/-- Each lane takes up the parities of two neighbouring columns. -/
def mixColumns (s : State) : State :=
  let parities : Vector UInt64 5 := Vector.ofFn fun x => columnParity s x
  let parity (x : Nat) : UInt64 := parities.get ⟨x % 5, by omega⟩
  Vector.ofFn fun i => s[i] ^^^ parity (i + 4) ^^^ rotateLeft (parity (i + 1)) 1

/-- Each lane is turned and moved to its new place. -/
def turnLanes (s : State) : State :=
  let turned : State := Vector.ofFn fun i => rotateLeft s[i] turns[i]
  Vector.ofFn fun i =>
    let x := i.val % 5
    let y := i.val / 5
    lane turned (x + 3 * y) x

/-- Each lane takes up the two lanes to its right, the nearer one negated. -/
def mixRows (s : State) : State :=
  Vector.ofFn fun i =>
    let x := i.val % 5
    let y := i.val / 5
    s[i] ^^^ (~~~ lane s (x + 1) y &&& lane s (x + 2) y)

def round (s : State) (constant : UInt64) : State :=
  let mixed := mixRows (turnLanes (mixColumns s))
  mixed.set 0 (mixed[0] ^^^ constant)

def permute (s : State) : State := roundConstants.foldl round s

/-- The lane that the bytes spell, the least significant first. -/
def laneOfBytes (bytes : Bytes) : UInt64 :=
  bytes.foldr (fun byte n => n <<< 8 ||| byte.toUInt64) 0

def laneBytes (lane : UInt64) : Bytes :=
  (List.range 8).map fun i => (lane >>> (8 * i).toUInt64).toUInt8

def absorb (s : State) (block : Bytes) : State :=
  permute (Vector.ofFn fun i => s[i] ^^^ laneOfBytes ((block.drop (8 * i)).take 8))

/-- The bytes that fill the last block up: `0x01`, zeros, `0x80`, or `0x81` alone. -/
def padding (length : Nat) : Bytes :=
  match rate - length % rate with
  | 1 => [0x81]
  | missing => 0x01 :: List.replicate (missing - 2) 0x00 ++ [0x80]

/-- The input in blocks of `rate` bytes. -/
def blocks (bytes : Bytes) : List Bytes :=
  if bytes.isEmpty then [] else bytes.take rate :: blocks (bytes.drop rate)
termination_by bytes.length
decreasing_by
  rename_i h
  have : bytes ≠ [] := by simpa using h
  have : 0 < bytes.length := List.length_pos_iff.2 this
  simp only [List.length_drop, rate]
  omega

def digest (bytes : Bytes) : Bytes :=
  let final := (blocks (bytes ++ padding bytes.length)).foldl absorb (Vector.replicate 25 0)
  ((List.range 4).flatMap fun i => laneBytes (lane final i 0)).take 32

end TxLoad.Crypto.Keccak

namespace TxLoad

/-- The digest that names a payload. -/
def keccak256 (bytes : Bytes) : Hash :=
  ⟨BitVec.ofNat 256 (Bytes.toNat (Crypto.Keccak.digest bytes))⟩

end TxLoad

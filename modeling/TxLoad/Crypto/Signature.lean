import TxLoad.Crypto.Curve
import TxLoad.Crypto.Keccak
import TxLoad.Crypto.Sha256

/-! # Signatures from which the signer's account can be recovered

A signature is made with a scalar that is derived from the key and the digest alone, so signing the
same digest twice gives the same signature. Of the two values of `s` that verify, the one in the
lower half of the group order is used.
-/

namespace TxLoad.Crypto

open Curve

/-- A number from one to the group order less one. -/
structure Scalar where
  value : Nat
  pos : 0 < value
  lt : value < groupOrder

def Scalar.ofNat? (n : Nat) : Option Scalar :=
  if h : 0 < n ∧ n < groupOrder then some ⟨n, h.1, h.2⟩ else none

/-- A scalar for any number, the number itself if it is one. -/
def Scalar.ofNat (n : Nat) : Scalar :=
  if h : 0 < n ∧ n < groupOrder then ⟨n, h.1, h.2⟩
  else ⟨1, by decide, by decide⟩

structure Signature where
  /-- The second coordinate of the signature's point is odd. -/
  odd : Bool
  r : Nat
  s : Nat
  deriving DecidableEq, Repr, Inhabited

/-- The account of the key whose public point this is. -/
def accountOf (p : Affine) : Address :=
  let encoded := Bytes.ofNatPadded 32 p.x ++ Bytes.ofNatPadded 32 p.y
  ⟨BitVec.ofNat 160 (keccak256 encoded).value.toNat⟩

/-- The account that the key controls. -/
def Scalar.account (key : Scalar) : Address :=
  accountOf (((scaleGenerator key.value).toAffine?).getD generator)

/-- The state of the derivation of scalars: the key and the chained value of a keyed digest. -/
structure Derivation where
  key : Bytes
  chained : Bytes

namespace Derivation

def update (d : Derivation) (data : Bytes) : Derivation :=
  let key := Sha256.keyed d.key (d.chained ++ data)
  ⟨key, Sha256.keyed key d.chained⟩

def start (key : Scalar) (digest : Nat) : Derivation :=
  let seed := Bytes.ofNatPadded 32 key.value ++ Bytes.ofNatPadded 32 (digest % groupOrder)
  let blank : Derivation := ⟨List.replicate 32 0x00, List.replicate 32 0x01⟩
  (blank.update (0x00 :: seed)).update (0x01 :: seed)

def next (d : Derivation) : Derivation := ⟨d.key, Sha256.keyed d.key d.chained⟩

end Derivation

/-- The signature with the scalar `nonce`, unless `r` or `s` is zero. -/
def signWith? (key nonce : Scalar) (digest : Nat) : Option Signature := do
  let point ← (scaleGenerator nonce.value).toAffine?
  let r := point.x % groupOrder
  let s := inverseMod nonce.value groupOrder * (digest + r * key.value) % groupOrder
  if r = 0 || s = 0 then none
  else
    let odd := point.y % 2 = 1
    if s ≤ groupOrder / 2 then some ⟨odd, r, s⟩ else some ⟨!odd, r, groupOrder - s⟩

/-- The first signature of at most `tries` derived scalars. -/
def signFrom (key : Scalar) (digest : Nat) : Nat → Derivation → Signature
  | 0, d => (signWith? key (.ofNat (Bytes.toNat d.chained)) digest).getD ⟨false, 1, 1⟩
  | tries + 1, d =>
    let d := d.next
    match Scalar.ofNat? (Bytes.toNat d.chained) >>= (signWith? key · digest) with
    | some signature => signature
    | none => signFrom key digest tries (d.update [0x00])

/-- The number of scalars that are tried. One fails with a chance of less than two to the power
-127, so the first is practically always taken. -/
def maxTries : Nat := 32

def Scalar.sign (key : Scalar) (digest : Hash) : Signature :=
  signFrom key digest.value.toNat maxTries (.start key digest.value.toNat)

/-- The account whose key made the signature, if it is a signature of the digest at all. -/
def Signature.recover? (signature : Signature) (digest : Hash) : Option Address := do
  let point ← lift? signature.r signature.odd
  let inverse := inverseMod signature.r groupOrder
  let u1 := (groupOrder - digest.value.toNat % groupOrder) * inverse % groupOrder
  let u2 := signature.s * inverse % groupOrder
  let p := (scaleGenerator u1).add ((Projective.ofAffine point).scale u2)
  accountOf <$> p.toAffine?

end TxLoad.Crypto

/-! # The curve secp256k1

The points with `y ^ 2 = x ^ 3 + 7` over a prime field, with the chord and tangent law. A point is
computed with in coordinates `(x, y, z)` that stand for `(x / z ^ 2, y / z ^ 3)`, so that only the
conversion at the end divides; `z = 0` is the neutral element.
-/

namespace TxLoad.Crypto.Curve

/-- The number of elements of the field. -/
def fieldOrder : Nat := 0xfffffffffffffffffffffffffffffffffffffffffffffffffffffffefffffc2f

/-- The number of points. -/
def groupOrder : Nat := 0xfffffffffffffffffffffffffffffffebaaedce6af48a03bbfd25e8cd0364141

/-- `base ^ exponent` modulo `m`, by squaring. -/
def powMod (base exponent m : Nat) : Nat :=
  if exponent = 0 then 1 % m
  else
    let half := powMod (base * base % m) (exponent / 2) m
    if exponent % 2 = 1 then base * half % m else half
termination_by exponent
decreasing_by omega

/-- The inverse modulo a prime. -/
def inverseMod (a p : Nat) : Nat := powMod (a % p) (p - 2) p

def subMod (a b : Nat) : Nat := (a + (fieldOrder - b % fieldOrder)) % fieldOrder

def mulMod (a b : Nat) : Nat := a * b % fieldOrder

/-- A point other than the neutral one. -/
structure Affine where
  x : Nat
  y : Nat
  deriving DecidableEq, Repr

structure Projective where
  x : Nat
  y : Nat
  z : Nat
  deriving DecidableEq, Repr

namespace Projective

def neutral : Projective := ⟨1, 1, 0⟩

def ofAffine (p : Affine) : Projective := ⟨p.x, p.y, 1⟩

def toAffine? (p : Projective) : Option Affine :=
  if p.z % fieldOrder = 0 then none
  else
    let inverse := inverseMod p.z fieldOrder
    let square := mulMod inverse inverse
    some ⟨mulMod p.x square, mulMod p.y (mulMod square inverse)⟩

def double (p : Projective) : Projective :=
  if p.z = 0 || p.y = 0 then neutral
  else
    let a := mulMod p.x p.x
    let b := mulMod p.y p.y
    let c := mulMod b b
    let d := mulMod 4 (mulMod p.x b)
    let e := mulMod 3 a
    let x := subMod (mulMod e e) (mulMod 2 d)
    ⟨x, subMod (mulMod e (subMod d x)) (mulMod 8 c), mulMod 2 (mulMod p.y p.z)⟩

def add (p q : Projective) : Projective :=
  if p.z = 0 then q
  else if q.z = 0 then p
  else
    let pz2 := mulMod p.z p.z
    let qz2 := mulMod q.z q.z
    let u1 := mulMod p.x qz2
    let u2 := mulMod q.x pz2
    let s1 := mulMod p.y (mulMod qz2 q.z)
    let s2 := mulMod q.y (mulMod pz2 p.z)
    if u1 = u2 then
      if s1 = s2 then double p else neutral
    else
      let h := subMod u2 u1
      let r := subMod s2 s1
      let h2 := mulMod h h
      let h3 := mulMod h2 h
      let v := mulMod u1 h2
      let x := subMod (subMod (mulMod r r) h3) (mulMod 2 v)
      ⟨x, subMod (mulMod r (subMod v x)) (mulMod s1 h3), mulMod h (mulMod p.z q.z)⟩

/-- The sum of `n` copies of `p`, by doubling. -/
def scale (n : Nat) (p : Projective) : Projective :=
  if n = 0 then neutral
  else
    let half := double (scale (n / 2) p)
    if n % 2 = 1 then add half p else half
termination_by n
decreasing_by omega

end Projective

def generator : Affine :=
  ⟨0x79be667ef9dcbbac55a06295ce870b07029bfcdb2dce28d959f2815b16f81798,
    0x483ada7726a3c4655da4fbfc0e1108a8fd17b448a68554199c47d08ffb10d4b8⟩

def scaleGenerator (n : Nat) : Projective := (Projective.ofAffine generator).scale n

/-- The point with this first coordinate whose second coordinate has the given parity. -/
def lift? (x : Nat) (odd : Bool) : Option Affine :=
  if fieldOrder ≤ x then none
  else
    let square := (mulMod x (mulMod x x) + 7) % fieldOrder
    let root := powMod square ((fieldOrder + 1) / 4) fieldOrder
    if mulMod root root = square then
      some ⟨x, if (root % 2 = 1) = odd then root else fieldOrder - root⟩
    else none

end TxLoad.Crypto.Curve

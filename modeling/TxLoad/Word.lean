/-! # Machine words and the faults of their arithmetic

Quantities of a chain are words of a fixed width: 64 bits for nonces, chain ids, block numbers and
seconds, 256 bits for amounts of currency and gas. Arithmetic never wraps: a result that leaves the
width is a fault, which ends the computation where it arises.
-/

namespace TxLoad

namespace NatPower

-- The powers of natural numbers in definitions are those of core, which evaluate by themselves.
-- Beside Mathlib they would by default be the powers of a monoid, and the definitions other terms.
attribute [scoped instance (high)] instPowNat

end NatPower

open scoped NatPower

/-- How many words of a width there are. -/
abbrev wordCount (width : Nat) : Nat := 2 ^ width

/-- The integer fits a word of a width with a sign. -/
def fitsSigned (width : Nat) (n : Int) : Bool :=
  -(wordCount (width - 1) : Int) ≤ n && n < (wordCount (width - 1) : Int)

abbrev Word64 := BitVec 64
abbrev Word256 := BitVec 256

/-- A defect that ends a computation, as opposed to a failure that it reports. -/
inductive Fault
  | addOverflow
  | mulOverflow
  | wideOverflow
  | narrowing
  | raised (text : String)
  deriving DecidableEq, Repr, Inhabited

def Fault.message : Fault → String
  | .addOverflow => "attempt to add with overflow"
  | .mulOverflow => "attempt to multiply with overflow"
  | .wideOverflow => "arithmetic operation overflow"
  | .narrowing => "Integer overflow when casting to u64"
  | .raised text => text

/-- The number as a word of `width` bits, or `fault` if it does not fit. -/
def fit (width : Nat) (fault : Fault) (n : Nat) : Except Fault (BitVec width) :=
  if n < wordCount width then .ok (BitVec.ofNat width n) else .error fault

namespace Word64

def plus (a b : Word64) : Except Fault Word64 := fit 64 .addOverflow (a.toNat + b.toNat)

def times (a b : Word64) : Except Fault Word64 := fit 64 .mulOverflow (a.toNat * b.toNat)

end Word64

namespace Word256

def plus (a b : Word256) : Except Fault Word256 := fit 256 .wideOverflow (a.toNat + b.toNat)

def times (a b : Word256) : Except Fault Word256 := fit 256 .wideOverflow (a.toNat * b.toNat)

/-- The same number in 64 bits. -/
def narrow (a : Word256) : Except Fault Word64 := fit 64 .narrowing a.toNat

end Word256

theorem Word64.toNat_ne_zero {word : Word64} (h : word ≠ 0) : word.toNat ≠ 0 :=
  fun hZero => h (BitVec.eq_of_toNat_eq hZero)

theorem fit_eq_ok_iff {width : Nat} {fault : Fault} {n : Nat} {w : BitVec width} :
    fit width fault n = .ok w ↔ w.toNat = n := by
  unfold fit
  constructor
  · intro h
    split at h
    · injection h with h
      subst h
      rw [BitVec.toNat_ofNat, Nat.mod_eq_of_lt (by assumption)]
    · cases h
  · intro h
    subst h
    rw [if_pos w.isLt, BitVec.ofNat_toNat, BitVec.setWidth_eq]

theorem fit_eq_error_iff {width : Nat} {fault f : Fault} {n : Nat} :
    fit width fault n = .error f ↔ wordCount width ≤ n ∧ f = fault := by
  unfold fit
  split
  · simp
    omega
  · simp
    constructor
    · intro h
      exact ⟨by omega, h.symm⟩
    · intro h
      exact h.2.symm

end TxLoad

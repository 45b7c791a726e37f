import Mathlib.Algebra.GroupWithZero.Nat
import Mathlib.Data.List.Induction
import TxLoad.Bytes

/-! # Numbers read back from their bytes

`Bytes.toNat` undoes both spellings of a number, the shortest and the padded one, as long as the
number fits the width of the latter. The shortest spelling has no leading zero byte, and a number
below `256 ^ k` has at most `k` bytes.
-/

namespace TxLoad

namespace Bytes

/-! ## The value of a list of bytes -/

@[simp] theorem toNat_nil : toNat [] = 0 := rfl

theorem toNat_append_singleton (bytes : Bytes) (byte : UInt8) :
    toNat (bytes ++ [byte]) = toNat bytes * 256 + byte.toNat := by
  unfold toNat
  rw [List.foldl_append]
  rfl

/-- The first byte counts for as many powers of 256 as there are bytes after it. -/
theorem toNat_cons (byte : UInt8) (bytes : Bytes) :
    toNat (byte :: bytes) = byte.toNat * 256 ^ bytes.length + toNat bytes := by
  -- the value is a fold from the left, so the bytes are taken off at the right
  induction bytes using List.reverseRecOn with
  | nil =>
    show 0 * 256 + byte.toNat = byte.toNat * 1 + 0
    omega
  | append_singleton front last ih =>
    rw [← List.cons_append, toNat_append_singleton, toNat_append_singleton, ih,
      List.length_append, List.length_singleton, Nat.pow_succ, ← Nat.mul_assoc]
    omega

/-! ## The shortest spelling -/

@[simp] theorem ofNat_zero : ofNat 0 = [] := by
  rw [ofNat, if_pos rfl]

theorem ofNat_of_ne_zero {n : Nat} (h : n ≠ 0) :
    ofNat n = ofNat (n / 256) ++ [UInt8.ofNat (n % 256)] := by
  rw [ofNat, if_neg h]

@[simp] theorem ofNat_eq_nil_iff {n : Nat} : ofNat n = [] ↔ n = 0 := by
  constructor
  · intro h
    by_contra hNe
    rw [ofNat_of_ne_zero hNe] at h
    simp at h
  · rintro rfl
    exact ofNat_zero

theorem toNat_lastByte (n : Nat) : (UInt8.ofNat (n % 256)).toNat = n % 256 :=
  UInt8.toNat_ofNat_of_lt (Nat.mod_lt n (by decide))

@[simp] theorem toNat_ofNat (n : Nat) : toNat (ofNat n) = n := by
  induction n using ofNat.induct with
  | case1 => rw [ofNat_zero, toNat_nil]
  | case2 n hNe ih =>
    rw [ofNat_of_ne_zero hNe, toNat_append_singleton, ih, toNat_lastByte]
    omega

/-- The shortest spelling has no leading zero byte. -/
theorem head?_ofNat_ne_zero (n : Nat) : (ofNat n).head? ≠ some 0x00 := by
  induction n using ofNat.induct with
  | case1 =>
    rw [ofNat_zero]
    exact nofun
  | case2 n hNe ih =>
    rw [ofNat_of_ne_zero hNe]
    by_cases hShort : n / 256 = 0
    · rw [hShort, ofNat_zero]
      intro h
      have hLast := congrArg UInt8.toNat (Option.some.inj h)
      rw [toNat_lastByte] at hLast
      have hZero : n % 256 = 0 := hLast
      omega
    · cases hFront : ofNat (n / 256) with
      | nil => exact absurd (ofNat_eq_nil_iff.mp hFront) hShort
      | cons byte rest =>
        rw [hFront] at ih
        exact ih

theorem length_ofNat_le {k : Nat} : ∀ {n : Nat}, n < 256 ^ k → (ofNat n).length ≤ k := by
  induction k with
  | zero =>
    intro n h
    have hZero : n = 0 := by
      rw [Nat.pow_zero] at h
      omega
    rw [hZero, ofNat_zero]
    exact Nat.le_refl 0
  | succ k ih =>
    intro n h
    by_cases hZero : n = 0
    · rw [hZero, ofNat_zero]
      exact Nat.zero_le _
    · have hRest : n / 256 < 256 ^ k := by
        rw [Nat.pow_succ] at h
        exact Nat.div_lt_of_lt_mul (by omega)
      have hLength := ih hRest
      rw [ofNat_of_ne_zero hZero, List.length_append, List.length_singleton]
      omega

/-! ## The padded spelling -/

theorem ofNatPadded_succ (width n : Nat) :
    ofNatPadded (width + 1) n = UInt8.ofNat (n / 256 ^ width % 256) :: ofNatPadded width n := by
  unfold ofNatPadded
  rw [List.range_succ, List.reverse_append]
  rfl

/-- The padded spelling keeps the last bytes of a number that is too large for it. -/
theorem toNat_ofNatPadded (width n : Nat) :
    toNat (ofNatPadded width n) = n % 256 ^ width := by
  induction width with
  | zero =>
    show 0 = n % 1
    omega
  | succ width ih =>
    rw [ofNatPadded_succ, toNat_cons, toNat_lastByte, length_ofNatPadded, ih, Nat.mod_pow_succ]
    rw [Nat.mul_comm, Nat.add_comm]

end Bytes

@[simp] theorem Address.length_bytes (a : Address) : a.bytes.length = 20 :=
  Bytes.length_ofNatPadded 20 _

@[simp] theorem Address.toNat_bytes (a : Address) : Bytes.toNat a.bytes = a.value.toNat :=
  (Bytes.toNat_ofNatPadded 20 _).trans (Nat.mod_eq_of_lt a.value.isLt)

@[simp] theorem Hash.length_bytes (h : Hash) : h.bytes.length = 32 :=
  Bytes.length_ofNatPadded 32 _

@[simp] theorem Hash.toNat_bytes (h : Hash) : Bytes.toNat h.bytes = h.value.toNat :=
  (Bytes.toNat_ofNatPadded 32 _).trans (Nat.mod_eq_of_lt h.value.isLt)

end TxLoad

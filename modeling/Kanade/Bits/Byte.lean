import Mathlib.Algebra.Group.Nat.Defs

/-!
# Bits.Byte

Fields of a byte: what shifts and masks take out of it, as quotients and remainders.
-/

namespace Bits

variable {b k mask value : UInt8}

theorem toNat_ofNat {n : Nat} (hn : n < 256) : (UInt8.ofNat n).toNat = n := UInt8.toNat_ofNat_of_lt' hn

theorem ofNat_ne {m n : Nat} (hm : m < 256) (hn : n < 256) (hne : m ≠ n) : UInt8.ofNat m ≠ UInt8.ofNat n := by
  intro h
  rw [← UInt8.toNat_inj, toNat_ofNat hm, toNat_ofNat hn] at h
  exact hne h

/-- A mask of the lowest bits. -/
theorem toNat_and_low (b : UInt8) (n : Nat) (hmask : mask.toNat = 2 ^ n - 1) :
    (b &&& mask).toNat = b.toNat % 2 ^ n := by
  rw [UInt8.toNat_and, hmask, Nat.and_two_pow_sub_one_eq_mod]

theorem and_low_lt (b : UInt8) (n : Nat) (hmask : mask.toNat = 2 ^ n - 1) : (b &&& mask).toNat < 2 ^ n := by
  rw [toNat_and_low b n hmask]
  exact Nat.mod_lt _ (Nat.two_pow_pos n)

theorem toNat_shiftRight (b : UInt8) (hk : k.toNat < 8) : (b >>> k).toNat = b.toNat / 2 ^ k.toNat := by
  rw [UInt8.toNat_shiftRight, Nat.mod_eq_of_lt hk, Nat.shiftRight_eq_div_pow]

/-- The field of `n` bits at `k`. -/
theorem toNat_field (b : UInt8) (n : Nat) (hk : k.toNat < 8) (hmask : mask.toNat = 2 ^ n - 1) :
    (b >>> k &&& mask).toNat = b.toNat / 2 ^ k.toNat % 2 ^ n := by
  rw [toNat_and_low _ n hmask, toNat_shiftRight b hk]

theorem and_high (n k : Nat) (hk : k ≤ 8) (hn : n < 2 ^ 8) :
    n &&& (2 ^ (8 - k) - 1) * 2 ^ k = n / 2 ^ k * 2 ^ k := by
  have hpow : 2 ^ 8 = 2 ^ (8 - k) * 2 ^ k := by rw [← Nat.pow_add, Nat.sub_add_cancel hk]
  have hhigh : (n &&& (2 ^ (8 - k) - 1) * 2 ^ k) / 2 ^ k = n / 2 ^ k := by
    rw [← Nat.shiftRight_eq_div_pow, Nat.shiftRight_and_distrib, Nat.shiftRight_eq_div_pow,
      Nat.shiftRight_eq_div_pow, Nat.mul_div_cancel _ (Nat.two_pow_pos k), Nat.and_two_pow_sub_one_eq_mod]
    refine Nat.mod_eq_of_lt ?_
    rw [Nat.div_lt_iff_lt_mul (Nat.two_pow_pos k), ← hpow]
    exact hn
  have hlow : (n &&& (2 ^ (8 - k) - 1) * 2 ^ k) % 2 ^ k = 0 := by
    rw [Nat.and_mod_two_pow, Nat.mul_mod_left, Nat.and_zero]
  have hsplit := Nat.div_add_mod (n &&& (2 ^ (8 - k) - 1) * 2 ^ k) (2 ^ k)
  rw [hhigh, hlow] at hsplit
  rw [← hsplit, Nat.mul_comm, Nat.add_zero]

/-- A mask of the topmost bits drops the others. -/
theorem toNat_and_high (b : UInt8) (k : Nat) (hk : k ≤ 8) (hmask : mask.toNat = (2 ^ (8 - k) - 1) * 2 ^ k) :
    (b &&& mask).toNat = b.toNat / 2 ^ k * 2 ^ k := by
  rw [UInt8.toNat_and, hmask, and_high b.toNat k hk b.toNat_lt]

/-- The numbers that have these bits on top. -/
theorem mask_iff {byte mask value : UInt8} (k : Nat) (hk : k ≤ 8)
    (hmask : mask.toNat = (2 ^ (8 - k) - 1) * 2 ^ k) (hvalue : 2 ^ k ∣ value.toNat) :
    byte &&& mask = value ↔ value.toNat ≤ byte.toNat ∧ byte.toNat < value.toNat + 2 ^ k := by
  have hmod := Nat.mod_lt byte.toNat (Nat.two_pow_pos k)
  have hsplit := Nat.div_add_mod' byte.toNat (2 ^ k)
  obtain ⟨n, hn⟩ := hvalue
  rw [Nat.mul_comm] at hn
  rw [← UInt8.toNat_inj, toNat_and_high byte k hk hmask]
  constructor
  · intro h
    omega
  · rintro ⟨hle, hlt⟩
    rw [hn] at hle hlt ⊢
    have hdiv : byte.toNat / 2 ^ k = n := Nat.div_eq_of_lt_le hle (by rwa [Nat.succ_mul])
    rw [hdiv]

/-- Two fields side by side. -/
theorem shiftLeft_or {m n k : Nat} (hn : n < 2 ^ k) : m <<< k ||| n = m * 2 ^ k + n := by
  rw [← Nat.shiftLeft_add_eq_or_of_lt hn, Nat.shiftLeft_eq]

end Bits

import Kanade.Bits.Fields

/-!
# Bits.Digits

Numbers in four bytes of `k` bits each, the first byte the highest: plain ones for `k = 8`, synchsafe ones, which
leave the high bit of every byte alone, for `k = 7`.
-/

namespace Bits

/-- As shifts and masks read it. -/
def number (k : Nat) (a b c d : UInt8) : Nat :=
  a.toNat <<< (3 * k) ||| b.toNat <<< (2 * k) ||| c.toNat <<< k ||| d.toNat

/-- The `i`-th digit from the right. -/
def digit (k n i : Nat) : UInt8 := UInt8.ofNat (n / 2 ^ (i * k) % 2 ^ k)

def digits (k n : Nat) : List UInt8 := [digit k n 3, digit k n 2, digit k n 1, digit k n 0]

theorem number_lt {k : Nat} (hk : k ≤ 8) (a b c d : UInt8) : number k a b c d < 2 ^ 32 := by
  have hpow : ∀ (x : UInt8) {i : Nat}, i ≤ 24 → x.toNat <<< i < 2 ^ 32 := by
    intro x i hi
    rw [Nat.shiftLeft_eq]
    calc x.toNat * 2 ^ i < 2 ^ 8 * 2 ^ i := Nat.mul_lt_mul_of_pos_right x.toNat_lt (Nat.two_pow_pos i)
      _ ≤ 2 ^ 8 * 2 ^ 24 := Nat.mul_le_mul_left _ (Nat.pow_le_pow_right (by decide) hi)
      _ = 2 ^ 32 := by decide
  have hlow : d.toNat < 2 ^ 32 := Nat.lt_trans d.toNat_lt (by decide)
  exact Nat.or_lt_two_pow (Nat.or_lt_two_pow (Nat.or_lt_two_pow (hpow a (by omega)) (hpow b (by omega)))
    (hpow c (by omega))) hlow

theorem number_eq {k : Nat} {a b c d : UInt8} (hb : b.toNat < 2 ^ k) (hc : c.toNat < 2 ^ k) (hd : d.toNat < 2 ^ k) :
    number k a b c d = ((a.toNat * 2 ^ k + b.toNat) * 2 ^ k + c.toNat) * 2 ^ k + d.toNat := by
  have hthree : 3 * k = k + k + k := by omega
  have htwo : 2 * k = k + k := by omega
  unfold number
  rw [hthree, htwo, Nat.shiftLeft_add, Nat.shiftLeft_add, Nat.shiftLeft_add, ← Nat.shiftLeft_or_distrib,
    ← Nat.shiftLeft_or_distrib, ← Nat.shiftLeft_or_distrib, shiftLeft_or hb, shiftLeft_or hc, shiftLeft_or hd]

theorem toNat_digit {k : Nat} (hk : k ≤ 8) (n i : Nat) : (digit k n i).toNat = bits n (i * k) k := by
  have hle : 2 ^ k ≤ 2 ^ 8 := Nat.pow_le_pow_right (by decide) hk
  exact toNat_ofNat (Nat.lt_of_lt_of_le (bits_lt n (i * k) k) hle)

/-- What is written is read. -/
theorem number_digits {k n : Nat} (hk : k ≤ 8) (hn : n < 2 ^ (4 * k)) :
    number k (digit k n 3) (digit k n 2) (digit k n 1) (digit k n 0) = n := by
  have htop : bits n (3 * k) k <<< (3 * k) ||| bits n (2 * k) k <<< (2 * k) = bits n (2 * k) (2 * k) <<< (2 * k) := by
    have htop := bits_or_shiftLeft n (2 * k) k k (2 * k)
    have hthree : k + 2 * k = 3 * k := by omega
    rwa [Nat.add_comm (2 * k), hthree, ← Nat.two_mul] at htop
  have hmiddle : bits n (2 * k) (2 * k) <<< (2 * k) ||| bits n k k <<< k = bits n k (3 * k) <<< k := by
    have hmiddle := bits_or_shiftLeft n k k (2 * k) k
    have hthree : k + 2 * k = 3 * k := by omega
    rwa [hthree, ← Nat.two_mul] at hmiddle
  have hlast : bits n k (3 * k) <<< k ||| bits n 0 k = bits n 0 (4 * k) := by
    have hlast := bits_or n 0 k (3 * k)
    have hfour : k + 3 * k = 4 * k := by omega
    rwa [hfour, Nat.zero_add] at hlast
  have hall : bits n 0 (4 * k) = n := by
    unfold bits
    rw [Nat.pow_zero, Nat.div_one, Nat.mod_eq_of_lt hn]
  unfold number
  rw [toNat_digit hk, toNat_digit hk, toNat_digit hk, toNat_digit hk, Nat.one_mul, Nat.zero_mul, htop, hmiddle, hlast,
    hall]

end Bits

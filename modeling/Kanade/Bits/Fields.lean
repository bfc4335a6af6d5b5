import Kanade.Bits.Byte

/-!
# Bits.Fields

Numbers packed one behind the other into bits, the first of them highest, and the bits into bytes, whatever the
fields have to do with their borders.

* `bits_pack`: a field is found where it was put.
* `toNat_getD_toBytes`, `bits_bits`: a byte has eight of the bits, a part of a byte some of these.
* `bits_or`: bits that are next to each other, put together by a shift.
-/

namespace Bits

structure Field where
  width : Nat
  value : Nat
  value_lt : value < 2 ^ width

def width : List Field → Nat
  | [] => 0
  | field :: fields => field.width + width fields

def pack : List Field → Nat
  | [] => 0
  | field :: fields => field.value * 2 ^ width fields + pack fields

/-- The `n` bits of a number from bit `lo` on. -/
def bits (m lo n : Nat) : Nat := m / 2 ^ lo % 2 ^ n

/-- So many bytes, the first one with the highest bits. -/
def toBytes : Nat → Nat → List UInt8
  | 0, _ => []
  | count + 1, m => UInt8.ofNat (bits m (8 * count) 8) :: toBytes count m

variable {m lo n k mask : Nat}

theorem bits_lt (m lo n : Nat) : bits m lo n < 2 ^ n := Nat.mod_lt _ (Nat.two_pow_pos n)

/-! ## Packing -/

theorem pack_lt (fields : List Field) : pack fields < 2 ^ width fields := by
  induction fields with
  | nil => exact Nat.one_pos
  | cons field fields ih =>
    have hle : (field.value + 1) * 2 ^ width fields ≤ 2 ^ field.width * 2 ^ width fields :=
      Nat.mul_le_mul_right _ field.value_lt
    rw [Nat.succ_mul] at hle
    rw [pack, width, Nat.pow_add]
    omega

theorem width_append (before after : List Field) : width (before ++ after) = width before + width after := by
  induction before with
  | nil => exact (Nat.zero_add _).symm
  | cons field before ih => rw [List.cons_append, width, width, ih, Nat.add_assoc]

theorem pack_append (before after : List Field) :
    pack (before ++ after) = pack before * 2 ^ width after + pack after := by
  induction before with
  | nil => rw [List.nil_append, pack, Nat.zero_mul, Nat.zero_add]
  | cons field before ih =>
    rw [List.cons_append, pack, pack, ih, width_append, Nat.pow_add, Nat.add_mul, Nat.mul_assoc, Nat.add_assoc]

theorem bits_pack (before after : List Field) (field : Field) :
    bits (pack (before ++ field :: after)) (width after) field.width = field.value := by
  have hafter := pack_lt after
  have hsplit : pack (before ++ field :: after) =
      pack after + 2 ^ width after * (field.value + 2 ^ field.width * pack before) := by
    rw [pack_append, pack, width, Nat.pow_add, Nat.mul_comm (pack before), Nat.mul_comm field.value, Nat.mul_add,
      Nat.mul_comm (2 ^ field.width) (2 ^ width after), Nat.mul_assoc]
    omega
  unfold bits
  rw [hsplit, Nat.add_mul_div_left _ _ (Nat.two_pow_pos _), Nat.div_eq_of_lt hafter, Nat.zero_add,
    Nat.add_mul_mod_self_left, Nat.mod_eq_of_lt field.value_lt]

/-! ## Bytes -/

theorem length_toBytes (count m : Nat) : (toBytes count m).length = count := by
  induction count with
  | zero => rfl
  | succ count ih => rw [toBytes, List.length_cons, ih]

theorem toNat_getD_toBytes (count m : Nat) {i : Nat} (hi : i < count) :
    ((toBytes count m).getD i 0).toNat = bits m (8 * (count - 1 - i)) 8 := by
  induction count generalizing i with
  | zero => exact absurd hi (Nat.not_lt_zero i)
  | succ count ih =>
    cases i with
    | zero => exact toNat_ofNat (bits_lt m (8 * count) 8)
    | succ i =>
      have hindex : count + 1 - 1 - (i + 1) = count - 1 - i := by omega
      rw [toBytes, List.getD_cons_succ, ih (Nat.lt_of_succ_lt_succ hi), hindex]

theorem bits_bits {lo' n' : Nat} (hle : lo' + n' ≤ n) : bits (bits m lo n) lo' n' = bits m (lo + lo') n' := by
  obtain ⟨rest, rfl⟩ := Nat.exists_eq_add_of_le hle
  unfold bits
  rw [Nat.pow_add, Nat.pow_add, Nat.mul_assoc, Nat.mod_mul_right_div_self, Nat.div_div_eq_div_mul, ← Nat.pow_add,
    Nat.mod_mul_right_mod]

/-- Bits next to each other. -/
theorem bits_or (m lo n k : Nat) : bits m (lo + n) k <<< n ||| bits m lo n = bits m lo (n + k) := by
  rw [shiftLeft_or (bits_lt m lo n)]
  unfold bits
  rw [Nat.pow_add, Nat.pow_add, Nat.mod_mul, Nat.div_div_eq_div_mul, Nat.add_comm, Nat.mul_comm]

theorem bits_or_shiftLeft (m lo n k s : Nat) :
    bits m (lo + n) k <<< (n + s) ||| bits m lo n <<< s = bits m lo (n + k) <<< s := by
  rw [Nat.shiftLeft_add, ← Nat.shiftLeft_or_distrib, bits_or]

/-- Shifted within a word of `w` bits. -/
theorem bits_shiftLeft_mod {w : Nat} (hle : n + k ≤ w) : bits m lo n <<< k % 2 ^ w = bits m lo n <<< k := by
  refine Nat.mod_eq_of_lt ?_
  rw [Nat.shiftLeft_eq]
  calc bits m lo n * 2 ^ k < 2 ^ n * 2 ^ k := Nat.mul_lt_mul_of_pos_right (bits_lt m lo n) (Nat.two_pow_pos k)
    _ = 2 ^ (n + k) := (Nat.pow_add 2 n k).symm
    _ ≤ 2 ^ w := Nat.pow_le_pow_right (by decide) hle

/-- A mask and a shift. -/
theorem bits_and_shiftRight {lo' n' : Nat} (hmask : mask >>> lo' = 2 ^ n' - 1) (hle : lo' + n' ≤ n) :
    (bits m lo n &&& mask) >>> lo' = bits m (lo + lo') n' := by
  rw [Nat.shiftRight_and_distrib, hmask, Nat.and_two_pow_sub_one_eq_mod, Nat.shiftRight_eq_div_pow]
  exact bits_bits hle

end Bits

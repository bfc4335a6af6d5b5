import Mathlib.Algebra.Polynomial.Div
import Mathlib.Algebra.CharP.Two
import Mathlib.Algebra.Field.ZMod
import Mathlib.RingTheory.Coprime.Lemmas

/-!
# Crc.Remainder

Cyclic redundancy checks of any width: a shift register over bit vectors, against division of polynomials
over the field with two elements.

* `remainder`: the register after a message, a byte at a time.
* `poly_remainder`: it holds the message times `X ^ w`, modulo the generator.
* `codeword_iff`: the generator divides exactly the messages that leave the register empty.
* `remainder_snoc_eq_zero`: for one byte of check, those that end in the register before it.
-/

namespace Crc

open Polynomial

variable {w : Nat}

/-! ## The register -/

/-- One place to the left; the bit that is pushed out brings in the generator. -/
def shift (g r : BitVec w) : BitVec w := if r.msb then r <<< 1 ^^^ g else r <<< 1

/-- A byte in the topmost places. -/
def top (w : Nat) (byte : UInt8) : BitVec w := BitVec.ofNat w (byte.toNat <<< (w - 8))

def step (g r : BitVec w) (byte : UInt8) : BitVec w := Nat.iterate (shift g) 8 (r ^^^ top w byte)

def remainder (g : BitVec w) (data : List UInt8) : BitVec w := data.foldl (step g) 0

/-! ## Polynomials -/

/-- The bits are the coefficients. -/
noncomputable def poly (r : BitVec w) : (ZMod 2)[X] :=
  ∑ i ∈ Finset.range w, if r.getLsbD i then X ^ i else 0

/-- The leading term is not part of the vector. -/
noncomputable def generator (g : BitVec w) : (ZMod 2)[X] := X ^ w + poly g

/-- A byte string, the first bit with the highest power. -/
noncomputable def message (data : List UInt8) : (ZMod 2)[X] :=
  data.foldl (fun p byte => p * X ^ 8 + poly byte.toBitVec) 0

/-- The generator divides the message. -/
def Codeword (g : BitVec w) (data : List UInt8) : Prop := generator g ∣ message data

theorem coeff_poly (r : BitVec w) (i : Nat) : (poly r).coeff i = if r.getLsbD i then 1 else 0 := by
  rw [poly, finsetSum_coeff]
  have hterm : ∀ j ∈ Finset.range w, (if r.getLsbD j then (X : (ZMod 2)[X]) ^ j else 0).coeff i =
      if j = i then (if r.getLsbD i then 1 else 0) else 0 := by
    intro j _
    by_cases hj : j = i
    · subst hj
      cases r.getLsbD j <;> simp
    · rw [if_neg hj]
      cases r.getLsbD j
      · simp
      · simp [coeff_X_pow, Ne.symm hj]
  rw [Finset.sum_congr rfl hterm, Finset.sum_ite_eq']
  by_cases hi : i < w
  · rw [if_pos (Finset.mem_range.2 hi)]
  · rw [if_neg (by simpa using hi), BitVec.getLsbD_of_ge r i (by omega)]
    rfl

theorem degree_poly_lt (r : BitVec w) : (poly r).degree < w := by
  rw [degree_lt_iff_coeff_zero]
  intro i hi
  rw [coeff_poly, BitVec.getLsbD_of_ge r i hi]
  rfl

theorem poly_injective : Function.Injective (poly (w := w)) := by
  intro r s h
  refine BitVec.eq_of_getLsbD_eq fun i _ => ?_
  have hcoeff : (poly r).coeff i = (poly s).coeff i := by rw [h]
  rw [coeff_poly, coeff_poly] at hcoeff
  revert hcoeff
  cases r.getLsbD i <;> cases s.getLsbD i <;> simp

theorem poly_zero : poly (0 : BitVec w) = 0 := by
  ext i
  rw [coeff_poly]
  simp

theorem poly_xor (r s : BitVec w) : poly (r ^^^ s) = poly r + poly s := by
  ext i
  rw [coeff_add, coeff_poly, coeff_poly, coeff_poly, BitVec.getLsbD_xor]
  cases r.getLsbD i <;> cases s.getLsbD i <;> decide

theorem poly_shiftLeft_one (hw : 0 < w) (r : BitVec w) :
    poly (r <<< 1) = X * poly r + if r.msb then X ^ w else 0 := by
  ext i
  have hmsb : r.msb = r.getLsbD (w - 1) := BitVec.msb_eq_getLsbD_last r
  cases i with
  | zero =>
    rw [coeff_add, coeff_poly, mul_coeff_zero, coeff_X_zero, zero_mul]
    cases r.msb <;> simp [hw.ne]
  | succ i =>
    rw [coeff_add, coeff_poly, coeff_X_mul, coeff_poly, BitVec.getLsbD_shiftLeft, hmsb]
    rcases Nat.lt_trichotomy (i + 1) w with hi | hi | hi
    · have hne : w ≠ i + 1 := by omega
      cases r.getLsbD (w - 1) <;> simp [hi, coeff_X_pow, hne.symm]
    · subst hi
      have hlast : r.getLsbD (i + 1 - 1) = r.getLsbD i := rfl
      rw [hlast]
      cases r.getLsbD i <;> simp [CharTwo.add_self_eq_zero]
    · have hout : r.getLsbD i = false := BitVec.getLsbD_of_ge r i (by omega)
      have hne : i + 1 ≠ w := by omega
      cases r.getLsbD (w - 1) <;> simp [hout, coeff_X_pow, hne]

/-- A shift is multiplication by `X`, modulo the generator. -/
theorem poly_shift (hw : 0 < w) (g r : BitVec w) :
    ∃ q, poly (shift g r) = X * poly r + q * generator g := by
  unfold shift
  cases hmsb : r.msb with
  | false =>
    refine ⟨0, ?_⟩
    have hshift := poly_shiftLeft_one hw r
    rw [hmsb, if_neg Bool.false_ne_true, add_zero] at hshift
    rw [if_neg Bool.false_ne_true, hshift, zero_mul, add_zero]
  | true =>
    refine ⟨1, ?_⟩
    have hshift := poly_shiftLeft_one hw r
    rw [hmsb, if_pos rfl] at hshift
    rw [if_pos rfl, poly_xor, hshift, generator]
    ring

theorem poly_iterate_shift (hw : 0 < w) (g r : BitVec w) (n : Nat) :
    ∃ q, poly (Nat.iterate (shift g) n r) = X ^ n * poly r + q * generator g := by
  induction n generalizing r with
  | zero =>
    refine ⟨0, ?_⟩
    rw [Function.iterate_zero_apply]
    ring
  | succ n ih =>
    obtain ⟨q, hq⟩ := poly_shift hw g r
    obtain ⟨q', hq'⟩ := ih (shift g r)
    refine ⟨X ^ n * q + q', ?_⟩
    rw [Function.iterate_succ_apply, hq', hq]
    ring

theorem poly_top (hw : 8 ≤ w) (byte : UInt8) : poly (top w byte) = X ^ (w - 8) * poly byte.toBitVec := by
  ext i
  rw [coeff_poly, top, BitVec.getLsbD_ofNat, Nat.testBit_shiftLeft, coeff_X_pow_mul', coeff_poly]
  by_cases hi : w - 8 ≤ i
  · have hbit : byte.toBitVec.getLsbD (i - (w - 8)) = byte.toNat.testBit (i - (w - 8)) := rfl
    rw [if_pos hi, hbit]
    by_cases hlt : i < w
    · simp [hlt, hi]
    · have hout : byte.toNat.testBit (i - (w - 8)) = false :=
        Nat.testBit_lt_two_pow (Nat.lt_of_lt_of_le byte.toNat_lt (Nat.pow_le_pow_right (by omega) (by omega)))
      simp [hout]
  · rw [if_neg hi]
    simp [hi]

theorem message_snoc (data : List UInt8) (byte : UInt8) :
    message (data ++ [byte]) = message data * X ^ 8 + poly byte.toBitVec := by
  rw [message, List.foldl_append]
  rfl

theorem remainder_snoc (g : BitVec w) (data : List UInt8) (byte : UInt8) :
    remainder g (data ++ [byte]) = step g (remainder g data) byte := by
  rw [remainder, List.foldl_append]
  rfl

/-- The register holds the message times `X ^ w`, modulo the generator. -/
theorem poly_remainder (hw : 8 ≤ w) (g : BitVec w) (data : List UInt8) :
    ∃ q, poly (remainder g data) = message data * X ^ w + q * generator g := by
  induction data using List.reverseRecOn with
  | nil =>
    refine ⟨0, ?_⟩
    have hempty : poly (remainder g []) = 0 := poly_zero
    rw [hempty, message, List.foldl_nil]
    ring
  | append_singleton data byte ih =>
    obtain ⟨q, hq⟩ := ih
    obtain ⟨q', hq'⟩ := poly_iterate_shift (by omega) g (remainder g data ^^^ top w byte) 8
    refine ⟨X ^ 8 * q + q', ?_⟩
    have hpow : (X : (ZMod 2)[X]) ^ w = X ^ 8 * X ^ (w - 8) := by
      rw [← pow_add]
      congr 1
      omega
    rw [remainder_snoc, step, hq', poly_xor, hq, poly_top hw, message_snoc, hpow]
    ring

/-! ## Codewords -/

theorem monic_generator (g : BitVec w) : (generator g).Monic :=
  monic_X_pow_add (degree_poly_lt g)

theorem degree_generator (g : BitVec w) : (generator g).degree = w := by
  rw [generator, degree_add_eq_left_of_degree_lt] <;> rw [degree_X_pow]
  exact degree_poly_lt g

theorem generator_dvd_poly (g r : BitVec w) : generator g ∣ poly r ↔ r = 0 := by
  constructor
  · intro h
    refine poly_injective (Eq.trans ?_ poly_zero.symm)
    by_contra hne
    refine (monic_generator g).not_dvd_of_degree_lt hne ?_ h
    rw [degree_generator]
    exact degree_poly_lt r
  · rintro rfl
    rw [poly_zero]
    exact dvd_zero _

/-- A generator that ends in 1 has no factor in common with `X`. -/
theorem isCoprime_generator {g : BitVec w} (hw : 0 < w) (hg : g.getLsbD 0 = true) :
    IsCoprime (generator g) (X ^ w) := by
  refine IsCoprime.pow_right ?_
  have hcoeff : (generator g).coeff 0 = 1 := by
    rw [generator, coeff_add, coeff_poly, hg, coeff_X_pow, if_neg hw.ne, if_pos rfl, zero_add]
  have hsplit := X_mul_divX_add (generator g)
  rw [hcoeff, C_1] at hsplit
  refine ⟨1, -divX (generator g), ?_⟩
  nth_rewrite 1 [← hsplit]
  ring

theorem codeword_iff {g : BitVec w} (hw : 8 ≤ w) (hg : g.getLsbD 0 = true) {data : List UInt8} :
    Codeword g data ↔ remainder g data = 0 := by
  obtain ⟨q, hq⟩ := poly_remainder hw g data
  have hcoprime := isCoprime_generator (by omega) hg
  rw [← generator_dvd_poly g, hq, dvd_add_left (dvd_mul_left _ q), Codeword]
  exact ⟨fun h => h.mul_right _, fun h => hcoprime.dvd_of_dvd_mul_right h⟩

theorem shift_eq_zero {g r : BitVec w} (hw : 0 < w) (hg : g.getLsbD 0 = true) :
    shift g r = 0 ↔ r = 0 := by
  have hcoprime : IsCoprime (generator g) X := by
    have hpow := isCoprime_generator hw hg
    exact hpow.of_isCoprime_of_dvd_right (dvd_pow_self X hw.ne')
  obtain ⟨q, hq⟩ := poly_shift hw g r
  rw [← generator_dvd_poly g, ← generator_dvd_poly g, hq, dvd_add_left (dvd_mul_left _ q)]
  exact ⟨fun h => hcoprime.dvd_of_dvd_mul_left h, fun h => h.mul_left _⟩

theorem iterate_shift_eq_zero {g r : BitVec w} (hw : 0 < w) (hg : g.getLsbD 0 = true) (n : Nat) :
    Nat.iterate (shift g) n r = 0 ↔ r = 0 := by
  induction n generalizing r with
  | zero => rfl
  | succ n ih => rw [Function.iterate_succ_apply, ih, shift_eq_zero hw hg]

theorem top_eight (byte : UInt8) : top 8 byte = byte.toBitVec := by
  refine BitVec.eq_of_toNat_eq ?_
  rw [top, BitVec.toNat_ofNat, Nat.sub_self, Nat.shiftLeft_zero]
  exact Nat.mod_eq_of_lt byte.toNat_lt

/-- One byte of check is the register before it. -/
theorem remainder_snoc_eq_zero {g : BitVec 8} (hg : g.getLsbD 0 = true) {data : List UInt8}
    {check : UInt8} : remainder g (data ++ [check]) = 0 ↔ check.toBitVec = remainder g data := by
  rw [remainder_snoc, step, iterate_shift_eq_zero (by decide) hg, top_eight]
  constructor
  · intro h
    exact (BitVec.xor_eq_zero_iff.1 h).symm
  · intro h
    exact BitVec.xor_eq_zero_iff.2 h.symm

end Crc

import Mathlib.Data.List.Basic

/-!
# Text.Hex

Bytes as hexadecimal digits. `encode` writes lower case, `decode` takes both cases.
-/

namespace Hex

def digits (b : UInt8) : List Char := [Nat.digitChar (b.toNat / 16), Nat.digitChar (b.toNat % 16)]

def encode (bs : List UInt8) : String := String.ofList (bs.flatMap digits)

def value (c : Char) : Option Nat :=
  if '0' ≤ c ∧ c ≤ '9' then some (c.toNat - 48)
  else if 'a' ≤ c ∧ c ≤ 'f' then some (c.toNat - 87)
  else if 'A' ≤ c ∧ c ≤ 'F' then some (c.toNat - 55)
  else none

def decodeChars : List Char → Option (List UInt8)
  | [] => some []
  | [_] => none
  | hi :: lo :: rest => do
    let hi ← value hi
    let lo ← value lo
    let bs ← decodeChars rest
    some (UInt8.ofNat (16 * hi + lo) :: bs)

def decode (s : String) : Option (List UInt8) := decodeChars s.toList

theorem value_digitChar {n : Nat} (h : n < 16) : value (Nat.digitChar n) = some n := by
  have hall : ∀ n : Fin 16, value (Nat.digitChar n) = some n.val := by decide
  exact hall ⟨n, h⟩

theorem digitChar_plain {n : Nat} (h : n < 16) : (Nat.digitChar n).isAlphanum := by
  have hall : ∀ n : Fin 16, (Nat.digitChar n).isAlphanum := by decide
  exact hall ⟨n, h⟩

theorem decodeChars_digits (b : UInt8) (rest : List Char) :
    decodeChars (digits b ++ rest) = (decodeChars rest).map (b :: ·) := by
  have hb := b.toNat_lt
  have hbyte : UInt8.ofNat (16 * (b.toNat / 16) + b.toNat % 16) = b := by
    rw [Nat.div_add_mod, UInt8.ofNat_toNat]
  show decodeChars (_ :: _ :: rest) = _
  rw [decodeChars, value_digitChar (by omega), value_digitChar (by omega)]
  cases h : decodeChars rest with
  | none => rfl
  | some bs => exact congrArg (fun byte => some (byte :: bs)) hbyte

theorem decode_encode (bs : List UInt8) : decode (encode bs) = some bs := by
  rw [decode, encode, String.toList_ofList]
  induction bs with
  | nil => rfl
  | cons b bs ih => rw [List.flatMap_cons, decodeChars_digits, ih, Option.map_some]

/-- Letters and digits only. -/
theorem isAlphanum_of_mem_encode {bs : List UInt8} {c : Char} (h : c ∈ (encode bs).toList) :
    c.isAlphanum := by
  rw [encode, String.toList_ofList, List.mem_flatMap] at h
  obtain ⟨b, -, hc⟩ := h
  have hb := b.toNat_lt
  rcases List.mem_cons.1 hc with rfl | hc
  · exact digitChar_plain (by omega)
  · rw [List.mem_singleton.1 hc]
    exact digitChar_plain (by omega)

end Hex

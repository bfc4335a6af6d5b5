import Mathlib.Data.List.Basic

/-!
# Text.Percent

Percent-decoding: a `%` and two hexadecimal digits stand for a byte, all other bytes for themselves,
and the bytes that result have to be UTF-8.

* `decode_eq_some_iff`: a string decodes to `t` exactly if its bytes decode to those of `t`.
* `decode_of_not_mem`: a string without `%` decodes to itself.
* `isUtf8_append`: an ASCII byte parts UTF-8 into UTF-8.
-/

namespace Percent

/-- The UTF-8 bytes of a string. -/
def bytes (s : String) : List UInt8 := s.toList.flatMap String.utf8EncodeChar

/-- The string with these bytes, if they are UTF-8. -/
def ofBytes (bs : List UInt8) : Option String := String.fromUTF8? bs.toByteArray

/-- The byte of `%`. -/
def sign : UInt8 := 37

def hexValue (b : UInt8) : Option UInt8 :=
  if 48 ≤ b ∧ b ≤ 57 then some (b - 48)
  else if 65 ≤ b ∧ b ≤ 70 then some (b - 55)
  else if 97 ≤ b ∧ b ≤ 102 then some (b - 87)
  else none

def hexPair (hi lo : UInt8) : Option UInt8 := do
  let hi ← hexValue hi
  let lo ← hexValue lo
  some (16 * hi + lo)

def decodeBytes : List UInt8 → List UInt8
  | b :: hi :: lo :: rest =>
    if b = sign then
      match hexPair hi lo with
      | some byte => byte :: decodeBytes rest
      | none => b :: decodeBytes (hi :: lo :: rest)
    else b :: decodeBytes (hi :: lo :: rest)
  | bs => bs

def decode (s : String) : Option String := ofBytes (decodeBytes (bytes s))

/-- Digits from 10 on are upper case. -/
def digit (n : Nat) : Char := (Nat.digitChar n).toUpper

def escape (b : UInt8) : List Char := ['%', digit (b.toNat / 16), digit (b.toNat % 16)]

/-- Characters that are not kept are written as escapes of their bytes. -/
def encodeChar (keep : Char → Bool) (c : Char) : List Char :=
  if keep c then [c] else (String.utf8EncodeChar c).flatMap escape

def encode (keep : Char → Bool) (s : String) : String := String.ofList (s.toList.flatMap (encodeChar keep))

def IsUtf8 (bs : List UInt8) : Prop := ∃ s, bs = bytes s

variable {s t : String} {bs : List UInt8}

theorem toByteArray_bytes (s : String) : (bytes s).toByteArray = s.toByteArray :=
  String.utf8Encode_toList

theorem bytes_injective (h : bytes s = bytes t) : s = t := by
  rw [← String.toByteArray_inj, ← toByteArray_bytes, ← toByteArray_bytes, h]

theorem ofBytes_eq_some_iff : ofBytes bs = some t ↔ bs = bytes t := by
  unfold ofBytes String.fromUTF8?
  split
  · rename_i hvalid
    rw [Option.some.injEq, ← String.toByteArray_inj, ← toByteArray_bytes t, ← List.toByteArray_inj]
    exact Iff.rfl
  · rename_i hvalid
    refine iff_of_false (fun h => nomatch h) fun h => hvalid ?_
    rw [h, toByteArray_bytes]
    exact t.isValidUTF8

theorem decode_eq_some_iff : decode s = some t ↔ decodeBytes (bytes s) = bytes t :=
  ofBytes_eq_some_iff

/-- Nothing decodes to the empty string but itself. -/
theorem eq_empty_of_decode (h : decode s = some "") : s = "" := by
  rw [decode_eq_some_iff] at h
  refine bytes_injective ?_
  generalize bytes s = bs at h ⊢
  change decodeBytes bs = [] at h
  show bs = []
  fun_cases decodeBytes bs <;> simp_all [decodeBytes]

theorem decodeBytes_of_not_mem (h : sign ∉ bs) : decodeBytes bs = bs := by
  fun_induction decodeBytes bs with
  | case1 hi lo rest byte hpair ih => exact absurd List.mem_cons_self h
  | case2 hi lo rest hpair ih => exact absurd List.mem_cons_self h
  | case3 b hi lo rest hb ih => rw [ih fun hmem => h (List.mem_cons_of_mem _ hmem)]
  | case4 bs hshort => rfl

/-- The first byte of a character says how many follow, and the bytes that follow are 128 or more. -/
theorem utf8EncodeChar_cases (c : Char) :
    (∃ b, String.utf8EncodeChar c = [b] ∧ b.toNat = c.toNat ∧ b.toNat < 128) ∨
      128 ≤ c.toNat ∧ ∃ b bs, String.utf8EncodeChar c = b :: bs ∧ 192 ≤ b.toNat ∧ ∀ x ∈ bs, 128 ≤ x.toNat := by
  unfold String.utf8EncodeChar
  dsimp only
  have hchar : c.toNat = c.val.toNat := rfl
  have hof : ∀ n < 256, (UInt8.ofNat n).toNat = n := fun n hn => UInt8.toNat_ofNat_of_lt' hn
  have hfollow : ∀ n, 128 ≤ (UInt8.ofNat (n % 64 + 128)).toNat := by
    intro n
    rw [hof _ (by omega)]
    omega
  split
  · left
    refine ⟨_, rfl, ?_, ?_⟩
    · rw [hof _ (by omega), hchar]
    · rw [hof _ (by omega)]
      omega
  · right
    refine ⟨by omega, ?_⟩
    split
    · refine ⟨_, _, rfl, ?_, ?_⟩
      · rw [hof _ (by omega)]
        omega
      · simp only [List.mem_cons, List.not_mem_nil, or_false, forall_eq]
        exact hfollow _
    · split
      · refine ⟨_, _, rfl, ?_, ?_⟩
        · rw [hof _ (by omega)]
          omega
        · simp only [List.mem_cons, List.not_mem_nil, or_false, forall_eq_or_imp, forall_eq]
          exact ⟨hfollow _, hfollow _⟩
      · refine ⟨_, _, rfl, ?_, ?_⟩
        · rw [hof _ (by omega)]
          omega
        · simp only [List.mem_cons, List.not_mem_nil, or_false, forall_eq_or_imp, forall_eq]
          exact ⟨hfollow _, hfollow _, hfollow _⟩

/-- A byte below 128 is a character. -/
theorem eq_of_ascii_mem {c : Char} {b : UInt8} (h : b ∈ String.utf8EncodeChar c) (hb : b.toNat < 128) :
    String.utf8EncodeChar c = [b] ∧ c.toNat = b.toNat := by
  rcases utf8EncodeChar_cases c with ⟨x, hx, hval, -⟩ | ⟨-, x, xs, hx, hfirst, hrest⟩
  · rw [hx, List.mem_singleton] at h
    exact ⟨h ▸ hx, h ▸ hval.symm⟩
  · rw [hx] at h
    rcases List.mem_cons.1 h with rfl | h
    · omega
    · exact absurd (hrest b h) (by omega)

/-- No other character has the byte of `%` in its encoding. -/
theorem eq_of_sign_mem {c : Char} (h : sign ∈ String.utf8EncodeChar c) : c = '%' := by
  have hval := (eq_of_ascii_mem h (by decide)).2
  exact Char.ext (UInt32.toNat_inj.1 hval)

theorem decode_of_not_mem (h : '%' ∉ s.toList) : decode s = some s := by
  rw [decode_eq_some_iff]
  refine decodeBytes_of_not_mem fun hmem => ?_
  obtain ⟨c, hc, hbyte⟩ := List.mem_flatMap.1 hmem
  exact h (eq_of_sign_mem hbyte ▸ hc)

/-! ## Bytes -/

theorem bytes_ofList (cs : List Char) : bytes (String.ofList cs) = cs.flatMap String.utf8EncodeChar := by
  rw [bytes, String.toList_ofList]

theorem isSome_ofBytes : (ofBytes bs).isSome ↔ IsUtf8 bs := by
  rw [Option.isSome_iff_exists]
  exact exists_congr fun s => ofBytes_eq_some_iff

theorem isUtf8_flatMap (cs : List Char) : IsUtf8 (cs.flatMap String.utf8EncodeChar) :=
  ⟨String.ofList cs, (bytes_ofList cs).symm⟩

theorem IsUtf8.append {xs ys : List UInt8} (hxs : IsUtf8 xs) (hys : IsUtf8 ys) : IsUtf8 (xs ++ ys) := by
  obtain ⟨s, rfl⟩ := hxs
  obtain ⟨t, rfl⟩ := hys
  rw [bytes, bytes, ← List.flatMap_append]
  exact isUtf8_flatMap _

theorem isUtf8_char (c : Char) : IsUtf8 (String.utf8EncodeChar c) := by
  have hone := isUtf8_flatMap [c]
  rwa [List.flatMap_singleton] at hone

theorem isUtf8_ascii {a : UInt8} (ha : a.toNat < 128) : IsUtf8 [a] := by
  have hvalid : a.toNat.isValidChar := .inl (by omega)
  have hval : (Char.ofNat a.toNat).toNat = a.toNat := by
    rw [Char.ofNat, dif_pos hvalid]
    rfl
  rcases utf8EncodeChar_cases (Char.ofNat a.toNat) with ⟨b, hb, hsame, -⟩ | ⟨hlarge, -⟩
  · have heq : b = a := UInt8.toNat_inj.1 (hsame.trans hval)
    have hchar := isUtf8_char (Char.ofNat a.toNat)
    rwa [hb, heq] at hchar
  · omega

/-- An ASCII byte parts UTF-8 into UTF-8. -/
theorem isUtf8_append {xs ys : List UInt8} {a : UInt8} (ha : a.toNat < 128) :
    IsUtf8 (xs ++ a :: ys) ↔ IsUtf8 xs ∧ IsUtf8 ys := by
  constructor
  · rintro ⟨s, hs⟩
    rw [bytes] at hs
    generalize s.toList = cs at hs
    induction cs generalizing xs with
    | nil => exact absurd hs (by simp)
    | cons c cs ih =>
      rw [List.flatMap_cons] at hs
      rcases List.append_eq_append_iff.1 hs with ⟨zs, hchar, hrest⟩ | ⟨zs, rfl, hrest⟩
      · cases zs with
        | nil =>
          rw [List.append_nil] at hchar
          exact ⟨hchar ▸ isUtf8_char c, (@ih [] hrest).2⟩
        | cons z zs =>
          -- the byte is in the character, which therefore is all of it
          obtain rfl : z = a := (List.cons.inj hrest).1.symm
          have hmem : z ∈ String.utf8EncodeChar c := by
            rw [hchar]
            exact List.mem_append_right _ List.mem_cons_self
          rw [(eq_of_ascii_mem hmem ha).1] at hchar
          have hlength := congrArg List.length hchar
          rw [List.length_singleton, List.length_append, List.length_cons] at hlength
          obtain rfl : xs = [] := List.length_eq_zero_iff.1 (by omega)
          obtain rfl : zs = [] := List.length_eq_zero_iff.1 (by omega)
          refine ⟨⟨"", rfl⟩, ?_⟩
          rw [(List.cons.inj hrest).2]
          exact isUtf8_flatMap cs
      · obtain ⟨hzs, hys⟩ := ih hrest.symm
        exact ⟨(isUtf8_char c).append hzs, hys⟩
  · rintro ⟨hxs, hys⟩
    exact hxs.append ((isUtf8_ascii ha).append hys)

/-- No string begins within a character. -/
theorem head_bytes (cs : List Char) {b : UInt8} (h : (cs.flatMap String.utf8EncodeChar).head? = some b) :
    b.toNat < 128 ∨ 192 ≤ b.toNat := by
  cases cs with
  | nil => cases h
  | cons c cs =>
    rw [List.flatMap_cons] at h
    rcases utf8EncodeChar_cases c with ⟨x, hx, -, hsmall⟩ | ⟨-, x, xs, hx, hfirst, -⟩
    · rw [hx] at h
      exact .inl (Option.some.inj h ▸ hsmall)
    · rw [hx] at h
      exact .inr (Option.some.inj h ▸ hfirst)

/-- An escape is three bytes, which stand for one. -/
theorem bytes_escape (b : UInt8) : ∃ hi lo, (escape b).flatMap String.utf8EncodeChar = [sign, hi, lo] ∧
    hexPair hi lo = some b := by
  have hdigit : ∀ n : Fin 16, ∃ x, String.utf8EncodeChar (digit n) = [x] ∧ hexValue x = some (UInt8.ofNat n) := by
    intro n
    refine ⟨UInt8.ofNat (digit n).toNat, ?_⟩
    revert n
    decide
  have hb := b.toNat_lt
  obtain ⟨hi, hhi, hhigh⟩ := hdigit ⟨b.toNat / 16, by omega⟩
  obtain ⟨lo, hlo, hlow⟩ := hdigit ⟨b.toNat % 16, by omega⟩
  refine ⟨hi, lo, ?_, ?_⟩
  · simp only [escape, List.flatMap_cons, List.flatMap_nil, hhi, hlo]
    rfl
  · rw [hexPair, hhigh, hlow]
    refine congrArg some (UInt8.toNat_inj.1 ?_)
    simp
    omega

end Percent

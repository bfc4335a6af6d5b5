import Kanade.Ws.MediaFile

/-!
# Kanade.Ws.PercentDecode

`percent_decode`, of which the two servers have a copy each, against percent-decoding as it is meant, and
against the encoder of the web client.

* `percentDecode_iff`: when the two agree. A slice may cut a character, and a single digit may have a sign.
* `percentDecode_encodeURIComponent`: what the client encodes is decoded to what it was.
-/

namespace Kanade

/-! ## The copy of `media_server.rs` -/

namespace MediaServer

def percentDecodeLoop : List UInt8 → Option (List UInt8)
  | b :: x :: y :: rest =>
    if b = Percent.sign then
      if rest.head?.any isContinuation then none
      else
        match fromHex x y with
        | some byte => (percentDecodeLoop rest).map (byte :: ·)
        | none => (percentDecodeLoop (x :: y :: rest)).map (b :: ·)
    else (percentDecodeLoop (x :: y :: rest)).map (b :: ·)
  | bs => some bs

/-- `none` is the panic. -/
def percentDecode (input : String) : Option String :=
  (percentDecodeLoop (Percent.bytes input)).map fun result => (Percent.ofBytes result).getD ""

end MediaServer

theorem percentDecodeLoop_copies (bs : List UInt8) : MediaServer.percentDecodeLoop bs = percentDecodeLoop bs := by
  fun_induction percentDecodeLoop bs with
  | case1 x y rest hcut => rw [MediaServer.percentDecodeLoop, if_pos rfl, if_pos hcut]
  | case2 x y rest hcut byte hbyte ih =>
    rw [MediaServer.percentDecodeLoop, if_pos rfl, if_neg hcut, hbyte]
    simp only [ih]
  | case3 x y rest hcut hnone ih =>
    rw [MediaServer.percentDecodeLoop, if_pos rfl, if_neg hcut, hnone]
    simp only [ih]
  | case4 b x y rest hb ih => rw [MediaServer.percentDecodeLoop, if_neg hb, ih]
  | case5 bs hshort =>
    rcases bs with _ | ⟨b, _ | ⟨x, _ | ⟨y, rest⟩⟩⟩
    · rfl
    · rfl
    · rfl
    · exact absurd rfl (hshort b x y rest)

theorem percentDecode_copies (input : String) : MediaServer.percentDecode input = percentDecode input := by
  rw [MediaServer.percentDecode, percentDecode, percentDecodeLoop_copies]

/-! ## As it is meant -/

section Reference

variable {x y byte : UInt8} {bs rest ts : List UInt8}

theorem fromHex_of_plain (h : isSignedDigit x y = false) : fromHex x y = Percent.hexPair x y := by
  unfold fromHex
  split
  · rename_i hx
    subst hx
    have hnone : Percent.hexValue y = none := by simpa [isSignedDigit] using h
    rw [hnone, hexPair_plus]
  · rfl

theorem plain_of_countEscapes (h : countEscapes isSignedDigit (Percent.sign :: x :: y :: rest) = 0) :
    isSignedDigit x y = false ∧ countEscapes isSignedDigit (x :: y :: rest) = 0 := by
  rw [countEscapes_sign] at h
  refine ⟨?_, by omega⟩
  by_contra hne
  rw [if_pos (by simpa [ahead] using hne)] at h
  omega

/-- Without signed digits the loop decodes as it should. -/
theorem loop_eq_decodeBytes (h : percentDecodeLoop bs = some ts) (hsigned : countEscapes isSignedDigit bs = 0) :
    ts = Percent.decodeBytes bs := by
  fun_induction percentDecodeLoop bs generalizing ts with
  | case1 x y rest hcut => cases h
  | case2 x y rest hcut byte hbyte ih =>
    obtain ⟨hx, hy⟩ := fromHex_ne_sign hbyte
    obtain ⟨us, hus, rfl⟩ := Option.map_eq_some_iff.1 h
    obtain ⟨hplain, hsigned⟩ := plain_of_countEscapes hsigned
    rw [countEscapes_cons_ne hx, countEscapes_cons_ne hy] at hsigned
    rw [fromHex_of_plain hplain] at hbyte
    rw [Percent.decodeBytes, if_pos rfl, hbyte, ih hus hsigned]
  | case3 x y rest hcut hnone ih =>
    obtain ⟨us, hus, rfl⟩ := Option.map_eq_some_iff.1 h
    obtain ⟨hplain, hsigned⟩ := plain_of_countEscapes hsigned
    rw [fromHex_of_plain hplain] at hnone
    rw [Percent.decodeBytes, if_pos rfl, hnone, ih hus hsigned]
  | case4 b x y rest hb ih =>
    obtain ⟨us, hus, rfl⟩ := Option.map_eq_some_iff.1 h
    rw [countEscapes_cons_ne hb] at hsigned
    rw [decodeBytes_cons_ne hb, ih hus hsigned]
  | case5 bs hshort =>
    cases h
    rcases bs with _ | ⟨b, _ | ⟨x, _ | ⟨y, rest⟩⟩⟩
    · rfl
    · rfl
    · rfl
    · exact absurd rfl (hshort b x y rest)

/-- Digits and their values are ASCII. -/
theorem toNat_of_hexValue (h : Percent.hexValue y = some byte) : byte.toNat < 128 ∧ y.toNat < 128 := by
  unfold Percent.hexValue at h
  simp only [UInt8.le_iff_toNat_le, UInt8.reduceToNat] at h
  split at h
  · obtain rfl := Option.some.inj h
    rw [UInt8.toNat_sub_of_le y 48 (by simp only [UInt8.le_iff_toNat_le, UInt8.reduceToNat]; omega)]
    omega
  · split at h
    · obtain rfl := Option.some.inj h
      rw [UInt8.toNat_sub_of_le y 55 (by simp only [UInt8.le_iff_toNat_le, UInt8.reduceToNat]; omega)]
      omega
    · split at h
      · obtain rfl := Option.some.inj h
        rw [UInt8.toNat_sub_of_le y 87 (by simp only [UInt8.le_iff_toNat_le, UInt8.reduceToNat]; omega)]
        omega
      · cases h

/-- A signed digit is read as one ASCII byte, where it is three: neither matters for what is around it. -/
theorem isUtf8_loop (h : percentDecodeLoop bs = some ts) (pre : List UInt8) :
    Percent.IsUtf8 (pre ++ ts) ↔ Percent.IsUtf8 (pre ++ Percent.decodeBytes bs) := by
  fun_induction percentDecodeLoop bs generalizing ts pre with
  | case1 x y rest hcut => cases h
  | case2 x y rest hcut byte hbyte ih =>
    obtain ⟨us, hus, rfl⟩ := Option.map_eq_some_iff.1 h
    by_cases hsigned : isSignedDigit x y
    · obtain ⟨rfl, hy⟩ : x = 43 ∧ (Percent.hexValue y).isSome := by simpa [isSignedDigit] using hsigned
      rw [fromHex, if_pos rfl] at hbyte
      obtain ⟨hbyte, hdigit⟩ := toNat_of_hexValue hbyte
      -- the sign, the plus and the digit part what is before them from what is behind
      rw [Percent.decodeBytes, if_pos rfl, hexPair_plus, decodeBytes_signed hy, Percent.isUtf8_append hbyte,
        Percent.isUtf8_append (by decide)]
      have hdigits := @Percent.isUtf8_append [43] (Percent.decodeBytes rest) y hdigit
      have hplus : Percent.IsUtf8 [43] := Percent.isUtf8_ascii (by decide)
      have hrest := ih hus []
      rw [List.nil_append, List.nil_append] at hrest
      rw [List.singleton_append] at hdigits
      rw [hdigits, hrest]
      simp only [hplus, true_and]
    · rw [Bool.not_eq_true] at hsigned
      rw [fromHex_of_plain hsigned] at hbyte
      have hrest := ih hus (pre ++ [byte])
      rw [List.append_assoc, List.append_assoc] at hrest
      rw [Percent.decodeBytes, if_pos rfl, hbyte]
      exact hrest
  | case3 x y rest hcut hnone ih =>
    obtain ⟨us, hus, rfl⟩ := Option.map_eq_some_iff.1 h
    have hpair : Percent.hexPair x y = none := by
      rw [fromHex] at hnone
      split at hnone
      · rename_i hx
        rw [hx, hexPair_plus]
      · exact hnone
    have hrest := ih hus (pre ++ [Percent.sign])
    rw [List.append_assoc, List.append_assoc] at hrest
    rw [Percent.decodeBytes, if_pos rfl, hpair]
    exact hrest
  | case4 b x y rest hb ih =>
    obtain ⟨us, hus, rfl⟩ := Option.map_eq_some_iff.1 h
    have hrest := ih hus (pre ++ [b])
    rw [List.append_assoc, List.append_assoc] at hrest
    rw [decodeBytes_cons_ne hb]
    exact hrest
  | case5 bs hshort =>
    cases h
    rcases bs with _ | ⟨b, _ | ⟨x, _ | ⟨y, rest⟩⟩⟩
    · exact Iff.rfl
    · exact Iff.rfl
    · exact Iff.rfl
    · exact absurd rfl (hshort b x y rest)

/-- Decoding is as it is meant exactly if no slice cuts a character, and if there is no `%` before a sign and a
digit or what is meant is not UTF-8 anyway. -/
theorem percentDecode_iff (input : String) :
    MediaServer.percentDecode input = percentDecode input ∧
      (percentDecode input = some ((Percent.decode input).getD "") ↔
        cutsCharacter (Percent.bytes input) = false ∧
          (countEscapes isSignedDigit (Percent.bytes input) = 0 ∨ Percent.decode input = none)) := by
  refine ⟨percentDecode_copies input, ?_⟩
  rw [percentDecode]
  cases hloop : percentDecodeLoop (Percent.bytes input) with
  | none =>
    refine iff_of_false (fun h => by cases h) fun h => ?_
    have hsome := (loop_isSome_iff _).2 h.1
    rw [hloop] at hsome
    cases hsome
  | some ts =>
    have hcut : cutsCharacter (Percent.bytes input) = false := (loop_isSome_iff _).1 (by rw [hloop]; rfl)
    have hutf8 : (Percent.ofBytes ts).isSome ↔ (Percent.decode input).isSome := by
      rw [Percent.isSome_ofBytes, Percent.decode, Percent.isSome_ofBytes]
      exact isUtf8_loop hloop []
    simp only [hcut, true_and, Option.map_some, Option.some.injEq]
    constructor
    · intro hsame
      cases hmeant : Percent.decode input with
      | none => exact .inr rfl
      | some t =>
        left
        rw [hmeant] at hutf8 hsame
        obtain ⟨u, hu⟩ := Option.isSome_iff_exists.1 (hutf8.2 rfl)
        rw [hu] at hsame
        obtain rfl : u = t := hsame
        -- every escape makes one byte of three, so there are as many as are meant
        have hlength := length_loop hloop
        have hmeantLength := length_decodeBytes (Percent.bytes input)
        rw [Percent.decode_eq_some_iff] at hmeant
        rw [Percent.ofBytes_eq_some_iff.1 hu, countEscapes_isEscape] at hlength
        rw [hmeant] at hmeantLength
        omega
    · intro h
      rcases h with hsigned | hnone
      · rw [loop_eq_decodeBytes hloop hsigned]
        rfl
      · rw [hnone] at hutf8 ⊢
        have hts : Percent.ofBytes ts = none := by simpa using hutf8
        rw [hts]

/-- `%€` panics, and `%+F` becomes the byte 15. -/
theorem percentDecode_sign : percentDecode "%€" = none ∧ percentDecode "%+F" ≠ some "%+F" ∧
    Percent.decode "%+F" = some "%+F" := by
  refine ⟨?_, ?_, ?_⟩
  · rw [percentDecode, Option.map_eq_none_iff]
    decide
  · intro h
    rw [percentDecode_eq_some_iff (by decide)] at h
    revert h
    decide
  · rw [Percent.decode_eq_some_iff]
    decide

end Reference

/-! ## encodeURIComponent -/

/-- `A-Z a-z 0-9 - _ . ! ~ * ' ( )`; the apostrophe is the character 39. -/
def isUriUnescaped (c : Char) : Bool :=
  c.isAlphanum || c ∈ ['-', '_', '.', '!', '~', '*', Char.ofNat 39, '(', ')']

def encodeURIComponent (s : String) : String := Percent.encode isUriUnescaped s

/-- No string continues a character. -/
theorem head_isContinuation (cs : List Char) :
    (cs.flatMap String.utf8EncodeChar).head?.any isContinuation = false := by
  cases hhead : (cs.flatMap String.utf8EncodeChar).head? with
  | none => rfl
  | some b =>
    have hb := Percent.head_bytes cs hhead
    have hno : ¬ (128 ≤ b.toNat ∧ b.toNat < 192) := by omega
    simpa only [Option.any_some, isContinuation, UInt8.le_iff_toNat_le, UInt8.lt_iff_toNat_lt, UInt8.reduceToNat,
      decide_eq_false_iff_not] using hno

theorem loop_append {xs : List UInt8} (h : Percent.sign ∉ xs) (ys : List UInt8) :
    percentDecodeLoop (xs ++ ys) = (percentDecodeLoop ys).map (xs ++ ·) := by
  induction xs with
  | nil => simp
  | cons x xs ih =>
    have hx : x ≠ Percent.sign := fun hx => h (hx ▸ List.mem_cons_self)
    have hxs : Percent.sign ∉ xs := fun hmem => h (List.mem_cons_of_mem _ hmem)
    rw [List.cons_append, loop_cons_ne hx, ih hxs, Option.map_map]
    rfl

/-- The escapes of some bytes are decoded to these bytes, whatever string is behind them. -/
theorem loop_escapes (bs : List UInt8) (cs : List Char) :
    percentDecodeLoop ((bs.flatMap Percent.escape ++ cs).flatMap String.utf8EncodeChar) =
      (percentDecodeLoop (cs.flatMap String.utf8EncodeChar)).map (bs ++ ·) := by
  induction bs with
  | nil => simp
  | cons b bs ih =>
    obtain ⟨hi, lo, hescape, hpair⟩ := Percent.bytes_escape b
    have hplus : hi ≠ 43 := by
      rintro rfl
      cases hpair
    have hbyte : fromHex hi lo = some b := by rw [fromHex, if_neg hplus, hpair]
    have hcut := head_isContinuation (bs.flatMap Percent.escape ++ cs)
    rw [List.flatMap_cons, List.append_assoc, List.flatMap_append, hescape]
    rw [List.cons_append, List.cons_append, List.cons_append, List.nil_append, loop_sign_escape hbyte hcut, ih,
      Option.map_map]
    rfl

theorem loop_encode (cs : List Char) :
    percentDecodeLoop ((cs.flatMap (Percent.encodeChar isUriUnescaped)).flatMap String.utf8EncodeChar) =
      some (cs.flatMap String.utf8EncodeChar) := by
  induction cs with
  | nil => rfl
  | cons c cs ih =>
    rw [List.flatMap_cons, List.flatMap_cons, Percent.encodeChar]
    split
    · rename_i hkept
      have hsign : Percent.sign ∉ String.utf8EncodeChar c := by
        intro hmem
        rw [Percent.eq_of_sign_mem hmem] at hkept
        revert hkept
        decide
      rw [List.singleton_append, List.flatMap_cons, loop_append hsign, ih]
      rfl
    · rw [loop_escapes, ih]
      rfl

/-- What the client encodes is decoded to what it was. -/
theorem percentDecode_encodeURIComponent (s : String) : percentDecode (encodeURIComponent s) = some s := by
  rw [percentDecode, encodeURIComponent, Percent.encode, Percent.bytes_ofList, loop_encode, Option.map_some]
  have hbytes : Percent.ofBytes (s.toList.flatMap String.utf8EncodeChar) = some s :=
    Percent.ofBytes_eq_some_iff.2 rfl
  rw [hbytes, Option.getD_some]

end Kanade

import Kanade.Ws.MediaAuth

/-!
# Kanade.Ws.MediaFile

Files by their paths: what `is_signable_media_path` checks and what `media_file_handler` serves.

The raw path is decoded once when it is signed. When it is requested, the router decodes it and then
the handler decodes what the router hands on.

`loop_decodeBytes_iff`: the two agree exactly if the router leaves no escape but those that it does not
know itself.
`served_iff`: then what is served is what was checked.
-/

namespace Kanade

/-! ## Escapes -/

/-- The next two bytes are `ok`. -/
def ahead (ok : UInt8 → UInt8 → Bool) : List UInt8 → Bool
  | x :: y :: _ => ok x y
  | _ => false

/-- The number of `%` before two bytes that are `ok`. -/
def countEscapes (ok : UInt8 → UInt8 → Bool) : List UInt8 → Nat
  | [] => 0
  | b :: bs => (if b = Percent.sign ∧ ahead ok bs then 1 else 0) + countEscapes ok bs

/-- An escape of the router. -/
def isHexPair (x y : UInt8) : Bool := (Percent.hexPair x y).isSome

/-- An escape of `percent_decode` that is none of the router: `%+5`. -/
def isSignedDigit (x y : UInt8) : Bool := x = 43 ∧ (Percent.hexValue y).isSome

/-- An escape of `percent_decode`. -/
def isEscape (x y : UInt8) : Bool := (fromHex x y).isSome

/-- Two bytes after a `%`, a character goes on. -/
def cutsCharacter : List UInt8 → Bool
  | [] => false
  | b :: bs => (b = Percent.sign ∧ (bs.drop 2).head?.any isContinuation) || cutsCharacter bs

/-! ## GET -/

/-- The path that the router hands on to `media_file_handler`. -/
def fileRoute (path : String) : Option (Option String) :=
  match stripPrefix "/media/file/" path with
  | none => none
  | some rawPath => if rawPath = "" then none else some (Percent.decode rawPath)

section Handler

variable (hmac : MediaKey → String → List UInt8) (store : MediaKeyStore) (now : UInt64)
  (library : MediaLibrary)

/-- The file that is served, or the status. `none` is the panic of `percent_decode`. -/
def mediaFileHandler (path canonicalPath : String) (authQuery : MediaAuthQuery) :
    Option (Except StatusCode String) :=
  match verifyMediaAuth hmac store now canonicalPath authQuery with
  | .error status => some (.error status)
  | .ok () =>
    (percentDecode path).map fun decoded =>
      if decoded = "" ∨ HasDots decoded then .error .badRequest
      else if ¬ library.isKnownTrackFile decoded then .error .notFound
      else .ok decoded

/-- The answer to a GET under `/media/file/`. `isRequestPath` is what the HTTP library takes for the
path of a request. -/
def getMediaFile (isRequestPath : String → Bool) (request : MediaRequest) :
    Option (Except StatusCode String) :=
  if isRequestPath request.path then
    match fileRoute request.path with
    | none => some (.error .notFound)
    | some none => some (.error .badRequest)
    | some (some path) => mediaFileHandler hmac store now library path request.path request.authQuery
  else some (.error .badRequest)

end Handler

/-! ## Decoding twice -/

section Decoding

variable {ok : UInt8 → UInt8 → Bool} {b x y byte : UInt8} {bs rest ts : List UInt8}

theorem countEscapes_cons_ne (h : b ≠ Percent.sign) : countEscapes ok (b :: bs) = countEscapes ok bs := by
  rw [countEscapes, if_neg fun hb => h hb.1, Nat.zero_add]

theorem countEscapes_sign : countEscapes ok (Percent.sign :: bs) =
    (if ahead ok bs then 1 else 0) + countEscapes ok bs := by
  simp [countEscapes]

/-- There is no escape in less than three bytes. -/
theorem countEscapes_of_short (h : ∀ b x y rest, bs = b :: x :: y :: rest → False) :
    countEscapes ok bs = 0 := by
  rcases bs with _ | ⟨b, _ | ⟨x, _ | ⟨y, rest⟩⟩⟩
  · rfl
  · simp [countEscapes, ahead]
  · simp [countEscapes, ahead]
  · exact absurd rfl (h b x y rest)

theorem cutsCharacter_cons : cutsCharacter (b :: bs) = false ↔
    ¬ (b = Percent.sign ∧ (bs.drop 2).head?.any isContinuation) ∧ cutsCharacter bs = false := by
  rw [cutsCharacter, Bool.or_eq_false_iff, decide_eq_false_iff_not]

theorem hexValue_sign : Percent.hexValue Percent.sign = none := by decide

theorem hexPair_ne_sign (h : Percent.hexPair x y = some byte) :
    x ≠ Percent.sign ∧ y ≠ Percent.sign := by
  constructor
  · rintro rfl
    rw [Percent.hexPair, hexValue_sign] at h
    cases h
  · rintro rfl
    rw [Percent.hexPair, hexValue_sign] at h
    cases hx : Percent.hexValue x <;> rw [hx] at h <;> cases h

theorem fromHex_ne_sign (h : fromHex x y = some byte) : x ≠ Percent.sign ∧ y ≠ Percent.sign := by
  unfold fromHex at h
  split at h
  · rename_i hx
    refine ⟨by rw [hx]; decide, ?_⟩
    rintro rfl
    rw [hexValue_sign] at h
    cases h
  · exact hexPair_ne_sign h

theorem loop_cons_ne (h : b ≠ Percent.sign) :
    percentDecodeLoop (b :: bs) = (percentDecodeLoop bs).map (b :: ·) := by
  rcases bs with _ | ⟨x, _ | ⟨y, rest⟩⟩
  · rfl
  · rfl
  · rw [percentDecodeLoop, if_neg h]

theorem loop_sign_literal (hahead : ahead isEscape bs = false)
    (hcut : (bs.drop 2).head?.any isContinuation = false) :
    percentDecodeLoop (Percent.sign :: bs) = (percentDecodeLoop bs).map (Percent.sign :: ·) := by
  rcases bs with _ | ⟨x, _ | ⟨y, rest⟩⟩
  · rfl
  · rfl
  · have hnone : fromHex x y = none := by simpa [ahead, isEscape] using hahead
    rw [percentDecodeLoop, if_pos rfl, if_neg (by simpa using hcut), hnone]

theorem loop_sign_escape (hbyte : fromHex x y = some byte)
    (hcut : rest.head?.any isContinuation = false) :
    percentDecodeLoop (Percent.sign :: x :: y :: rest) = (percentDecodeLoop rest).map (byte :: ·) := by
  rw [percentDecodeLoop, if_pos rfl, if_neg (by rw [hcut]; exact Bool.false_ne_true), hbyte]

theorem decodeBytes_cons_ne (h : b ≠ Percent.sign) :
    Percent.decodeBytes (b :: bs) = b :: Percent.decodeBytes bs := by
  rcases bs with _ | ⟨x, _ | ⟨y, rest⟩⟩
  · rfl
  · rfl
  · rw [Percent.decodeBytes, if_neg h]

/-- `percent_decode` panics exactly if one of its slices cuts a character. -/
theorem loop_isSome_iff (bs : List UInt8) :
    (percentDecodeLoop bs).isSome ↔ cutsCharacter bs = false := by
  fun_induction percentDecodeLoop bs with
  | case1 x y rest hcut => simp [cutsCharacter, hcut]
  | case2 x y rest hcut byte hbyte ih =>
    obtain ⟨hx, hy⟩ := fromHex_ne_sign hbyte
    rw [Option.isSome_map, ih]
    simp [cutsCharacter, hcut, hx, hy]
  | case3 x y rest hcut hnone ih =>
    rw [Option.isSome_map, ih, cutsCharacter_cons (b := Percent.sign)]
    simp [hcut]
  | case4 b x y rest hb ih =>
    rw [Option.isSome_map, ih, cutsCharacter_cons (b := b)]
    simp [hb]
  | case5 bs hshort =>
    rcases bs with _ | ⟨b, _ | ⟨x, _ | ⟨y, rest⟩⟩⟩
    · simp [cutsCharacter]
    · simp [cutsCharacter]
    · simp [cutsCharacter]
    · exact absurd rfl (hshort b x y rest)

/-- Every escape makes one byte of three. -/
theorem length_loop (h : percentDecodeLoop bs = some ts) :
    ts.length + 2 * countEscapes isEscape bs = bs.length := by
  fun_induction percentDecodeLoop bs generalizing ts with
  | case1 x y rest hcut => cases h
  | case2 x y rest hcut byte hbyte ih =>
    obtain ⟨hx, hy⟩ := fromHex_ne_sign hbyte
    obtain ⟨ts', hts', rfl⟩ := Option.map_eq_some_iff.1 h
    have := ih hts'
    have hahead : ahead isEscape (x :: y :: rest) = true := by simp [ahead, isEscape, hbyte]
    rw [countEscapes_sign, hahead, countEscapes_cons_ne hx, countEscapes_cons_ne hy]
    simp only [List.length_cons, if_true]
    omega
  | case3 x y rest hcut hnone ih =>
    obtain ⟨ts', hts', rfl⟩ := Option.map_eq_some_iff.1 h
    have := ih hts'
    have hahead : ahead isEscape (x :: y :: rest) = false := by simp [ahead, isEscape, hnone]
    rw [countEscapes_sign, hahead]
    simp only [List.length_cons] at this ⊢
    simp only [Bool.false_eq_true, if_false]
    omega
  | case4 b x y rest hb ih =>
    obtain ⟨ts', hts', rfl⟩ := Option.map_eq_some_iff.1 h
    have := ih hts'
    rw [countEscapes_cons_ne hb]
    simp only [List.length_cons] at this ⊢
    omega
  | case5 bs hshort =>
    cases h
    rw [countEscapes_of_short hshort, Nat.mul_zero, Nat.add_zero]

theorem length_decodeBytes (bs : List UInt8) :
    (Percent.decodeBytes bs).length + 2 * countEscapes isHexPair bs = bs.length := by
  fun_induction Percent.decodeBytes bs with
  | case1 x y rest byte hpair ih =>
    obtain ⟨hx, hy⟩ := hexPair_ne_sign hpair
    have hahead : ahead isHexPair (x :: y :: rest) = true := by simp [ahead, isHexPair, hpair]
    rw [countEscapes_sign, hahead, countEscapes_cons_ne hx, countEscapes_cons_ne hy]
    simp only [List.length_cons, if_true]
    omega
  | case2 x y rest hnone ih =>
    have hahead : ahead isHexPair (x :: y :: rest) = false := by simp [ahead, isHexPair, hnone]
    rw [countEscapes_sign, hahead]
    simp only [List.length_cons] at ih ⊢
    simp only [Bool.false_eq_true, if_false]
    omega
  | case3 b x y rest hb ih =>
    rw [countEscapes_cons_ne hb]
    simp only [List.length_cons] at ih ⊢
    omega
  | case4 bs hshort =>
    rw [countEscapes_of_short hshort, Nat.mul_zero, Nat.add_zero]

theorem hexPair_plus (y : UInt8) : Percent.hexPair 43 y = none := rfl

/-- The escapes of `percent_decode` are those of the router and the signed ones. -/
theorem countEscapes_isEscape (bs : List UInt8) :
    countEscapes isEscape bs = countEscapes isHexPair bs + countEscapes isSignedDigit bs := by
  induction bs with
  | nil => rfl
  | cons b bs ih =>
    have hahead : (if b = Percent.sign ∧ ahead isEscape bs then 1 else 0) =
        (if b = Percent.sign ∧ ahead isHexPair bs then 1 else 0) +
          if b = Percent.sign ∧ ahead isSignedDigit bs then 1 else 0 := by
      rcases bs with _ | ⟨x, _ | ⟨y, rest⟩⟩
      · simp [ahead]
      · simp [ahead]
      · by_cases hb : b = Percent.sign
        · by_cases hx : x = 43
          · subst hx
            simp [ahead, hb, isEscape, isHexPair, isSignedDigit, fromHex, hexPair_plus]
          · simp [ahead, hb, isEscape, isHexPair, isSignedDigit, fromHex, hx]
        · simp [hb]
    rw [countEscapes, countEscapes, countEscapes, hahead, ih]
    omega

theorem loop_cons_plain (hahead : ¬ (b = Percent.sign ∧ ahead isEscape bs))
    (hcut : cutsCharacter (b :: bs) = false) :
    percentDecodeLoop (b :: bs) = (percentDecodeLoop bs).map (b :: ·) := by
  by_cases hb : b = Percent.sign
  · subst hb
    have hno := (cutsCharacter_cons.1 hcut).1
    exact loop_sign_literal (by simpa using hahead) (by simpa using hno)
  · exact loop_cons_ne hb

theorem hexValue_ne_sign (h : (Percent.hexValue y).isSome) : y ≠ Percent.sign := by
  rintro rfl
  rw [hexValue_sign] at h
  cases h

/-- The router leaves the signed escapes. -/
theorem decodeBytes_signed (hy : (Percent.hexValue y).isSome) :
    Percent.decodeBytes (43 :: y :: rest) = 43 :: y :: Percent.decodeBytes rest := by
  rw [decodeBytes_cons_ne (by decide), decodeBytes_cons_ne (hexValue_ne_sign hy)]

theorem signed_le (bs : List UInt8) :
    countEscapes isSignedDigit bs ≤ countEscapes isEscape (Percent.decodeBytes bs) := by
  fun_induction Percent.decodeBytes bs with
  | case1 x y rest byte hpair ih =>
    obtain ⟨hx, hy⟩ := hexPair_ne_sign hpair
    have hahead : ahead isSignedDigit (x :: y :: rest) = false := by
      have hplus : x ≠ 43 := by
        rintro rfl
        cases hpair
      simp [ahead, isSignedDigit, hplus]
    rw [countEscapes_sign, hahead, countEscapes_cons_ne hx, countEscapes_cons_ne hy, countEscapes]
    simp only [Bool.false_eq_true, if_false]
    omega
  | case2 x y rest hnone ih =>
    rw [countEscapes_sign, countEscapes_sign]
    by_cases hsigned : isSignedDigit x y
    · obtain ⟨rfl, hy⟩ : x = 43 ∧ (Percent.hexValue y).isSome := by simpa [isSignedDigit] using hsigned
      have hahead : ahead isEscape (Percent.decodeBytes (43 :: y :: rest)) = true := by
        rw [decodeBytes_signed hy]
        simpa [ahead, isEscape, fromHex] using hy
      rw [hahead]
      split <;> simp only [if_true] <;> omega
    · have hahead : ahead isSignedDigit (x :: y :: rest) = false := by simpa [ahead] using hsigned
      rw [hahead]
      simp only [Bool.false_eq_true, if_false]
      omega
  | case3 b x y rest hb ih => rwa [countEscapes_cons_ne hb, countEscapes_cons_ne hb]
  | case4 bs hshort =>
    rw [countEscapes_of_short hshort]
    exact Nat.zero_le _

/-- If the router leaves the signed escapes only, decoding what it hands on is decoding once. -/
theorem loop_decodeBytes (hcut : cutsCharacter bs = false)
    (hcut' : cutsCharacter (Percent.decodeBytes bs) = false)
    (hcount : countEscapes isEscape (Percent.decodeBytes bs) = countEscapes isSignedDigit bs) :
    percentDecodeLoop (Percent.decodeBytes bs) = percentDecodeLoop bs := by
  fun_induction Percent.decodeBytes bs with
  | case1 x y rest byte hpair ih =>
    obtain ⟨hx, hy⟩ := hexPair_ne_sign hpair
    have hplus : x ≠ 43 := by
      rintro rfl
      cases hpair
    have hsigned : ahead isSignedDigit (x :: y :: rest) = false := by
      simp [ahead, isSignedDigit, hplus]
    have hbyte : fromHex x y = some byte := by rw [fromHex, if_neg hplus, hpair]
    have hle := signed_le rest
    rw [countEscapes_sign, hsigned, countEscapes_cons_ne hx, countEscapes_cons_ne hy,
      countEscapes] at hcount
    simp only [Bool.false_eq_true, if_false] at hcount
    have hplain : ¬ (byte = Percent.sign ∧ ahead isEscape (Percent.decodeBytes rest)) := by
      intro h
      rw [if_pos h] at hcount
      omega
    rw [if_neg hplain] at hcount
    have hhead := (cutsCharacter_cons.1 hcut).1
    have htail := (cutsCharacter_cons.1 (cutsCharacter_cons.1 (cutsCharacter_cons.1 hcut).2).2).2
    rw [loop_cons_plain hplain hcut', loop_sign_escape hbyte (by simpa using hhead),
      ih htail (cutsCharacter_cons.1 hcut').2 (by omega)]
  | case2 x y rest hnone ih =>
    have hle := signed_le (x :: y :: rest)
    have htail := (cutsCharacter_cons.1 hcut).2
    have htail' := (cutsCharacter_cons.1 hcut').2
    rw [countEscapes_sign, countEscapes_sign] at hcount
    by_cases hsigned : isSignedDigit x y
    · -- The router leaves the escape, and the handler reads it.
      obtain ⟨rfl, hy⟩ : x = 43 ∧ (Percent.hexValue y).isSome := by simpa [isSignedDigit] using hsigned
      obtain ⟨byte, hbyte⟩ := Option.isSome_iff_exists.1 hy
      have hescape : fromHex 43 y = some byte := by rw [fromHex, if_pos rfl, hbyte]
      have hahead : ahead isEscape (43 :: y :: Percent.decodeBytes rest) = true := by
        simp [ahead, isEscape, hescape]
      have hahead' : ahead isSignedDigit (43 :: y :: rest) = true := by simpa [ahead] using hsigned
      rw [decodeBytes_signed hy] at hcount hcut' htail' ih ⊢
      rw [hahead, hahead'] at hcount
      have hloop := ih htail htail' (by omega)
      have hne := hexValue_ne_sign hy
      rw [loop_cons_ne (by decide), loop_cons_ne hne, loop_cons_ne (by decide), loop_cons_ne hne,
        Option.map_map, Option.map_map] at hloop
      have hrest : percentDecodeLoop (Percent.decodeBytes rest) = percentDecodeLoop rest := by
        refine Option.map_injective ?_ hloop
        intro l l' heq
        simpa using heq
      have hhead := (cutsCharacter_cons.1 hcut).1
      have hhead' := (cutsCharacter_cons.1 hcut').1
      rw [loop_sign_escape hescape (by simpa using hhead'),
        loop_sign_escape hescape (by simpa using hhead), hrest]
    · have hahead : ahead isSignedDigit (x :: y :: rest) = false := by simpa [ahead] using hsigned
      rw [hahead] at hcount
      have hplain' : ¬ ahead isEscape (Percent.decodeBytes (x :: y :: rest)) := by
        intro h
        rw [h] at hcount
        simp only [if_true, Bool.false_eq_true, if_false] at hcount
        omega
      have hplain : ¬ ahead isEscape (x :: y :: rest) := by
        intro h
        rw [ahead, isEscape, fromHex] at h
        split at h
        · rename_i hx
          exact hsigned (by simp [isSignedDigit, hx, h])
        · rw [hnone] at h
          cases h
      rw [if_neg hplain'] at hcount
      rw [loop_cons_plain (fun h => hplain' h.2) hcut', loop_cons_plain (fun h => hplain h.2) hcut,
        ih htail htail' (by simpa using hcount)]
  | case3 b x y rest hb ih =>
    rw [countEscapes_cons_ne hb, countEscapes_cons_ne hb] at hcount
    rw [loop_cons_ne hb, loop_cons_ne hb,
      ih (cutsCharacter_cons.1 hcut).2 (cutsCharacter_cons.1 hcut').2 hcount]
  | case4 bs hshort => rfl

/-- Decoding what the router hands on is decoding once, exactly if the router leaves the signed escapes
only and no slice cuts a character. -/
theorem loop_decodeBytes_iff (h : percentDecodeLoop bs = some ts) :
    percentDecodeLoop (Percent.decodeBytes bs) = some ts ↔
      cutsCharacter (Percent.decodeBytes bs) = false ∧
        countEscapes isEscape (Percent.decodeBytes bs) = countEscapes isSignedDigit bs := by
  constructor
  · intro htwice
    refine ⟨(loop_isSome_iff _).1 (by rw [htwice]; rfl), ?_⟩
    have honce := length_loop h
    have hrouter := length_decodeBytes bs
    have hhandler := length_loop htwice
    rw [countEscapes_isEscape] at honce
    omega
  · rintro ⟨hcut, hcount⟩
    rw [loop_decodeBytes ((loop_isSome_iff bs).1 (by rw [h]; rfl)) hcut hcount, h]

end Decoding

/-! ## What is served -/

section Serving

variable {hmac : MediaKey → String → List UInt8} {store : MediaKeyStore} {now exp : UInt64}
  {library : MediaLibrary} {isRequestPath : String → Bool} {rawPath path file base kid : String}
  {key : MediaKey} {authQuery : MediaAuthQuery}

theorem percentDecode_eq_some_iff (hne : file ≠ "") : percentDecode path = some file ↔
    percentDecodeLoop (Percent.bytes path) = some (Percent.bytes file) := by
  rw [percentDecode, Option.map_eq_some_iff]
  constructor
  · rintro ⟨result, hresult, hfile⟩
    cases hof : Percent.ofBytes result with
    | none =>
      rw [hof] at hfile
      exact absurd hfile.symm hne
    | some t =>
      rw [hof, Option.getD_some] at hfile
      rw [hresult, Percent.ofBytes_eq_some_iff.1 hof, hfile]
  · intro h
    exact ⟨_, h, by rw [Percent.ofBytes_eq_some_iff.2 rfl, Option.getD_some]⟩

/-- The paths under `/media/file/` that are signed. -/
theorem signable_file_iff :
    isSignableMediaPath library ("/media/file/" ++ rawPath) = some true ↔
      ('?' ∉ rawPath.toList ∧ '#' ∉ rawPath.toList ∧ Char.ofNat 0 ∉ rawPath.toList) ∧
        ∃ decoded, percentDecode rawPath = some decoded ∧ isValidMediaFilePath decoded = true ∧
          library.isKnownTrackFile decoded = true := by
  have hother : ∀ pre, pre ∈ ["/media/tracks/", "/media/art/", "/media/hls/"] →
      stripPrefix pre ("/media/file/" ++ rawPath) = none := by
    intro pre hpre
    unfold stripPrefix
    rw [String.toList_append]
    simp only [List.mem_cons, List.not_mem_nil, or_false] at hpre
    obtain rfl | rfl | rfl := hpre <;> rfl
  have hmem : ∀ c, c ∉ "/media/file/".toList →
      (c ∈ ("/media/file/" ++ rawPath).toList ↔ c ∈ rawPath.toList) := by
    intro c hc
    rw [String.toList_append, List.mem_append, or_iff_right hc]
  have hbad : ("/media/file/" ++ rawPath = "" ∨ '?' ∈ ("/media/file/" ++ rawPath).toList ∨
      '#' ∈ ("/media/file/" ++ rawPath).toList ∨
      Char.ofNat 0 ∈ ("/media/file/" ++ rawPath).toList) ↔
        '?' ∈ rawPath.toList ∨ '#' ∈ rawPath.toList ∨ Char.ofNat 0 ∈ rawPath.toList := by
    rw [hmem '?' (by decide), hmem '#' (by decide), hmem (Char.ofNat 0) (by decide)]
    simp
  unfold isSignableMediaPath
  by_cases h : '?' ∈ rawPath.toList ∨ '#' ∈ rawPath.toList ∨ Char.ofNat 0 ∈ rawPath.toList
  · rw [if_pos (hbad.2 h)]
    refine iff_of_false (fun heq => by cases heq) ?_
    rintro ⟨hplain, -⟩
    simp only [hplain, or_self] at h
  · rw [if_neg (mt hbad.1 h)]
    simp only [not_or] at h
    simp only [singlePathSegment, hlsTrackId, hother, List.mem_cons, true_or, or_true,
      stripPrefix_eq_some_iff.2 rfl, Option.map_eq_some_iff, Bool.and_eq_true, h, not_false_eq_true,
      and_self, true_and]

theorem getMediaFile_iff (hraw : rawPath ≠ "")
    (hverify : verifyMediaAuth hmac store now ("/media/file/" ++ rawPath) authQuery = .ok ()) :
    getMediaFile hmac store now library isRequestPath ⟨"/media/file/" ++ rawPath, authQuery⟩ =
        some (.ok file) ↔
      isRequestPath ("/media/file/" ++ rawPath) ∧
        ∃ path, Percent.decode rawPath = some path ∧ percentDecode path = some file ∧
          file ≠ "" ∧ ¬ HasDots file ∧ library.isKnownTrackFile file = true := by
  have hroute : fileRoute ("/media/file/" ++ rawPath) = some (Percent.decode rawPath) := by
    rw [fileRoute, stripPrefix_eq_some_iff.2 rfl]
    exact if_neg hraw
  unfold getMediaFile
  rw [hroute]
  split
  case isFalse hreq => exact iff_of_false (fun h => nomatch h) fun h => hreq h.1
  rename_i hreq
  cases Percent.decode rawPath with
  | none =>
    refine iff_of_false (fun h => nomatch h) ?_
    rintro ⟨-, path, hpath, -⟩
    cases hpath
  | some path =>
    simp only [mediaFileHandler, hverify, Option.map_eq_some_iff, hreq, true_and, Option.some.injEq,
      exists_eq_left']
    constructor
    · rintro ⟨decoded, hdecoded, h⟩
      split at h
      · cases h
      split at h
      · cases h
      rename_i hplain hknown
      obtain rfl : decoded = file := by simpa using h
      simp only [not_or] at hplain
      exact ⟨hdecoded, hplain.1, hplain.2, by simpa using hknown⟩
    · rintro ⟨hdecoded, hne, hdots, hknown⟩
      refine ⟨file, hdecoded, ?_⟩
      rw [if_neg (by simp [hne, hdots]), if_neg (by simp [hknown])]

/-- What the router hands on has no escapes but the signed ones of the raw path, and no `%` before a
character that a slice would cut. -/
def HandedPlain (rawPath : String) : Prop :=
  ∃ path, Percent.decode rawPath = some path ∧ cutsCharacter (Percent.bytes path) = false ∧
    countEscapes isEscape (Percent.bytes path) = countEscapes isSignedDigit (Percent.bytes rawPath)

/-- Decoding twice is decoding once for the paths that the router leaves plain. -/
theorem decode_twice_iff (hne : file ≠ "") (honce : percentDecode rawPath = some file) :
    (∃ path, Percent.decode rawPath = some path ∧ percentDecode path = some file) ↔
      HandedPlain rawPath := by
  rw [percentDecode_eq_some_iff hne] at honce
  have htwice := loop_decodeBytes_iff honce
  refine exists_congr fun path => and_congr_right fun hpath => ?_
  rw [percentDecode_eq_some_iff hne, ← Percent.decode_eq_some_iff.1 hpath, htwice]

end Serving

/-- A signed URL of a library file is answered with the file that was checked exactly if the router
leaves its path plain. -/
theorem served_iff (hmac : MediaKey → String → List UInt8) (isRequestPath : String → Bool)
    (store : MediaKeyStore) (library : MediaLibrary) (base kid rawPath : String) (key : MediaKey)
    (exp now : UInt64) (hkey : store.get kid = some key) (hexp : now ≤ exp)
    (hsign : isSignableMediaPath library ("/media/file/" ++ rawPath) = some true) :
    (∃ request decoded,
      MediaRequest.ofUrl (trimSlashes base)
        (buildSignedMediaUrl hmac base ("/media/file/" ++ rawPath) kid key exp) = some request ∧
      percentDecode rawPath = some decoded ∧
      getMediaFile hmac store now library isRequestPath request = some (.ok decoded)) ↔
      isRequestPath ("/media/file/" ++ rawPath) ∧ HandedPlain rawPath := by
  obtain ⟨⟨hquery, -, -⟩, decoded, hdecoded, hvalid, hknown⟩ := signable_file_iff.1 hsign
  obtain ⟨hne, -, hdots⟩ := of_decide_eq_true hvalid
  obtain ⟨authQuery, hurl, -, -, hverify⟩ : ∃ authQuery,
      MediaRequest.ofUrl (trimSlashes base)
          (buildSignedMediaUrl hmac base ("/media/file/" ++ rawPath) kid key exp) =
        some ⟨"/media/file/" ++ rawPath, authQuery⟩ ∧ authQuery.kid = kid ∧ authQuery.exp = exp ∧
      verifyMediaAuth hmac store now ("/media/file/" ++ rawPath) authQuery = .ok () :=
    verify_signedUrl hkey (by simpa using hquery) hexp
  have hraw : rawPath ≠ "" := by
    rintro rfl
    exact hne (Option.some.inj hdecoded).symm
  rw [← decode_twice_iff hne hdecoded]
  constructor
  · rintro ⟨request, file, hrequest, hfile, hget⟩
    obtain rfl : request = _ := Option.some.inj (hrequest.symm.trans hurl)
    obtain rfl : file = decoded := Option.some.inj (hfile.symm.trans hdecoded)
    obtain ⟨hreq, path, hpath, htwice, -⟩ := (getMediaFile_iff hraw hverify).1 hget
    exact ⟨hreq, path, hpath, htwice⟩
  · rintro ⟨hreq, path, hpath, htwice⟩
    have hget := (getMediaFile_iff hraw hverify).2 ⟨hreq, path, hpath, htwice, hne, hdots, hknown⟩
    exact ⟨_, decoded, hurl, hdecoded, hget⟩

/-! Two files, the name of one as the name of the other decoded. -/

def percentLibrary : MediaLibrary where
  isKnownTrackId := fun _ => false
  isKnownAlbumId := fun _ => false
  isKnownTrackFile := fun file => file = "/m/100%25.flac" ∨ file = "/m/100%.flac"

def oneKeyStore : MediaKeyStore := MediaKeyStore.new.generate "k-1" isUuid_sample sampleKey 0

/-- `/m/100%25.flac`, as `encodeURIComponent` writes it. -/
def percentPath : String := "%2Fm%2F100%2525.flac"

/-- `/m/100%.flac`. -/
def barePath : String := "%2Fm%2F100%25.flac"

/-- Letters, digits, and what `encodeURIComponent` and the separator need. -/
def isPlainRequestPath (path : String) : Bool :=
  path.toList.all fun c => c.isAlphanum || c ∈ ['/', '.', '%', '-', '_']

theorem percentDecode_percentPath : percentDecode percentPath = some "/m/100%25.flac" :=
  (percentDecode_eq_some_iff (by decide)).2 (by decide +kernel)

theorem percentDecode_barePath : percentDecode barePath = some "/m/100%.flac" :=
  (percentDecode_eq_some_iff (by decide)).2 (by decide +kernel)

theorem handedPlain_barePath : HandedPlain barePath :=
  ⟨"/m/100%.flac", Percent.decode_eq_some_iff.2 (by decide +kernel), by decide +kernel,
    by decide +kernel⟩

theorem served_barePath : ∃ request decoded,
    MediaRequest.ofUrl (trimSlashes "http://host:8080/") (buildSignedMediaUrl plainMac
      "http://host:8080/" ("/media/file/" ++ barePath) "k-1" sampleKey 900) = some request ∧
    percentDecode barePath = some decoded ∧
    getMediaFile plainMac oneKeyStore 899 percentLibrary isPlainRequestPath request =
      some (.ok decoded) := by
  have hsign : isSignableMediaPath percentLibrary ("/media/file/" ++ barePath) = some true :=
    signable_file_iff.2 ⟨by decide, _, percentDecode_barePath, by decide +kernel, by decide⟩
  have hserved := served_iff plainMac isPlainRequestPath oneKeyStore percentLibrary
    "http://host:8080/" "k-1" barePath sampleKey 900 899 rfl (by decide) hsign
  exact hserved.2 ⟨by decide +kernel, handedPlain_barePath⟩

/-- The path of one file is checked, and the other is served. -/
theorem other_file_served :
    isSignableMediaPath percentLibrary ("/media/file/" ++ percentPath) = some true ∧
      percentDecode percentPath = some "/m/100%25.flac" ∧
      ∃ request,
        MediaRequest.ofUrl (trimSlashes "http://host:8080/") (buildSignedMediaUrl plainMac
          "http://host:8080/" ("/media/file/" ++ percentPath) "k-1" sampleKey 900) = some request ∧
        getMediaFile plainMac oneKeyStore 899 percentLibrary isPlainRequestPath request =
          some (.ok "/m/100%.flac") := by
  have hhanded : Percent.decode percentPath = some "/m/100%25.flac" :=
    Percent.decode_eq_some_iff.2 (by decide +kernel)
  have hserved : percentDecode "/m/100%25.flac" = some "/m/100%.flac" :=
    (percentDecode_eq_some_iff (by decide)).2 (by decide +kernel)
  refine ⟨signable_file_iff.2 ⟨by decide, _, percentDecode_percentPath, by decide +kernel, by decide⟩,
    percentDecode_percentPath, ?_⟩
  obtain ⟨authQuery, hurl, -, -, hverify⟩ : ∃ authQuery,
      MediaRequest.ofUrl (trimSlashes "http://host:8080/") (buildSignedMediaUrl plainMac
          "http://host:8080/" ("/media/file/" ++ percentPath) "k-1" sampleKey 900) =
        some ⟨"/media/file/" ++ percentPath, authQuery⟩ ∧ authQuery.kid = "k-1" ∧
        authQuery.exp = 900 ∧
      verifyMediaAuth plainMac oneKeyStore 899 ("/media/file/" ++ percentPath) authQuery = .ok () :=
    verify_signedUrl rfl (by decide) (by decide)
  have hget : getMediaFile plainMac oneKeyStore 899 percentLibrary isPlainRequestPath
      ⟨"/media/file/" ++ percentPath, authQuery⟩ = some (.ok "/m/100%.flac") :=
    (getMediaFile_iff (by decide) hverify).2
      ⟨by decide +kernel, _, hhanded, hserved, by decide, by decide +kernel, by decide⟩
  exact ⟨_, hurl, hget⟩

end Kanade

import Kanade.Text.Percent

/-!
# Kanade.Ws.MediaPath

The paths that `sign_urls` accepts, and what the router makes of those under `/media/hls/`.

`isSignableMediaPath` looks at the path as it was sent, and decodes it only under `/media/file/`; the
router matches the path as it was sent, segment by segment, and hands on the decoded segments.
`signable_of_hlsRoute`: what is known of a path that both have taken.
-/

namespace Kanade

/-- `strip_prefix`. -/
def stripPrefix (pre s : String) : Option String :=
  (pre.toList.isPrefixOf? s.toList).map String.ofList

/-- `contains("..")`. -/
def HasDots (s : String) : Prop := "..".toList <:+: s.toList

instance (s : String) : Decidable (HasDots s) := inferInstanceAs (Decidable (_ <:+: _))

/-- `split('/')`. -/
def segments (s : String) : List String := (s.toList.splitOn '/').map String.ofList

/-- What the database and the file system say of ids and paths. -/
structure MediaLibrary where
  isKnownTrackId : String → Bool
  isKnownAlbumId : String → Bool
  isKnownTrackFile : String → Bool

/-! ## percent_decode -/

/-- `u8::from_str_radix` of two bytes; a single digit may have a sign. -/
def fromHex (x y : UInt8) : Option UInt8 :=
  if x = 43 then Percent.hexValue y else Percent.hexPair x y

/-- The byte continues a character. -/
def isContinuation (b : UInt8) : Bool := 128 ≤ b ∧ b < 192

/-- The loop of `percent_decode`. The slice of two bytes panics when it ends within a character. -/
def percentDecodeLoop : List UInt8 → Option (List UInt8)
  | b :: x :: y :: rest =>
    if b = Percent.sign then
      if rest.head?.any isContinuation then none
      else
        match fromHex x y with
        | some byte => (percentDecodeLoop rest).map (byte :: ·)
        | none => (percentDecodeLoop (x :: y :: rest)).map (b :: ·)
    else (percentDecodeLoop (x :: y :: rest)).map (b :: ·)
  | bs => some bs

/-- `none` is the panic. -/
def percentDecode (input : String) : Option String :=
  (percentDecodeLoop (Percent.bytes input)).map fun result => (Percent.ofBytes result).getD ""

/-! ## is_signable_media_path -/

def singlePathSegment (path pre : String) : Option String :=
  match stripPrefix pre path with
  | none => none
  | some segment =>
    if segment = "" ∨ '/' ∈ segment.toList ∨ HasDots segment then none else some segment

def hlsTrackId (path : String) : Option String :=
  match stripPrefix "/media/hls/" path with
  | none => none
  | some rest =>
    match segments rest with
    | [trackId, variant, resource] =>
      if trackId = "" ∨ variant = "" ∨ HasDots trackId ∨ HasDots variant then none
      else if resource = "index.m3u8" ∨ resource = "init.mp4" ∨
          ("seg".toList <+: resource.toList ∧ ".m4s".toList <:+ resource.toList) then
        some trackId
      else none
    | _ => none

def isValidMediaFilePath (path : String) : Bool :=
  path ≠ "" ∧ Char.ofNat 0 ∉ path.toList ∧ ¬ HasDots path

/-- `none` is the panic of `percent_decode`. -/
def isSignableMediaPath (library : MediaLibrary) (path : String) : Option Bool :=
  if path = "" ∨ '?' ∈ path.toList ∨ '#' ∈ path.toList ∨ Char.ofNat 0 ∈ path.toList then some false
  else
    match singlePathSegment path "/media/tracks/" with
    | some trackId => some (library.isKnownTrackId trackId)
    | none =>
      match singlePathSegment path "/media/art/" with
      | some albumId => some (library.isKnownAlbumId albumId)
      | none =>
        match hlsTrackId path with
        | some trackId => some (library.isKnownTrackId trackId)
        | none =>
          match stripPrefix "/media/file/" path with
          | some rawPath =>
            (percentDecode rawPath).map fun decoded =>
              isValidMediaFilePath decoded && library.isKnownTrackFile decoded
          | none => some false

/-! ## The router -/

/-- What the HLS handlers get for a path of three segments: the first two, decoded. -/
def hlsRoute (path : String) : Option (String × String) :=
  match stripPrefix "/media/hls/" path with
  | none => none
  | some rest =>
    match segments rest with
    | [trackId, variant, name] => do
      let trackId ← Percent.decode trackId
      let variant ← Percent.decode variant
      let _ ← Percent.decode name
      some (trackId, variant)
    | _ => none

/-! ## What both take -/

variable {library : MediaLibrary} {path pre rest trackId variant : String}

theorem stripPrefix_eq_some_iff : stripPrefix pre path = some rest ↔ path = pre ++ rest := by
  unfold stripPrefix
  rw [Option.map_eq_some_iff]
  constructor
  · rintro ⟨cs, hcs, rfl⟩
    rw [List.isPrefixOf?_eq_some_iff_append_eq] at hcs
    rw [← String.toList_inj, ← hcs, String.toList_append]
    exact congrArg _ String.toList_ofList.symm
  · rintro rfl
    refine ⟨rest.toList, ?_, String.ofList_toList⟩
    rw [List.isPrefixOf?_eq_some_iff_append_eq, String.toList_append]

/-- The paths that get to the HLS handlers. -/
theorem hlsRoute_eq_some_iff : hlsRoute path = some (trackId, variant) ↔
    ∃ rest rawTrackId rawVariant name, path = "/media/hls/" ++ rest ∧
      segments rest = [rawTrackId, rawVariant, name] ∧
      Percent.decode rawTrackId = some trackId ∧ Percent.decode rawVariant = some variant ∧
      (Percent.decode name).isSome := by
  unfold hlsRoute
  constructor
  · intro h
    split at h
    · cases h
    rename_i rest hrest
    split at h
    case h_2 => cases h
    rename_i rawTrackId rawVariant name hsegments
    simp only [Option.bind_eq_bind, Option.bind_eq_some_iff, Option.some.injEq, Prod.mk.injEq] at h
    obtain ⟨t, ht, v, hv, n, hn, rfl, rfl⟩ := h
    exact ⟨rest, rawTrackId, rawVariant, name, stripPrefix_eq_some_iff.1 hrest, hsegments, ht, hv, by rw [hn]; rfl⟩
  · rintro ⟨rest, rawTrackId, rawVariant, name, hpath, hsegments, htrack, hvariant, hname⟩
    rw [stripPrefix_eq_some_iff.2 hpath]
    dsimp only
    rw [hsegments]
    dsimp only
    rw [htrack, hvariant]
    obtain ⟨n, hn⟩ := Option.isSome_iff_exists.1 hname
    rw [hn]
    rfl

/-- The track id is taken as it was sent, and the variant is not empty. -/
theorem raw_of_hlsTrackId {rawTrackId rawVariant name : String}
    (h : hlsTrackId ("/media/hls/" ++ rest) = some trackId) (hsegments : segments rest = [rawTrackId, rawVariant, name]) :
    trackId = rawTrackId ∧ rawVariant ≠ "" := by
  unfold hlsTrackId at h
  rw [stripPrefix_eq_some_iff.2 rfl] at h
  dsimp only at h
  rw [hsegments] at h
  dsimp only at h
  split at h
  · cases h
  · rename_i hplain
    split at h
    · exact ⟨(Option.some.inj h).symm, fun hempty => hplain (.inr (.inl hempty))⟩
    · cases h

/-- Under `/media/hls/`, a path is signable for the sake of a known track id. -/
theorem known_of_signable (hsign : isSignableMediaPath library ("/media/hls/" ++ rest) = some true) :
    ∃ trackId, hlsTrackId ("/media/hls/" ++ rest) = some trackId ∧
      library.isKnownTrackId trackId = true := by
  have hother : ∀ pre, pre ∈ ["/media/tracks/", "/media/art/", "/media/file/"] →
      stripPrefix pre ("/media/hls/" ++ rest) = none := by
    intro pre hpre
    unfold stripPrefix
    rw [String.toList_append]
    simp only [List.mem_cons, List.not_mem_nil, or_false] at hpre
    obtain rfl | rfl | rfl := hpre <;> rfl
  unfold isSignableMediaPath at hsign
  split at hsign
  · cases hsign
  simp only [singlePathSegment, hother, List.mem_cons, true_or, or_true] at hsign
  cases htrack : hlsTrackId ("/media/hls/" ++ rest) with
  | none =>
    rw [htrack] at hsign
    cases hsign
  | some trackId =>
    rw [htrack] at hsign
    exact ⟨trackId, rfl, Option.some.inj hsign⟩

/-- Where ids are plain, what the router hands on for a signable path begins with a known id. -/
theorem known_of_hlsRoute (hids : ∀ id, library.isKnownTrackId id = true → '%' ∉ id.toList)
    (hsign : isSignableMediaPath library path = some true)
    (hroute : hlsRoute path = some (trackId, variant)) : library.isKnownTrackId trackId = true := by
  obtain ⟨rest, rawTrackId, rawVariant, name, rfl, hsegments, htrack, -⟩ :=
    hlsRoute_eq_some_iff.1 hroute
  obtain ⟨known, hknown, hid⟩ := known_of_signable hsign
  obtain ⟨hraw, -⟩ := raw_of_hlsTrackId hknown hsegments
  have hplain := Percent.decode_of_not_mem (hids known hid)
  rw [hraw, htrack] at hplain
  rw [Option.some.inj hplain, ← hraw]
  exact hid

theorem variant_ne_empty (hsign : isSignableMediaPath library path = some true)
    (hroute : hlsRoute path = some (trackId, variant)) : variant ≠ "" := by
  obtain ⟨rest, rawTrackId, rawVariant, name, rfl, hsegments, -, hvariant, -⟩ :=
    hlsRoute_eq_some_iff.1 hroute
  obtain ⟨known, hknown, -⟩ := known_of_signable hsign
  obtain ⟨-, hne⟩ := raw_of_hlsTrackId hknown hsegments
  rintro rfl
  exact hne (Percent.eq_empty_of_decode hvariant)

end Kanade

import Kanade.Bits.Digits
import Kanade.Hls.Output
import Kanade.Text.Percent
import Kanade.Text.Terminated

/-!
# Kanade.Ws.Artwork

The picture in the ID3v2 tag of a DSF file: `extract_dsf_picture`, `parse_id3v2_apic`, `find_apic_frame` and
`parse_apic_data`, where an index, a slice or a sum out of range panics.

* `parseApicData_panic_iff`, `parseApicData_ok_iff`: when the content of the frame panics, and what is read from it.
* `findApicFrame_eq`: the loop ends, with the content of the first APIC it comes to.
* `artwork_panics_iff`: a panic is an APIC that ends with its MIME type.
-/

namespace Kanade

/-- What `lofty` is given for a picture. -/
structure Picture where
  mimeType : String
  picType : UInt8
  picData : List UInt8
deriving DecidableEq, Repr

inductive ArtworkFailure where
  /-- `None` -/
  | missing
  | panic
deriving DecidableEq, Repr

/-- The bytes of a file in a `Vec`, which has at most `isize::MAX` of them. -/
structure FileBytes where
  bytes : List UInt8
  length_lt : bytes.length < 2 ^ 63

/-! ## The parsers -/

def orFail {α : Type} (failure : ArtworkFailure) : Option α → Except ArtworkFailure α
  | some x => .ok x
  | none => .error failure

/-- A sum of `usize`. -/
def addUsize (a b : Nat) : Except ArtworkFailure Nat :=
  if a + b < 2 ^ 64 then .ok (a + b) else .error .panic

/-- One more byte in versions 1 and 2. -/
def skipByte (data : List UInt8) (version : UInt8) (pos : Nat) : Except ArtworkFailure Nat :=
  if (version = 1 ∨ version = 2) ∧ pos < data.length then addUsize pos 1 else .ok pos

/-- `parse_apic_data` from the picture type on, at `pos`. -/
def parsePicture (data : List UInt8) (version : UInt8) (mime : String) (pos : Nat) :
    Except ArtworkFailure Picture := do
  let picType ← orFail .panic data[pos]?
  let pos ← addUsize pos 1
  let left ← orFail .panic (slice? data pos data.length)
  let descEnd ← orFail .missing (left.idxOf? 0)
  let next ← addUsize descEnd 1
  let pos ← addUsize pos next
  let pos ← skipByte data version pos
  let picData ← orFail .missing (slice? data pos data.length)
  if picData = [] then .error .missing else .ok ⟨mime, picType, picData⟩

def parseApicData (data : List UInt8) (version : UInt8) : Except ArtworkFailure Picture := do
  let _encoding ← orFail .missing data[0]?
  let left ← orFail .panic (slice? data 1 data.length)
  let mimeEnd ← orFail .missing (left.idxOf? 0)
  let stop ← addUsize 1 mimeEnd
  let mime ← orFail .panic (slice? data 1 stop)
  let mime ← orFail .missing (Percent.ofBytes mime)
  let next ← addUsize mimeEnd 1
  let pos ← addUsize 1 next
  parsePicture data version mime pos

/-- Seven bits of a byte in version 4, all eight in any other. -/
def readSize (version a b c d : UInt8) : Nat := Bits.number (if version = 4 then 7 else 8) a b c d

/-- The bytes that are skipped behind a frame: the flag is the one of a data length indicator. -/
def headerSkip (version flag : UInt8) : Nat := if version = 4 ∧ flag &&& 0x01 ≠ 0 then 4 else 0

structure Id3Frame where
  frameId : String
  frameSize : Nat
  formatFlags : UInt8
  frameData : List UInt8
deriving DecidableEq, Repr

/-- The frame at `pos`, where ten bytes are left; none at an identifier of zeros, which ends the loop. -/
def readId3Frame (data : List UInt8) (version : UInt8) (pos : Nat) : Except ArtworkFailure (Option Id3Frame) := do
  let frameId ← orFail .panic (slice? data pos (pos + 4))
  if frameId = [0, 0, 0, 0] then
    return none
  let a ← orFail .panic data[pos + 4]?
  let b ← orFail .panic data[pos + 5]?
  let c ← orFail .panic data[pos + 6]?
  let d ← orFail .panic data[pos + 7]?
  let _statusFlags ← orFail .panic data[pos + 8]?
  let formatFlags ← orFail .panic data[pos + 9]?
  let frameSize := readSize version a b c d
  let stop ← addUsize (pos + 10) frameSize
  let frameData ← orFail .missing (slice? data (pos + 10) stop)
  let frameId ← orFail .missing (Percent.ofBytes frameId)
  return some ⟨frameId, frameSize, formatFlags, frameData⟩

/-- The loop from `pos` on; no result if it is not over within so many rounds. -/
def findApicFrame (data : List UInt8) (version : UInt8) :
    Nat → Nat → Option (Except ArtworkFailure Picture)
  | fuel, pos =>
    match addUsize pos 10 with
    | .error e => some (.error e)
    | .ok stop =>
      if stop ≤ data.length then
        match fuel with
        | 0 => none
        | fuel + 1 =>
          match readId3Frame data version pos with
          | .error e => some (.error e)
          | .ok none => some (.error .missing)
          | .ok (some frame) =>
            if frame.frameId = "APIC" then some (parseApicData frame.frameData version)
            else
              match addUsize pos (10 + frame.frameSize + headerSkip version frame.formatFlags) with
              | .error e => some (.error e)
              | .ok pos => findApicFrame data version fuel pos
      else some (.error .missing)

def footerSize (version flags : UInt8) : Nat := if version = 4 ∧ flags &&& 0x10 ≠ 0 then 10 else 0

/-- The version and the bytes of the frames. -/
def readId3Header (data : List UInt8) : Except ArtworkFailure (UInt8 × List UInt8) := do
  if data.length < 10 then
    throw .missing
  let magic ← orFail .panic (slice? data 0 3)
  if magic ≠ [0x49, 0x44, 0x33] then
    throw .missing
  let version ← orFail .panic data[3]?
  let flags ← orFail .panic data[5]?
  let a ← orFail .panic data[6]?
  let b ← orFail .panic data[7]?
  let c ← orFail .panic data[8]?
  let d ← orFail .panic data[9]?
  let size := readSize version a b c d
  let totalSize ← addUsize (10 + size) (footerSize version flags)
  if data.length < totalSize then
    throw .missing
  let framesData ← orFail .panic (slice? data 10 (10 + size))
  return (version, framesData)

def parseId3v2Apic (data : List UInt8) : Option (Except ArtworkFailure Picture) :=
  match readId3Header data with
  | .error e => some (.error e)
  | .ok (version, framesData) => findApicFrame framesData version framesData.length 0

/-- The bytes from the tag to the end of the file: at 20 is the offset of the tag. -/
def readDsfTag (file : List UInt8) : Option (List UInt8) := do
  let buf ← slice? file 20 28
  let id3Offset := buf.foldr (fun byte offset => byte.toNat + 2 ^ 8 * offset) 0
  let header ← slice? file id3Offset (id3Offset + 3)
  if header = [0x49, 0x44, 0x33] then some (file.drop id3Offset) else none

def extractDsfPicture (file : List UInt8) : Option (Except ArtworkFailure Picture) :=
  match readDsfTag file with
  | none => some (.error .missing)
  | some id3Data => parseId3v2Apic id3Data

/-! ## The content of the frame -/

theorem addUsize_ok {a b : Nat} (h : a + b < 2 ^ 64) : addUsize a b = .ok (a + b) := if_pos h

section Content

variable {data : List UInt8} {version : UInt8} {mime : String} {pos : Nat}

/-- What the picture is taken from: in versions 1 and 2 a byte is skipped. -/
def imageBytes (version : UInt8) (image : List UInt8) : List UInt8 :=
  if version = 1 ∨ version = 2 then image.tail else image

theorem parsePicture_nil (hdrop : data.drop pos = []) :
    parsePicture data version mime pos = .error .panic := by
  have hat : data[pos]? = none := List.getElem?_eq_none (List.drop_eq_nil_iff.1 hdrop)
  unfold parsePicture
  rw [hat]
  rfl

theorem parsePicture_unterminated {picType : UInt8} {left : List UInt8} (hlength : data.length < 2 ^ 63)
    (hdrop : data.drop pos = picType :: left) (hleft : 0 ∉ left) :
    parsePicture data version mime pos = .error .missing := by
  obtain ⟨hat, hpos, hnext⟩ := next_of_drop hdrop
  have hone : addUsize pos 1 = .ok (pos + 1) := addUsize_ok (by omega)
  simp only [parsePicture, hat, hone, slice?_drop hpos, hnext, List.idxOf?_eq_none_iff.2 hleft, orFail, bind,
    Except.bind]

theorem skipByte_ok (version : UInt8) {image : List UInt8} (hlength : data.length < 2 ^ 63) (hpos : pos ≤ data.length)
    (hdrop : data.drop pos = image) :
    ∃ stop, skipByte data version pos = .ok stop ∧ stop ≤ data.length ∧
      data.drop stop = imageBytes version image := by
  unfold skipByte imageBytes
  by_cases hversion : version = 1 ∨ version = 2
  · by_cases hmore : pos < data.length
    · refine ⟨pos + 1, ?_, hmore, ?_⟩
      · rw [if_pos ⟨hversion, hmore⟩, addUsize_ok (by omega)]
      · rw [if_pos hversion, ← hdrop, List.tail_drop]
    · refine ⟨pos, if_neg fun h => hmore h.2, hpos, ?_⟩
      rw [if_pos hversion, ← hdrop, List.drop_eq_nil_of_le (Nat.le_of_not_lt hmore)]
      rfl
  · exact ⟨pos, if_neg fun h => hversion h.1, hpos, by rw [if_neg hversion, hdrop]⟩

theorem parsePicture_terminated {picType : UInt8} {description image : List UInt8} (hlength : data.length < 2 ^ 63)
    (hdrop : data.drop pos = picType :: (description ++ 0 :: image)) (hdescription : 0 ∉ description) :
    parsePicture data version mime pos =
      if imageBytes version image = [] then .error .missing
      else .ok ⟨mime, picType, imageBytes version image⟩ := by
  obtain ⟨hat, hpos, hnext⟩ := next_of_drop hdrop
  have hlengths : (data.drop (pos + 1)).length = description.length + (image.length + 1) := by
    rw [hnext, List.length_append, List.length_cons]
  rw [List.length_drop] at hlengths
  have himage : data.drop (pos + 1 + (description.length + 1)) = image := by
    rw [← List.drop_drop, hnext, List.drop_append]
    simp
  obtain ⟨stop, hstop, hle, hrest⟩ :=
    skipByte_ok version hlength (by omega) himage
  have hone : addUsize pos 1 = .ok (pos + 1) := addUsize_ok (by omega)
  have hnext' : addUsize description.length 1 = .ok (description.length + 1) := addUsize_ok (by omega)
  have hend : addUsize (pos + 1) (description.length + 1) = .ok (pos + 1 + (description.length + 1)) :=
    addUsize_ok (by omega)
  simp only [parsePicture, hat, hone, slice?_drop hpos, hnext, Terminated.idxOf?_terminated hdescription, hnext', hend,
    hstop, slice?_drop hle, hrest, orFail, bind, Except.bind]

theorem parseApicData_nil : parseApicData [] version = .error .missing := rfl

theorem parseApicData_unterminated {encoding : UInt8} {left : List UInt8} (hleft : 0 ∉ left) :
    parseApicData (encoding :: left) version = .error .missing := by
  have hslice : slice? (encoding :: left) 1 (encoding :: left).length = some left :=
    slice?_drop (Nat.le_add_left 1 left.length)
  simp only [parseApicData, hslice, List.idxOf?_eq_none_iff.2 hleft, orFail, bind, Except.bind,
    List.getElem?_cons_zero]

theorem parseApicData_terminated (version : UInt8) {encoding : UInt8} {mime rest : List UInt8}
    (hlength : (encoding :: (mime ++ 0 :: rest)).length < 2 ^ 63) (hmime : 0 ∉ mime) :
    ∃ pos, (encoding :: (mime ++ 0 :: rest)).drop pos = rest ∧
      parseApicData (encoding :: (mime ++ 0 :: rest)) version =
        (Percent.ofBytes mime).elim (.error .missing) fun text =>
          parsePicture (encoding :: (mime ++ 0 :: rest)) version text pos := by
  refine ⟨1 + (mime.length + 1), ?_, ?_⟩
  · rw [← List.drop_drop, List.drop_one, List.tail_cons, List.drop_append]
    simp
  · have hslice : slice? (encoding :: (mime ++ 0 :: rest)) 1 (1 + mime.length) = some mime := by
      rw [slice?_add (by simp only [List.length_cons, List.length_append]; omega), List.drop_one, List.tail_cons,
        List.take_left]
    rw [List.length_cons, List.length_append, List.length_cons] at hlength
    have hleft : slice? (encoding :: (mime ++ 0 :: rest)) 1 (encoding :: (mime ++ 0 :: rest)).length =
        some (mime ++ 0 :: rest) :=
      slice?_drop (Nat.le_add_left 1 _)
    have hstop : addUsize 1 mime.length = .ok (1 + mime.length) := addUsize_ok (by omega)
    have hnext : addUsize mime.length 1 = .ok (mime.length + 1) := addUsize_ok (by omega)
    have hpos : addUsize 1 (mime.length + 1) = .ok (1 + (mime.length + 1)) := addUsize_ok (by omega)
    simp only [parseApicData, hleft, Terminated.idxOf?_terminated hmime, hstop, hslice, hnext, hpos, orFail, bind,
      Except.bind, List.getElem?_cons_zero]
    cases Percent.ofBytes mime <;> rfl

/-- Nothing is behind the MIME type. -/
def EndsInMime (data : List UInt8) : Prop :=
  ∃ encoding mime, data = encoding :: (mime ++ [0]) ∧ 0 ∉ mime ∧ Percent.IsUtf8 mime

/-- The content has the fields of this picture, a description without zeros between them. -/
def ReadsAs (version : UInt8) (data : List UInt8) (picture : Picture) : Prop :=
  ∃ encoding description image,
    data = encoding ::
      (Percent.bytes picture.mimeType ++ 0 :: picture.picType :: (description ++ 0 :: image)) ∧
    0 ∉ Percent.bytes picture.mimeType ∧ 0 ∉ description ∧ imageBytes version image = picture.picData ∧
    picture.picData ≠ []

theorem parseApicData_panic (hlength : data.length < 2 ^ 63) (h : EndsInMime data) :
    parseApicData data version = .error .panic := by
  obtain ⟨encoding, mime, rfl, hmime, text, htext⟩ := h
  obtain ⟨pos, hdrop, hparse⟩ := parseApicData_terminated version hlength hmime
  rw [hparse, Percent.ofBytes_eq_some_iff.2 htext]
  exact parsePicture_nil hdrop

theorem parseApicData_ok {picture : Picture} (hlength : data.length < 2 ^ 63) (h : ReadsAs version data picture) :
    parseApicData data version = .ok picture := by
  obtain ⟨encoding, description, image, rfl, hmime, hdescription, himage, hempty⟩ := h
  obtain ⟨pos, hdrop, hparse⟩ := parseApicData_terminated version hlength hmime
  rw [hparse, Percent.ofBytes_eq_some_iff.2 rfl, Option.elim_some,
    parsePicture_terminated hlength hdrop hdescription, himage, if_neg hempty]

/-- There is no other content with another outcome than `None`. -/
theorem parseApicData_cases (version : UInt8) (hlength : data.length < 2 ^ 63) :
    EndsInMime data ∨ (∃ picture, ReadsAs version data picture) ∨ parseApicData data version = .error .missing := by
  cases data with
  | nil => exact .inr (.inr parseApicData_nil)
  | cons encoding left =>
    rcases Terminated.cases_terminated 0 left with hleft | hleft
    · exact .inr (.inr (parseApicData_unterminated hleft.1))
    · obtain ⟨mime, rest, rfl, hmime, -⟩ := hleft
      obtain ⟨pos, hdrop, hparse⟩ := parseApicData_terminated version hlength hmime
      cases htext : Percent.ofBytes mime with
      | none =>
        rw [htext] at hparse
        exact .inr (.inr hparse)
      | some text =>
        rw [htext, Option.elim_some] at hparse
        have hbytes := Percent.ofBytes_eq_some_iff.1 htext
        cases rest with
        | nil => exact .inl ⟨encoding, mime, rfl, hmime, text, hbytes⟩
        | cons picType left =>
          rcases Terminated.cases_terminated 0 left with hleft | hleft
          · exact .inr (.inr (hparse.trans (parsePicture_unterminated hlength hdrop hleft.1)))
          · obtain ⟨description, image, rfl, hdescription, -⟩ := hleft
            by_cases hempty : imageBytes version image = []
            · refine .inr (.inr (hparse.trans ?_))
              rw [parsePicture_terminated hlength hdrop hdescription, if_pos hempty]
            · refine .inr (.inl ⟨⟨text, picType, imageBytes version image⟩, ?_⟩)
              rw [hbytes] at hmime ⊢
              exact ⟨encoding, description, image, rfl, hmime, hdescription, rfl, hempty⟩

theorem parseApicData_panic_iff (hlength : data.length < 2 ^ 63) :
    parseApicData data version = .error .panic ↔ EndsInMime data := by
  constructor
  · intro h
    rcases parseApicData_cases version hlength with hends | hreads | hmissing
    · exact hends
    · obtain ⟨picture, hreads⟩ := hreads
      rw [parseApicData_ok hlength hreads] at h
      cases h
    · rw [hmissing] at h
      cases h
  · exact parseApicData_panic hlength

theorem parseApicData_ok_iff {picture : Picture} (hlength : data.length < 2 ^ 63) :
    parseApicData data version = .ok picture ↔ ReadsAs version data picture := by
  constructor
  · intro h
    rcases parseApicData_cases version hlength with hends | hreads | hmissing
    · rw [parseApicData_panic hlength hends] at h
      cases h
    · obtain ⟨picture', hreads⟩ := hreads
      rw [parseApicData_ok hlength hreads] at h
      cases h
      exact hreads
    · rw [hmissing] at h
      cases h
  · exact parseApicData_ok hlength

end Content

/-! ## The frames -/

/-- Behind the header of the first APIC of the frames is `content`, where each frame before it is skipped as
`find_apic_frame` skips it. -/
inductive ApicAt (version : UInt8) : List UInt8 → List UInt8 → Prop where
  | here {a b c d s f : UInt8} {content rest : List UInt8} (hsize : readSize version a b c d = content.length) :
    ApicAt version (0x41 :: 0x50 :: 0x49 :: 0x43 :: a :: b :: c :: d :: s :: f :: (content ++ rest)) content
  | skip {i j k l a b c d s f : UInt8} {skipped rest content : List UInt8} (hzero : [i, j, k, l] ≠ [0, 0, 0, 0])
    (hapic : [i, j, k, l] ≠ [0x41, 0x50, 0x49, 0x43]) (hutf8 : Percent.IsUtf8 [i, j, k, l])
    (hsize : readSize version a b c d = skipped.length)
    (hrest : ApicAt version (rest.drop (headerSkip version f)) content) :
    ApicAt version (i :: j :: k :: l :: a :: b :: c :: d :: s :: f :: (skipped ++ rest)) content

section Frames

variable {data content body : List UInt8} {version i j k l a b c d s f : UInt8} {pos : Nat}

theorem readSize_lt (version a b c d : UInt8) : readSize version a b c d < 2 ^ 32 := by
  unfold readSize
  split
  · exact Bits.number_lt (by decide) a b c d
  · exact Bits.number_lt (by decide) a b c d

theorem apicAt_nil (hlength : data.length < 10) : ¬ ApicAt version data content := by
  intro h
  cases h with
  | here hsize =>
    simp only [List.length_cons] at hlength
    omega
  | skip hzero hapic hutf8 hsize hrest =>
    simp only [List.length_cons] at hlength
    omega

/-- The frame that is first, and the others. -/
theorem apicAt_iff :
    ApicAt version (i :: j :: k :: l :: a :: b :: c :: d :: s :: f :: body) content ↔
      readSize version a b c d ≤ body.length ∧
        (([i, j, k, l] = [0x41, 0x50, 0x49, 0x43] ∧ content = body.take (readSize version a b c d)) ∨
          ([i, j, k, l] ≠ [0, 0, 0, 0] ∧ [i, j, k, l] ≠ [0x41, 0x50, 0x49, 0x43] ∧ Percent.IsUtf8 [i, j, k, l] ∧
            ApicAt version (body.drop (readSize version a b c d + headerSkip version f)) content)) := by
  constructor
  · intro h
    cases h with
    | here hsize =>
      rw [hsize, List.length_append]
      exact ⟨Nat.le_add_right _ _, .inl ⟨rfl, List.take_left.symm⟩⟩
    | skip hzero hapic hutf8 hsize hrest =>
      rw [hsize, List.length_append]
      refine ⟨Nat.le_add_right _ _, .inr ⟨hzero, hapic, hutf8, ?_⟩⟩
      rwa [← List.drop_drop, List.drop_left]
  · intro h
    obtain ⟨hle, hcases⟩ := h
    have hsize : readSize version a b c d = (body.take (readSize version a b c d)).length := by
      rw [List.length_take, Nat.min_eq_left hle]
    have hbody := List.take_append_drop (readSize version a b c d) body
    rcases hcases with hhere | hskip
    · obtain ⟨hid, rfl⟩ := hhere
      simp only [List.cons.injEq, and_true] at hid
      obtain ⟨rfl, rfl, rfl, rfl⟩ := hid
      have hhere := @ApicAt.here version a b c d s f _ (body.drop (readSize version a b c d)) hsize
      rwa [hbody] at hhere
    · obtain ⟨hzero, hapic, hutf8, hrest⟩ := hskip
      rw [← List.drop_drop] at hrest
      have hskip := @ApicAt.skip version i j k l a b c d s f _ _ _ hzero hapic hutf8 hsize hrest
      rwa [hbody] at hskip

theorem readId3Frame_eq (version : UInt8) (hlength : data.length < 2 ^ 63)
    (hdrop : data.drop pos = i :: j :: k :: l :: a :: b :: c :: d :: s :: f :: body) :
    readId3Frame data version pos =
      if [i, j, k, l] = [0, 0, 0, 0] then .ok none
      else if body.length < readSize version a b c d then .error .missing
      else (Percent.ofBytes [i, j, k, l]).elim (.error .missing) fun frameId =>
        .ok (some ⟨frameId, readSize version a b c d, f, body.take (readSize version a b c d)⟩) := by
  have hat : ∀ n, data[pos + n]? = (i :: j :: k :: l :: a :: b :: c :: d :: s :: f :: body)[n]? := by
    intro n
    rw [← hdrop, List.getElem?_drop]
  have ha : data[pos + 4]? = some a := hat 4
  have hb : data[pos + 5]? = some b := hat 5
  have hc : data[pos + 6]? = some c := hat 6
  have hd : data[pos + 7]? = some d := hat 7
  have hs : data[pos + 8]? = some s := hat 8
  have hf : data[pos + 9]? = some f := hat 9
  have hlengths := congrArg List.length hdrop
  simp only [List.length_drop, List.length_cons] at hlengths
  have hbody : data.drop (pos + 10) = body := by
    rw [← List.drop_drop, hdrop]
    rfl
  have hid : slice? data pos (pos + 4) = some [i, j, k, l] := by
    rw [slice?_add (by omega), hdrop]
    rfl
  have hlt := readSize_lt version a b c d
  have hstop : addUsize (pos + 10) (readSize version a b c d) = .ok (pos + 10 + readSize version a b c d) :=
    addUsize_ok (by omega)
  unfold readId3Frame
  rw [hid]
  by_cases hzero : [i, j, k, l] = [0, 0, 0, 0]
  · rw [if_pos hzero]
    simp only [orFail, bind, Except.bind, if_pos hzero]
    rfl
  · rw [if_neg hzero]
    simp only [orFail, bind, Except.bind, if_neg hzero, ha, hb, hc, hd, hs, hf, hstop]
    by_cases hfits : body.length < readSize version a b c d
    · have hnone : slice? data (pos + 10) (pos + 10 + readSize version a b c d) = none := if_neg (by omega)
      rw [if_pos hfits, hnone]
    · rw [if_neg hfits, slice?_add (by omega), hbody]
      cases Percent.ofBytes [i, j, k, l] <;> rfl

/-- The ten bytes of a header. -/
theorem exists_header (hlength : 10 ≤ data.length) :
    ∃ i j k l a b c d s f body, data = i :: j :: k :: l :: a :: b :: c :: d :: s :: f :: body := by
  obtain ⟨i, _, rfl, hi⟩ := exists_cons hlength
  obtain ⟨j, _, rfl, hj⟩ := exists_cons hi
  obtain ⟨k, _, rfl, hk⟩ := exists_cons hj
  obtain ⟨l, _, rfl, hl⟩ := exists_cons hk
  obtain ⟨a, _, rfl, ha⟩ := exists_cons hl
  obtain ⟨b, _, rfl, hb⟩ := exists_cons ha
  obtain ⟨c, _, rfl, hc⟩ := exists_cons hb
  obtain ⟨d, _, rfl, hd⟩ := exists_cons hc
  obtain ⟨s, _, rfl, hs⟩ := exists_cons hd
  obtain ⟨f, body, rfl, -⟩ := exists_cons hs
  exact ⟨i, j, k, l, a, b, c, d, s, f, body, rfl⟩

theorem ApicAt.length_le (h : ApicAt version data content) : content.length ≤ data.length := by
  induction h with
  | here hsize =>
    simp only [List.length_cons, List.length_append]
    omega
  | skip hzero hapic hutf8 hsize hrest ih =>
    rw [List.length_drop] at ih
    simp only [List.length_cons, List.length_append]
    omega

/-- A round of the loop against what is left: nothing more, the APIC, or a frame before it. -/
theorem readId3Frame_cases (version : UInt8) (hlength : data.length < 2 ^ 63) (hmore : pos + 10 ≤ data.length) :
    ((readId3Frame data version pos = .ok none ∨ readId3Frame data version pos = .error .missing) ∧
        ∀ content, ¬ ApicAt version (data.drop pos) content) ∨
      ∃ frame, readId3Frame data version pos = .ok (some frame) ∧
        ((frame.frameId = "APIC" ∧ ApicAt version (data.drop pos) frame.frameData) ∨
          (frame.frameId ≠ "APIC" ∧ pos + 10 + frame.frameSize ≤ data.length ∧
            ∀ content, ApicAt version (data.drop pos) content ↔
              ApicAt version
                (data.drop (pos + (10 + frame.frameSize + headerSkip version frame.formatFlags))) content)) := by
  obtain ⟨i, j, k, l, a, b, c, d, s, f, body, hdrop⟩ : ∃ i j k l a b c d s f body,
      data.drop pos = i :: j :: k :: l :: a :: b :: c :: d :: s :: f :: body := by
    refine exists_header ?_
    rw [List.length_drop]
    omega
  have hbody : data.drop (pos + 10) = body := by
    rw [← List.drop_drop, hdrop]
    rfl
  have hlengths := congrArg List.length hbody
  rw [List.length_drop] at hlengths
  rw [readId3Frame_eq version hlength hdrop, hdrop]
  simp only [apicAt_iff]
  by_cases hzero : [i, j, k, l] = [0, 0, 0, 0]
  · rw [if_pos hzero]
    refine .inl ⟨.inl rfl, fun content h => ?_⟩
    rcases h.2 with hhere | hskip
    · rw [hzero] at hhere
      exact absurd hhere.1 (by decide)
    · exact hskip.1 hzero
  rw [if_neg hzero]
  by_cases hfits : body.length < readSize version a b c d
  · rw [if_pos hfits]
    exact .inl ⟨.inr rfl, fun content h => absurd h.1 (Nat.not_le_of_lt hfits)⟩
  rw [if_neg hfits]
  have hle := Nat.le_of_not_lt hfits
  cases hid : Percent.ofBytes [i, j, k, l] with
  | none =>
    have hutf8 : ¬ Percent.IsUtf8 [i, j, k, l] := by
      rw [← Percent.isSome_ofBytes, hid]
      simp
    refine .inl ⟨.inr rfl, fun content h => ?_⟩
    rcases h.2 with hhere | hskip
    · exact hutf8 ⟨"APIC", hhere.1⟩
    · exact hutf8 hskip.2.2.1
  | some frameId =>
    have hbytes := Percent.ofBytes_eq_some_iff.1 hid
    refine .inr ⟨_, rfl, ?_⟩
    dsimp only
    by_cases hapic : frameId = "APIC"
    · rw [hapic] at hbytes
      exact .inl ⟨hapic, hle, .inl ⟨hbytes, rfl⟩⟩
    · have hne : [i, j, k, l] ≠ [0x41, 0x50, 0x49, 0x43] := by
        intro heq
        exact hapic (Percent.bytes_injective (hbytes.symm.trans heq))
      have hnext : data.drop (pos + (10 + readSize version a b c d + headerSkip version f)) =
          body.drop (readSize version a b c d + headerSkip version f) := by
        rw [Nat.add_assoc 10, ← Nat.add_assoc, ← List.drop_drop, hbody]
      refine .inr ⟨hapic, by omega, fun content => ?_⟩
      rw [hnext]
      constructor
      · intro h
        rcases h.2 with hhere | hskip
        · exact absurd hhere.1 hne
        · exact hskip.2.2.2
      · intro h
        exact ⟨hle, .inr ⟨hzero, hne, ⟨frameId, hbytes⟩, h⟩⟩

theorem headerSkip_le (version flag : UInt8) : headerSkip version flag ≤ 4 := by
  unfold headerSkip
  split <;> omega

theorem findApicFrame_stop {fuel : Nat} (hpos : pos < 2 ^ 63 + 4) (hmore : ¬ pos + 10 ≤ data.length) :
    findApicFrame data version fuel pos = some (.error .missing) := by
  unfold findApicFrame
  rw [addUsize_ok (by omega)]
  exact if_neg hmore

/-- The loop ends, and parses the content of the first APIC it comes to. -/
theorem findApicFrame_eq (version : UInt8) {fuel : Nat} (hlength : data.length < 2 ^ 63)
    (hfuel : data.length ≤ pos + fuel) (hpos : pos ≤ data.length + 4) :
    (∃ content, ApicAt version (data.drop pos) content ∧
        findApicFrame data version fuel pos = some (parseApicData content version)) ∨
      (∀ content, ¬ ApicAt version (data.drop pos) content) ∧
        findApicFrame data version fuel pos = some (.error .missing) := by
  induction fuel generalizing pos with
  | zero =>
    refine .inr ⟨fun content => apicAt_nil ?_, findApicFrame_stop (by omega) (by omega)⟩
    rw [List.length_drop]
    omega
  | succ fuel ih =>
    by_cases hmore : pos + 10 ≤ data.length
    · rw [findApicFrame, addUsize_ok (by omega)]
      dsimp only
      rw [if_pos hmore]
      rcases readId3Frame_cases version hlength hmore with hstop | hframe
      · obtain ⟨hread, hnot⟩ := hstop
        refine .inr ⟨hnot, ?_⟩
        rcases hread with hread | hread
        · rw [hread]
        · rw [hread]
      · obtain ⟨frame, hread, hframe⟩ := hframe
        rw [hread]
        dsimp only
        rcases hframe with hapic | hskip
        · rw [if_pos hapic.1]
          exact .inl ⟨frame.frameData, hapic.2, rfl⟩
        · obtain ⟨hne, hle, hiff⟩ := hskip
          have hskip := headerSkip_le version frame.formatFlags
          rw [if_neg hne, addUsize_ok (by omega)]
          simp only [hiff]
          exact ih (by omega) (by omega)
    · refine .inr ⟨fun content => apicAt_nil ?_, findApicFrame_stop (by omega) hmore⟩
      rw [List.length_drop]
      omega

/-- There is one first APIC. -/
theorem ApicAt.unique {content' : List UInt8} (h : ApicAt version data content)
    (h' : ApicAt version data content') : content = content' := by
  induction h with
  | here hsize =>
    rw [apicAt_iff] at h'
    rcases h'.2 with hhere | hskip
    · rw [hhere.2, hsize, List.take_left]
    · exact absurd rfl hskip.2.1
  | skip hzero hapic hutf8 hsize hrest ih =>
    rw [apicAt_iff] at h'
    rcases h'.2 with hhere | hskip
    · exact absurd hhere.1 hapic
    · refine ih ?_
      have hrest' := hskip.2.2.2
      rwa [hsize, ← List.drop_drop, List.drop_left] at hrest'

/-- From the beginning, the content that is parsed. -/
theorem findApicFrame_content (version : UInt8) (hlength : data.length < 2 ^ 63) :
    ∃ result, findApicFrame data version data.length 0 = some result ∧
      (∀ content, ApicAt version data content → result = parseApicData content version) ∧
      ((∀ content, ¬ ApicAt version data content) → result = .error .missing) := by
  rcases findApicFrame_eq version hlength (Nat.le_add_left data.length 0) (Nat.zero_le _) with hfound | hnot
  · obtain ⟨content, hat, hresult⟩ := hfound
    rw [List.drop_zero] at hat
    refine ⟨_, hresult, fun content' hat' => ?_, fun hnot => absurd hat (hnot content)⟩
    rw [hat.unique hat']
  · obtain ⟨hnot, hresult⟩ := hnot
    rw [List.drop_zero] at hnot
    exact ⟨_, hresult, fun content hat => absurd hat (hnot content), fun _ => rfl⟩

end Frames

/-! ## The tag -/

/-- The tag has room for its frames, which are these, and for its footer. -/
def FramesOf (version : UInt8) (data frames : List UInt8) : Prop :=
  ∃ revision flags a b c d rest,
    data = 0x49 :: 0x44 :: 0x33 :: version :: revision :: flags :: a :: b :: c :: d :: (frames ++ rest) ∧
      readSize version a b c d = frames.length ∧ footerSize version flags ≤ rest.length

/-- The content of the first APIC of the tag. -/
def ApicOf (version : UInt8) (data content : List UInt8) : Prop :=
  ∃ frames, FramesOf version data frames ∧ ApicAt version frames content

section Tag

variable {data : List UInt8}

theorem readId3Header_short (hlength : data.length < 10) : readId3Header data = .error .missing := by
  unfold readId3Header
  rw [if_pos hlength]
  rfl

theorem readId3Header_eq {i j k version revision flags a b c d : UInt8} {body : List UInt8}
    (hdata : data = i :: j :: k :: version :: revision :: flags :: a :: b :: c :: d :: body) :
    readId3Header data =
      if [i, j, k] ≠ [0x49, 0x44, 0x33] then .error .missing
      else if body.length < readSize version a b c d + footerSize version flags then .error .missing
      else .ok (version, body.take (readSize version a b c d)) := by
  have hlt := readSize_lt version a b c d
  have hfooter : footerSize version flags ≤ 10 := by
    unfold footerSize
    split <;> omega
  have htotal : addUsize (10 + readSize version a b c d) (footerSize version flags) =
      .ok (10 + readSize version a b c d + footerSize version flags) :=
    addUsize_ok (by omega)
  have hlength : data.length = body.length + 10 := by
    rw [hdata]
    rfl
  have hmagic : slice? data 0 3 = some [i, j, k] := by
    rw [hdata]
    rfl
  have hbody : data.drop 10 = body := by
    rw [hdata]
    rfl
  have hat : ∀ n : Nat, data[n]? = (i :: j :: k :: version :: revision :: flags :: a :: b :: c :: d :: body)[n]? := by
    intro n
    rw [hdata]
  have hversion : data[3]? = some version := hat 3
  have hflags : data[5]? = some flags := hat 5
  have ha : data[6]? = some a := hat 6
  have hb : data[7]? = some b := hat 7
  have hc : data[8]? = some c := hat 8
  have hd : data[9]? = some d := hat 9
  have hten : ¬ data.length < 10 := by omega
  unfold readId3Header
  rw [if_neg hten, hmagic]
  by_cases hid : [i, j, k] ≠ [0x49, 0x44, 0x33]
  · rw [if_pos hid]
    simp only [orFail, bind, Except.bind, if_pos hid]
    rfl
  · rw [if_neg hid]
    simp only [orFail, bind, Except.bind, if_neg hid, hversion, hflags, ha, hb, hc, hd, htotal, pure, Except.pure]
    by_cases hfits : body.length < readSize version a b c d + footerSize version flags
    · rw [if_pos hfits, if_pos (by omega)]
      rfl
    · rw [if_neg hfits, if_neg (by omega), slice?_add (by omega), hbody]

/-- The header is that of a tag with room for its frames, or there is no picture. -/
theorem readId3Header_cases (data : List UInt8) :
    (∃ version frames, FramesOf version data frames ∧ readId3Header data = .ok (version, frames)) ∨
      (∀ version frames, ¬ FramesOf version data frames) ∧ readId3Header data = .error .missing := by
  by_cases hlength : 10 ≤ data.length
  · obtain ⟨i, j, k, version, revision, flags, a, b, c, d, body, hdata⟩ := exists_header hlength
    have hread := readId3Header_eq hdata
    by_cases hid : [i, j, k] ≠ [0x49, 0x44, 0x33]
    · rw [if_pos hid] at hread
      refine .inr ⟨fun version' frames h => ?_, hread⟩
      obtain ⟨_, _, _, _, _, _, _, hdata', -, -⟩ := h
      rw [hdata] at hdata'
      simp only [List.cons.injEq] at hdata'
      obtain ⟨rfl, rfl, rfl, -⟩ := hdata'
      exact hid rfl
    · rw [if_neg hid] at hread
      simp only [ne_eq, not_not, List.cons.injEq, and_true] at hid
      obtain ⟨rfl, rfl, rfl⟩ := hid
      by_cases hfits : body.length < readSize version a b c d + footerSize version flags
      · rw [if_pos hfits] at hread
        refine .inr ⟨fun version' frames h => ?_, hread⟩
        obtain ⟨_, _, _, _, _, _, rest, hdata', hsize, hfooter⟩ := h
        rw [hdata] at hdata'
        simp only [List.cons.injEq, true_and] at hdata'
        obtain ⟨rfl, rfl, rfl, rfl, rfl, rfl, rfl, rfl⟩ := hdata'
        rw [List.length_append] at hfits
        omega
      · rw [if_neg hfits] at hread
        refine .inl ⟨version, _, ?_, hread⟩
        refine ⟨revision, flags, a, b, c, d, body.drop (readSize version a b c d), ?_, ?_, ?_⟩
        · rw [List.take_append_drop, hdata]
        · rw [List.length_take, Nat.min_eq_left (by omega)]
        · rw [List.length_drop]
          omega
  · refine .inr ⟨fun version frames h => ?_, readId3Header_short (Nat.lt_of_not_le hlength)⟩
    obtain ⟨_, _, _, _, _, _, _, rfl, -, -⟩ := h
    simp only [List.length_cons] at hlength
    omega

theorem FramesOf.unique {version version' : UInt8} {frames frames' : List UInt8} (h : FramesOf version data frames)
    (h' : FramesOf version' data frames') : version = version' ∧ frames = frames' := by
  obtain ⟨_, _, _, _, _, _, rest, hdata, hsize, -⟩ := h
  obtain ⟨_, _, _, _, _, _, rest', hdata', hsize', -⟩ := h'
  rw [hdata] at hdata'
  simp only [List.cons.injEq, true_and] at hdata'
  obtain ⟨rfl, rfl, rfl, rfl, rfl, rfl, rfl, hbody⟩ := hdata'
  exact ⟨rfl, (List.append_inj hbody (hsize.symm.trans hsize')).1⟩

theorem ApicOf.length_le {version : UInt8} {content : List UInt8} (h : ApicOf version data content) :
    content.length ≤ data.length := by
  obtain ⟨frames, hframes, hat⟩ := h
  obtain ⟨_, _, _, _, _, _, rest, rfl, -, -⟩ := hframes
  have hle := hat.length_le
  simp only [List.length_cons, List.length_append]
  omega

/-- What is parsed of a tag is the content of its first APIC. -/
theorem parseId3v2Apic_content (hlength : data.length < 2 ^ 63) :
    ∃ result, parseId3v2Apic data = some result ∧
      (∀ version content, ApicOf version data content → result = parseApicData content version) ∧
      ((∀ version content, ¬ ApicOf version data content) → result = .error .missing) := by
  unfold parseId3v2Apic
  rcases readId3Header_cases data with hheader | hheader
  · obtain ⟨version, frames, hframes, hread⟩ := hheader
    have hle : frames.length ≤ data.length := by
      obtain ⟨_, _, _, _, _, _, rest, rfl, -, -⟩ := hframes
      simp only [List.length_cons, List.length_append]
      omega
    obtain ⟨result, hresult, hfound, hnone⟩ :=
      findApicFrame_content version (Nat.lt_of_le_of_lt hle hlength)
    rw [hread]
    refine ⟨result, hresult, fun version' content h => ?_, fun h => ?_⟩
    · obtain ⟨frames', hframes', hat⟩ := h
      obtain ⟨rfl, rfl⟩ := hframes.unique hframes'
      exact hfound content hat
    · exact hnone fun content hat => h version content ⟨frames, hframes, hat⟩
  · obtain ⟨hnot, hread⟩ := hheader
    rw [hread]
    refine ⟨_, rfl, fun version content h => ?_, fun _ => rfl⟩
    obtain ⟨frames, hframes, -⟩ := h
    exact absurd hframes (hnot version frames)

/-- Any outcome but `None` is that of a content. -/
theorem parseId3v2Apic_eq_iff {outcome : Except ArtworkFailure Picture} (hlength : data.length < 2 ^ 63)
    (hne : outcome ≠ .error .missing) :
    parseId3v2Apic data = some outcome ↔
      ∃ version content, ApicOf version data content ∧ parseApicData content version = outcome := by
  obtain ⟨result, hresult, hfound, hnone⟩ := parseId3v2Apic_content hlength
  rw [hresult, Option.some.injEq]
  constructor
  · intro h
    by_contra hnot
    push Not at hnot
    refine hne (h.symm.trans (hnone fun version content hof => ?_))
    exact hnot version content hof ((hfound version content hof).symm.trans h)
  · intro h
    obtain ⟨version, content, hof, hparse⟩ := h
    rw [hfound version content hof, hparse]

theorem parseId3v2Apic_panic_iff (hlength : data.length < 2 ^ 63) :
    parseId3v2Apic data = some (.error .panic) ↔
      ∃ version content, ApicOf version data content ∧ EndsInMime content := by
  rw [parseId3v2Apic_eq_iff hlength (by simp)]
  refine exists_congr fun version => exists_congr fun content => and_congr_right fun hof => ?_
  exact parseApicData_panic_iff (Nat.lt_of_le_of_lt hof.length_le hlength)

theorem parseId3v2Apic_ok_iff {picture : Picture} (hlength : data.length < 2 ^ 63) :
    parseId3v2Apic data = some (.ok picture) ↔
      ∃ version content, ApicOf version data content ∧ ReadsAs version content picture := by
  rw [parseId3v2Apic_eq_iff hlength (by simp)]
  refine exists_congr fun version => exists_congr fun content => and_congr_right fun hof => ?_
  exact parseApicData_ok_iff (Nat.lt_of_le_of_lt hof.length_le hlength)

end Tag

/-! ## No panic -/

theorem readDsfTag_length_le {file tag : List UInt8} (h : readDsfTag file = some tag) : tag.length ≤ file.length := by
  simp only [readDsfTag, Option.bind_eq_bind, Option.bind_eq_some_iff, Option.ite_none_right_eq_some,
    Option.some.injEq] at h
  obtain ⟨_, -, _, -, -, rfl⟩ := h
  rw [List.length_drop]
  exact Nat.sub_le _ _

/-- Neither parser panics, unless the content of the first APIC of the tag ends with its MIME type. -/
theorem artwork_panics_iff (file : FileBytes) :
    (∃ result, parseId3v2Apic file.bytes = some result ∧
        (result ≠ .error .panic ↔
          ∀ version content, ApicOf version file.bytes content → ¬ EndsInMime content)) ∧
      ∃ result, extractDsfPicture file.bytes = some result ∧
        (result ≠ .error .panic ↔
          ∀ tag, readDsfTag file.bytes = some tag →
            ∀ version content, ApicOf version tag content → ¬ EndsInMime content) := by
  have hparse : ∀ {data : List UInt8}, data.length < 2 ^ 63 → ∃ result, parseId3v2Apic data = some result ∧
      (result ≠ .error .panic ↔ ∀ version content, ApicOf version data content → ¬ EndsInMime content) := by
    intro data hlength
    obtain ⟨result, hresult, -⟩ := parseId3v2Apic_content hlength
    refine ⟨result, hresult, ?_⟩
    have hiff := parseId3v2Apic_panic_iff hlength
    rw [hresult, Option.some.injEq] at hiff
    rw [ne_eq, hiff]
    push Not
    rfl
  refine ⟨hparse file.length_lt, ?_⟩
  unfold extractDsfPicture
  cases htag : readDsfTag file.bytes with
  | none =>
    refine ⟨_, rfl, iff_of_true (by simp) fun tag h => ?_⟩
    cases h
  | some tag =>
    obtain ⟨result, hresult, hiff⟩ := hparse (Nat.lt_of_le_of_lt (readDsfTag_length_le htag) file.length_lt)
    refine ⟨result, hresult, hiff.trans ?_⟩
    constructor
    · intro h tag' htag'
      cases htag'
      exact h
    · intro h
      exact h tag rfl

/-- A DSF file with nothing but an APIC that ends behind its MIME type. -/
def endedApic : FileBytes where
  bytes := List.replicate 20 0 ++ [28, 0, 0, 0, 0, 0, 0, 0] ++
    [0x49, 0x44, 0x33, 4, 0, 0, 0, 0, 0, 13, 0x41, 0x50, 0x49, 0x43, 0, 0, 0, 3, 0, 0, 0, 0x61, 0]
  length_lt := by decide

theorem ended_apic_panics : ¬ ∀ file : FileBytes, ∃ result,
    extractDsfPicture file.bytes = some result ∧ result ≠ .error .panic := by
  intro h
  obtain ⟨result, hresult, hsafe⟩ := h endedApic
  have htag : readDsfTag endedApic.bytes = some (endedApic.bytes.drop 28) := by decide
  have hof : ApicOf 4 (endedApic.bytes.drop 28) [0, 0x61, 0] := by
    refine ⟨endedApic.bytes.drop 38, ⟨0, 0, 0, 0, 0, 13, [], rfl, rfl, Nat.zero_le _⟩, ?_⟩
    exact @ApicAt.here 4 0 0 0 3 0 0 [0, 0x61, 0] [] rfl
  have hpanic : parseId3v2Apic (endedApic.bytes.drop 28) = some (.error .panic) :=
    (parseId3v2Apic_panic_iff (by decide)).2 ⟨4, _, hof, 0, [0x61], rfl, by decide, "a", rfl⟩
  unfold extractDsfPicture at hresult
  rw [htag] at hresult
  dsimp only at hresult
  rw [hpanic] at hresult
  cases hresult
  exact hsafe rfl

end Kanade

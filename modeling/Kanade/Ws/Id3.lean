import Kanade.Ws.Artwork

/-!
# Kanade.Ws.Id3

ID3v2.3 and ID3v2.4 tags as they are written, and what `parse_id3v2_apic` reads from them.

* `WrittenFrame.apicAt_append`: a frame is skipped, with four more bytes where it has a data length indicator.
* `WrittenFrame.readsAs_content_iff`: when the content of the APIC reads as its picture.
* `TaggedBytes.artwork_exact_iff`: the tags from which the picture is read exactly.
-/

namespace Kanade

inductive Id3Version where
  | v3
  | v4
deriving DecidableEq, Repr

namespace Id3Version

def byte : Id3Version → UInt8
  | .v3 => 3
  | .v4 => 4

/-- The bits of a byte in the size of a frame. -/
def sizeBits : Id3Version → Nat
  | .v3 => 8
  | .v4 => 7

/-- The format flag of a group. -/
def groupFlag : Id3Version → UInt8
  | .v3 => 0x20
  | .v4 => 0x40

end Id3Version

/-! ## Frames -/

/-- A capital letter or a digit. -/
def IsIdByte (byte : UInt8) : Prop :=
  0x41 ≤ byte.toNat ∧ byte.toNat ≤ 0x5A ∨ 0x30 ≤ byte.toNat ∧ byte.toNat ≤ 0x39

def apicId : List UInt8 := [0x41, 0x50, 0x49, 0x43]

/-- A frame without compression, encryption and unsynchronisation: of the additions to its header there may be the
byte of a group and, in 2.4, a data length indicator. -/
structure WrittenFrame (version : Id3Version) where
  frameId : List UInt8
  statusFlags : UInt8
  group : Option UInt8
  lengthIndicator : Bool
  body : List UInt8
  length_frameId : frameId.length = 4
  frameId_bytes : ∀ byte ∈ frameId, IsIdByte byte
  indicator_v4 : lengthIndicator = true → version = .v4

namespace WrittenFrame

variable {version : Id3Version}

def formatFlags (frame : WrittenFrame version) : UInt8 :=
  (if frame.group.isSome then version.groupFlag else 0) ||| if frame.lengthIndicator then 0x01 else 0

/-- What is in front of the body: the indicator has the length of the body. -/
def additions (frame : WrittenFrame version) : List UInt8 :=
  frame.group.toList ++ if frame.lengthIndicator then Bits.digits 7 frame.body.length else []

def content (frame : WrittenFrame version) : List UInt8 := frame.additions ++ frame.body

def bytes (frame : WrittenFrame version) : List UInt8 :=
  frame.frameId ++ Bits.digits version.sizeBits frame.content.length ++ [frame.statusFlags, frame.formatFlags] ++
    frame.content

end WrittenFrame

/-! ## Pictures -/

inductive TextEncoding where
  | latin1
  | utf16
  | utf16be
  | utf8
deriving DecidableEq, Repr

namespace TextEncoding

def byte : TextEncoding → UInt8
  | .latin1 => 0
  | .utf16 => 1
  | .utf16be => 2
  | .utf8 => 3

/-- In units of two bytes. -/
def isWide : TextEncoding → Bool
  | .latin1 | .utf8 => false
  | .utf16 | .utf16be => true

def terminator (encoding : TextEncoding) : List UInt8 := if encoding.isWide then [0, 0] else [0]

/-- Text without the terminator: no byte is zero, or no unit. -/
def IsText (encoding : TextEncoding) (text : List UInt8) : Prop :=
  if encoding.isWide then ∃ units : List (UInt8 × UInt8), text = units.flatMap (fun u => [u.1, u.2]) ∧ (0, 0) ∉ units
  else 0 ∉ text

end TextEncoding

/-- The fields of an APIC. -/
structure WrittenPicture (version : Id3Version) where
  encoding : TextEncoding
  picture : Picture
  description : List UInt8
  encoding_v3 : version = .v3 → encoding = .latin1 ∨ encoding = .utf16
  mimeType_ascii : ∀ c ∈ picture.mimeType.toList, 0 < c.toNat ∧ c.toNat < 128
  description_text : encoding.IsText description
  picData_ne : picture.picData ≠ []

def WrittenPicture.bytes {version : Id3Version} (written : WrittenPicture version) : List UInt8 :=
  written.encoding.byte :: (Percent.bytes written.picture.mimeType ++ 0 :: written.picture.picType ::
    (written.description ++ written.encoding.terminator ++ written.picture.picData))

/-! ## Tags -/

/-- The frames of a tag, in `apic` the first APIC of them, and the padding. -/
structure Id3Frames (version : Id3Version) where
  before : List (WrittenFrame version)
  apic : WrittenFrame version
  written : WrittenPicture version
  after : List (WrittenFrame version)
  padding : Nat
  before_ne : ∀ frame ∈ before, frame.frameId ≠ apicId
  apic_frameId : apic.frameId = apicId
  apic_body : apic.body = written.bytes

namespace Id3Frames

variable {version : Id3Version}

def behind (frames : Id3Frames version) : List UInt8 :=
  frames.after.flatMap WrittenFrame.bytes ++ List.replicate frames.padding 0

def bytes (frames : Id3Frames version) : List UInt8 :=
  frames.before.flatMap WrittenFrame.bytes ++ frames.apic.bytes ++ frames.behind

end Id3Frames

/-- A tag without unsynchronisation and extended header. -/
structure WrittenTag (version : Id3Version) where
  frames : Id3Frames version
  revision : UInt8
  experimental : Bool
  footer : Bool
  footer_v4 : footer = true → version = .v4
  /-- The size of a tag has 28 bits. -/
  size_lt : frames.bytes.length < 2 ^ 28

namespace WrittenTag

variable {version : Id3Version}

def flags (tag : WrittenTag version) : UInt8 :=
  (if tag.experimental then 0x20 else 0) ||| if tag.footer then 0x10 else 0

/-- The header and the footer but for their first three bytes. -/
def header (tag : WrittenTag version) : List UInt8 :=
  version.byte :: tag.revision :: tag.flags :: Bits.digits 7 tag.frames.bytes.length

def footerBytes (tag : WrittenTag version) : List UInt8 :=
  if tag.footer then 0x33 :: 0x44 :: 0x49 :: tag.header else []

def bytes (tag : WrittenTag version) : List UInt8 :=
  0x49 :: 0x44 :: 0x33 :: tag.header ++ (tag.frames.bytes ++ tag.footerBytes)

end WrittenTag

/-- A tag and what is behind it in the file. -/
structure TaggedBytes (version : Id3Version) where
  tag : WrittenTag version
  rest : List UInt8
  /-- The length of a `Vec`. -/
  length_lt : (tag.bytes ++ rest).length < 2 ^ 63

namespace TaggedBytes

variable {version : Id3Version}

def bytes (tagged : TaggedBytes version) : List UInt8 := tagged.tag.bytes ++ tagged.rest

def picture (tagged : TaggedBytes version) : Picture := tagged.tag.frames.written.picture

end TaggedBytes

/-! ## The walk over the frames -/

theorem readSize_digits (version : Id3Version) {n : Nat} (hn : n < 2 ^ 28) :
    readSize version.byte (Bits.digit version.sizeBits n 3) (Bits.digit version.sizeBits n 2)
      (Bits.digit version.sizeBits n 1) (Bits.digit version.sizeBits n 0) = n := by
  cases version with
  | v3 => exact Bits.number_digits (by decide) (Nat.lt_trans hn (by decide))
  | v4 => exact Bits.number_digits (by decide) hn

namespace WrittenFrame

variable {version : Id3Version} {rest content : List UInt8}

theorem headerSkip_formatFlags (frame : WrittenFrame version) :
    headerSkip version.byte frame.formatFlags = if frame.lengthIndicator then 4 else 0 := by
  have hv4 := frame.indicator_v4
  unfold formatFlags
  cases version with
  | v3 =>
    have hindicator : frame.lengthIndicator = false := by
      cases hindicator : frame.lengthIndicator with
      | false => rfl
      | true => exact absurd (hv4 hindicator) (by decide)
    rw [hindicator]
    rfl
  | v4 =>
    cases frame.group.isSome with
    | false => cases frame.lengthIndicator <;> rfl
    | true => cases frame.lengthIndicator <;> rfl

/-- Four characters, no zeros and UTF-8. -/
theorem frameId_cases (frame : WrittenFrame version) :
    ∃ i j k l, frame.frameId = [i, j, k, l] ∧ [i, j, k, l] ≠ [0, 0, 0, 0] ∧ Percent.IsUtf8 [i, j, k, l] := by
  have hascii : ∀ byte ∈ frame.frameId, byte ≠ 0 ∧ Percent.IsUtf8 [byte] := by
    intro byte hbyte
    have hid := frame.frameId_bytes byte hbyte
    unfold IsIdByte at hid
    refine ⟨?_, Percent.isUtf8_ascii (by omega)⟩
    rintro rfl
    exact absurd hid (by decide)
  obtain ⟨i, j, k, l, hi⟩ := List.length_eq_four.1 frame.length_frameId
  rw [hi] at hascii
  simp only [List.mem_cons, List.not_mem_nil, or_false, forall_eq_or_imp, forall_eq] at hascii
  obtain ⟨hi', hj, hk, hl⟩ := hascii
  refine ⟨i, j, k, l, hi, fun hzero => hi'.1 (List.cons.inj hzero).1, ?_⟩
  exact hi'.2.append (hj.2.append (hk.2.append hl.2))

theorem bytes_append (frame : WrittenFrame version) (rest : List UInt8) {i j k l : UInt8}
    (hid : frame.frameId = [i, j, k, l]) :
    frame.bytes ++ rest = i :: j :: k :: l :: Bits.digit version.sizeBits frame.content.length 3 ::
      Bits.digit version.sizeBits frame.content.length 2 :: Bits.digit version.sizeBits frame.content.length 1 ::
      Bits.digit version.sizeBits frame.content.length 0 :: frame.statusFlags :: frame.formatFlags ::
      (frame.content ++ rest) := by
  unfold bytes
  rw [hid]
  simp [Bits.digits]

/-- A frame before the APIC. -/
theorem apicAt_append (frame : WrittenFrame version) (hlength : frame.content.length < 2 ^ 28)
    (hne : frame.frameId ≠ apicId) :
    ApicAt version.byte (frame.bytes ++ rest) content ↔
      ApicAt version.byte (rest.drop (if frame.lengthIndicator then 4 else 0)) content := by
  obtain ⟨i, j, k, l, hid, hzero, hutf8⟩ := frame.frameId_cases
  rw [hid] at hne
  rw [frame.bytes_append rest hid, apicAt_iff, readSize_digits version hlength, headerSkip_formatFlags,
    ← List.drop_drop, List.drop_left]
  constructor
  · intro h
    rcases h.2 with hhere | hskip
    · exact absurd hhere.1 hne
    · exact hskip.2.2.2
  · intro h
    rw [List.length_append]
    exact ⟨Nat.le_add_right _ _, .inr ⟨hzero, hne, hutf8, h⟩⟩

theorem apicAt_apic (frame : WrittenFrame version) (hlength : frame.content.length < 2 ^ 28)
    (hid : frame.frameId = apicId) :
    ApicAt version.byte (frame.bytes ++ rest) content ↔ content = frame.content := by
  rw [frame.bytes_append rest hid, apicAt_iff, readSize_digits version hlength, List.take_left]
  constructor
  · intro h
    rcases h.2 with hhere | hskip
    · exact hhere.2
    · exact absurd rfl hskip.2.1
  · intro h
    rw [List.length_append]
    exact ⟨Nat.le_add_right _ _, .inl ⟨rfl, h⟩⟩

theorem length_content_le (frame : WrittenFrame version) : frame.content.length ≤ frame.bytes.length := by
  unfold bytes
  rw [List.length_append]
  exact Nat.le_add_left _ _

/-- Frames without a data length indicator before the APIC. -/
theorem apicAt_flatMap {frames : List (WrittenFrame version)}
    (hlength : (frames.flatMap bytes).length < 2 ^ 28) (hne : ∀ frame ∈ frames, frame.frameId ≠ apicId)
    (hplain : ∀ frame ∈ frames, frame.lengthIndicator = false) :
    ApicAt version.byte (frames.flatMap bytes ++ rest) content ↔ ApicAt version.byte rest content := by
  induction frames with
  | nil => exact Iff.rfl
  | cons frame frames ih =>
    rw [List.flatMap_cons, List.length_append] at hlength
    have hle := frame.length_content_le
    have hframe := hplain frame List.mem_cons_self
    rw [List.flatMap_cons, List.append_assoc, frame.apicAt_append (by omega) (hne frame List.mem_cons_self), hframe]
    exact ih (by omega) (fun f hf => hne f (List.mem_cons_of_mem _ hf)) fun f hf =>
      hplain f (List.mem_cons_of_mem _ hf)

end WrittenFrame

/-! ## The content of the APIC -/

section Content

variable {version : Id3Version}

theorem WrittenPicture.zero_not_mem (written : WrittenPicture version) :
    0 ∉ Percent.bytes written.picture.mimeType := by
  intro hmem
  obtain ⟨c, hc, hmem⟩ := List.mem_flatMap.1 hmem
  have hchar := (Percent.eq_of_ascii_mem hmem (by decide)).2
  have hpos := (written.mimeType_ascii c hc).1
  rw [hchar] at hpos
  exact absurd hpos (by decide)

theorem imageBytes_byte (version : Id3Version) (image : List UInt8) : imageBytes version.byte image = image := by
  cases version <;> rfl

theorem WrittenFrame.additions_eq_nil (frame : WrittenFrame version) :
    frame.additions = [] ↔ frame.group = none ∧ frame.lengthIndicator = false := by
  unfold WrittenFrame.additions Bits.digits
  cases frame.group <;> cases frame.lengthIndicator <;> simp

/-- Nothing in front of the fields, and a description that ends with one zero. -/
theorem WrittenFrame.readsAs_content_iff (frame : WrittenFrame version) (written : WrittenPicture version)
    (hbody : frame.body = written.bytes) :
    ReadsAs version.byte frame.content written.picture ↔
      (frame.group = none ∧ frame.lengthIndicator = false) ∧ written.encoding.isWide = false := by
  have hmime := written.zero_not_mem
  have htext := written.description_text
  rw [← frame.additions_eq_nil]
  unfold TextEncoding.IsText at htext
  unfold ReadsAs WrittenFrame.content
  rw [hbody]
  unfold WrittenPicture.bytes TextEncoding.terminator
  simp only [imageBytes_byte]
  constructor
  · intro h
    obtain ⟨encoding, description, image, hcontent, -, hdescription, rfl, -⟩ := h
    -- The image is the end of both, what is in front of it the same.
    have hfront : frame.additions ++ written.encoding.byte :: (Percent.bytes written.picture.mimeType ++
        0 :: written.picture.picType ::
          (written.description ++ if written.encoding.isWide then [0, 0] else [0])) =
        encoding :: (Percent.bytes written.picture.mimeType ++
          0 :: written.picture.picType :: (description ++ [0])) := by
      refine (List.append_left_inj written.picture.picData).1 ?_
      simpa using hcontent
    cases hadditions : frame.additions with
    | nil =>
      refine ⟨rfl, ?_⟩
      rw [hadditions, List.nil_append] at hfront
      have hrest := List.append_cancel_left (List.cons.inj hfront).2
      have hend := (List.cons.inj (List.cons.inj hrest).2).2
      cases hwide : written.encoding.isWide with
      | false => rfl
      | true =>
        rw [hwide, if_pos rfl] at hend
        have hzero : written.description ++ [0] = description :=
          (List.append_left_inj [0]).1 (by simpa using hend)
        rw [← hzero] at hdescription
        exact absurd (List.mem_append_right _ List.mem_cons_self) hdescription
    | cons byte skipped =>
      rw [hadditions, List.cons_append] at hfront
      have hending : (0 : UInt8) ∈ if written.encoding.isWide then [0, 0] else [0] := by
        split <;> exact List.mem_cons_self
      exact absurd (List.cons.inj hfront).2 (Terminated.ne_shifted hmime hdescription hending)
  · intro h
    obtain ⟨hnone, hwide⟩ := h
    rw [hwide, if_neg Bool.false_ne_true] at htext
    rw [hnone, hwide, if_neg Bool.false_ne_true]
    exact ⟨written.encoding.byte, written.description, written.picture.picData, by simp, hmime, htext, rfl,
      written.picData_ne⟩

end Content

/-! ## The tag -/

/-- The size of a tag of `n` bytes read with eight bits of each byte. -/
def plainSize (n : Nat) : Nat :=
  Bits.number 8 (Bits.digit 7 n 3) (Bits.digit 7 n 2) (Bits.digit 7 n 1) (Bits.digit 7 n 0)

theorem le_plainSize {n : Nat} (hn : n < 2 ^ 28) : n ≤ plainSize n := by
  have hdigits := @Bits.number_digits 7 n (by decide) hn
  have hlt : ∀ i, (Bits.digit 7 n i).toNat < 2 ^ 7 := by
    intro i
    rw [Bits.toNat_digit (by decide)]
    exact Nat.mod_lt _ (Nat.two_pow_pos 7)
  have h2 := hlt 2
  have h1 := hlt 1
  have h0 := hlt 0
  rw [Bits.number_eq h2 h1 h0] at hdigits
  unfold plainSize
  rw [Bits.number_eq (by omega) (by omega) (by omega)]
  omega

namespace TaggedBytes

variable {version : Id3Version}

/-- The size that is read of the tag is within the file: in 2.3 its bytes are not read as synchsafe ones. -/
def SizeFits (tagged : TaggedBytes version) : Prop :=
  version = .v3 →
    plainSize tagged.tag.frames.bytes.length ≤ tagged.tag.frames.bytes.length + tagged.rest.length

theorem footerSize_eq (tagged : TaggedBytes version) :
    footerSize version.byte tagged.tag.flags = tagged.tag.footerBytes.length := by
  have hv4 := tagged.tag.footer_v4
  unfold footerSize WrittenTag.footerBytes WrittenTag.flags
  cases hfooter : tagged.tag.footer with
  | false =>
    refine if_neg fun h => h.2 ?_
    cases tagged.tag.experimental <;> rfl
  | true =>
    obtain rfl := hv4 hfooter
    have hflag : ((if tagged.tag.experimental = true then 0x20 else 0) ||| if true = true then 0x10 else 0) &&& 0x10 ≠
        (0 : UInt8) := by
      cases tagged.tag.experimental <;> decide
    exact (if_pos ⟨rfl, hflag⟩).trans rfl

theorem footerBytes_v3 (tag : WrittenTag .v3) : tag.footerBytes = [] := by
  unfold WrittenTag.footerBytes
  refine if_neg fun h => ?_
  cases tag.footer_v4 h

theorem bytes_eq (tagged : TaggedBytes version) :
    tagged.bytes = 0x49 :: 0x44 :: 0x33 :: version.byte :: tagged.tag.revision :: tagged.tag.flags ::
      Bits.digit 7 tagged.tag.frames.bytes.length 3 :: Bits.digit 7 tagged.tag.frames.bytes.length 2 ::
      Bits.digit 7 tagged.tag.frames.bytes.length 1 :: Bits.digit 7 tagged.tag.frames.bytes.length 0 ::
      (tagged.tag.frames.bytes ++ (tagged.tag.footerBytes ++ tagged.rest)) := by
  unfold TaggedBytes.bytes WrittenTag.bytes WrittenTag.header
  simp [Bits.digits]

/-- The size that is read: never less than that of the frames. -/
def readTagSize (tagged : TaggedBytes version) : Nat :=
  readSize version.byte (Bits.digit 7 tagged.tag.frames.bytes.length 3) (Bits.digit 7 tagged.tag.frames.bytes.length 2)
    (Bits.digit 7 tagged.tag.frames.bytes.length 1) (Bits.digit 7 tagged.tag.frames.bytes.length 0)

theorem readTagSize_spec (tagged : TaggedBytes version) :
    tagged.tag.frames.bytes.length ≤ tagged.readTagSize ∧
      (version = .v4 → tagged.readTagSize = tagged.tag.frames.bytes.length) ∧
      (tagged.SizeFits ↔ tagged.readTagSize ≤ tagged.tag.frames.bytes.length + tagged.rest.length) := by
  have hlt := tagged.tag.size_lt
  unfold readTagSize SizeFits
  cases version with
  | v3 =>
    refine ⟨le_plainSize hlt, fun h => ?_, ⟨fun h => h rfl, fun h _ => h⟩⟩
    cases h
  | v4 =>
    have hsize := readSize_digits .v4 hlt
    refine ⟨Nat.le_of_eq hsize.symm, fun _ => hsize, iff_of_true (fun h => ?_) ?_⟩
    · cases h
    · exact Nat.le_trans (Nat.le_of_eq hsize) (Nat.le_add_right _ _)

/-- The frames that are read: those of the tag, and in 2.3 perhaps more of the file. -/
theorem framesOf_of_fits (tagged : TaggedBytes version) (hfits : tagged.SizeFits) :
    ∃ more, FramesOf version.byte tagged.bytes (tagged.tag.frames.bytes ++ more) ∧ (version = .v4 → more = []) := by
  obtain ⟨hle, hv4, hiff⟩ := tagged.readTagSize_spec
  have hfooter := tagged.footerSize_eq
  have hroom := hiff.1 hfits
  have hshort : tagged.tag.footerBytes = [] ∨ tagged.readTagSize = tagged.tag.frames.bytes.length := by
    cases version with
    | v3 => exact .inl (footerBytes_v3 tagged.tag)
    | v4 => exact .inr (hv4 rfl)
  have hdata := tagged.bytes_eq
  rw [← List.take_append_drop (tagged.readTagSize - tagged.tag.frames.bytes.length)
    (tagged.tag.footerBytes ++ tagged.rest), ← List.append_assoc tagged.tag.frames.bytes] at hdata
  refine ⟨(tagged.tag.footerBytes ++ tagged.rest).take (tagged.readTagSize - tagged.tag.frames.bytes.length),
    ⟨_, _, _, _, _, _, _, hdata, ?_, ?_⟩, fun hversion => ?_⟩
  · change tagged.readTagSize = _
    rw [List.length_append, List.length_take, List.length_append]
    omega
  · rw [hfooter, List.length_drop, List.length_append]
    rcases hshort with hnone | hsame
    · rw [hnone, List.length_nil]
      omega
    · omega
  · rw [hv4 hversion, Nat.sub_self, List.take_zero]

theorem not_framesOf (tagged : TaggedBytes version) (hfits : ¬ tagged.SizeFits) (version' : UInt8)
    (frames : List UInt8) : ¬ FramesOf version' tagged.bytes frames := by
  intro h
  obtain ⟨-, hv4, hiff⟩ := tagged.readTagSize_spec
  obtain ⟨_, flags, _, _, _, _, rest, hdata, hsize, -⟩ := h
  rw [tagged.bytes_eq] at hdata
  simp only [List.cons.injEq, true_and] at hdata
  obtain ⟨rfl, rfl, rfl, rfl, rfl, rfl, rfl, hbody⟩ := hdata
  have hlength := congrArg List.length hbody
  simp only [List.length_append] at hlength
  have hnofooter : tagged.tag.footerBytes = [] := by
    cases version with
    | v3 => exact footerBytes_v3 tagged.tag
    | v4 =>
      refine absurd (fun h => ?_) hfits
      cases h
  rw [hnofooter, List.length_nil] at hlength
  refine hfits (hiff.2 ?_)
  change tagged.readTagSize = _ at hsize
  omega

/-- A picture is read exactly if a content that is come to has its fields. -/
theorem parse_iff (tagged : TaggedBytes version) {picture : Picture} {more : List UInt8}
    (hframes : FramesOf version.byte tagged.bytes (tagged.tag.frames.bytes ++ more)) :
    parseId3v2Apic tagged.bytes = some (.ok picture) ↔
      ∃ content, ApicAt version.byte (tagged.tag.frames.bytes ++ more) content ∧
        ReadsAs version.byte content picture := by
  rw [@parseId3v2Apic_ok_iff tagged.bytes picture tagged.length_lt]
  constructor
  · intro h
    obtain ⟨version', content, hof, hreads⟩ := h
    obtain ⟨frames, hframes', hat⟩ := hof
    obtain ⟨rfl, rfl⟩ := hframes.unique hframes'
    exact ⟨content, hat, hreads⟩
  · intro h
    obtain ⟨content, hat, hreads⟩ := h
    exact ⟨version.byte, content, ⟨_, hframes, hat⟩, hreads⟩

/-- No frame before the APIC has a data length indicator; the APIC has no additions to its header and a description
in units of one byte. -/
def Plain (tagged : TaggedBytes version) : Prop :=
  (∀ frame ∈ tagged.tag.frames.before, frame.lengthIndicator = false) ∧
    (tagged.tag.frames.apic.group = none ∧ tagged.tag.frames.apic.lengthIndicator = false) ∧
      tagged.tag.frames.written.encoding.isWide = false

/-- The bytes from four behind the first frame with a data length indicator on are frames again, of which an APIC
has the fields of the picture. -/
def ReadsShifted (tagged : TaggedBytes version) : Prop :=
  ∃ plain frame others content, tagged.tag.frames.before = plain ++ frame :: others ∧
    (∀ frame ∈ plain, frame.lengthIndicator = false) ∧ frame.lengthIndicator = true ∧
    ApicAt 4 ((others.flatMap WrittenFrame.bytes ++
      (tagged.tag.frames.apic.bytes ++ tagged.tag.frames.behind)).drop 4) content ∧
    ReadsAs 4 content tagged.picture

theorem apic_content_lt (tagged : TaggedBytes version) :
    (tagged.tag.frames.before.flatMap WrittenFrame.bytes).length < 2 ^ 28 ∧
      tagged.tag.frames.apic.content.length < 2 ^ 28 := by
  have hlt := tagged.tag.size_lt
  have hle := tagged.tag.frames.apic.length_content_le
  unfold Id3Frames.bytes at hlt
  rw [List.length_append, List.length_append] at hlt
  omega

/-- Without a data length indicator before the APIC, its content is come to. -/
theorem apicAt_plain (tagged : TaggedBytes version) {more content : List UInt8}
    (hplain : ∀ frame ∈ tagged.tag.frames.before, frame.lengthIndicator = false) :
    ApicAt version.byte (tagged.tag.frames.bytes ++ more) content ↔ content = tagged.tag.frames.apic.content := by
  obtain ⟨hbefore, hapic⟩ := tagged.apic_content_lt
  unfold Id3Frames.bytes
  rw [List.append_assoc, List.append_assoc,
    WrittenFrame.apicAt_flatMap hbefore tagged.tag.frames.before_ne hplain,
    WrittenFrame.apicAt_apic _ hapic tagged.tag.frames.apic_frameId]

/-- With one, four bytes behind the first frame that has it are skipped. -/
theorem apicAt_shifted (tagged : TaggedBytes version) {content : List UInt8} {plain others : List (WrittenFrame version)}
    {frame : WrittenFrame version} (hbefore : tagged.tag.frames.before = plain ++ frame :: others)
    (hplain : ∀ frame ∈ plain, frame.lengthIndicator = false) (hframe : frame.lengthIndicator = true) :
    ApicAt version.byte tagged.tag.frames.bytes content ↔
      ApicAt 4 ((others.flatMap WrittenFrame.bytes ++
        (tagged.tag.frames.apic.bytes ++ tagged.tag.frames.behind)).drop 4) content := by
  have hlt := tagged.apic_content_lt.1
  have hne := tagged.tag.frames.before_ne
  have hle := frame.length_content_le
  have hversion : version.byte = 4 := by
    rw [frame.indicator_v4 hframe]
    rfl
  rw [hbefore] at hne hlt
  rw [List.flatMap_append, List.flatMap_cons, List.length_append, List.length_append] at hlt
  unfold Id3Frames.bytes
  rw [hbefore, List.flatMap_append, List.flatMap_cons]
  simp only [List.append_assoc]
  rw [WrittenFrame.apicAt_flatMap (by omega) (fun f hf => hne f (List.mem_append_left _ hf)) hplain,
    frame.apicAt_append (by omega) (hne frame (List.mem_append_right _ List.mem_cons_self)), if_pos hframe, hversion]

theorem parse_plain_iff (tagged : TaggedBytes version) (hfits : tagged.SizeFits)
    (hplain : ∀ frame ∈ tagged.tag.frames.before, frame.lengthIndicator = false) :
    parseId3v2Apic tagged.bytes = some (.ok tagged.picture) ↔ tagged.Plain := by
  obtain ⟨more, hframes, -⟩ := tagged.framesOf_of_fits hfits
  have hcontent := tagged.tag.frames.apic.readsAs_content_iff _ tagged.tag.frames.apic_body
  rw [tagged.parse_iff hframes]
  simp only [tagged.apicAt_plain hplain, exists_eq_left]
  exact hcontent.trans (and_iff_right hplain).symm

theorem parse_shifted_iff (tagged : TaggedBytes version) (hfits : tagged.SizeFits)
    {frame : WrittenFrame version} (hmem : frame ∈ tagged.tag.frames.before) (hframe : frame.lengthIndicator = true) :
    parseId3v2Apic tagged.bytes = some (.ok tagged.picture) ↔ tagged.ReadsShifted := by
  obtain rfl := frame.indicator_v4 hframe
  obtain ⟨more, hframes, hmore⟩ := tagged.framesOf_of_fits hfits
  rw [tagged.parse_iff hframes, hmore rfl, List.append_nil]
  constructor
  · intro h
    obtain ⟨content, hat, hreads⟩ := h
    have hexists : ∃ frame ∈ tagged.tag.frames.before, frame.lengthIndicator = true := ⟨frame, hmem, hframe⟩
    obtain ⟨plain, first, others, hbefore, hplain, hfirst⟩ := Terminated.exists_first hexists
    have hplain' : ∀ frame ∈ plain, frame.lengthIndicator = false := by
      intro frame hmem
      exact Bool.eq_false_iff.2 (hplain frame hmem)
    rw [tagged.apicAt_shifted hbefore hplain' hfirst] at hat
    exact ⟨plain, first, others, content, hbefore, hplain', hfirst, hat, hreads⟩
  · intro h
    obtain ⟨plain, first, others, content, hbefore, hplain, hfirst, hat, hreads⟩ := h
    exact ⟨content, (tagged.apicAt_shifted hbefore hplain hfirst).2 hat, hreads⟩

/-- The picture is read exactly if the tag is plain, or the walk over its frames goes wrong and comes to it again. -/
theorem artwork_exact_iff (tagged : TaggedBytes version) :
    parseId3v2Apic tagged.bytes = some (.ok tagged.picture) ↔
      tagged.SizeFits ∧ (tagged.Plain ∨ tagged.ReadsShifted) := by
  by_cases hfits : tagged.SizeFits
  · rw [and_iff_right hfits]
    by_cases hplain : ∀ frame ∈ tagged.tag.frames.before, frame.lengthIndicator = false
    · rw [tagged.parse_plain_iff hfits hplain]
      refine ⟨Or.inl, fun h => ?_⟩
      rcases h with hplain | hshifted
      · exact hplain
      · obtain ⟨plain, frame, others, content, hbefore, -, hframe, -, -⟩ := hshifted
        have hmem : frame ∈ tagged.tag.frames.before := by
          rw [hbefore]
          exact List.mem_append_right _ List.mem_cons_self
        rw [hplain frame hmem] at hframe
        cases hframe
    · push Not at hplain
      obtain ⟨frame, hmem, hframe⟩ := hplain
      rw [Bool.ne_false_iff] at hframe
      rw [tagged.parse_shifted_iff hfits hmem hframe]
      refine ⟨Or.inr, fun h => ?_⟩
      rcases h with hplain | hshifted
      · rw [hplain.1 frame hmem] at hframe
        cases hframe
      · exact hshifted
  · refine iff_of_false (fun h => ?_) fun h => hfits h.1
    obtain ⟨version', content, hof, -⟩ := (@parseId3v2Apic_ok_iff tagged.bytes _ tagged.length_lt).1 h
    obtain ⟨frames, hframes, -⟩ := hof
    exact tagged.not_framesOf hfits version' frames hframes

end TaggedBytes

/-- A picture with a description in UTF-16, which is empty but for its byte order mark. -/
def widePicture : WrittenPicture .v4 where
  encoding := .utf16
  picture := ⟨"image/png", 3, [0x89]⟩
  description := [0xFF, 0xFE]
  encoding_v3 h := by cases h
  mimeType_ascii := by simp
  description_text := ⟨[(0xFF, 0xFE)], rfl, by decide⟩
  picData_ne := by decide

/-- The only frame of a tag that is all of the data. -/
def wideTagged : TaggedBytes .v4 where
  tag :=
    { frames :=
        { before := []
          apic :=
            { frameId := apicId
              statusFlags := 0
              group := none
              lengthIndicator := false
              body := widePicture.bytes
              length_frameId := rfl
              frameId_bytes := by simp [apicId, IsIdByte]
              indicator_v4 := fun _ => rfl }
          written := widePicture
          after := []
          padding := 0
          before_ne := by simp
          apic_frameId := rfl
          apic_body := rfl }
      revision := 0
      experimental := false
      footer := false
      footer_v4 := fun _ => rfl
      size_lt := by decide }
  rest := []
  length_lt := by decide

theorem wide_description_inexact : ¬ ∀ (version : Id3Version) (tagged : TaggedBytes version),
    parseId3v2Apic tagged.bytes = some (.ok tagged.picture) := by
  intro h
  have hfits : wideTagged.SizeFits := by
    intro hversion
    cases hversion
  have hplain := (wideTagged.parse_plain_iff hfits (by simp [wideTagged])).1 (h .v4 wideTagged)
  exact absurd hplain.2.2 (by decide)

end Kanade

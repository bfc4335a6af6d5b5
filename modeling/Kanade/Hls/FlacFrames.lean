import Mathlib.Data.List.Sort
import Kanade.Bits.Byte
import Kanade.Crc.Remainder
import Kanade.Hls.FlacMetadata

/-!
# Kanade.Hls.FlacFrames

What `flac_frame_starts` finds in a FLAC file. A file is its metadata and its frames, a frame its header and
any bytes up to its footer.

* `parseFlacMetadata_bytes`: the metadata blocks are read as they were written.
* `mem_flacFrameStarts`: a place is found exactly if a header begins there, by the sync code, the lengths
  and the check of the header.
* `frames_exact_iff`: the frames are found exactly if no header seems to begin inside a frame.
-/

namespace Kanade

namespace Flac

/-! ## The format -/

structure MetadataBlock where
  blockType : UInt8
  blockType_lt : blockType.toNat < 127
  data : List UInt8
  length_lt : data.length < 2 ^ 24

def MetadataBlock.bytes (block : MetadataBlock) (isLast : Bool) : List UInt8 :=
  (if isLast then block.blockType ||| 0x80 else block.blockType) ::
    UInt8.ofNat (block.data.length / 2 ^ 16) :: UInt8.ofNat (block.data.length / 2 ^ 8 % 2 ^ 8) ::
    UInt8.ofNat (block.data.length % 2 ^ 8) :: block.data

def metadataBytes : List MetadataBlock → List UInt8
  | [] => []
  | [block] => block.bytes true
  | block :: blocks => block.bytes false ++ metadataBytes blocks

/-- How many bytes a coded number has, by its first. -/
def numberLength (lead : UInt8) : Option Nat :=
  if lead.toNat < 0x80 then some 1
  else if lead.toNat < 0xC0 then none
  else if lead.toNat < 0xE0 then some 2
  else if lead.toNat < 0xF0 then some 3
  else if lead.toNat < 0xF8 then some 4
  else if lead.toNat < 0xFC then some 5
  else if lead.toNat < 0xFE then some 6
  else if lead.toNat = 0xFE then some 7
  else none

def continuation (n : Nat) : Nat → List UInt8
  | 0 => []
  | k + 1 => UInt8.ofNat (0x80 + n / 64 ^ k % 64) :: continuation n k

/-- The number of a frame or of its first sample. -/
def codedNumber (n : Nat) : List UInt8 :=
  if n < 0x80 then [UInt8.ofNat n]
  else if n < 0x800 then UInt8.ofNat (0xC0 + n / 64) :: continuation n 1
  else if n < 0x10000 then UInt8.ofNat (0xE0 + n / 64 ^ 2) :: continuation n 2
  else if n < 0x200000 then UInt8.ofNat (0xF0 + n / 64 ^ 3) :: continuation n 3
  else if n < 0x4000000 then UInt8.ofNat (0xF8 + n / 64 ^ 4) :: continuation n 4
  else if n < 0x80000000 then UInt8.ofNat (0xFC + n / 64 ^ 5) :: continuation n 5
  else 0xFE :: continuation n 6

/-- How many bytes tell the block size and the sample rate. -/
def extraLength (codes : UInt8) : Nat :=
  (if codes.toNat / 16 = 6 then 1 else if codes.toNat / 16 = 7 then 2 else 0) +
    if codes.toNat % 16 = 12 then 1
    else if codes.toNat % 16 = 13 ∨ codes.toNat % 16 = 14 then 2 else 0

structure Header where
  second : UInt8
  codes : UInt8
  layout : UInt8
  number : List UInt8
  extra : List UInt8
  crc : UInt8
deriving DecidableEq

def Header.unchecked (h : Header) : List UInt8 :=
  0xFF :: h.second :: h.codes :: h.layout :: (h.number ++ h.extra)

def Header.bytes (h : Header) : List UInt8 := h.unchecked ++ [h.crc]

/-- A header by its sync code, its lengths and its check. -/
structure Header.Plausible (h : Header) : Prop where
  sync : h.second &&& 0xFC = 0xF8
  number : h.number.head?.bind numberLength = some h.number.length
  extra : h.extra.length = extraLength h.codes
  crc : Crc.Codeword (0x07 : BitVec 8) h.bytes

/-- A header as the format wants it. -/
structure Header.WellFormed (h : Header) : Prop where
  sync : h.second = 0xF8 ∨ h.second = 0xF9
  blockSize : h.codes.toNat / 16 ≠ 0
  sampleRate : h.codes.toNat % 16 ≠ 15
  channels : h.layout.toNat / 16 ≤ 10
  sampleSize : h.layout.toNat / 2 % 8 ≠ 3
  reserved : h.layout.toNat % 2 = 0
  number : ∃ n < if h.second = 0xF8 then 2 ^ 31 else 2 ^ 36, h.number = codedNumber n
  extra : h.extra.length = extraLength h.codes
  crc : Crc.Codeword (0x07 : BitVec 8) h.bytes

/-- The body is any subframes, padding and the check of the frame. -/
structure Frame where
  header : Header
  body : List UInt8
  wellFormed : header.WellFormed
  crc : Crc.Codeword (0x8005 : BitVec 16) (header.bytes ++ body)

def Frame.bytes (frame : Frame) : List UInt8 := frame.header.bytes ++ frame.body

structure File where
  streaminfo : List UInt8
  streaminfo_length : streaminfo.length = 34
  blocks : List MetadataBlock
  blocks_ne : ∀ block ∈ blocks, block.blockType ≠ 0
  frames : List Frame

namespace File

def streaminfoBlock (file : File) : MetadataBlock where
  blockType := 0
  blockType_lt := by decide
  data := file.streaminfo
  length_lt := by rw [file.streaminfo_length]; decide

def metadata (file : File) : List UInt8 :=
  [0x66, 0x4C, 0x61, 0x43] ++ metadataBytes (file.streaminfoBlock :: file.blocks)

def bytes (file : File) : List UInt8 := file.metadata ++ file.frames.flatMap Frame.bytes

def audioOffset (file : File) : Nat := file.metadata.length

end File

/-- Where frames begin and end, the first at `offset`. -/
def frameRanges : Nat → List Frame → List (Nat × Nat)
  | _, [] => []
  | offset, frame :: frames =>
    (offset, offset + frame.bytes.length) :: frameRanges (offset + frame.bytes.length) frames

def File.frameRanges (file : File) : List (Nat × Nat) := Flac.frameRanges file.audioOffset file.frames

def File.frameStarts (file : File) : List Nat := file.frameRanges.map Prod.fst

/-- Inside a frame, a header seems to begin. It may go on in the next frames. -/
def File.HasLookAlike (file : File) : Prop :=
  ∃ before frame after, file.frames = before ++ frame :: after ∧
    ∃ i, 0 < i ∧ i < frame.bytes.length ∧
      ∃ h : Header, h.Plausible ∧ h.bytes <+: frame.bytes.drop i ++ after.flatMap Frame.bytes

/-! ## The metadata -/

section Metadata

def parsed (block : MetadataBlock) (isLast : Bool) : FlacMetadataBlock :=
  ⟨isLast, block.blockType, block.data⟩

def parsedBlocks : List MetadataBlock → List FlacMetadataBlock
  | [] => []
  | [block] => [parsed block true]
  | block :: blocks => parsed block false :: parsedBlocks blocks

theorem bytes_parsed (block : MetadataBlock) (isLast : Bool) : (parsed block isLast).bytes = block.bytes isLast := by
  unfold FlacMetadataBlock.bytes MetadataBlock.bytes parsed
  cases isLast with
  | true => simp [UInt8.or_comm]
  | false => simp

theorem fits_parsed (block : MetadataBlock) (isLast : Bool) : (parsed block isLast).Fits :=
  ⟨Nat.lt_succ_of_lt block.blockType_lt, block.length_lt⟩

theorem flatMap_parsedBlocks (blocks : List MetadataBlock) :
    (parsedBlocks blocks).flatMap FlacMetadataBlock.bytes = metadataBytes blocks := by
  induction blocks with
  | nil => rfl
  | cons block blocks ih =>
    cases blocks with
    | nil => exact (List.flatMap_singleton _ _).trans (bytes_parsed block true)
    | cons next blocks =>
      rw [parsedBlocks, metadataBytes, List.flatMap_cons, ih, bytes_parsed]
      · intro h
        cases h
      · intro h
        cases h

theorem onlyLastFlagged_parsedBlocks (blocks : List MetadataBlock) (hne : blocks ≠ []) :
    OnlyLastFlagged (parsedBlocks blocks) := by
  induction blocks with
  | nil => exact absurd rfl hne
  | cons block blocks ih =>
    cases blocks with
    | nil => exact ⟨[], parsed block true, rfl, rfl, fun other hother => absurd hother List.not_mem_nil⟩
    | cons next blocks =>
      obtain ⟨before, last, hblocks, hlast, hothers⟩ := ih (List.cons_ne_nil _ _)
      refine ⟨parsed block false :: before, last, congrArg _ hblocks, hlast, ?_⟩
      intro other hother
      rcases List.mem_cons.1 hother with rfl | hother
      · rfl
      · exact hothers other hother

theorem mem_parsedBlocks {blocks : List MetadataBlock} {read : FlacMetadataBlock} (h : read ∈ parsedBlocks blocks) :
    ∃ block ∈ blocks, ∃ isLast, read = parsed block isLast := by
  induction blocks with
  | nil => cases h
  | cons block blocks ih =>
    cases blocks with
    | nil => exact ⟨block, List.mem_cons_self, true, List.mem_singleton.1 h⟩
    | cons next blocks =>
      rcases List.mem_cons.1 h with rfl | h
      · exact ⟨block, List.mem_cons_self, false, rfl⟩
      · obtain ⟨other, hother, hread⟩ := ih h
        exact ⟨other, List.mem_cons_of_mem _ hother, hread⟩

/-- The metadata is read as it was written, and the audio begins behind it. -/
theorem parseFlacMetadata_bytes (file : File) :
    ∃ info, parseFlacStreaminfo file.streaminfo = .ok info ∧
      parseFlacMetadata file.bytes =
        .ok (parsedBlocks (file.streaminfoBlock :: file.blocks), info, file.audioOffset) := by
  have hstreaminfo : ∀ read ∈ parsedBlocks (file.streaminfoBlock :: file.blocks), read.blockType = 0 →
      read.blockData = file.streaminfo := by
    intro read hread hzero
    obtain ⟨block, hblock, isLast, rfl⟩ := mem_parsedBlocks hread
    rcases List.mem_cons.1 hblock with rfl | hblock
    · rfl
    · exact absurd hzero (file.blocks_ne block hblock)
  have hfirst : ∃ read ∈ parsedBlocks (file.streaminfoBlock :: file.blocks), read.blockType = 0 := by
    cases file.blocks with
    | nil => exact ⟨_, List.mem_cons_self, rfl⟩
    | cons => exact ⟨_, List.mem_cons_self, rfl⟩
  have hfits : ∀ read ∈ parsedBlocks (file.streaminfoBlock :: file.blocks), read.Fits := by
    intro read hread
    obtain ⟨block, -, isLast, rfl⟩ := mem_parsedBlocks hread
    exact fits_parsed block isLast
  obtain ⟨info, hparse, read, hread, hzero, hinfo⟩ := parseFlacMetadata_written
    ⟨_, hfits, onlyLastFlagged_parsedBlocks _ (List.cons_ne_nil _ _), hfirst, fun read hread hzero =>
      (congrArg _ (hstreaminfo read hread hzero)).trans file.streaminfo_length⟩
    (file.frames.flatMap Frame.bytes)
  rw [flatMap_parsedBlocks] at hparse
  refine ⟨info, hstreaminfo read hread hzero ▸ hinfo, ?_⟩
  rw [File.audioOffset, File.metadata, List.length_append]
  exact hparse

end Metadata

/-! ## Headers -/

section Headers

variable {h : Header} {bytes : List UInt8} {offset : Nat}

theorem toBitVec_crcShift (crc : UInt8) :
    (crcShift crc).toBitVec = Crc.shift (0x07 : BitVec 8) crc.toBitVec := by
  have hmsb : crc &&& 0x80 ≠ 0 ↔ crc.toBitVec.msb = true := by
    have hmask : crc &&& 0x80 = 0 ↔ 0 ≤ crc.toNat ∧ crc.toNat < 0x80 := Bits.mask_iff 7 (by decide) rfl (by decide)
    rw [ne_eq, hmask, BitVec.msb_eq_decide, decide_eq_true_eq, UInt8.toNat_toBitVec]
    omega
  unfold crcShift Crc.shift
  by_cases h : crc &&& 0x80 ≠ 0
  · rw [if_pos h, if_pos (hmsb.1 h)]
    rfl
  · rw [if_neg h, if_neg (fun hset => h (hmsb.2 hset))]
    rfl

theorem toBitVec_iterate (n : Nat) (crc : UInt8) :
    (Nat.iterate crcShift n crc).toBitVec = Nat.iterate (Crc.shift (0x07 : BitVec 8)) n crc.toBitVec := by
  induction n generalizing crc with
  | zero => rfl
  | succ n ih => rw [Function.iterate_succ_apply, ih, toBitVec_crcShift, Function.iterate_succ_apply]

/-- The check of a header is the remainder of its polynomial. -/
theorem toBitVec_flacCrc8 (data : List UInt8) :
    (flacCrc8 data).toBitVec = Crc.remainder (0x07 : BitVec 8) data := by
  induction data using List.reverseRecOn with
  | nil => rfl
  | append_singleton data byte ih =>
    have hbyte : (flacCrc8 (data ++ [byte])) = Nat.iterate crcShift 8 (flacCrc8 data ^^^ byte) := by
      rw [flacCrc8, List.foldl_append]
      rfl
    rw [hbyte, toBitVec_iterate, UInt8.toBitVec_xor, ih, Crc.remainder_snoc, Crc.step, Crc.top_eight]

theorem codeword_iff_flacCrc8 {data : List UInt8} {crc : UInt8} :
    Crc.Codeword (0x07 : BitVec 8) (data ++ [crc]) ↔ flacCrc8 data = crc := by
  rw [Crc.codeword_iff (by decide) (by decide), Crc.remainder_snoc_eq_zero (by decide),
    ← toBitVec_flacCrc8, UInt8.toBitVec_inj]
  exact eq_comm

/-- The masks of the code tell the ranges of `numberLength`. -/
theorem numberLength_masks (lead : UInt8) : numberLength lead =
    if lead &&& 0x80 = 0 then some 1
    else if lead &&& 0xE0 = 0xC0 then some 2
    else if lead &&& 0xF0 = 0xE0 then some 3
    else if lead &&& 0xF8 = 0xF0 then some 4
    else if lead &&& 0xFC = 0xF8 then some 5
    else if lead &&& 0xFE = 0xFC then some 6
    else if lead = 0xFE then some 7
    else none := by
  have hone : lead &&& 0x80 = 0 ↔ 0 ≤ lead.toNat ∧ lead.toNat < 0x80 :=
    Bits.mask_iff 7 (by decide) rfl (by decide)
  have htwo : lead &&& 0xE0 = 0xC0 ↔ 0xC0 ≤ lead.toNat ∧ lead.toNat < 0xE0 :=
    Bits.mask_iff 5 (by decide) rfl (by decide)
  have hthree : lead &&& 0xF0 = 0xE0 ↔ 0xE0 ≤ lead.toNat ∧ lead.toNat < 0xF0 :=
    Bits.mask_iff 4 (by decide) rfl (by decide)
  have hfour : lead &&& 0xF8 = 0xF0 ↔ 0xF0 ≤ lead.toNat ∧ lead.toNat < 0xF8 :=
    Bits.mask_iff 3 (by decide) rfl (by decide)
  have hfive : lead &&& 0xFC = 0xF8 ↔ 0xF8 ≤ lead.toNat ∧ lead.toNat < 0xFC :=
    Bits.mask_iff 2 (by decide) rfl (by decide)
  have hsix : lead &&& 0xFE = 0xFC ↔ 0xFC ≤ lead.toNat ∧ lead.toNat < 0xFE :=
    Bits.mask_iff 1 (by decide) rfl (by decide)
  have hseven : lead = 0xFE ↔ lead.toNat = 0xFE := UInt8.toNat_inj.symm
  simp only [hone, htwo, hthree, hfour, hfive, hsix, hseven, numberLength]
  grind

theorem skipFlacUtf8Number_cons (lead : UInt8) :
    skipFlacUtf8Number (lead :: bytes) =
      (numberLength lead).bind fun len => if len ≤ bytes.length + 1 then some len else none := by
  rw [skipFlacUtf8Number, numberLength_masks, List.length_cons]

theorem skipFlacUtf8Number_le {len : Nat} (h : skipFlacUtf8Number bytes = some len) : len ≤ bytes.length := by
  cases bytes with
  | nil => cases h
  | cons lead bytes =>
    rw [skipFlacUtf8Number_cons] at h
    obtain ⟨n, -, h⟩ := Option.bind_eq_some_iff.1 h
    split at h
    · rename_i hle
      cases h
      exact hle
    · cases h

theorem toNat_blockSizeCode (codes : UInt8) : ((codes &&& 0xF0) >>> 4).toNat = codes.toNat / 16 := by
  rw [Bits.toNat_shiftRight _ (by decide), Bits.toNat_and_high codes 4 (by decide) rfl]
  exact Nat.mul_div_cancel _ (Nat.two_pow_pos 4)

theorem extraLength_eq (codes : UInt8) :
    blockSizeLen ((codes &&& 0xF0) >>> 4) + sampleRateLen (codes &&& 0x0F) = extraLength codes := by
  have hlow : (codes &&& 0x0F).toNat = codes.toNat % 16 := Bits.toNat_and_low codes 4 rfl
  simp only [blockSizeLen, sampleRateLen, extraLength, ← UInt8.toNat_inj, toNat_blockSizeCode, hlow]
  rfl

theorem numberLength_codedNumber (n : Nat) :
    (codedNumber n).head?.bind numberLength = some (codedNumber n).length := by
  have hlead : ∀ (m k : Nat) (tail : List UInt8), m < 256 → tail.length + 1 = k →
      (∀ lead : UInt8, lead.toNat = m → numberLength lead = some k) →
      (UInt8.ofNat m :: tail).head?.bind numberLength = some (UInt8.ofNat m :: tail).length := by
    intro m k tail hlt hlen hk
    rw [List.length_cons, hlen]
    exact hk _ (UInt8.toNat_ofNat_of_lt' hlt)
  unfold codedNumber
  split
  · refine hlead _ 1 _ (by omega) rfl ?_
    intro lead h
    unfold numberLength
    grind
  split
  · refine hlead _ 2 _ (by omega) rfl ?_
    intro lead h
    unfold numberLength
    grind
  split
  · refine hlead _ 3 _ (by omega) rfl ?_
    intro lead h
    unfold numberLength
    grind
  split
  · refine hlead _ 4 _ (by omega) rfl ?_
    intro lead h
    unfold numberLength
    grind
  split
  · refine hlead _ 5 _ (by omega) rfl ?_
    intro lead h
    unfold numberLength
    grind
  split
  · refine hlead _ 6 _ (by omega) rfl ?_
    intro lead h
    unfold numberLength
    grind
  · rfl

theorem Header.WellFormed.plausible (hwell : h.WellFormed) : h.Plausible where
  sync := by
    rcases hwell.sync with hsecond | hsecond <;> rw [hsecond] <;> rfl
  number := by
    obtain ⟨n, -, hnumber⟩ := hwell.number
    rw [hnumber, numberLength_codedNumber]
  extra := hwell.extra
  crc := hwell.crc

theorem findFlacFrameHeaderEnd_drop (bytes : List UInt8) (offset : Nat) :
    findFlacFrameHeaderEnd bytes offset =
      (findFlacFrameHeaderEnd (bytes.drop offset) 0).map (offset + ·) := by
  unfold findFlacFrameHeaderEnd
  by_cases hlen : bytes.length < offset + 4
  · rw [if_pos hlen, if_pos (by rw [List.length_drop]; omega)]
    rfl
  · rw [if_neg hlen, if_neg (by rw [List.length_drop]; omega)]
    have hcodes : (bytes.drop offset).getD (0 + 2) 0 = bytes.getD (offset + 2) 0 := by
      rw [List.getD_eq_getElem?_getD, List.getElem?_drop, List.getD_eq_getElem?_getD]
    rw [hcodes, List.drop_drop, Nat.zero_add]
    cases skipFlacUtf8Number (bytes.drop (offset + 4)) with
    | none => rfl
    | some len =>
      simp only [Option.bind_eq_bind, Option.bind_some, Option.map_some, Nat.add_assoc]

/-- The check of a header looks at the bytes from its first on. -/
theorem validateFlacFrameHeaderCrc_drop (bytes : List UInt8) (offset : Nat) :
    validateFlacFrameHeaderCrc bytes offset = validateFlacFrameHeaderCrc (bytes.drop offset) 0 := by
  unfold validateFlacFrameHeaderCrc
  rw [findFlacFrameHeaderEnd_drop]
  cases findFlacFrameHeaderEnd (bytes.drop offset) 0 with
  | none => rfl
  | some headerEnd =>
    simp only [Option.map_some, List.getElem?_drop, List.drop_zero, List.drop_take,
      Nat.add_sub_cancel_left, Nat.sub_zero]

theorem Header.length_unchecked (h : Header) :
    h.unchecked.length = 4 + h.number.length + h.extra.length := by
  simp only [Header.unchecked, List.length_cons, List.length_append]
  omega

theorem Header.Plausible.headerEnd (hh : h.Plausible) (rest : List UInt8) :
    findFlacFrameHeaderEnd (h.bytes ++ rest) 0 = some h.unchecked.length := by
  obtain ⟨lead, number, hnumber⟩ : ∃ lead number, h.number = lead :: number :=
    List.exists_cons_of_ne_nil fun hnil => by simpa [hnil] using hh.number
  have hlead : numberLength lead = some (number.length + 1) := by
    simpa [hnumber] using hh.number
  have hbytes : h.bytes ++ rest =
      0xFF :: h.second :: h.codes :: h.layout :: lead :: (number ++ (h.extra ++ h.crc :: rest)) := by
    simp [Header.bytes, Header.unchecked, hnumber]
  have hskip : skipFlacUtf8Number (lead :: (number ++ (h.extra ++ h.crc :: rest))) =
      some (number.length + 1) := by
    rw [skipFlacUtf8Number_cons, hlead, Option.bind_some, if_pos]
    rw [List.length_append]
    omega
  rw [hbytes, findFlacFrameHeaderEnd, if_neg (by simp only [List.length_cons]; omega)]
  simp only [Nat.zero_add, List.drop_succ_cons, List.drop_zero, hskip, Option.bind_eq_bind,
    Option.bind_some, h.length_unchecked, hh.extra, ← extraLength_eq, hnumber, List.length_cons]
  simp [Nat.add_assoc]

theorem validate_of_plausible (hh : h.Plausible) (hbytes : h.bytes <+: bytes) :
    validateFlacFrameHeaderCrc bytes 0 = true := by
  obtain ⟨rest, rfl⟩ := hbytes
  have hcrc : (h.bytes ++ rest)[h.unchecked.length]? = some h.crc := by
    simp [Header.bytes]
  have htake : ((h.bytes ++ rest).take h.unchecked.length).drop 0 = h.unchecked := by
    simp [Header.bytes]
  rw [validateFlacFrameHeaderCrc, hh.headerEnd]
  simp only [hcrc, htake, decide_eq_true_eq]
  exact codeword_iff_flacCrc8.1 hh.crc

theorem numberLength_ne_zero {o : Option UInt8} {len : Nat} (h : o.bind numberLength = some len) :
    len ≠ 0 := by
  cases o with
  | none => cases h
  | some lead =>
    have hlead : numberLength lead ≠ some 0 := by
      unfold numberLength
      grind
    rintro rfl
    exact hlead h

theorem exists_of_findFlacFrameHeaderEnd {headerEnd : Nat}
    (hend : findFlacFrameHeaderEnd bytes 0 = some headerEnd) :
    ∃ a b codes layout rest len, bytes = a :: b :: codes :: layout :: rest ∧
      rest.head?.bind numberLength = some len ∧ len ≤ rest.length ∧
      headerEnd = 4 + len + extraLength codes := by
  unfold findFlacFrameHeaderEnd at hend
  split at hend
  · cases hend
  rename_i hlen
  obtain ⟨a, b, codes, layout, rest, rfl⟩ :
      ∃ a b codes layout rest, bytes = a :: b :: codes :: layout :: rest := by
    rcases bytes with _ | ⟨a, _ | ⟨b, _ | ⟨codes, _ | ⟨layout, rest⟩⟩⟩⟩
    · simp at hlen
    · simp at hlen
    · simp at hlen
    · simp at hlen
    · exact ⟨a, b, codes, layout, rest, rfl⟩
  cases rest with
  | nil => cases hend
  | cons lead rest =>
    have hskip : skipFlacUtf8Number (lead :: rest) =
        (numberLength lead).bind fun len => if len ≤ rest.length + 1 then some len else none :=
      skipFlacUtf8Number_cons lead
    simp only [Nat.zero_add, List.drop_succ_cons, List.drop_zero, hskip] at hend
    cases hnumber : numberLength lead with
    | none =>
      rw [hnumber] at hend
      cases hend
    | some len =>
      rw [hnumber, Option.bind_some] at hend
      by_cases hle : len ≤ rest.length + 1
      · rw [if_pos hle, Option.bind_eq_bind, Option.bind_some, Option.some.injEq, Nat.add_assoc] at hend
        refine ⟨a, b, codes, layout, lead :: rest, len, rfl, hnumber, hle, ?_⟩
        rw [← extraLength_eq, ← hend]
        rfl
      · rw [if_neg hle] at hend
        cases hend

theorem exists_of_validate (hvalid : validateFlacFrameHeaderCrc bytes 0 = true) :
    ∃ headerEnd crc, findFlacFrameHeaderEnd bytes 0 = some headerEnd ∧
      bytes[headerEnd]? = some crc ∧ flacCrc8 (bytes.take headerEnd) = crc := by
  unfold validateFlacFrameHeaderCrc at hvalid
  split at hvalid
  · exact absurd hvalid Bool.false_ne_true
  rename_i headerEnd hend
  split at hvalid
  · exact absurd hvalid Bool.false_ne_true
  rename_i crc hcrc
  exact ⟨headerEnd, crc, hend, hcrc, of_decide_eq_true hvalid⟩

theorem exists_plausible {second : UInt8} {rest : List UInt8} (hsync : second &&& 0xFC = 0xF8)
    (hvalid : validateFlacFrameHeaderCrc (0xFF :: second :: rest) 0 = true) :
    ∃ h : Header, h.Plausible ∧ h.bytes <+: 0xFF :: second :: rest := by
  obtain ⟨headerEnd, crc, hend, hcrc, hcheck⟩ := exists_of_validate hvalid
  obtain ⟨a, b, codes, layout, rest, len, hbytes, hnumber, hle, hheader⟩ :=
    exists_of_findFlacFrameHeaderEnd hend
  obtain ⟨rfl, rfl, rfl⟩ : a = 0xFF ∧ b = second ∧ _ = codes :: layout :: rest := by
    simpa [eq_comm] using hbytes
  have hlt : headerEnd < rest.length + 4 := by
    obtain ⟨hlt, -⟩ := List.getElem?_eq_some_iff.1 hcrc
    exact hlt
  have hunchecked : (⟨b, codes, layout, rest.take len, (rest.drop len).take (extraLength codes), crc⟩ :
      Header).unchecked = (0xFF :: b :: codes :: layout :: rest).take headerEnd := by
    have hsucc : headerEnd = len + extraLength codes + 4 := by omega
    rw [Header.unchecked, hsucc]
    simp only [List.take_succ_cons, List.take_add]
  refine ⟨⟨b, codes, layout, rest.take len, (rest.drop len).take (extraLength codes), crc⟩, ?_, ?_⟩
  · constructor
    · exact hsync
    · have hpos : len ≠ 0 := numberLength_ne_zero hnumber
      dsimp only
      rw [List.head?_take, if_neg hpos, hnumber, List.length_take, Nat.min_eq_left hle]
    · dsimp only
      rw [List.length_take, List.length_drop]
      omega
    · rw [Header.bytes, hunchecked]
      exact codeword_iff_flacCrc8.2 hcheck
  · rw [Header.bytes, hunchecked]
    have htake : (0xFF :: b :: codes :: layout :: rest).take headerEnd ++ [crc] =
        (0xFF :: b :: codes :: layout :: rest).take (headerEnd + 1) := by
      rw [List.take_add_one, hcrc]
      rfl
    rw [htake]
    exact List.take_prefix _ _

end Headers

/-! ## The search -/

/-- A header seems to begin here. -/
def HeaderAt (bytes : List UInt8) (offset : Nat) : Prop :=
  ∃ h : Header, h.Plausible ∧ h.bytes <+: bytes.drop offset

section Search

variable {bytes rest : List UInt8} {offset i : Nat} {b c : UInt8}

theorem HeaderAt.head (h : HeaderAt bytes offset) :
    ∃ second rest, bytes.drop offset = 0xFF :: second :: rest ∧ second &&& 0xFC = 0xF8 := by
  obtain ⟨header, hplausible, tail, htail⟩ := h
  exact ⟨header.second, _, htail.symm, hplausible.sync⟩

theorem HeaderAt.lt (h : HeaderAt bytes offset) : offset + 1 < bytes.length := by
  obtain ⟨second, rest, hdrop, -⟩ := h.head
  have hlen := congrArg List.length hdrop
  rw [List.length_drop, List.length_cons, List.length_cons] at hlen
  omega

theorem headerAt_iff (hdrop : bytes.drop offset = b :: c :: rest) :
    HeaderAt bytes offset ↔
      (b = 0xFF ∧ c &&& 0xFC = 0xF8) ∧ validateFlacFrameHeaderCrc bytes offset = true := by
  rw [validateFlacFrameHeaderCrc_drop]
  constructor
  · intro h
    obtain ⟨second, rest', hhead, hsync⟩ := h.head
    obtain ⟨header, hplausible, hbytes⟩ := h
    rw [hdrop, List.cons.injEq, List.cons.injEq] at hhead
    obtain ⟨rfl, rfl, rfl⟩ := hhead
    exact ⟨⟨rfl, hsync⟩, validate_of_plausible hplausible hbytes⟩
  · rintro ⟨⟨rfl, hsync⟩, hvalid⟩
    rw [hdrop] at hvalid
    rw [HeaderAt, hdrop]
    exact exists_plausible hsync hvalid

/-- The second byte of a sync code is no first one. -/
theorem not_headerAt_succ (hdrop : bytes.drop offset = b :: c :: rest) (hsync : c &&& 0xFC = 0xF8) :
    ¬ HeaderAt bytes (offset + 1) := by
  intro h
  obtain ⟨second, rest', hhead, -⟩ := h.head
  have hnext : bytes.drop (offset + 1) = c :: rest := by
    rw [← List.drop_drop, hdrop]
    rfl
  rw [hnext, List.cons.injEq] at hhead
  obtain ⟨rfl, -⟩ := hhead
  exact absurd hsync (by decide)

theorem drop_next (n : Nat) (hdrop : bytes.drop offset = rest) :
    bytes.drop (offset + n) = rest.drop n := by
  rw [← List.drop_drop, hdrop]

theorem mem_scanFlacFrames (hdrop : bytes.drop offset = rest) :
    i ∈ scanFlacFrames bytes offset rest ↔ offset ≤ i ∧ HeaderAt bytes i := by
  fun_induction scanFlacFrames bytes offset rest with
  | case1 offset b c rest hsync hvalid ih =>
    have hhere := (headerAt_iff hdrop).2 ⟨hsync, hvalid⟩
    have hnext := not_headerAt_succ hdrop hsync.2
    rw [List.mem_cons, ih (drop_next 2 hdrop)]
    constructor
    · rintro (rfl | ⟨hle, h⟩)
      · exact ⟨Nat.le_refl _, hhere⟩
      · exact ⟨by omega, h⟩
    · rintro ⟨hle, h⟩
      rcases Nat.lt_trichotomy i (offset + 1) with hlt | rfl | hgt
      · exact .inl (by omega)
      · exact absurd h hnext
      · exact .inr ⟨by omega, h⟩
  | case2 offset b c rest hsync hvalid ih =>
    have hhere : ¬ HeaderAt bytes offset := fun h => hvalid ((headerAt_iff hdrop).1 h).2
    have hnext := not_headerAt_succ hdrop hsync.2
    rw [ih (drop_next 2 hdrop)]
    constructor
    · rintro ⟨hle, h⟩
      exact ⟨by omega, h⟩
    · rintro ⟨hle, h⟩
      rcases Nat.lt_trichotomy i (offset + 1) with hlt | rfl | hgt
      · obtain rfl : i = offset := by omega
        exact absurd h hhere
      · exact absurd h hnext
      · exact ⟨by omega, h⟩
  | case3 offset b c rest hsync ih =>
    have hhere : ¬ HeaderAt bytes offset := fun h => hsync ((headerAt_iff hdrop).1 h).1
    rw [ih (drop_next 1 hdrop)]
    constructor
    · rintro ⟨hle, h⟩
      exact ⟨by omega, h⟩
    · rintro ⟨hle, h⟩
      refine ⟨Nat.lt_of_le_of_ne hle ?_, h⟩
      rintro rfl
      exact hhere h
  | case4 rest offset hshort =>
    refine iff_of_false List.not_mem_nil ?_
    rintro ⟨hle, h⟩
    have hlt := h.lt
    have hlen := congrArg List.length hdrop
    rw [List.length_drop] at hlen
    rcases rest with _ | ⟨b, _ | ⟨c, rest⟩⟩
    · simp at hlen
      omega
    · simp at hlen
      omega
    · exact hshort b c rest rfl

theorem sorted_scanFlacFrames (hdrop : bytes.drop offset = rest) :
    (scanFlacFrames bytes offset rest).Pairwise (· < ·) := by
  fun_induction scanFlacFrames bytes offset rest with
  | case1 offset b c rest hsync hvalid ih =>
    have hrest := drop_next 2 hdrop
    refine List.pairwise_cons.2 ⟨fun i hi => ?_, ih hrest⟩
    have hle := ((mem_scanFlacFrames hrest).1 hi).1
    omega
  | case2 offset b c rest hsync hvalid ih => exact ih (drop_next 2 hdrop)
  | case3 offset b c rest hsync ih => exact ih (drop_next 1 hdrop)
  | case4 rest offset hshort => exact List.Pairwise.nil

/-- What is found, in order, are the places where a header seems to begin. -/
theorem mem_flacFrameStarts :
    i ∈ flacFrameStarts bytes offset ↔ offset ≤ i ∧ HeaderAt bytes i :=
  mem_scanFlacFrames rfl

theorem sorted_flacFrameStarts (bytes : List UInt8) (offset : Nat) :
    (flacFrameStarts bytes offset).Pairwise (· < ·) :=
  sorted_scanFlacFrames rfl

end Search

/-! ## The frames of a file -/

section Frames

variable {frame : Frame} {before after frames : List Frame} {offset i : Nat} {bytes : List UInt8}

/-- How many bytes the frames have. -/
def framesLength (frames : List Frame) : Nat := (frames.flatMap Frame.bytes).length

theorem framesLength_cons (frame : Frame) (frames : List Frame) :
    framesLength (frame :: frames) = frame.bytes.length + framesLength frames := by
  rw [framesLength, List.flatMap_cons, List.length_append]
  rfl

theorem length_frame_pos (frame : Frame) : 0 < frame.bytes.length := Nat.succ_pos _

theorem le_of_mem_starts (h : i ∈ (frameRanges offset frames).map Prod.fst) : offset ≤ i := by
  induction frames generalizing offset with
  | nil => cases h
  | cons frame frames ih =>
    rw [frameRanges, List.map_cons, List.mem_cons] at h
    rcases h with rfl | h
    · exact Nat.le_refl _
    · have hle := ih h
      omega

theorem lt_of_mem_starts (h : i ∈ (frameRanges offset frames).map Prod.fst) :
    i < offset + framesLength frames := by
  induction frames generalizing offset with
  | nil => cases h
  | cons frame frames ih =>
    have hpos := length_frame_pos frame
    rw [framesLength_cons]
    rw [frameRanges, List.map_cons, List.mem_cons] at h
    rcases h with rfl | h
    · omega
    · have hlt := ih h
      omega

theorem sorted_starts (offset : Nat) (frames : List Frame) :
    ((frameRanges offset frames).map Prod.fst).Pairwise (· < ·) := by
  induction frames generalizing offset with
  | nil => exact List.Pairwise.nil
  | cons frame frames ih =>
    rw [frameRanges, List.map_cons]
    refine List.pairwise_cons.2 ⟨fun i hi => ?_, ih _⟩
    have hle := le_of_mem_starts hi
    have hpos := length_frame_pos frame
    omega

/-- Of the bytes of a frame, the first is a start. -/
theorem mem_starts_append {j : Nat} (hj : j < frame.bytes.length) :
    offset + framesLength before + j ∈ (frameRanges offset (before ++ frame :: after)).map Prod.fst ↔
      j = 0 := by
  induction before generalizing offset with
  | nil =>
    rw [List.nil_append, frameRanges, List.map_cons, List.mem_cons]
    constructor
    · rintro (heq | hmem)
      · exact Nat.add_eq_left.1 heq
      · have hle := le_of_mem_starts hmem
        rw [show framesLength [] = 0 from rfl] at hle
        omega
    · rintro rfl
      exact .inl rfl
  | cons first before ih =>
    have hpos := length_frame_pos first
    have hsum : offset + framesLength (first :: before) + j =
        offset + first.bytes.length + framesLength before + j := by
      rw [framesLength_cons]
      omega
    rw [List.cons_append, frameRanges, List.map_cons, List.mem_cons, hsum, ih]
    refine or_iff_right fun heq => ?_
    dsimp only at heq
    omega

/-- Every byte of the audio is one of a frame. -/
theorem exists_frame (hle : offset ≤ i) (hlt : i < offset + framesLength frames) :
    ∃ before frame after j, frames = before ++ frame :: after ∧
      i = offset + framesLength before + j ∧ j < frame.bytes.length := by
  induction frames generalizing offset with
  | nil =>
    rw [show framesLength [] = 0 from rfl] at hlt
    omega
  | cons frame frames ih =>
    rw [framesLength_cons] at hlt
    by_cases hhere : i < offset + frame.bytes.length
    · refine ⟨[], frame, frames, i - offset, rfl, ?_, by omega⟩
      rw [show framesLength [] = 0 from rfl]
      omega
    · obtain ⟨before, frame', after, j, rfl, hi, hj⟩ :=
        @ih (offset + frame.bytes.length) (by omega) (by omega)
      refine ⟨frame :: before, frame', after, j, rfl, ?_, hj⟩
      rw [framesLength_cons]
      omega

theorem drop_bytes {file : File} (hframes : file.frames = before ++ frame :: after) {j : Nat}
    (hj : j ≤ frame.bytes.length) :
    file.bytes.drop (file.audioOffset + framesLength before + j) =
      frame.bytes.drop j ++ after.flatMap Frame.bytes := by
  have hbytes : file.bytes = (file.metadata ++ before.flatMap Frame.bytes) ++
      (frame.bytes ++ after.flatMap Frame.bytes) := by
    rw [File.bytes, hframes, List.flatMap_append, List.flatMap_cons, List.append_assoc]
  have hlen : file.audioOffset + framesLength before =
      (file.metadata ++ before.flatMap Frame.bytes).length := List.length_append.symm
  rw [hlen, ← List.drop_drop, hbytes, List.drop_left, List.drop_append_of_le_length hj]

theorem length_bytes_file (file : File) :
    file.bytes.length = file.audioOffset + framesLength file.frames := List.length_append

/-- The places where headers seem to begin are the starts, unless one is inside a frame. -/
theorem flacFrameStarts_iff (file : File) :
    flacFrameStarts file.bytes file.audioOffset = file.frameStarts ↔ ¬ file.HasLookAlike := by
  constructor
  · rintro hstarts ⟨before, frame, after, hframes, j, hpos, hj, h, hh, hbytes⟩
    have hfound : file.audioOffset + framesLength before + j ∈
        flacFrameStarts file.bytes file.audioOffset := by
      rw [mem_flacFrameStarts]
      refine ⟨by omega, h, hh, ?_⟩
      rwa [drop_bytes hframes (by omega)]
    rw [hstarts, File.frameStarts, File.frameRanges, hframes, mem_starts_append hj] at hfound
    omega
  · intro hnone
    refine List.Pairwise.eq_of_mem_iff (r := (· < ·)) (sorted_flacFrameStarts _ _) (sorted_starts _ _) ?_
    intro i
    rw [mem_flacFrameStarts]
    constructor
    · rintro ⟨hle, h⟩
      have hlt : i < file.audioOffset + framesLength file.frames := by
        have hlt := h.lt
        rw [length_bytes_file] at hlt
        omega
      obtain ⟨before, frame, after, j, hframes, rfl, hj⟩ := exists_frame hle hlt
      rw [File.frameStarts, File.frameRanges, hframes, mem_starts_append hj]
      by_contra hne
      obtain ⟨h, hh, hbytes⟩ := h
      rw [drop_bytes hframes (by omega)] at hbytes
      exact hnone ⟨before, frame, after, hframes, j, by omega, hj, h, hh, hbytes⟩
    · intro hi
      have hle := le_of_mem_starts hi
      obtain ⟨before, frame, after, j, hframes, rfl, hj⟩ := exists_frame hle (lt_of_mem_starts hi)
      rw [File.frameStarts, File.frameRanges, hframes, mem_starts_append hj] at hi
      subst hi
      refine ⟨hle, frame.header, frame.wellFormed.plausible, ?_⟩
      rw [drop_bytes hframes (Nat.zero_le _), List.drop_zero, Frame.bytes, List.append_assoc]
      exact List.prefix_append _ _

/-- The samples between the starts of the frames are the frames. -/
theorem ranges_flacSamples (info : FlacStreamInfo) (hlen : bytes.length = offset + framesLength frames) :
    (flacSamples bytes info ((frameRanges offset frames).map Prod.fst)).map RemuxSampleRef.range =
      frameRanges offset frames := by
  induction frames generalizing offset with
  | nil => rfl
  | cons frame frames ih =>
    have hpos := length_frame_pos frame
    rw [framesLength_cons, ← Nat.add_assoc] at hlen
    have hstop : ((frameRanges (offset + frame.bytes.length) frames).map Prod.fst).head?.getD
        bytes.length = offset + frame.bytes.length := by
      cases frames with
      | nil => exact hlen
      | cons next frames => rfl
    rw [frameRanges, List.map_cons, flacSamples]
    simp only [hstop]
    rw [if_neg (by omega), List.map_cons, ih hlen]
    rfl

/-- The frames are found exactly if no header seems to begin inside one. -/
theorem frames_exact_iff (file : File) :
    ((∃ blocks info, parseFlacMetadata file.bytes = .ok (blocks, info, file.audioOffset)) ∧
      flacFrameStarts file.bytes file.audioOffset = file.frameStarts ∧
        ∀ address sampleRate track, remuxFlac address sampleRate file.bytes = .ok track →
          track.samples.map RemuxSampleRef.range = file.frameRanges) ↔
      ¬ file.HasLookAlike := by
  obtain ⟨info, -, hparse⟩ := parseFlacMetadata_bytes file
  constructor
  · rintro ⟨-, hstarts, -⟩
    exact (flacFrameStarts_iff file).1 hstarts
  · intro hnone
    have hstarts := (flacFrameStarts_iff file).2 hnone
    refine ⟨⟨_, info, hparse⟩, hstarts, fun address sampleRate track htrack => ?_⟩
    obtain ⟨blocks', info', audioOffset', hparse', hsamples⟩ := remuxFlac_ok htrack
    rw [hparse] at hparse'
    obtain ⟨rfl, rfl, rfl⟩ : _ = blocks' ∧ info = info' ∧ file.audioOffset = audioOffset' := by
      simpa using hparse'
    rw [ranges_correctDurations hsamples, hstarts]
    exact ranges_flacSamples info (length_bytes_file file)

/-! One frame of 16 samples, 8 bits each and as they are, of which the first seven read like a header. -/

def lookAlikeHeader (number crc : UInt8) : Header := ⟨0xF8, 0x69, 0x02, [number], [0x0F], crc⟩

theorem wellFormed_lookAlikeHeader : (lookAlikeHeader 0 0xB7).WellFormed where
  sync := .inl rfl
  blockSize := by decide
  sampleRate := by decide
  channels := by decide
  sampleSize := by decide
  reserved := by decide
  number := ⟨0, by decide, rfl⟩
  extra := by decide
  crc := (Crc.codeword_iff (by decide) (by decide)).2 (by decide +kernel)

def lookAlikeFrame : Frame where
  header := lookAlikeHeader 0 0xB7
  body := 0x02 :: ((lookAlikeHeader 1 0xA2).bytes ++ List.replicate 9 0) ++ [0xF2, 0xFF]
  wellFormed := wellFormed_lookAlikeHeader
  crc := (Crc.codeword_iff (by decide) (by decide)).2 (by decide +kernel)

def lookAlikeFile : File where
  streaminfo := [0x00, 0x10, 0x00, 0x10] ++ List.replicate 6 0 ++
    [0x0A, 0xC4, 0x40, 0x70, 0x00, 0x00, 0x00, 0x10] ++ List.replicate 16 0
  streaminfo_length := by decide
  blocks := []
  blocks_ne := by decide
  frames := [lookAlikeFrame]

theorem frame_inside_frame :
    lookAlikeFile.frameStarts = [42] ∧
      flacFrameStarts lookAlikeFile.bytes lookAlikeFile.audioOffset = [42, 50] ∧
      ((remuxFlac 0 (some 44100) lookAlikeFile.bytes).toOption.map fun track =>
        track.samples.map RemuxSampleRef.range) = some [(42, 50), (50, 68)] := by
  decide +kernel

end Frames

end Flac

end Kanade

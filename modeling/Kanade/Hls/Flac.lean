import Kanade.Hls.Output

/-!
# Kanade.Hls.Flac

`remux_flac`: the metadata blocks of a FLAC file, the search for its frames, and the samples made of them.

Sums are checked: where the total of the durations does not fit a `u64` there is a panic.
-/

namespace Kanade

/-! ## Metadata -/

structure FlacStreamInfo where
  sampleRate : UInt32
  channels : UInt8
  bitsPerSample : UInt8
  maxBlockSize : UInt16
  totalSamples : UInt64
deriving DecidableEq, Repr

structure FlacMetadataBlock where
  lastMetadataBlockFlag : Bool
  blockType : UInt8
  blockData : List UInt8
deriving DecidableEq, Repr

def parseFlacStreaminfo (block : List UInt8) : Except HlsFailure FlacStreamInfo :=
  if block.length ≠ 34 then .error (.invalidData "FLAC STREAMINFO block must be 34 bytes")
  else
    let byte := fun i => block.getD i 0
    .ok {
      sampleRate := (byte 10).toUInt32 <<< 12 ||| (byte 11).toUInt32 <<< 4 |||
        ((byte 12).toUInt32 &&& 0xF0) >>> 4
      channels := ((byte 12 &&& 0x0E) >>> 1) + 1
      bitsPerSample := ((byte 12 &&& 0x01) <<< 4 ||| (byte 13 &&& 0xF0) >>> 4) + 1
      maxBlockSize := (byte 2).toUInt16 <<< 8 ||| (byte 3).toUInt16
      totalSamples := ((byte 13).toUInt64 &&& 0x0F) <<< 32 ||| (byte 14).toUInt64 <<< 24 |||
        (byte 15).toUInt64 <<< 16 ||| (byte 16).toUInt64 <<< 8 ||| (byte 17).toUInt64 }

def nextStreaminfo (blockType : UInt8) (blockData : List UInt8) (streaminfo : Option FlacStreamInfo) :
    Except HlsFailure (Option FlacStreamInfo) :=
  if blockType = 0 then (parseFlacStreaminfo blockData).map some else .ok streaminfo

/-- The loop over the blocks, from `offset` on, where the rest of the file is `bytes`. A block has a byte
at least, so with as much fuel as there are bytes it does not run out. -/
def parseFlacBlocks : Nat → Nat → List UInt8 → List FlacMetadataBlock → Option FlacStreamInfo →
    Except HlsFailure (List FlacMetadataBlock × FlacStreamInfo × Nat)
  | fuel + 1, offset, header :: a :: b :: c :: bytes, blocks, streaminfo => do
    let isLast := header &&& 0x80 ≠ 0
    let blockType := header &&& 0x7F
    let length := a.toNat <<< 16 ||| b.toNat <<< 8 ||| c.toNat
    if bytes.length < length then
      .error (.invalidData "FLAC metadata block exceeded file bounds")
    else
      let blockData := bytes.take length
      let streaminfo ← nextStreaminfo blockType blockData streaminfo
      let blocks := blocks ++ [⟨isLast, blockType, blockData⟩]
      if isLast then
        match streaminfo with
        | some streaminfo => .ok (blocks, streaminfo, offset + 4 + length)
        | none => .error (.invalidData "FLAC streaminfo block missing")
      else parseFlacBlocks fuel (offset + 4 + length) (bytes.drop length) blocks streaminfo
  | _, _, _, _, _ => .error (.invalidData "unexpected end of FLAC metadata blocks")

def parseFlacMetadata (bytes : List UInt8) :
    Except HlsFailure (List FlacMetadataBlock × FlacStreamInfo × Nat) :=
  parseFlacBlocks bytes.length 4 (bytes.drop 4) [] none

/-- Only the last block is marked as the last one. -/
def rebuildDflaBlocks : List FlacMetadataBlock → List FlacMetadataBlock
  | [] => []
  | [block] => [{ block with lastMetadataBlockFlag := true }]
  | block :: blocks => { block with lastMetadataBlockFlag := false } :: rebuildDflaBlocks blocks

/-! ## Frames -/

def skipFlacUtf8Number : List UInt8 → Option Nat
  | [] => none
  | first :: bytes =>
    let len :=
      if first &&& 0x80 = 0 then some 1
      else if first &&& 0xE0 = 0xC0 then some 2
      else if first &&& 0xF0 = 0xE0 then some 3
      else if first &&& 0xF8 = 0xF0 then some 4
      else if first &&& 0xFC = 0xF8 then some 5
      else if first &&& 0xFE = 0xFC then some 6
      else if first = 0xFE then some 7
      else none
    len.bind fun len => if len ≤ (first :: bytes).length then some len else none

/-- The bytes for the block size and the sample rate behind the coded number. -/
def blockSizeLen (blockSizeCode : UInt8) : Nat :=
  if blockSizeCode = 6 then 1 else if blockSizeCode = 7 then 2 else 0

def sampleRateLen (sampleRateCode : UInt8) : Nat :=
  if sampleRateCode = 12 then 1 else if sampleRateCode = 13 ∨ sampleRateCode = 14 then 2 else 0

def findFlacFrameHeaderEnd (bytes : List UInt8) (offset : Nat) : Option Nat :=
  if bytes.length < offset + 4 then none
  else do
    let codes := bytes.getD (offset + 2) 0
    let blockSizeCode := (codes &&& 0xF0) >>> 4
    let sampleRateCode := codes &&& 0x0F
    let utf8Len ← skipFlacUtf8Number (bytes.drop (offset + 4))
    some (offset + 4 + utf8Len + blockSizeLen blockSizeCode + sampleRateLen sampleRateCode)

def crcShift (crc : UInt8) : UInt8 := if crc &&& 0x80 ≠ 0 then crc <<< 1 ^^^ 0x07 else crc <<< 1

def flacCrc8 (data : List UInt8) : UInt8 :=
  data.foldl (fun crc byte => Nat.iterate crcShift 8 (crc ^^^ byte)) 0

def validateFlacFrameHeaderCrc (bytes : List UInt8) (offset : Nat) : Bool :=
  match findFlacFrameHeaderEnd bytes offset with
  | none => false
  | some frameHeaderEnd =>
    match bytes[frameHeaderEnd]? with
    | none => false
    | some expectedCrc => flacCrc8 ((bytes.take frameHeaderEnd).drop offset) = expectedCrc

/-- The loop from `offset` on, where `rest` is the rest of `bytes`. -/
def scanFlacFrames (bytes : List UInt8) : Nat → List UInt8 → List Nat
  | offset, b :: c :: rest =>
    if b = 0xFF ∧ c &&& 0xFC = 0xF8 then
      if validateFlacFrameHeaderCrc bytes offset then offset :: scanFlacFrames bytes (offset + 2) rest
      else scanFlacFrames bytes (offset + 2) rest
    else scanFlacFrames bytes (offset + 1) (c :: rest)
  | _, _ => []

def flacFrameStarts (bytes : List UInt8) (audioOffset : Nat) : List Nat :=
  scanFlacFrames bytes audioOffset (bytes.drop audioOffset)

/-- The block size for its code, and where the header goes on. -/
def flacBlockSize (frame : List UInt8) (streaminfo : FlacStreamInfo) (blockSizeCode : UInt8)
    (offset : Nat) : Option (UInt32 × Nat) :=
  match blockSizeCode.toNat with
  | 0 => some (streaminfo.maxBlockSize.toUInt32, offset)
  | 1 => some (192, offset)
  | 2 => some (576, offset)
  | 3 => some (1152, offset)
  | 4 => some (2304, offset)
  | 5 => some (4608, offset)
  | 6 => frame[offset]?.map fun a => (a.toUInt32 + 1, offset + 1)
  | 7 => do
    let a ← frame[offset]?
    let b ← frame[offset + 1]?
    some ((a.toUInt16 <<< 8 ||| b.toUInt16).toUInt32 + 1, offset + 2)
  | 8 => some (256, offset)
  | 9 => some (512, offset)
  | 10 => some (1024, offset)
  | 11 => some (2048, offset)
  | 12 => some (4096, offset)
  | 13 => some (8192, offset)
  | 14 => some (16384, offset)
  | 15 => some (32768, offset)
  | _ => none

def parseFlacFrameBlockSize (frame : List UInt8) (streaminfo : FlacStreamInfo) : Option UInt32 :=
  if frame.length < 5 ∨ frame.getD 0 0 ≠ 0xFF ∨ frame.getD 1 0 &&& 0xFC ≠ 0xF8 then none
  else do
    let codes := frame.getD 2 0
    let utf8Len ← skipFlacUtf8Number (frame.drop 4)
    let (blockSize, offset) ← flacBlockSize frame streaminfo ((codes &&& 0xF0) >>> 4) (4 + utf8Len)
    let _ ← frame[offset + sampleRateLen (codes &&& 0x0F)]?
    some blockSize

/-! ## Samples -/

structure FlacBox where
  channelcount : UInt16
  samplesize : UInt16
  samplerate : UInt16
  metadataBlocks : List FlacMetadataBlock
deriving DecidableEq, Repr

def mp4SampleRate (sampleRate : UInt32) : UInt16 :=
  if sampleRate ≤ 65535 then sampleRate.toUInt16
  else if sampleRate = 88200 then 44100
  else if sampleRate = 96000 then 48000
  else if sampleRate = 176400 then 58800
  else if sampleRate = 192000 then 48000
  else 65535

def nonzero (value : UInt32) : Except HlsFailure Nat :=
  if value = 0 then .error (.invalidData "timescale must be non-zero") else .ok value.toNat

/-- The loop over the starts of the frames. -/
def flacSamples (bytes : List UInt8) (streaminfo : FlacStreamInfo) :
    List Nat → List (RemuxSampleRef FlacBox)
  | [] => []
  | start :: starts =>
    let stop := starts.head?.getD bytes.length
    if stop ≤ start then flacSamples bytes streaminfo starts
    else
      let duration := (parseFlacFrameBlockSize (bytes.drop start) streaminfo).getD
        (max streaminfo.maxBlockSize 1).toUInt32
      ⟨start, stop, max duration 1, none, true, none⟩ :: flacSamples bytes streaminfo starts

section Durations

variable {ε : Type}

/-- One round of the loop; there is none once the excess is 0. -/
def reduceDuration (excess : Nat) (sample : RemuxSampleRef ε) : RemuxSampleRef ε × Nat :=
  if excess = 0 then (sample, 0)
  else
    let reducible := sample.duration.toNat - 1
    let reduction := min reducible excess
    ({ sample with duration := sample.duration - UInt32.ofNat reduction }, excess - reduction)

/-- The loop from the last sample to the first: the samples, and the excess that is left. -/
def reduceDurations (excess : Nat) : List (RemuxSampleRef ε) → List (RemuxSampleRef ε) × Nat
  | [] => ([], excess)
  | sample :: samples =>
    let later := reduceDurations excess samples
    let here := reduceDuration later.2 sample
    (here.1 :: later.1, here.2)

def correctDurations (totalSamples : UInt64) (samples : List (RemuxSampleRef ε)) :
    Except HlsFailure (List (RemuxSampleRef ε)) :=
  if 0 < totalSamples then
    let computedTotal := totalDuration samples
    if 2 ^ 64 ≤ computedTotal then .error .panic
    else if totalSamples.toNat < computedTotal then
      .ok (reduceDurations (computedTotal - totalSamples.toNat) samples).1
    else .ok samples
  else .ok samples

end Durations

/-- `remux_flac` on the bytes of the file; `sampleRate` is that of the properties. -/
def remuxFlac (address : Nat) (sampleRate : Option UInt32) (bytes : List UInt8) :
    Except HlsFailure (RemuxedTrack FlacBox) :=
  if ¬ [0x66, 0x4C, 0x61, 0x43].isPrefixOf bytes then .error (.invalidData "flac magic missing")
  else do
    let (metadataBlocks, streaminfo, audioOffset) ← parseFlacMetadata bytes
    let timescale ← nonzero (sampleRate.getD streaminfo.sampleRate)
    let entry : Arc FlacBox := ⟨address, {
      channelcount := streaminfo.channels.toUInt16
      samplesize := streaminfo.bitsPerSample.toUInt16
      samplerate := mp4SampleRate streaminfo.sampleRate
      metadataBlocks := rebuildDflaBlocks metadataBlocks }⟩
    let frameStarts := flacFrameStarts bytes audioOffset
    if frameStarts = [] then .error (.invalidData "no FLAC frames were found in source file")
    else do
      let samples ← correctDurations streaminfo.totalSamples (flacSamples bytes streaminfo frameStarts)
      -- a longer `Vec` exceeds its capacity
      if h : samples.length < 2 ^ 64 then .ok ⟨timescale, bytes, some entry, samples, h⟩
      else .error .panic

/-! ## What is returned -/

section Returned

variable {ε : Type} {samples samples' : List (RemuxSampleRef ε)} {address : Nat}
  {sampleRate : Option UInt32} {bytes : List UInt8} {track : RemuxedTrack FlacBox}

theorem one_le_max (duration : UInt32) : 1 ≤ (max duration 1).toNat := by
  have hmax : max duration 1 = if duration ≤ 1 then 1 else duration := rfl
  rw [hmax]
  split
  · exact Nat.le_refl 1
  · rename_i hlt
    rw [UInt32.le_iff_toNat_le] at hlt
    have hone : (1 : UInt32).toNat = 1 := rfl
    omega

/-- A start with bytes behind it makes a sample. -/
theorem flacSamples_cons {streaminfo : FlacStreamInfo} {start : Nat} {starts : List Nat}
    (hlt : start < starts.head?.getD bytes.length) :
    ∃ duration, 1 ≤ duration.toNat ∧ flacSamples bytes streaminfo (start :: starts) =
      ⟨start, starts.head?.getD bytes.length, duration, none, true, none⟩ ::
        flacSamples bytes streaminfo starts := by
  exact ⟨_, one_le_max _, if_neg (by omega)⟩

theorem range_reduceDuration (excess : Nat) (sample : RemuxSampleRef ε) :
    (reduceDuration excess sample).1.range = sample.range := by
  unfold reduceDuration
  split <;> rfl

theorem ranges_reduceDurations (excess : Nat) (samples : List (RemuxSampleRef ε)) :
    (reduceDurations excess samples).1.map RemuxSampleRef.range = samples.map RemuxSampleRef.range := by
  induction samples with
  | nil => rfl
  | cons sample samples ih =>
    rw [reduceDurations, List.map_cons, List.map_cons, ih, range_reduceDuration]

theorem correctDurations_ok {totalSamples : UInt64} (h : correctDurations totalSamples samples = .ok samples') :
    samples' = if 0 < totalSamples ∧ totalSamples.toNat < totalDuration samples then
      (reduceDurations (totalDuration samples - totalSamples.toNat) samples).1 else samples := by
  unfold correctDurations at h
  by_cases hpos : 0 < totalSamples
  · rw [if_pos hpos] at h
    dsimp only at h
    split at h
    · cases h
    split at h
    · rename_i hlt
      cases h
      rw [if_pos ⟨hpos, hlt⟩]
    · rename_i hle
      cases h
      rw [if_neg fun h => hle h.2]
  · rw [if_neg hpos] at h
    cases h
    rw [if_neg fun h => hpos h.1]

theorem ranges_correctDurations {totalSamples : UInt64}
    (h : correctDurations totalSamples samples = .ok samples') :
    samples'.map RemuxSampleRef.range = samples.map RemuxSampleRef.range := by
  rw [correctDurations_ok h]
  split
  · exact ranges_reduceDurations _ _
  · rfl

theorem remuxFlac_ok (h : remuxFlac address sampleRate bytes = .ok track) :
    ∃ blocks streaminfo audioOffset,
      parseFlacMetadata bytes = .ok (blocks, streaminfo, audioOffset) ∧
        correctDurations streaminfo.totalSamples
          (flacSamples bytes streaminfo (flacFrameStarts bytes audioOffset)) = .ok track.samples := by
  unfold remuxFlac at h
  split at h
  · cases h
  obtain ⟨⟨blocks, streaminfo, audioOffset⟩, hparse, h⟩ := bind_eq_ok h
  obtain ⟨timescale, -, h⟩ := bind_eq_ok h
  refine ⟨blocks, streaminfo, audioOffset, hparse, ?_⟩
  dsimp only at h
  split at h
  · cases h
  obtain ⟨samples, hsamples, h⟩ := bind_eq_ok h
  split at h
  · cases h
    exact hsamples
  · cases h

theorem remuxFlac_of {blocks : List FlacMetadataBlock} {streaminfo : FlacStreamInfo} {audioOffset : Nat}
    (hmagic : [0x66, 0x4C, 0x61, 0x43].isPrefixOf bytes = true)
    (hparse : parseFlacMetadata bytes = .ok (blocks, streaminfo, audioOffset))
    (hrate : sampleRate.getD streaminfo.sampleRate ≠ 0) (hfound : flacFrameStarts bytes audioOffset ≠ [])
    {samples : List (RemuxSampleRef FlacBox)}
    (hsamples : correctDurations streaminfo.totalSamples
      (flacSamples bytes streaminfo (flacFrameStarts bytes audioOffset)) = .ok samples)
    (hlt : samples.length < 2 ^ 64) :
    ∃ track, remuxFlac address sampleRate bytes = .ok track := by
  have hnonzero : nonzero (sampleRate.getD streaminfo.sampleRate) =
      .ok (sampleRate.getD streaminfo.sampleRate).toNat := if_neg hrate
  rw [remuxFlac, if_neg (not_not.2 hmagic), hparse]
  simp only [bind, Except.bind, hnonzero, if_neg hfound, hsamples, dif_pos hlt]
  exact ⟨_, rfl⟩

end Returned

end Kanade

import Kanade.Hls.Flac

/-!
# Kanade.Hls.Pcm

`remux_wav` and `remux_aiff`: the chunks of the file, and the samples cut out of its PCM data. A sample rate
that does not fit an MP4 sample entry goes through an ALAC encoder, which is a parameter, as is the encoding
of sample entries and of the floating-point sample rate of AIFF.

* `pcmChunks_ends`: the loop over the data comes to its end.
* `pcmChunks_spec`: what it makes, for any size of a frame.
* `lpcm_exact_iff`: when that is the frames of the file.
-/

namespace Kanade

/-! ## Files -/

/-- `WavInfo` and `AiffInfo`. -/
structure PcmInfo where
  sampleRate : UInt32
  channels : UInt8
  bitsPerSample : UInt8
  dataOffset : Nat
  dataLen : Nat
deriving DecidableEq, Repr

/-- A byte string literal. -/
def ascii (literal : String) : List UInt8 := literal.toList.map fun c => UInt8.ofNat c.toNat

structure IffChunk where
  id : List UInt8
  offset : Nat
  data : List UInt8

def readLe (bytes : List UInt8) : Nat := bytes.foldr (fun byte n => byte.toNat + 256 * n) 0

def readBe (bytes : List UInt8) : Nat := bytes.foldl (fun n byte => 256 * n + byte.toNat) 0

/-- The loop over the chunks from `offset` on, where the rest of the file is `rest`; a chunk that exceeds it
ends the loop. A chunk has eight bytes, so with as much fuel as there are bytes it does not run out. -/
def iffChunks (readSize : List UInt8 → Nat) : Nat → Nat → List UInt8 → List IffChunk
  | 0, _, _ => []
  | fuel + 1, offset, rest =>
    if rest.length < 8 then []
    else
      let size := readSize ((rest.drop 4).take 4)
      if (rest.drop 8).length < size then []
      else
        ⟨rest.take 4, offset + 8, (rest.drop 8).take size⟩ ::
          iffChunks readSize fuel (offset + 8 + size + size % 2) (rest.drop (8 + size + size % 2))

/-- The variables of the loops over the chunks. -/
structure PcmState where
  channels : Option UInt8 := none
  sampleRate : Option UInt32 := none
  bitsPerSample : Option UInt8 := none
  data : Option (Nat × Nat) := none

def PcmState.finish (s : PcmState) (format data : String) : Except HlsFailure PcmInfo :=
  match s.data, s.sampleRate, s.channels with
  | none, _, _ => .error (.invalidData (format ++ " " ++ data ++ " chunk missing"))
  | _, none, _ => .error (.invalidData (format ++ " sample rate missing"))
  | _, _, none => .error (.invalidData (format ++ " channels missing"))
  | some (dataOffset, dataLen), some sampleRate, some channels =>
    .ok ⟨sampleRate, channels, s.bitsPerSample.getD 16, dataOffset, dataLen⟩

def wavChunk (s : PcmState) (chunk : IffChunk) : PcmState :=
  if chunk.id = ascii "fmt " ∧ 16 ≤ chunk.data.length then
    { s with
      channels := some (UInt8.ofNat (readLe ((chunk.data.drop 2).take 2)))
      sampleRate := some (UInt32.ofNat (readLe ((chunk.data.drop 4).take 4)))
      bitsPerSample := some (UInt8.ofNat (readLe ((chunk.data.drop 14).take 2))) }
  else if chunk.id = ascii "data" then
    { s with data := some (chunk.offset, chunk.data.length) }
  else s

def parseWavPcm (bytes : List UInt8) : Except HlsFailure PcmInfo :=
  if bytes.length < 12 ∨ bytes.take 4 ≠ ascii "RIFF" ∨
      (bytes.drop 8).take 4 ≠ ascii "WAVE" then
    .error (.invalidData "not a RIFF/WAVE file")
  else
    ((iffChunks readLe bytes.length 12 (bytes.drop 12)).foldl wavChunk {}).finish "WAV" "data"

/-- `extendedF80` is `parse_extended_f80` of ten bytes, cast to a `u32`. -/
def aiffChunk (extendedF80 : List UInt8 → UInt32) (s : PcmState) (chunk : IffChunk) : PcmState :=
  if chunk.id = ascii "COMM" ∧ 18 ≤ chunk.data.length then
    { s with
      channels := some (UInt8.ofNat (readBe (chunk.data.take 2)))
      bitsPerSample := some (UInt8.ofNat (readBe ((chunk.data.drop 6).take 2)))
      sampleRate := some (extendedF80 ((chunk.data.drop 8).take 10)) }
  else if chunk.id = ascii "SSND" ∧ 8 ≤ chunk.data.length then
    let skipped := 8 + readBe (chunk.data.take 4)
    { s with data := some (chunk.offset + skipped, chunk.data.length - skipped) }
  else s

def parseAiffPcm (extendedF80 : List UInt8 → UInt32) (bytes : List UInt8) : Except HlsFailure PcmInfo :=
  if bytes.length < 12 ∨ bytes.take 4 ≠ ascii "FORM" then
    .error (.invalidData "not an AIFF file")
  else if (bytes.drop 8).take 4 ≠ ascii "AIFF" ∧
      (bytes.drop 8).take 4 ≠ ascii "AIFC" then
    .error (.invalidData "unsupported AIFF form type")
  else
    ((iffChunks readBe bytes.length 12 (bytes.drop 12)).foldl (aiffChunk extendedF80) {}).finish
      "AIFF" "SSND"

/-! ## Samples -/

/-- Why a loop stops without a result: the fuel of the model, or a sum or product that is no `usize`. -/
inductive LoopStop where
  | fuel
  | overflow
deriving DecidableEq, Repr

section Chunks

variable {ε : Type} (entry : Option (Arc ε))

/-- Where the chunk at `offset` ends. -/
def pcmChunkEnd (dataEnd bytesPerFrame chunkSize offset : Nat) : Nat :=
  let nextEnd := min (offset + chunkSize) dataEnd
  let alignedEnd := nextEnd - (nextEnd - offset) % bytesPerFrame
  if alignedEnd = offset then dataEnd else alignedEnd

/-- The loop from `offset` on. -/
def pcmChunksFrom (dataEnd bytesPerFrame chunkSize : Nat) :
    Nat → Nat → Except LoopStop (List (RemuxSampleRef ε))
  | 0, offset => if offset < dataEnd then .error .fuel else .ok []
  | fuel + 1, offset =>
    if offset < dataEnd then
      if 2 ^ 64 ≤ offset + chunkSize then .error .overflow
      else
        let stop := pcmChunkEnd dataEnd bytesPerFrame chunkSize offset
        let frameCount := max ((stop - offset) / bytesPerFrame) 1
        (pcmChunksFrom dataEnd bytesPerFrame chunkSize fuel stop).map fun samples =>
          ⟨offset, stop, UInt32.ofNat frameCount, entry, true, none⟩ :: samples
    else .ok []

/-- `pcm_chunks`; every round takes a byte at least, so the fuel is what there is of them. -/
def pcmChunks (dataStart dataEnd bytesPerFrame : Nat) (sampleRate : UInt32) (segmentSecs : Nat) :
    Except LoopStop (List (RemuxSampleRef ε)) :=
  let framesPerChunk := sampleRate.toNat * max segmentSecs 1
  if 2 ^ 64 ≤ framesPerChunk then .error .overflow
  else
    let chunkSize := max (min (framesPerChunk * bytesPerFrame) (2 ^ 64 - 1)) bytesPerFrame
    pcmChunksFrom entry dataEnd bytesPerFrame chunkSize (dataEnd - dataStart) dataStart

end Chunks

/-! ## ALAC -/

def HlsFailure.unsupported (text : String) : HlsFailure := .error ("unsupported format: " ++ text)

def pcmBytesPerSample (bitDepth : UInt8) : Except HlsFailure Nat :=
  if bitDepth = 16 then .ok 2
  else if bitDepth = 20 ∨ bitDepth = 24 then .ok 3
  else if bitDepth = 32 then .ok 4
  else .error (.unsupported "ALAC remux only supports 16/20/24/32-bit PCM input")

/-- The size of a frame on the path of ALAC. -/
def alacBytesPerFrame (channels bitDepth : UInt8) : Except HlsFailure Nat :=
  (pcmBytesPerSample bitDepth).map fun bytesPerSample => bytesPerSample * channels.toNat

def pcmToAlacBytes (pcmBytes : List UInt8) (bitDepth : UInt8) (sourceBigEndian : Bool) :
    Except HlsFailure (List UInt8) := do
  let bytesPerSample ← pcmBytesPerSample bitDepth
  let targetBigEndian : Bool := bitDepth = 20 ∨ bitDepth = 24
  if sourceBigEndian = targetBigEndian then .ok pcmBytes
  else
    .ok (((pcmBytes.toChunks bytesPerSample).filter fun sample =>
      sample.length = bytesPerSample).flatMap List.reverse)

/-- `AlacEncoder`, for a sample rate, channels and a bit depth. No result is a panic. -/
structure AlacCodec (σ : Type) where
  framesPerPacket : Nat
  new : UInt32 → UInt8 → UInt8 → σ
  magicCookie : σ → List UInt8
  encode : σ → List UInt8 → Option (List UInt8 × σ)

/-- `unknown_audio_sample_entry`: box type, sample rate, channels, bits per sample and trailing payload. -/
abbrev SampleEntries (ε : Type) : Type :=
  String → UInt32 → UInt8 → UInt8 → List UInt8 → Except String ε

section Remux

variable {ε σ : Type} (codec : AlacCodec σ) (entries : SampleEntries ε) (address : Nat)

/-- The loop over the packets, with the payload so far. -/
def alacPackets (bytesPerFrame : Nat) : List (List UInt8) → σ → List UInt8 →
    Except HlsFailure (List UInt8 × List (RemuxSampleRef ε))
  | [], _, payload => .ok (payload, [])
  | pcmChunk :: pcmChunks, encoder, payload => do
    let frameCount := pcmChunk.length / bytesPerFrame
    if frameCount = 0 then alacPackets bytesPerFrame pcmChunks encoder payload
    else
      let (encoded, encoder) ← orPanic (codec.encode encoder pcmChunk)
      let (payload', samples) ← alacPackets bytesPerFrame pcmChunks encoder (payload ++ encoded)
      .ok (payload', ⟨payload.length, payload.length + encoded.length, UInt32.ofNat frameCount, none, true,
        none⟩ :: samples)

def bigEndian32 (n : Nat) : List UInt8 :=
  [UInt8.ofNat (n / 2 ^ 24), UInt8.ofNat (n / 2 ^ 16), UInt8.ofNat (n / 2 ^ 8), UInt8.ofNat n]

def remuxPcmAsAlac (pcmBytes : List UInt8) (sampleRate : UInt32) (channels bitDepth : UInt8)
    (sourceBigEndian : Bool) : Except HlsFailure (RemuxedTrack ε) := do
  let bytesPerFrame ← alacBytesPerFrame channels bitDepth
  if bytesPerFrame = 0 then .error (.invalidData "PCM frame size must be non-zero")
  else if pcmBytes.length % bytesPerFrame ≠ 0 then
    .error (.invalidData "PCM payload was not aligned to whole audio frames")
  else do
    let normalizedPcm ← pcmToAlacBytes pcmBytes bitDepth sourceBigEndian
    let encoder := codec.new sampleRate channels bitDepth
    let magicCookie := codec.magicCookie encoder
    let alacInnerBox := bigEndian32 (12 + magicCookie.length) ++ ascii "alac" ++ [0, 0, 0, 0] ++
      magicCookie
    let sampleEntry ← (entries "alac" sampleRate channels bitDepth alacInnerBox).mapError
      HlsFailure.invalidData
    let chunkBytes := codec.framesPerPacket * bytesPerFrame
    let (payload, samples) ← alacPackets codec bytesPerFrame (normalizedPcm.toChunks chunkBytes) encoder []
    if samples = [] then .error (.invalidData "no ALAC packets were produced from PCM input")
    else do
      let timescale ← nonzero sampleRate
      if h : samples.length < 2 ^ 64 then .ok ⟨timescale, payload, some ⟨address, sampleEntry⟩, samples, h⟩
      else .error .panic

/-! ## Tracks -/

structure FileProperties where
  sampleRate : Option UInt32
  channels : Option UInt8
  bitDepth : Option UInt8

/-- The size of a frame on the path without an encoder. -/
def lpcmBytesPerFrame (channels bitDepth : UInt8) : Nat := max (channels.toNat * bitDepth.toNat / 8) 1

/-- `remux_wav` and `remux_aiff` once the file is parsed. -/
def remuxPcm (info : PcmInfo) (bigEndian : Bool) (properties : FileProperties) (bytes : List UInt8) :
    Except HlsFailure (RemuxedTrack ε) :=
  let sampleRate := properties.sampleRate.getD info.sampleRate
  let channels := properties.channels.getD info.channels
  let bitDepth := properties.bitDepth.getD info.bitsPerSample
  if 65535 < sampleRate then do
    let pcmBytes ← orPanic (slice? bytes info.dataOffset (info.dataOffset + info.dataLen))
    remuxPcmAsAlac codec entries address pcmBytes sampleRate channels bitDepth bigEndian
  else do
    let timescale ← nonzero sampleRate
    let entry ← (entries "lpcm" sampleRate channels bitDepth []).mapError HlsFailure.invalidData
    let samples ← (pcmChunks none info.dataOffset (info.dataOffset + info.dataLen)
      (lpcmBytesPerFrame channels bitDepth) sampleRate 6).mapError fun _ => HlsFailure.panic
    if h : samples.length < 2 ^ 64 then .ok ⟨timescale, bytes, some ⟨address, entry⟩, samples, h⟩
    else .error .panic

def remuxWav (properties : FileProperties) (bytes : List UInt8) : Except HlsFailure (RemuxedTrack ε) := do
  let wav ← parseWavPcm bytes
  remuxPcm codec entries address wav false properties bytes

def remuxAiff (extendedF80 : List UInt8 → UInt32) (properties : FileProperties) (bytes : List UInt8) :
    Except HlsFailure (RemuxedTrack ε) := do
  let aiff ← parseAiffPcm extendedF80 bytes
  remuxPcm codec entries address aiff true properties bytes

end Remux

/-! ## The loop over the data -/

section Loop

variable {ε : Type} {entry : Option (Arc ε)} {dataStart dataEnd bytesPerFrame chunkSize framesPerChunk : Nat}
  {samples : List (RemuxSampleRef ε)}

/-- A round goes on, and not past the end. -/
theorem pcmChunkEnd_bounds {offset : Nat} (hlt : offset < dataEnd) :
    offset < pcmChunkEnd dataEnd bytesPerFrame chunkSize offset ∧
      pcmChunkEnd dataEnd bytesPerFrame chunkSize offset ≤ dataEnd := by
  have hmod := Nat.mod_le (min (offset + chunkSize) dataEnd - offset) bytesPerFrame
  unfold pcmChunkEnd
  dsimp only
  split
  · exact ⟨hlt, Nat.le_refl _⟩
  · omega

/-- It takes whole frames, or the rest if that is less than one. -/
theorem pcmChunkEnd_frames {offset : Nat} (hpos : 0 < bytesPerFrame) (hframes : 0 < framesPerChunk)
    (hlt : offset < dataEnd) :
    (∃ n, 0 < n ∧ n ≤ framesPerChunk ∧
        pcmChunkEnd dataEnd bytesPerFrame (framesPerChunk * bytesPerFrame) offset =
          offset + bytesPerFrame * n) ∨
      (pcmChunkEnd dataEnd bytesPerFrame (framesPerChunk * bytesPerFrame) offset = dataEnd ∧
        dataEnd - offset < bytesPerFrame) := by
  have hchunk : bytesPerFrame ≤ framesPerChunk * bytesPerFrame := Nat.le_mul_of_pos_left _ hframes
  unfold pcmChunkEnd
  dsimp only
  generalize hsize : min (offset + framesPerChunk * bytesPerFrame) dataEnd - offset = size
  have hmod := Nat.mod_lt size hpos
  have hdiv := Nat.div_add_mod size bytesPerFrame
  split
  · refine .inr ⟨rfl, ?_⟩
    omega
  · refine .inl ⟨size / bytesPerFrame, ?_, ?_, ?_⟩
    · rcases Nat.eq_zero_or_pos (size / bytesPerFrame) with hzero | hdivpos
      · rw [hzero, Nat.mul_zero] at hdiv
        omega
      · exact hdivpos
    · refine Nat.div_le_of_le_mul ?_
      rw [Nat.mul_comm]
      omega
    · omega

theorem pcmChunksFrom_ends {fuel offset : Nat} (hfuel : dataEnd - offset ≤ fuel) :
    pcmChunksFrom entry dataEnd bytesPerFrame chunkSize fuel offset ≠ .error .fuel := by
  induction fuel generalizing offset with
  | zero =>
    rw [pcmChunksFrom, if_neg (by omega)]
    intro h
    cases h
  | succ fuel ih =>
    rw [pcmChunksFrom]
    split
    · rename_i hlt
      split
      · intro h
        cases h
      · have hbounds := @pcmChunkEnd_bounds dataEnd bytesPerFrame chunkSize offset hlt
        have hrest := @ih (pcmChunkEnd dataEnd bytesPerFrame chunkSize offset) (by omega)
        dsimp only
        intro h
        cases hchunks : pcmChunksFrom entry dataEnd bytesPerFrame chunkSize fuel
            (pcmChunkEnd dataEnd bytesPerFrame chunkSize offset) with
        | ok samples =>
          rw [hchunks] at h
          cases h
        | error stop =>
          rw [hchunks] at h hrest
          cases h
          exact hrest rfl
    · intro h
      cases h

/-- The loop comes to its end, whatever the range of the data and the size of a frame. -/
theorem pcmChunks_ends (entry : Option (Arc ε)) (dataStart dataEnd bytesPerFrame : Nat)
    (sampleRate : UInt32) (segmentSecs : Nat) :
    pcmChunks entry dataStart dataEnd bytesPerFrame sampleRate segmentSecs ≠ .error .fuel := by
  unfold pcmChunks
  dsimp only
  split
  · intro h
    cases h
  · exact pcmChunksFrom_ends (Nat.le_refl _)

/-- What is made from `offset` on. The chunks are made of frames as far as the data is. -/
structure CutInto (bytesPerFrame offset dataEnd : Nat) (samples : List (RemuxSampleRef ε)) : Prop where
  ranges : Contiguous offset (samples.map RemuxSampleRef.range) dataEnd
  total_le : dataEnd - offset ≤ totalDuration samples * bytesPerFrame
  total : bytesPerFrame ∣ dataEnd - offset → totalDuration samples * bytesPerFrame = dataEnd - offset
  aligned : bytesPerFrame ∣ dataEnd - offset → ∀ sample ∈ samples,
    (∃ i, sample.start = offset + bytesPerFrame * i) ∧ ∃ i, sample.stop = offset + bytesPerFrame * i

theorem CutInto.cons {offset stop : Nat} {duration : UInt32} (h : CutInto bytesPerFrame stop dataEnd samples)
    (hlt : offset < stop) (hle : stop ≤ dataEnd)
    (hstop : stop = offset + bytesPerFrame * duration.toNat ∨
      (stop = dataEnd ∧ dataEnd - offset < bytesPerFrame ∧ duration.toNat = 1)) :
    CutInto bytesPerFrame offset dataEnd (⟨offset, stop, duration, entry, true, none⟩ :: samples) := by
  have hranges : Contiguous offset
      ((⟨offset, stop, duration, entry, true, none⟩ :: samples).map RemuxSampleRef.range) dataEnd :=
    ⟨rfl, hlt, h.ranges⟩
  have htotal : totalDuration (⟨offset, stop, duration, entry, true, none⟩ :: samples) * bytesPerFrame =
      bytesPerFrame * duration.toNat + totalDuration samples * bytesPerFrame := by
    rw [totalDuration_cons, Nat.add_mul, Nat.mul_comm bytesPerFrame]
  have htotal_le := h.total_le
  rcases hstop with hframes | ⟨hend, htail, hone⟩
  · have hrest : bytesPerFrame ∣ dataEnd - offset → bytesPerFrame ∣ dataEnd - stop := by
      intro hdvd
      have hsplit : dataEnd - offset = bytesPerFrame * duration.toNat + (dataEnd - stop) := by omega
      rw [hsplit] at hdvd
      exact (Nat.dvd_add_right (Nat.dvd_mul_right _ _)).1 hdvd
    refine ⟨hranges, ?_, ?_, ?_⟩
    · rw [htotal]
      omega
    · intro hdvd
      have hsum := h.total (hrest hdvd)
      rw [htotal]
      omega
    · intro hdvd sample hsample
      rcases List.mem_cons.1 hsample with rfl | hsample
      · exact ⟨⟨0, rfl⟩, ⟨duration.toNat, hframes⟩⟩
      · obtain ⟨⟨i, hi⟩, ⟨j, hj⟩⟩ := h.aligned (hrest hdvd) sample hsample
        refine ⟨⟨duration.toNat + i, ?_⟩, ⟨duration.toNat + j, ?_⟩⟩
        · rw [hi, Nat.mul_add, hframes, Nat.add_assoc]
        · rw [hj, Nat.mul_add, hframes, Nat.add_assoc]
  · have hnot : ¬ bytesPerFrame ∣ dataEnd - offset := by
      intro hdvd
      have hge := Nat.le_of_dvd (by omega) hdvd
      omega
    refine ⟨hranges, ?_, fun hdvd => absurd hdvd hnot, fun hdvd => absurd hdvd hnot⟩
    rw [htotal, hone, Nat.mul_one]
    omega

theorem pcmChunksFrom_cutInto {fuel offset : Nat} (hpos : 0 < bytesPerFrame) (hframes : 0 < framesPerChunk)
    (hlt : framesPerChunk < 2 ^ 32) (hoffset : offset ≤ dataEnd)
    (h : pcmChunksFrom entry dataEnd bytesPerFrame (framesPerChunk * bytesPerFrame) fuel offset = .ok samples) :
    CutInto bytesPerFrame offset dataEnd samples := by
  have hnone : ∀ offset, offset ≤ dataEnd → ¬ offset < dataEnd →
      CutInto bytesPerFrame offset dataEnd ([] : List (RemuxSampleRef ε)) := by
    intro offset hle hnot
    obtain rfl : offset = dataEnd := by omega
    refine ⟨rfl, ?_, ?_, ?_⟩
    · omega
    · intro _
      rw [Nat.sub_self]
      exact Nat.zero_mul _
    · intro _ sample hsample
      cases hsample
  induction fuel generalizing offset samples with
  | zero =>
    rw [pcmChunksFrom] at h
    split at h
    · cases h
    · cases h
      exact hnone offset hoffset ‹_›
  | succ fuel ih =>
    rw [pcmChunksFrom] at h
    split at h
    · rename_i hmore
      split at h
      · cases h
      have hbounds := @pcmChunkEnd_bounds dataEnd bytesPerFrame (framesPerChunk * bytesPerFrame) offset hmore
      have hend := pcmChunkEnd_frames hpos hframes hmore
      dsimp only at h
      generalize pcmChunkEnd dataEnd bytesPerFrame (framesPerChunk * bytesPerFrame) offset = stop at *
      cases hrest : pcmChunksFrom entry dataEnd bytesPerFrame (framesPerChunk * bytesPerFrame) fuel stop with
      | error e =>
        rw [hrest] at h
        cases h
      | ok rest =>
        rw [hrest] at h
        cases h
        refine (ih hbounds.2 hrest).cons hbounds.1 hbounds.2 ?_
        rcases hend with ⟨n, hn, hle, rfl⟩ | ⟨rfl, htail⟩
        · have hcount : max ((offset + bytesPerFrame * n - offset) / bytesPerFrame) 1 = n := by
            rw [Nat.add_sub_cancel_left, Nat.mul_div_cancel_left n hpos]
            omega
          rw [hcount, UInt32.toNat_ofNat_of_lt' (by exact Nat.lt_of_le_of_lt hle hlt)]
          exact .inl rfl
        · rw [Nat.div_eq_of_lt htail]
          exact .inr ⟨rfl, htail, rfl⟩
    · cases h
      exact hnone offset hoffset ‹_›

/-- With chunks of at least one and less than `2 ^ 32` frames, for a sample rate that fits 16 bits. -/
theorem pcmChunks_cutInto {sampleRate : UInt32} (hrate : 0 < sampleRate.toNat)
    (hrate_le : sampleRate.toNat ≤ 65535) (hframe : 0 < bytesPerFrame ∧ bytesPerFrame < 2 ^ 16)
    (hle : dataStart ≤ dataEnd)
    (h : pcmChunks entry dataStart dataEnd bytesPerFrame sampleRate 6 = .ok samples) :
    CutInto bytesPerFrame dataStart dataEnd samples := by
  obtain ⟨hpos, hlt⟩ := hframe
  have hproduct : sampleRate.toNat * 6 * bytesPerFrame ≤ 65535 * 6 * 2 ^ 16 :=
    Nat.mul_le_mul (by omega) (by omega)
  have hone : bytesPerFrame ≤ sampleRate.toNat * 6 * bytesPerFrame := Nat.le_mul_of_pos_left _ (by omega)
  have hsecs : max 6 1 = 6 := rfl
  have hsize : max (min (sampleRate.toNat * 6 * bytesPerFrame) (2 ^ 64 - 1)) bytesPerFrame =
      sampleRate.toNat * 6 * bytesPerFrame := by
    omega
  unfold pcmChunks at h
  dsimp only at h
  rw [hsecs, if_neg (by omega), hsize] at h
  exact pcmChunksFrom_cutInto hpos (by omega) (by omega) hle h

end Loop

/-! ## Whole frames -/

/-- The bytes of a frame in the file, where every sample has whole bytes. -/
def frameBytes (channels bitDepth : UInt8) : Nat := channels.toNat * ((bitDepth.toNat + 7) / 8)

/-- The samples are the frames of the data, and the frames have the size they have for ALAC. -/
structure PcmExact (channels bitDepth : UInt8) (dataOffset dataLen : Nat)
    (samples : List (RemuxSampleRef ε)) : Prop where
  ranges : Contiguous dataOffset (samples.map RemuxSampleRef.range) (dataOffset + dataLen)
  aligned : ∀ sample ∈ samples, frameBytes channels bitDepth ∣ sample.start - dataOffset ∧
    frameBytes channels bitDepth ∣ sample.stop - dataOffset
  total : totalDuration samples = dataLen / frameBytes channels bitDepth
  alac : ∀ n, alacBytesPerFrame channels bitDepth = .ok n → lpcmBytesPerFrame channels bitDepth = n

section Frames

theorem rounded_frame {c b : Nat} (hc : 1 ≤ c) (hb : 1 ≤ b) :
    max (c * b / 8) 1 ≤ c * ((b + 7) / 8) ∧
      (max (c * b / 8) 1 = c * ((b + 7) / 8) ↔ 8 ∣ b ∨ (c = 1 ∧ b < 8)) := by
  obtain ⟨q, r, hr, rfl⟩ : ∃ q r, r < 8 ∧ b = 8 * q + r :=
    ⟨b / 8, b % 8, Nat.mod_lt b (by omega), (Nat.div_add_mod b 8).symm⟩
  have hleft : c * (8 * q + r) / 8 = c * q + c * r / 8 := by
    rw [Nat.mul_add, Nat.mul_left_comm, Nat.mul_add_div (by omega)]
  rw [hleft]
  rcases Nat.eq_zero_or_pos r with rfl | hpos
  · have hq : 1 ≤ c * q := Nat.mul_pos hc (by omega)
    have hright : (8 * q + 0 + 7) / 8 = q := by omega
    have hdvd : 8 ∣ 8 * q + 0 := Nat.dvd_mul_right 8 q
    rw [hright, Nat.mul_zero, Nat.zero_div, Nat.add_zero, Nat.max_eq_left hq]
    exact ⟨Nat.le_refl _, iff_of_true rfl (.inl hdvd)⟩
  · have hright : (8 * q + r + 7) / 8 = q + 1 := by omega
    have hlt : c * r / 8 < c := by
      rw [Nat.div_lt_iff_lt_mul (by omega)]
      exact Nat.mul_lt_mul_of_pos_left hr hc
    have hndvd : ¬ 8 ∣ 8 * q + r := by omega
    rw [hright, Nat.mul_add, Nat.mul_one]
    refine ⟨by omega, fun h => .inr ?_, ?_⟩
    · -- only one byte, which the division rounds down to none, is rounded up again
      have hone : c = 1 := by omega
      subst hone
      omega
    · rintro (hdvd | ⟨rfl, hsmall⟩)
      · exact absurd hdvd hndvd
      · omega

theorem lpcmBytesPerFrame_bounds (channels bitDepth : UInt8) :
    0 < lpcmBytesPerFrame channels bitDepth ∧ lpcmBytesPerFrame channels bitDepth < 2 ^ 16 := by
  have hproduct : channels.toNat * bitDepth.toNat ≤ 256 * 256 :=
    Nat.mul_le_mul (Nat.le_of_lt channels.toNat_lt) (Nat.le_of_lt bitDepth.toNat_lt)
  unfold lpcmBytesPerFrame
  omega

theorem lpcmBytesPerFrame_le {channels bitDepth : UInt8} (hc : 1 ≤ channels.toNat) (hb : 1 ≤ bitDepth.toNat) :
    lpcmBytesPerFrame channels bitDepth ≤ frameBytes channels bitDepth :=
  (rounded_frame hc hb).1

theorem lpcmBytesPerFrame_eq_iff {channels bitDepth : UInt8} (hc : 1 ≤ channels.toNat)
    (hb : 1 ≤ bitDepth.toNat) :
    lpcmBytesPerFrame channels bitDepth = frameBytes channels bitDepth ↔
      8 ∣ bitDepth.toNat ∨ (channels.toNat = 1 ∧ bitDepth.toNat < 8) :=
  (rounded_frame hc hb).2

/-- Both paths agree for the depths that ALAC has, except for 20 bits. -/
theorem alac_iff {channels bitDepth : UInt8} (hc : 1 ≤ channels.toNat) :
    (∀ n, alacBytesPerFrame channels bitDepth = .ok n → lpcmBytesPerFrame channels bitDepth = n) ↔
      bitDepth ≠ 20 := by
  have hdepth : ∀ depth : Nat, bitDepth = UInt8.ofNat depth → depth < 256 → bitDepth.toNat = depth := by
    rintro depth rfl hlt
    exact UInt8.toNat_ofNat_of_lt' hlt
  constructor
  · rintro h rfl
    have hframe := h (3 * channels.toNat) rfl
    rw [lpcmBytesPerFrame, hdepth 20 rfl (by decide)] at hframe
    omega
  · intro hne n h
    unfold alacBytesPerFrame pcmBytesPerSample at h
    rw [lpcmBytesPerFrame]
    split at h
    · rename_i hbits
      cases h
      rw [hdepth 16 hbits (by decide)]
      dsimp only
      omega
    split at h
    · rename_i hbits
      cases h
      rw [hdepth 24 (hbits.resolve_left hne) (by decide)]
      dsimp only
      omega
    split at h
    · rename_i hbits
      cases h
      rw [hdepth 32 hbits (by decide)]
      dsimp only
      omega
    · cases h

section Tracks

variable {ε σ : Type} {codec : AlacCodec σ} {entries : SampleEntries ε} {address : Nat} {info : PcmInfo}
  {bigEndian : Bool} {properties : FileProperties} {bytes : List UInt8} {track : RemuxedTrack ε}
  {channels bitDepth : UInt8} {samples : List (RemuxSampleRef ε)} {dataOffset dataLen : Nat}

theorem remuxPcm_ok (hrate : properties.sampleRate.getD info.sampleRate ≤ 65535)
    (h : remuxPcm codec entries address info bigEndian properties bytes = .ok track) :
    properties.sampleRate.getD info.sampleRate ≠ 0 ∧
      pcmChunks none info.dataOffset (info.dataOffset + info.dataLen)
        (lpcmBytesPerFrame (properties.channels.getD info.channels)
          (properties.bitDepth.getD info.bitsPerSample))
        (properties.sampleRate.getD info.sampleRate) 6 = .ok track.samples := by
  unfold remuxPcm at h
  dsimp only at h
  split at h
  · rename_i hover
    exact absurd hrate (UInt32.not_le.2 hover)
  obtain ⟨timescale, hscale, h⟩ := bind_eq_ok h
  obtain ⟨entry, -, h⟩ := bind_eq_ok h
  obtain ⟨samples, hsamples, h⟩ := bind_eq_ok h
  split at h
  · cases h
    constructor
    · intro hzero
      rw [nonzero, if_pos hzero] at hscale
      cases hscale
    · revert hsamples
      cases pcmChunks _ _ _ _ _ _ with
      | error stop =>
        intro h
        cases h
      | ok samples =>
        intro h
        cases h
        rfl
  · cases h

/-- The samples of a track, for the size of a frame that is used. -/
theorem cutInto_remuxPcm (hrate : properties.sampleRate.getD info.sampleRate ≤ 65535)
    (h : remuxPcm codec entries address info bigEndian properties bytes = .ok track) :
    CutInto (lpcmBytesPerFrame (properties.channels.getD info.channels)
      (properties.bitDepth.getD info.bitsPerSample)) info.dataOffset (info.dataOffset + info.dataLen)
      track.samples := by
  obtain ⟨hne, hchunks⟩ := remuxPcm_ok hrate h
  have hpos : 0 < (properties.sampleRate.getD info.sampleRate).toNat :=
    UInt32.lt_iff_toNat_lt.1 (UInt32.pos_iff_ne_zero.2 hne)
  have hle : (properties.sampleRate.getD info.sampleRate).toNat ≤ 65535 := UInt32.le_iff_toNat_le.1 hrate
  exact pcmChunks_cutInto hpos hle (lpcmBytesPerFrame_bounds _ _) (Nat.le_add_right _ _) hchunks

theorem exact_iff (hc : 1 ≤ channels.toNat) (hb : 1 ≤ bitDepth.toNat)
    (hlen : frameBytes channels bitDepth ∣ dataLen)
    (hcut : CutInto (lpcmBytesPerFrame channels bitDepth) dataOffset (dataOffset + dataLen) samples) :
    PcmExact channels bitDepth dataOffset dataLen samples ↔
      (8 ∣ bitDepth.toNat ∨ (channels.toNat = 1 ∧ bitDepth.toNat < 8)) ∨
        (dataLen = 0 ∧ bitDepth ≠ 20) := by
  have hle := lpcmBytesPerFrame_le hc hb
  have hlength : dataOffset + dataLen - dataOffset = dataLen :=
    Nat.add_sub_cancel_left dataOffset dataLen
  have hframe : 0 < frameBytes channels bitDepth :=
    Nat.lt_of_lt_of_le (lpcmBytesPerFrame_bounds channels bitDepth).1 hle
  have htotal_le := hcut.total_le
  rw [hlength] at htotal_le
  rw [← lpcmBytesPerFrame_eq_iff hc hb]
  constructor
  · intro h
    have htwenty := (alac_iff hc).1 h.alac
    rcases Nat.eq_zero_or_pos dataLen with hzero | hpos
    · exact .inr ⟨hzero, htwenty⟩
    · refine .inl (Nat.le_antisymm hle ?_)
      -- as many samples in time as frames, so that each of them must be a whole frame
      obtain ⟨n, rfl⟩ := hlen
      have htotal := h.total
      rw [Nat.mul_div_cancel_left n hframe] at htotal
      rw [htotal, Nat.mul_comm n] at htotal_le
      exact Nat.le_of_mul_le_mul_right htotal_le (Nat.pos_of_mul_pos_left hpos)
  · rintro (heq | ⟨rfl, htwenty⟩)
    · have htwenty : bitDepth ≠ 20 := by
        rintro rfl
        rcases (lpcmBytesPerFrame_eq_iff hc hb).1 heq with hdvd | ⟨-, hlt⟩
        · exact absurd hdvd (by decide)
        · exact absurd hlt (by decide)
      rw [heq] at hcut
      have haligned := hcut.aligned (by rwa [hlength])
      have htotal := hcut.total (by rwa [hlength])
      rw [hlength] at htotal
      refine ⟨hcut.ranges, fun sample hsample => ?_, ?_, (alac_iff hc).2 htwenty⟩
      · obtain ⟨⟨i, hi⟩, ⟨j, hj⟩⟩ := haligned sample hsample
        rw [hi, hj, Nat.add_sub_cancel_left, Nat.add_sub_cancel_left]
        exact ⟨Nat.dvd_mul_right _ i, Nat.dvd_mul_right _ j⟩
      · rw [← htotal, Nat.mul_div_cancel _ hframe]
    · have hnil : samples = [] := by
        have hcount := hcut.ranges.le
        rw [List.length_map] at hcount
        exact List.length_eq_zero_iff.1 (by omega)
      refine ⟨hcut.ranges, fun sample hsample => ?_, ?_, (alac_iff hc).2 htwenty⟩
      · rw [hnil] at hsample
        cases hsample
      · rw [hnil, Nat.zero_div]
        rfl

/-- The samples of a WAV or AIFF file are its frames exactly if rounding down over all channels loses nothing,
or there is no data. -/
theorem lpcm_exact_iff {extendedF80 : List UInt8 → UInt32}
    (hfile : (parseWavPcm bytes = .ok info ∧ remuxWav codec entries address properties bytes = .ok track) ∨
      (parseAiffPcm extendedF80 bytes = .ok info ∧
        remuxAiff codec entries address extendedF80 properties bytes = .ok track))
    (hrate : properties.sampleRate.getD info.sampleRate ≤ 65535)
    (hchannels : properties.channels.getD info.channels = channels)
    (hbitDepth : properties.bitDepth.getD info.bitsPerSample = bitDepth)
    (hc : 1 ≤ channels.toNat) (hb : 1 ≤ bitDepth.toNat)
    (hlen : frameBytes channels bitDepth ∣ info.dataLen) :
    (PcmExact channels bitDepth info.dataOffset info.dataLen track.samples ↔
      (8 ∣ bitDepth.toNat ∨ (channels.toNat = 1 ∧ bitDepth.toNat < 8)) ∨
        (info.dataLen = 0 ∧ bitDepth ≠ 20)) ∧
      ∀ (entry : Option (Arc ε)) (dataStart dataEnd bytesPerFrame : Nat) (sampleRate : UInt32)
        (segmentSecs : Nat), 1 ≤ bytesPerFrame →
          pcmChunks entry dataStart dataEnd bytesPerFrame sampleRate segmentSecs ≠ .error .fuel := by
  have hcut : CutInto (lpcmBytesPerFrame channels bitDepth) info.dataOffset
      (info.dataOffset + info.dataLen) track.samples := by
    rw [← hchannels, ← hbitDepth]
    rcases hfile with ⟨hparse, htrack⟩ | ⟨hparse, htrack⟩
    · rw [remuxWav, hparse] at htrack
      exact cutInto_remuxPcm hrate htrack
    · rw [remuxAiff, hparse] at htrack
      exact cutInto_remuxPcm hrate htrack
  refine ⟨exact_iff hc hb hlen hcut, ?_⟩
  intro entry dataStart dataEnd bytesPerFrame sampleRate segmentSecs _
  exact pcmChunks_ends entry dataStart dataEnd bytesPerFrame sampleRate segmentSecs

end Tracks

/-! WAV files of one frame. -/

/-- At 44.1 kHz. -/
def wavFile (channels bitDepth : UInt8) (data : List UInt8) : List UInt8 :=
  ascii "RIFF" ++ [UInt8.ofNat (36 + data.length), 0, 0, 0] ++ ascii "WAVE" ++
    ascii "fmt " ++ [16, 0, 0, 0, 1, 0, channels, 0, 0x44, 0xAC, 0, 0, 0, 0, 0, 0, 0, 0, bitDepth, 0] ++
      ascii "data" ++ [UInt8.ofNat data.length, 0, 0, 0] ++ data

def noCodec : AlacCodec Unit where
  framesPerPacket := 4096
  new := fun _ _ _ => ()
  magicCookie := fun _ => []
  encode := fun _ _ => none

def bareEntries : SampleEntries Unit := fun _ _ _ _ _ => .ok ()

def fromHeader : FileProperties := ⟨none, none, none⟩

def stereoInfo : PcmInfo := ⟨44100, 2, 16, 44, 4⟩

theorem parseWavPcm_stereo : parseWavPcm (wavFile 2 16 [1, 2, 3, 4]) = .ok stereoInfo := by
  have h : (parseWavPcm (wavFile 2 16 [1, 2, 3, 4])).toOption = some stereoInfo := by decide +kernel
  cases hparse : parseWavPcm (wavFile 2 16 [1, 2, 3, 4]) with
  | error e =>
    rw [hparse] at h
    cases h
  | ok info =>
    rw [hparse] at h
    cases h
    rfl

theorem lpcm_exact_iff_stereo : ∃ track,
    remuxWav noCodec bareEntries 0 fromHeader (wavFile 2 16 [1, 2, 3, 4]) = .ok track ∧
      (PcmExact 2 16 stereoInfo.dataOffset stereoInfo.dataLen track.samples ↔
        (8 ∣ (16 : UInt8).toNat ∨ ((2 : UInt8).toNat = 1 ∧ (16 : UInt8).toNat < 8)) ∨
          (stereoInfo.dataLen = 0 ∧ (16 : UInt8) ≠ 20)) ∧
        ∀ (entry : Option (Arc Unit)) (dataStart dataEnd bytesPerFrame : Nat) (sampleRate : UInt32)
          (segmentSecs : Nat), 1 ≤ bytesPerFrame →
            pcmChunks entry dataStart dataEnd bytesPerFrame sampleRate segmentSecs ≠ .error .fuel := by
  have hremux : (remuxWav noCodec bareEntries 0 fromHeader
      (wavFile 2 16 [1, 2, 3, 4])).toOption.isSome = true := by
    decide +kernel
  cases htrack : remuxWav noCodec bareEntries 0 fromHeader (wavFile 2 16 [1, 2, 3, 4]) with
  | error e =>
    rw [htrack] at hremux
    cases hremux
  | ok track =>
    have hfile : (parseWavPcm (wavFile 2 16 [1, 2, 3, 4]) = .ok stereoInfo ∧
          remuxWav noCodec bareEntries 0 fromHeader (wavFile 2 16 [1, 2, 3, 4]) = .ok track) ∨
        (parseAiffPcm (fun _ => 0) (wavFile 2 16 [1, 2, 3, 4]) = .ok stereoInfo ∧
          remuxAiff noCodec bareEntries 0 (fun _ => 0) fromHeader (wavFile 2 16 [1, 2, 3, 4]) = .ok track) :=
      .inl ⟨parseWavPcm_stereo, htrack⟩
    exact ⟨track, rfl, lpcm_exact_iff hfile (by decide) rfl rfl (by decide) (by decide) (by decide)⟩

/-! An AIFF file of one frame. -/

/-- 44100 as a float of 80 bits, and the only one that is read here. -/
def rate44100 : List UInt8 := [0x40, 0x0E, 0xAC, 0x44, 0, 0, 0, 0, 0, 0]

def extended44100 (rate : List UInt8) : UInt32 := if rate = rate44100 then 44100 else 0

/-- Data of an odd length is padded. -/
def aiffFile (channels bitDepth : UInt8) (data : List UInt8) : List UInt8 :=
  let pad := List.replicate (data.length % 2) 0
  ascii "FORM" ++ [0, 0, 0, UInt8.ofNat (46 + data.length + data.length % 2)] ++ ascii "AIFF" ++
    ascii "COMM" ++ [0, 0, 0, 18, 0, channels, 0, 0, 0, 1, 0, bitDepth] ++ rate44100 ++
      ascii "SSND" ++ [0, 0, 0, UInt8.ofNat (8 + data.length), 0, 0, 0, 0, 0, 0, 0, 0] ++ data ++ pad

/-- One channel of 20 bits, three bytes each. -/
theorem lpcm_cut_inside_frame :
    ((parseAiffPcm extended44100 (aiffFile 1 20 [1, 2, 3])).toOption = some ⟨44100, 1, 20, 54, 3⟩) ∧
      frameBytes 1 20 = 3 ∧
      ((remuxAiff noCodec bareEntries 0 extended44100 ⟨some 44100, some 1, some 20⟩
        (aiffFile 1 20 [1, 2, 3])).toOption.map fun track =>
          (track.samples.map RemuxSampleRef.range, totalDuration track.samples)) =
            some ([(54, 56), (56, 57)], 2) ∧
      lpcmBytesPerFrame 1 20 = 2 ∧ (alacBytesPerFrame 1 20).toOption = some 3 := by
  decide +kernel

end Frames

end Kanade

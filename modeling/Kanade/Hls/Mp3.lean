import Kanade.Bits.Digits
import Kanade.Framing.Resync
import Kanade.Hls.Pcm
import Kanade.Hls.Segments
import Mathlib.Algebra.Group.Int.Defs

/-!
# Kanade.Hls.Mp3

`remux_mp3`: an ID3v2 tag is skipped, and the samples are the frames behind it. Arithmetic panics where it
overflows or divides by zero.

* `parseMp3Frame_cases`: no header makes `parse_mp3_frame` panic, and none is of an empty frame.
* `mp3_exact`: the samples of a tag and frames, and the ranges for any bytes.
-/

namespace Kanade

open Framing (Reader)

/-! ## Frames -/

section Arithmetic

/-- `*` of `i32`. -/
def i32Mul (a b : Int) : Except HlsFailure Int :=
  if -2 ^ 31 ≤ a * b ∧ a * b < 2 ^ 31 then .ok (a * b) else .error .panic

/-- `/` of `i32`. -/
def i32Div (a b : Int) : Except HlsFailure Int :=
  if b = 0 ∨ a = -2 ^ 31 ∧ b = -1 then .error .panic else .ok (a.tdiv b)

/-- `as usize`. -/
def asUsize (n : Int) : Nat := (n % 2 ^ 64).toNat

/-- A sum or a product of `usize`. -/
def usize (n : Nat) : Except HlsFailure Nat := if n < 2 ^ 64 then .ok n else .error .panic

end Arithmetic

structure Mp3FrameInfo where
  frameLength : Nat
  samplesPerFrame : UInt32
deriving DecidableEq, Repr

def mp3SampleRateTable (versionId : UInt8) : Option (List Int) :=
  if versionId = 0 then some [11025, 12000, 8000]
  else if versionId = 2 then some [22050, 24000, 16000]
  else if versionId = 3 then some [44100, 48000, 32000]
  else none

def mp3LayerIndex (layer : UInt8) : Option Nat :=
  if layer = 3 then some 0 else if layer = 2 then some 1 else if layer = 1 then some 2 else none

def mp3Bitrates (isMpeg1 : Bool) : List (List Int) :=
  if isMpeg1 then
    [[32, 64, 96, 128, 160, 192, 224, 256, 288, 320, 352, 384, 416, 448],
      [32, 48, 56, 64, 80, 96, 112, 128, 160, 192, 224, 256, 320, 384],
      [32, 40, 48, 56, 64, 80, 96, 112, 128, 160, 192, 224, 256, 320]]
  else
    [[32, 48, 56, 64, 80, 96, 112, 128, 144, 160, 176, 192, 224, 256],
      [8, 16, 24, 32, 40, 48, 56, 64, 80, 96, 112, 128, 144, 160],
      [8, 16, 24, 32, 40, 48, 56, 64, 80, 96, 112, 128, 144, 160]]

/-- `(factor * bitrate / sample_rate) as usize + padding`. -/
def mp3Slots (factor bitrate sampleRate : Int) (padding : Nat) : Except HlsFailure Nat := do
  let bits ← i32Mul factor bitrate
  let slots ← i32Div bits sampleRate
  usize (asUsize slots + padding)

/-- Samples and length of a frame, by its layer. -/
def mp3FrameSize (isMpeg1 : Bool) (layer : UInt8) (bitrate sampleRate : Int) (padding : Nat) :
    Except HlsFailure (Option Mp3FrameInfo) :=
  if layer = 3 then do
    let slots ← mp3Slots 12 bitrate sampleRate padding
    let frameLength ← usize (slots * 4)
    .ok (some ⟨frameLength, 384⟩)
  else if layer = 2 then do
    let frameLength ← mp3Slots 144 bitrate sampleRate padding
    .ok (some ⟨frameLength, 1152⟩)
  else if layer = 1 ∧ isMpeg1 then do
    let frameLength ← mp3Slots 144 bitrate sampleRate padding
    .ok (some ⟨frameLength, 1152⟩)
  else if layer = 1 then do
    let frameLength ← mp3Slots 72 bitrate sampleRate padding
    .ok (some ⟨frameLength, 576⟩)
  else .ok none

/-- The fields of a header that is not rejected at once. -/
def mp3FrameInfo (versionId layer bitrateIndex sampleRateIndex : UInt8) (padding : Nat) :
    Except HlsFailure (Option Mp3FrameInfo) :=
  let isMpeg1 : Bool := versionId = 3
  match mp3SampleRateTable versionId with
  | none => .ok none
  | some sampleRateTable => do
    let sampleRate ← orPanic sampleRateTable[sampleRateIndex.toNat]?
    match mp3LayerIndex layer with
    | none => .ok none
    | some layerIndex => do
      let bitrates ← orPanic (mp3Bitrates isMpeg1)[layerIndex]?
      let bitrateKbps ← orPanic bitrates[bitrateIndex.toNat - 1]?
      let bitrate ← i32Mul bitrateKbps 1000
      mp3FrameSize isMpeg1 layer bitrate sampleRate padding

def parseMp3Frame (bytes : List UInt8) : Except HlsFailure (Option Mp3FrameInfo) :=
  let byte := fun i => bytes.getD i 0
  if bytes.length < 4 ∨ byte 0 ≠ 0xFF ∨ byte 1 &&& 0xE0 ≠ 0xE0 then .ok none
  else
    let versionId := byte 1 >>> 3 &&& 0x03
    let layer := byte 1 >>> 1 &&& 0x03
    let bitrateIndex := byte 2 >>> 4 &&& 0x0F
    let sampleRateIndex := byte 2 >>> 2 &&& 0x03
    let padding := (byte 2 >>> 1 &&& 0x01).toNat
    if versionId = 1 ∨ layer = 0 ∨ bitrateIndex = 0 ∨ bitrateIndex = 0x0F ∨ sampleRateIndex = 0x03 then .ok none
    else mp3FrameInfo versionId layer bitrateIndex sampleRateIndex padding

def skipId3v2 (bytes : List UInt8) : Nat :=
  if bytes.length < 10 ∨ bytes.take 3 ≠ ascii "ID3" then 0
  else
    let byte := fun i => (bytes.getD i 0).toNat
    10 + (byte 6 <<< 21 ||| byte 7 <<< 14 ||| byte 8 <<< 7 ||| byte 9)

section Loop

variable {ε : Type}

def mp3Reader : Reader UInt8 Mp3FrameInfo HlsFailure where
  least := 4
  read := parseMp3Frame
  length := Mp3FrameInfo.frameLength
  accepts := fun _ => true

def mp3Sample (offset : Nat) (frame : Mp3FrameInfo) : RemuxSampleRef ε :=
  ⟨offset, offset + frame.frameLength, frame.samplesPerFrame, none, true, none⟩

/-- The loop over the frames; at every round there is a byte less. -/
def mp3Frames (bytes : List UInt8) : Option (Except HlsFailure (List (RemuxSampleRef ε))) :=
  Framing.scan mp3Reader (fun samples offset frame => samples ++ [mp3Sample offset frame]) bytes bytes.length
    (skipId3v2 bytes) []

/-- Time scale and sample entry. -/
def mp3Entry (entries : SampleEntries ε) (properties : FileProperties) : Except HlsFailure (Nat × ε) :=
  match properties.sampleRate with
  | none => .error (.invalidData "missing MP3 sample rate")
  | some sampleRate => do
    let timescale ← nonzero sampleRate
    let entry ← (entries ".mp3" sampleRate (properties.channels.getD 2) (properties.bitDepth.getD 16) []).mapError
      HlsFailure.invalidData
    .ok (timescale, entry)

def mp3Track (address timescale : Nat) (entry : ε) (bytes : List UInt8) (samples : List (RemuxSampleRef ε)) :
    Except HlsFailure (RemuxedTrack ε) :=
  if samples.isEmpty then .error (.invalidData "no MP3 frames found")
  else if h : samples.length < 2 ^ 64 then .ok ⟨timescale, bytes, some ⟨address, entry⟩, samples, h⟩
  else .error .panic

def remuxMp3 (entries : SampleEntries ε) (address : Nat) (properties : FileProperties) (bytes : List UInt8) :
    Option (Except HlsFailure (RemuxedTrack ε)) :=
  match mp3Entry entries properties with
  | .error e => some (.error e)
  | .ok (timescale, entry) =>
    (mp3Frames bytes).map fun frames => frames.bind (mp3Track address timescale entry bytes)

end Loop

/-! ## The format -/

inductive MpegVersion where
  | one
  | two
  | twoAndHalf
deriving DecidableEq, Repr

inductive MpegLayer where
  | one
  | two
  | three
deriving DecidableEq, Repr

def MpegVersion.code : MpegVersion → Nat
  | .one => 3
  | .two => 2
  | .twoAndHalf => 0

def MpegLayer.code : MpegLayer → Nat
  | .one => 3
  | .two => 2
  | .three => 1

/-- In kbit/s, by the index from 1 on: the layers of version 1, then layer 1 and the other layers of
versions 2 and 2.5. -/
def mpegBitrates : List (List Nat) :=
  [[32, 32, 32, 32, 8], [64, 48, 40, 48, 16], [96, 56, 48, 56, 24], [128, 64, 56, 64, 32],
    [160, 80, 64, 80, 40], [192, 96, 80, 96, 48], [224, 112, 96, 112, 56], [256, 128, 112, 128, 64],
    [288, 160, 128, 144, 80], [320, 192, 160, 160, 96], [352, 224, 192, 176, 112],
    [384, 256, 224, 192, 128], [416, 320, 256, 224, 144], [448, 384, 320, 256, 160]]

def mpegColumn : MpegVersion → MpegLayer → Nat
  | .one, .one => 0
  | .one, .two => 1
  | .one, .three => 2
  | _, .one => 3
  | _, _ => 4

/-- The fields of a header that a frame's length depends on. -/
structure MpegFrame where
  version : MpegVersion
  layer : MpegLayer
  bitrateIndex : Nat
  samplingIndex : Nat
  padding : Nat
  bitrateIndex_pos : 0 < bitrateIndex
  bitrateIndex_lt : bitrateIndex < 15
  samplingIndex_lt : samplingIndex < 3
  padding_lt : padding < 2

namespace MpegFrame

variable (frame : MpegFrame)

def bitrate : Nat :=
  1000 * (mpegBitrates.getD (frame.bitrateIndex - 1) []).getD (mpegColumn frame.version frame.layer) 0

def samplingRate : Nat :=
  [44100, 48000, 32000].getD frame.samplingIndex 0 /
    (if frame.version = .one then 1 else if frame.version = .two then 2 else 4)

def samples : Nat :=
  if frame.layer = .one then 384 else if frame.layer = .three ∧ frame.version ≠ .one then 576 else 1152

def slotBytes : Nat := if frame.layer = .one then 4 else 1

/-- As many slots as the bits of the samples fill, and one of padding. -/
def length : Nat :=
  (frame.samples / 8 / frame.slotBytes * frame.bitrate / frame.samplingRate + frame.padding) * frame.slotBytes

def info : Mp3FrameInfo := ⟨frame.length, UInt32.ofNat frame.samples⟩

end MpegFrame

/-- A frame with the other fields of its header and all bytes behind it. -/
structure Mp3Frame extends MpegFrame where
  protectionBit : Nat
  privateBit : Nat
  modes : UInt8
  body : List UInt8
  protectionBit_lt : protectionBit < 2
  privateBit_lt : privateBit < 2
  length_eq : 4 + body.length = toMpegFrame.length

/-- A silent frame of layer III, 128 kbit/s and 44.1 kHz. -/
instance : Inhabited Mp3Frame where
  default :=
    { version := .one, layer := .three, bitrateIndex := 9, samplingIndex := 0, padding := 0, protectionBit := 1,
      privateBit := 0, modes := 0, body := List.replicate 413 0, bitrateIndex_pos := by decide,
      bitrateIndex_lt := by decide, samplingIndex_lt := by decide, padding_lt := Nat.two_pos,
      protectionBit_lt := Nat.one_lt_two, privateBit_lt := Nat.two_pos, length_eq := by rw [List.length_replicate]; rfl }

def Mp3Frame.bytes (frame : Mp3Frame) : List UInt8 :=
  0xFF :: UInt8.ofNat (224 + 8 * frame.version.code + 2 * frame.layer.code + frame.protectionBit) ::
    UInt8.ofNat (16 * frame.bitrateIndex + 4 * frame.samplingIndex + 2 * frame.padding + frame.privateBit) ::
    frame.modes :: frame.body

structure Id3Tag where
  majorVersion : UInt8
  revision : UInt8
  flags : UInt8
  body : List UInt8
  noFooter : flags &&& 0x10 = 0
  length_lt : body.length < 2 ^ 28

instance : Inhabited Id3Tag := ⟨⟨3, 0, 0, [], rfl, by decide⟩⟩

def synchsafe (n : Nat) : List UInt8 :=
  [UInt8.ofNat (n / 2 ^ 21), UInt8.ofNat (n / 2 ^ 14 % 128), UInt8.ofNat (n / 2 ^ 7 % 128), UInt8.ofNat (n % 128)]

def Id3Tag.bytes (tag : Id3Tag) : List UInt8 :=
  ascii "ID3" ++ (tag.majorVersion :: tag.revision :: tag.flags :: (synchsafe tag.body.length ++ tag.body))

def tagBytes (tag : Option Id3Tag) : List UInt8 := tag.elim [] Id3Tag.bytes

def mp3File (tag : Option Id3Tag) (frames : List Mp3Frame) : List UInt8 :=
  tagBytes tag ++ frames.flatMap Mp3Frame.bytes

/-! ## Lengths -/

section Lengths

variable {factor bitrate sampleRate padding : Nat}

theorem asUsize_natCast {n : Nat} (h : n < 2 ^ 64) : asUsize n = n := by
  rw [asUsize]
  omega

theorem usize_ok {n : Nat} (h : n < 2 ^ 64) : usize n = .ok n := if_pos h

theorem mp3Slots_eq (hfactor : factor ≤ 144) (hbitrate : bitrate ≤ 448000) (hrate : 0 < sampleRate)
    (hpadding : padding < 2) :
    mp3Slots factor bitrate sampleRate padding = .ok (factor * bitrate / sampleRate + padding) := by
  have hbits : factor * bitrate ≤ 144 * 448000 := Nat.mul_le_mul hfactor hbitrate
  have hslots := Nat.div_le_self (factor * bitrate) sampleRate
  have hmul : i32Mul factor bitrate = .ok ((factor * bitrate : Nat) : Int) := by
    rw [i32Mul, ← Int.natCast_mul]
    exact if_pos ⟨by omega, by omega⟩
  have hdiv : i32Div ((factor * bitrate : Nat) : Int) sampleRate =
      .ok ((factor * bitrate / sampleRate : Nat) : Int) := by
    rw [i32Div, if_neg (by omega)]
    rfl
  rw [mp3Slots, hmul]
  dsimp only [bind, Except.bind]
  rw [hdiv]
  dsimp only
  rw [asUsize_natCast (by omega)]
  exact usize_ok (by omega)

end Lengths

namespace MpegFrame

theorem bitrate_bounds (frame : MpegFrame) : 8000 ≤ frame.bitrate ∧ frame.bitrate ≤ 448000 := by
  have hrows : ∀ i < 14, ∀ j < 5,
      8 ≤ (mpegBitrates.getD i []).getD j 0 ∧ (mpegBitrates.getD i []).getD j 0 ≤ 448 := by decide
  have hcolumn : mpegColumn frame.version frame.layer < 5 := by
    cases frame.version <;> cases frame.layer <;> decide
  have hindex := frame.bitrateIndex_lt
  have hpos := frame.bitrateIndex_pos
  obtain ⟨hleast, hmost⟩ := hrows (frame.bitrateIndex - 1) (by omega) _ hcolumn
  rw [bitrate]
  omega

theorem samplingRate_bounds (frame : MpegFrame) : 8000 ≤ frame.samplingRate ∧ frame.samplingRate ≤ 48000 := by
  have hrates : ∀ i < 3, 32000 ≤ [44100, 48000, 32000].getD i 0 ∧ [44100, 48000, 32000].getD i 0 ≤ 48000 := by
    decide
  have hrate := hrates frame.samplingIndex frame.samplingIndex_lt
  rw [samplingRate]
  split
  · omega
  · split <;> omega

/-- Six slots take at least as many bits as there are samples in a second. -/
theorem slots_bounds (frame : MpegFrame) {factor : Nat} (hfactor : factor ≤ 144) :
    factor / 6 ≤ factor * frame.bitrate / frame.samplingRate ∧
      factor * frame.bitrate / frame.samplingRate ≤ 144 * 448000 := by
  obtain ⟨hleast, hmost⟩ := frame.bitrate_bounds
  obtain ⟨hpos, hrate⟩ := frame.samplingRate_bounds
  constructor
  · rw [Nat.le_div_iff_mul_le (by omega)]
    calc factor / 6 * frame.samplingRate
        ≤ factor / 6 * (6 * frame.bitrate) := Nat.mul_le_mul_left _ (by omega)
      _ = factor / 6 * 6 * frame.bitrate := (Nat.mul_assoc ..).symm
      _ ≤ factor * frame.bitrate := Nat.mul_le_mul_right _ (Nat.div_mul_le_self factor 6)
  · exact Nat.le_trans (Nat.div_le_self _ _) (Nat.mul_le_mul hfactor hmost)

/-- Bytes of samples for each bit of the bit rate, in slots. -/
theorem factor_cases (frame : MpegFrame) :
    frame.samples / 8 / frame.slotBytes = 12 ∧ frame.slotBytes = 4 ∨
      frame.samples / 8 / frame.slotBytes = 72 ∧ frame.slotBytes = 1 ∨
      frame.samples / 8 / frame.slotBytes = 144 ∧ frame.slotBytes = 1 := by
  unfold samples slotBytes
  cases frame.layer <;> cases frame.version <;> decide

theorem samples_lt (frame : MpegFrame) : frame.samples < 2 ^ 32 := by
  rw [samples]
  split
  · decide
  · split <;> decide

theorem length_bounds (frame : MpegFrame) : 4 ≤ frame.length ∧ frame.length < 2 ^ 32 := by
  have hpadding := frame.padding_lt
  rw [length]
  rcases frame.factor_cases with ⟨hfactor, hslot⟩ | ⟨hfactor, hslot⟩ | ⟨hfactor, hslot⟩
  · obtain ⟨hleast, hmost⟩ := frame.slots_bounds (@of_decide_eq_true (12 ≤ 144) _ rfl)
    rw [hfactor, hslot]
    omega
  · obtain ⟨hleast, hmost⟩ := frame.slots_bounds (@of_decide_eq_true (72 ≤ 144) _ rfl)
    rw [hfactor, hslot]
    omega
  · obtain ⟨hleast, hmost⟩ := frame.slots_bounds (@of_decide_eq_true (144 ≤ 144) _ rfl)
    rw [hfactor, hslot]
    omega

theorem length_of (frame : MpegFrame) {n factor k : Nat} (hsamples : frame.samples = n)
    (hslot : frame.slotBytes = k) (hfactor : n / 8 / k = factor) :
    frame.length = (factor * frame.bitrate / frame.samplingRate + frame.padding) * k := by
  rw [length, hsamples, hslot, hfactor]

/-- What the code computes is the length of the format. -/
theorem mp3FrameSize_eq (frame : MpegFrame) :
    mp3FrameSize (frame.version = .one) (UInt8.ofNat frame.layer.code) frame.bitrate frame.samplingRate
      frame.padding = .ok (some frame.info) := by
  obtain ⟨-, hlt⟩ := frame.length_bounds
  obtain ⟨-, hbitrate⟩ := frame.bitrate_bounds
  obtain ⟨hrate, -⟩ := frame.samplingRate_bounds
  have hslots : ∀ factor : Nat, factor ≤ 144 →
      mp3Slots factor frame.bitrate frame.samplingRate frame.padding =
        .ok (factor * frame.bitrate / frame.samplingRate + frame.padding : Nat) := fun factor hfactor =>
    mp3Slots_eq hfactor hbitrate (Nat.lt_of_lt_of_le (by decide) hrate) frame.padding_lt
  have h12 : mp3Slots 12 frame.bitrate frame.samplingRate frame.padding = _ := hslots 12 (by decide)
  have h72 : mp3Slots 72 frame.bitrate frame.samplingRate frame.padding = _ := hslots 72 (by decide)
  have h144 : mp3Slots 144 frame.bitrate frame.samplingRate frame.padding = _ := hslots 144 (by decide)
  have hinfo : ∀ n, frame.samples = n → frame.info = ⟨frame.length, UInt32.ofNat n⟩ := by
    intro n hn
    rw [info, hn]
  cases hlayer : frame.layer with
  | one =>
    have hsamples : frame.samples = 384 := by simp [samples, hlayer]
    have hlength := frame.length_of hsamples (by simp [slotBytes, hlayer]) (by decide : 384 / 8 / 4 = 12)
    have hsize := usize_ok (Nat.lt_trans hlt (Nat.pow_lt_pow_right (by decide) (by decide : 32 < 64)))
    rw [hlength] at hsize
    rw [hinfo 384 hsamples, hlength, mp3FrameSize, if_pos (by decide), h12]
    dsimp only [bind, Except.bind]
    rw [hsize]
    rfl
  | two =>
    have hsamples : frame.samples = 1152 := by simp [samples, hlayer]
    have hlength := frame.length_of hsamples (by simp [slotBytes, hlayer]) (by decide : 1152 / 8 / 1 = 144)
    rw [hinfo 1152 hsamples, hlength, mp3FrameSize, if_neg (by decide), if_pos (by decide), h144, Nat.mul_one]
    rfl
  | three =>
    have hslot : frame.slotBytes = 1 := by simp [slotBytes, hlayer]
    by_cases hversion : frame.version = .one
    · have hsamples : frame.samples = 1152 := by simp [samples, hlayer, hversion]
      have hlength := frame.length_of hsamples hslot (by decide : 1152 / 8 / 1 = 144)
      rw [hinfo 1152 hsamples, hlength, mp3FrameSize, if_neg (by decide), if_neg (by decide),
        if_pos ⟨rfl, decide_eq_true hversion⟩, h144, Nat.mul_one]
      rfl
    · have hsamples : frame.samples = 576 := by simp [samples, hlayer, hversion]
      have hlength := frame.length_of hsamples hslot (by decide : 576 / 8 / 1 = 72)
      have hother : ¬ (UInt8.ofNat MpegLayer.three.code = 1 ∧ decide (frame.version = .one) = true) :=
        fun h => hversion (of_decide_eq_true h.2)
      rw [hinfo 576 hsamples, hlength, mp3FrameSize, if_neg (by decide), if_neg (by decide), if_neg hother,
        if_pos (by decide), h72, Nat.mul_one]
      rfl

theorem sampleRateTable_code (version : MpegVersion) : ∃ table,
    mp3SampleRateTable (UInt8.ofNat version.code) = some table ∧ ∀ i < 3, table[i]? =
      some (([44100, 48000, 32000].getD i 0 /
        (if version = .one then 1 else if version = .two then 2 else 4) : Nat) : Int) := by
  cases version
  · exact ⟨_, rfl, by decide⟩
  · exact ⟨_, rfl, by decide⟩
  · exact ⟨_, rfl, by decide⟩

theorem bitrates_code (version : MpegVersion) (layer : MpegLayer) : ∃ layerIndex bitrates,
    mp3LayerIndex (UInt8.ofNat layer.code) = some layerIndex ∧
      (mp3Bitrates (version = .one))[layerIndex]? = some bitrates ∧ ∀ i < 14, bitrates[i]? =
        some (((mpegBitrates.getD i []).getD (mpegColumn version layer) 0 : Nat) : Int) := by
  cases version <;> cases layer <;> exact ⟨_, _, rfl, rfl, by decide⟩

theorem isMpeg1_code (version : MpegVersion) :
    decide (UInt8.ofNat version.code = 3) = decide (version = .one) := by
  cases version <;> rfl

theorem mp3FrameInfo_eq (frame : MpegFrame) :
    mp3FrameInfo (UInt8.ofNat frame.version.code) (UInt8.ofNat frame.layer.code)
      (UInt8.ofNat frame.bitrateIndex) (UInt8.ofNat frame.samplingIndex) frame.padding =
        .ok (some frame.info) := by
  have hindex := frame.bitrateIndex_lt
  have hsampling := frame.samplingIndex_lt
  obtain ⟨table, htable, hrate⟩ := sampleRateTable_code frame.version
  obtain ⟨layerIndex, bitrates, hlayer, hrow, hkbps⟩ := bitrates_code frame.version frame.layer
  have hmul : i32Mul ((mpegBitrates.getD (frame.bitrateIndex - 1) []).getD
      (mpegColumn frame.version frame.layer) 0 : Nat) 1000 = .ok frame.bitrate := by
    obtain ⟨-, hbitrate⟩ := frame.bitrate_bounds
    rw [bitrate] at hbitrate ⊢
    rw [i32Mul, if_pos (by omega)]
    exact congrArg Except.ok (by omega)
  have hindexNat : (UInt8.ofNat frame.bitrateIndex).toNat = frame.bitrateIndex :=
    Bits.toNat_ofNat (by omega)
  have hsamplingNat : (UInt8.ofNat frame.samplingIndex).toNat = frame.samplingIndex :=
    Bits.toNat_ofNat (by omega)
  unfold mp3FrameInfo
  rw [htable, isMpeg1_code, hindexNat, hsamplingNat]
  dsimp only
  rw [bind_of_ok (orPanic_of_some (hrate frame.samplingIndex hsampling)), hlayer]
  dsimp only
  rw [bind_of_ok (orPanic_of_some hrow),
    bind_of_ok (orPanic_of_some (hkbps (frame.bitrateIndex - 1) (by omega))), bind_of_ok hmul]
  exact frame.mp3FrameSize_eq

end MpegFrame

/-! ## Headers -/

section Headers

theorem exists_version {v : UInt8} (hlt : v.toNat < 4) (hne : v ≠ 1) :
    ∃ version : MpegVersion, v = UInt8.ofNat version.code := by
  have hne' : v.toNat ≠ 1 := fun h => hne (UInt8.toNat_inj.1 h)
  have hcases : v.toNat = 0 ∨ v.toNat = 2 ∨ v.toNat = 3 := by omega
  rcases hcases with h | h | h
  · exact ⟨.twoAndHalf, UInt8.toNat_inj.1 h⟩
  · exact ⟨.two, UInt8.toNat_inj.1 h⟩
  · exact ⟨.one, UInt8.toNat_inj.1 h⟩

theorem exists_layer {l : UInt8} (hlt : l.toNat < 4) (hne : l ≠ 0) :
    ∃ layer : MpegLayer, l = UInt8.ofNat layer.code := by
  have hne' : l.toNat ≠ 0 := fun h => hne (UInt8.toNat_inj.1 h)
  have hcases : l.toNat = 1 ∨ l.toNat = 2 ∨ l.toNat = 3 := by omega
  rcases hcases with h | h | h
  · exact ⟨.three, UInt8.toNat_inj.1 h⟩
  · exact ⟨.two, UInt8.toNat_inj.1 h⟩
  · exact ⟨.one, UInt8.toNat_inj.1 h⟩

theorem exists_frame {versionId layer bitrateIndex samplingIndex : UInt8} {padding : Nat}
    (hversion_lt : versionId.toNat < 4) (hlayer_lt : layer.toNat < 4) (hbitrate_lt : bitrateIndex.toNat < 16)
    (hsampling_lt : samplingIndex.toNat < 4) (hpadding : padding < 2)
    (hvalid : ¬ (versionId = 1 ∨ layer = 0 ∨ bitrateIndex = 0 ∨ bitrateIndex = 0x0F ∨ samplingIndex = 0x03)) :
    ∃ frame : MpegFrame, mp3FrameInfo versionId layer bitrateIndex samplingIndex padding = .ok (some frame.info) := by
  simp only [not_or] at hvalid
  obtain ⟨hversion, hlayer, hbitrate, hbitrate', hsampling⟩ := hvalid
  obtain ⟨version, rfl⟩ := exists_version hversion_lt hversion
  obtain ⟨layer, rfl⟩ := exists_layer hlayer_lt hlayer
  have hpos : bitrateIndex.toNat ≠ 0 := fun h => hbitrate (UInt8.toNat_inj.1 h)
  have hne : bitrateIndex.toNat ≠ 15 := fun h => hbitrate' (UInt8.toNat_inj.1 h)
  have hne' : samplingIndex.toNat ≠ 3 := fun h => hsampling (UInt8.toNat_inj.1 h)
  have hinfo := MpegFrame.mp3FrameInfo_eq ⟨version, layer, bitrateIndex.toNat, samplingIndex.toNat, padding,
    by omega, by omega, by omega, hpadding⟩
  rw [UInt8.ofNat_toNat, UInt8.ofNat_toNat] at hinfo
  exact ⟨_, hinfo⟩

/-- Any header is that of a frame of the format, or of none. -/
theorem parseMp3Frame_cases (bytes : List UInt8) :
    parseMp3Frame bytes = .ok none ∨ ∃ frame : MpegFrame, parseMp3Frame bytes = .ok (some frame.info) := by
  unfold parseMp3Frame
  dsimp only
  split
  · exact .inl rfl
  · split
    · exact .inl rfl
    · rename_i hvalid
      exact .inr (exists_frame (Bits.and_low_lt _ 2 rfl) (Bits.and_low_lt _ 2 rfl) (Bits.and_low_lt _ 4 rfl)
        (Bits.and_low_lt _ 2 rfl) (Bits.and_low_lt _ 1 rfl) hvalid)

theorem MpegVersion.code_lt (version : MpegVersion) : version.code < 4 := by
  cases version <;> decide

theorem MpegLayer.code_bounds (layer : MpegLayer) : 0 < layer.code ∧ layer.code < 4 := by
  cases layer <;> decide

/-- A header of the format is read as what it says. -/
theorem parseMp3Frame_header (frame : Mp3Frame) (after : List UInt8) :
    parseMp3Frame (frame.bytes ++ after) = .ok (some frame.info) := by
  have hversion := frame.version.code_lt
  have hlayer := frame.layer.code_bounds
  have hprotection := frame.protectionBit_lt
  have hbitrate := frame.bitrateIndex_lt
  have hpos := frame.bitrateIndex_pos
  have hsampling := frame.samplingIndex_lt
  have hpadding := frame.padding_lt
  have hprivate := frame.privateBit_lt
  have h1 := @Bits.toNat_ofNat (224 + 8 * frame.version.code + 2 * frame.layer.code + frame.protectionBit) (by omega)
  have h2 := @Bits.toNat_ofNat (16 * frame.bitrateIndex + 4 * frame.samplingIndex + 2 * frame.padding +
    frame.privateBit) (by omega)
  unfold parseMp3Frame
  simp only [Mp3Frame.bytes, List.cons_append, List.getD_cons_zero, List.getD_cons_succ, List.length_cons]
  generalize UInt8.ofNat (224 + 8 * frame.version.code + 2 * frame.layer.code + frame.protectionBit) = second at *
  generalize UInt8.ofNat (16 * frame.bitrateIndex + 4 * frame.samplingIndex + 2 * frame.padding +
    frame.privateBit) = third at *
  have hsync : second &&& 0xE0 = 0xE0 := by
    refine (Bits.mask_iff 5 (by decide) rfl (by decide)).2 ?_
    rw [h1]
    exact ⟨by show 224 ≤ _; omega, by show _ < 224 + 32; omega⟩
  have hversionId : second >>> 3 &&& 0x03 = UInt8.ofNat frame.version.code := by
    rw [← UInt8.toNat_inj, Bits.toNat_field second 2 (by decide) rfl, h1, Bits.toNat_ofNat (by omega)]
    show (_ : Nat) / 8 % 4 = _
    omega
  have hlayerId : second >>> 1 &&& 0x03 = UInt8.ofNat frame.layer.code := by
    rw [← UInt8.toNat_inj, Bits.toNat_field second 2 (by decide) rfl, h1, Bits.toNat_ofNat (by omega)]
    show (_ : Nat) / 2 % 4 = _
    omega
  have hbitrateIndex : third >>> 4 &&& 0x0F = UInt8.ofNat frame.bitrateIndex := by
    rw [← UInt8.toNat_inj, Bits.toNat_field third 4 (by decide) rfl, h2, Bits.toNat_ofNat (by omega)]
    show (_ : Nat) / 16 % 16 = _
    omega
  have hsamplingIndex : third >>> 2 &&& 0x03 = UInt8.ofNat frame.samplingIndex := by
    rw [← UInt8.toNat_inj, Bits.toNat_field third 2 (by decide) rfl, h2, Bits.toNat_ofNat (by omega)]
    show (_ : Nat) / 4 % 4 = _
    omega
  have hpaddingBit : (third >>> 1 &&& 0x01).toNat = frame.padding := by
    rw [Bits.toNat_field third 1 (by decide) rfl, h2]
    show (_ : Nat) / 2 % 2 = _
    omega
  have hvalid : ¬ (UInt8.ofNat frame.version.code = 1 ∨ UInt8.ofNat frame.layer.code = 0 ∨
      UInt8.ofNat frame.bitrateIndex = 0 ∨ UInt8.ofNat frame.bitrateIndex = 0x0F ∨
      UInt8.ofNat frame.samplingIndex = 0x03) := by
    have hcode : frame.version.code ≠ 1 := by cases frame.version <;> decide
    have hcode' : frame.layer.code ≠ 0 := by omega
    have hzero : frame.bitrateIndex ≠ 0 := by omega
    have hfifteen : frame.bitrateIndex ≠ 15 := by omega
    have hthree : frame.samplingIndex ≠ 3 := by omega
    simp only [not_or]
    exact ⟨Bits.ofNat_ne (by omega) (by decide) hcode, Bits.ofNat_ne (by omega) (by decide) hcode',
      Bits.ofNat_ne (by omega) (by decide) hzero, Bits.ofNat_ne (by omega) (by decide) hfifteen,
      Bits.ofNat_ne (by omega) (by decide) hthree⟩
  rw [if_neg (by simp [hsync]), hversionId, hlayerId, hbitrateIndex, hsamplingIndex, hpaddingBit, if_neg hvalid]
  exact frame.mp3FrameInfo_eq

theorem Mp3Frame.length_bytes (frame : Mp3Frame) : frame.bytes.length = frame.length := by
  rw [← frame.length_eq, bytes]
  simp only [List.length_cons]
  omega

theorem reads_mp3 (frame : Mp3Frame) : mp3Reader.Reads frame.info frame.bytes where
  least := by
    rw [frame.length_bytes]
    exact frame.length_bounds.1
  read := parseMp3Frame_header frame
  length := frame.length_bytes.symm
  accepts := rfl

theorem sound_mp3Reader : mp3Reader.Sound where
  least_pos := by decide
  answers := by
    intro bytes _
    rcases parseMp3Frame_cases bytes with h | ⟨frame, h⟩
    · exact ⟨none, h⟩
    · exact ⟨some frame.info, h⟩
  length_pos := by
    intro bytes info hread _
    rcases parseMp3Frame_cases bytes with h | ⟨frame, h⟩
    · cases hread.symm.trans h
    · cases hread.symm.trans h
      exact Nat.lt_of_lt_of_le (by decide) frame.length_bounds.1

end Headers

/-! ## Tags -/

section Tags

theorem synchsafe_fields {n : Nat} (hn : n < 2 ^ 28) :
    (UInt8.ofNat (n / 2 ^ 21)).toNat <<< 21 ||| (UInt8.ofNat (n / 2 ^ 14 % 128)).toNat <<< 14 |||
      (UInt8.ofNat (n / 2 ^ 7 % 128)).toNat <<< 7 ||| (UInt8.ofNat (n % 128)).toNat = n := by
  have hdigits := @Bits.number_digits 7 n (by decide) hn
  have htop : Bits.digit 7 n 3 = UInt8.ofNat (n / 2 ^ 21) := congrArg UInt8.ofNat (Nat.mod_eq_of_lt (by omega))
  have hlast : Bits.digit 7 n 0 = UInt8.ofNat (n % 128) := congrArg (fun m => UInt8.ofNat (m % 128)) (Nat.div_one n)
  rw [htop, hlast] at hdigits
  exact hdigits

theorem Id3Tag.length_bytes (tag : Id3Tag) : tag.bytes.length = 10 + tag.body.length := by
  have hid : (ascii "ID3").length = 3 := by decide
  rw [bytes, List.length_append, hid]
  simp only [synchsafe, List.length_cons, List.length_append, List.length_nil]
  omega

theorem skipId3v2_tag (tag : Id3Tag) (after : List UInt8) :
    skipId3v2 (tag.bytes ++ after) = tag.bytes.length := by
  have hid : ascii "ID3" = [0x49, 0x44, 0x33] := by decide
  have hlength := tag.length_bytes
  unfold skipId3v2
  rw [if_neg, hlength]
  · rw [Id3Tag.bytes, hid]
    simp only [synchsafe, List.cons_append, List.nil_append, List.getD_cons_zero, List.getD_cons_succ]
    rw [synchsafe_fields tag.length_lt]
  · rw [not_or, not_not, List.length_append, hlength]
    refine ⟨by omega, ?_⟩
    rw [Id3Tag.bytes, hid]
    rfl

theorem skipId3v2_frames (frames : List Mp3Frame) : skipId3v2 (frames.flatMap Mp3Frame.bytes) = 0 := by
  unfold skipId3v2
  refine if_pos ?_
  cases frames with
  | nil => exact .inl (by decide)
  | cons frame frames =>
    have hid : ascii "ID3" = [0x49, 0x44, 0x33] := by decide
    refine .inr ?_
    rw [List.flatMap_cons, Mp3Frame.bytes, hid]
    intro h
    cases (List.cons.inj h).1

theorem skipId3v2_file (tag : Option Id3Tag) (frames : List Mp3Frame) :
    skipId3v2 (mp3File tag frames) = (tagBytes tag).length := by
  cases tag with
  | none => exact skipId3v2_frames frames
  | some tag => exact skipId3v2_tag tag (frames.flatMap Mp3Frame.bytes)

/-- Any four bytes, also those that are not synchsafe, give a size far below 2^64. -/
theorem skipId3v2_lt (bytes : List UInt8) : skipId3v2 bytes < 2 ^ 30 := by
  unfold skipId3v2
  split
  · decide
  · have hbyte : ∀ i k, k ≤ 21 → (bytes.getD i 0).toNat <<< k < 2 ^ 29 := by
      intro i k hk
      rw [Nat.shiftLeft_eq]
      calc (bytes.getD i 0).toNat * 2 ^ k
          ≤ 255 * 2 ^ 21 := Nat.mul_le_mul (Nat.le_of_lt_succ (bytes.getD i 0).toNat_lt)
            (Nat.pow_le_pow_right (by decide) hk)
        _ < 2 ^ 29 := by decide
    have hlast : (bytes.getD 9 0).toNat < 2 ^ 29 := hbyte 9 0 (by decide)
    have hor := Nat.or_lt_two_pow (Nat.or_lt_two_pow (Nat.or_lt_two_pow (hbyte 6 21 (by decide))
      (hbyte 7 14 (by decide))) (hbyte 8 7 (by decide))) hlast
    dsimp only
    omega

end Tags

/-- One sample for each frame, with its bytes and its duration. -/
structure Mp3Exact {ε : Type} (tag : Option Id3Tag) (frames : List Mp3Frame) (track : RemuxedTrack ε) : Prop where
  ranges : Contiguous (tagBytes tag).length (track.samples.map RemuxSampleRef.range) (mp3File tag frames).length
  bytes : track.samples.map track.bytesOf = frames.map Mp3Frame.bytes
  durations : track.samples.map (fun sample => sample.duration.toNat) =
    frames.map fun frame => frame.samples

section Tracks

variable {ε : Type} {tag : Option Id3Tag} {frames : List Mp3Frame} {bytes : List UInt8}
  {entries : SampleEntries ε} {address : Nat} {properties : FileProperties}

theorem foldl_mp3Sample (placed : List (Nat × Mp3FrameInfo)) (samples : List (RemuxSampleRef ε)) :
    placed.foldl (fun samples p => samples ++ [mp3Sample p.1 p.2]) samples =
      samples ++ placed.map fun p => mp3Sample p.1 p.2 := by
  induction placed generalizing samples with
  | nil => exact (List.append_nil samples).symm
  | cons p placed ih => rw [List.foldl_cons, ih, List.append_assoc, List.map_cons]; rfl

/-- The loop makes a sample of every frame that it takes. -/
theorem mp3Frames_total (bytes : List UInt8) : ∃ samples : List (RemuxSampleRef ε),
    mp3Frames bytes = some (.ok samples) ∧
      Framing.Apart 0 (samples.map RemuxSampleRef.range) bytes.length := by
  obtain ⟨placed, hspaced, hscan⟩ := Framing.scan_total sound_mp3Reader
    (fun (samples : List (RemuxSampleRef ε)) offset frame => samples ++ [mp3Sample offset frame]) []
    (Nat.le_add_left bytes.length (skipId3v2 bytes))
  rw [foldl_mp3Sample, List.nil_append] at hscan
  refine ⟨_, hscan, ?_⟩
  have hapart := (hspaced.mono (Nat.zero_le _)).apart (Nat.zero_le _) fun _ _ hpos => hpos
  rw [List.map_map]
  exact hapart

def mp3Samples (tag : Option Id3Tag) (frames : List Mp3Frame) : List (RemuxSampleRef ε) :=
  (Framing.placed mp3Reader (tagBytes tag).length (frames.map fun frame => frame.info)).map
    fun p => mp3Sample p.1 p.2

theorem mp3Frames_file (tag : Option Id3Tag) (frames : List Mp3Frame) :
    mp3Frames (mp3File tag frames) = some (.ok (mp3Samples tag frames : List (RemuxSampleRef ε))) := by
  have hrest : (mp3File tag frames).drop (tagBytes tag).length = frames.flatMap Mp3Frame.bytes := List.drop_left
  have hfuel : frames.length ≤ (mp3File tag frames).length := by
    have hframes := Framing.length_le_flatMap (by decide) reads_mp3 frames
    rw [mp3File, List.length_append]
    omega
  have hscan := Framing.scan_frames (by decide) reads_mp3
    (fun (samples : List (RemuxSampleRef ε)) offset frame => samples ++ [mp3Sample offset frame]) [] hfuel hrest
  rw [foldl_mp3Sample, List.nil_append] at hscan
  rw [mp3Frames, skipId3v2_file]
  exact hscan

theorem contiguous_placed (frames : List Mp3Frame) (offset : Nat) :
    Contiguous offset
      ((Framing.placed mp3Reader offset (frames.map fun frame => frame.info)).map
        fun p => (p.1, p.1 + p.2.frameLength))
      (offset + (frames.flatMap Mp3Frame.bytes).length) := by
  induction frames generalizing offset with
  | nil => rfl
  | cons frame frames ih =>
    have hlength : frame.info.frameLength = frame.bytes.length := frame.length_bytes.symm
    have hpos : 0 < frame.bytes.length := Nat.lt_of_lt_of_le (by decide) (reads_mp3 frame).least
    have hrest := ih (offset + frame.bytes.length)
    rw [Nat.add_assoc, ← List.length_append, ← List.flatMap_cons, ← hlength] at hrest
    refine ⟨rfl, ?_, hrest⟩
    dsimp only
    omega

theorem length_mp3Samples (tag : Option Id3Tag) (frames : List Mp3Frame) :
    (mp3Samples tag frames : List (RemuxSampleRef ε)).length = frames.length := by
  have hplaced := congrArg List.length
    (@Framing.map_placed _ _ _ mp3Reader _ id (frames.map fun frame => frame.info) (tagBytes tag).length)
  rw [List.length_map, List.length_map, List.length_map] at hplaced
  rw [mp3Samples, List.length_map, hplaced]

theorem mp3Exact_of {track : RemuxedTrack ε} (hsamples : track.samples = mp3Samples tag frames)
    (hbytes : track.bytes = mp3File tag frames) : Mp3Exact tag frames track where
  ranges := by
    have hranges := contiguous_placed frames (tagBytes tag).length
    rw [← List.length_append] at hranges
    rw [hsamples, mp3Samples, List.map_map]
    exact hranges
  bytes := by
    have hrest : (mp3File tag frames).drop (tagBytes tag).length = frames.flatMap Mp3Frame.bytes := List.drop_left
    have hlength : ∀ frame : Mp3Frame, mp3Reader.length frame.info = frame.bytes.length :=
      fun frame => frame.length_bytes.symm
    have hslices := Framing.slices_placed (fun _ => 0) hlength hrest
    have hwhole : frames.map (fun frame => frame.bytes.drop 0) = frames.map Mp3Frame.bytes :=
      List.map_congr_left fun frame _ => List.drop_zero
    rw [hwhole] at hslices
    rw [hsamples, mp3Samples, List.map_map, ← hslices]
    refine List.map_congr_left fun p _ => ?_
    show (track.bytes.take _).drop _ = _
    rw [hbytes]
    rfl
  durations := by
    have hsame := Framing.map_placed (r := mp3Reader) (fun info => info.samplesPerFrame.toNat)
      (frames.map fun frame => frame.info) (tagBytes tag).length
    rw [hsamples, mp3Samples, List.map_map]
    refine hsame.trans ?_
    rw [List.map_map]
    exact List.map_congr_left fun frame _ => UInt32.toNat_ofNat_of_lt' frame.samples_lt

theorem remuxMp3_ok {timescale : Nat} {entry : ε} {samples : List (RemuxSampleRef ε)}
    (hentry : mp3Entry entries properties = .ok (timescale, entry)) (hframes : mp3Frames bytes = some (.ok samples)) :
    remuxMp3 entries address properties bytes = some (mp3Track address timescale entry bytes samples) := by
  rw [remuxMp3, hentry, hframes]
  rfl

theorem exists_mp3Track {timescale : Nat} {entry : ε} (hne : frames ≠ []) (hlength : frames.length < 2 ^ 64) :
    ∃ track, mp3Track address timescale entry (mp3File tag frames) (mp3Samples tag frames) = .ok track := by
  have hcount : (mp3Samples tag frames : List (RemuxSampleRef ε)).length = frames.length :=
    length_mp3Samples tag frames
  have hsome : ¬ (mp3Samples tag frames : List (RemuxSampleRef ε)).isEmpty = true := by
    rw [List.isEmpty_iff_length_eq_zero, hcount, List.length_eq_zero_iff]
    exact hne
  unfold mp3Track
  rw [if_neg hsome, dif_pos (hcount ▸ hlength)]
  exact ⟨_, rfl⟩

theorem mp3Track_ok {timescale : Nat} {entry : ε} {samples : List (RemuxSampleRef ε)} {track : RemuxedTrack ε}
    (h : mp3Track address timescale entry bytes samples = .ok track) :
    track.samples = samples ∧ track.bytes = bytes := by
  unfold mp3Track at h
  split at h
  · cases h
  · split at h
    · cases h
      exact ⟨rfl, rfl⟩
    · cases h

end Tracks

/-- The samples of a tag and frames are these frames, and the ranges for any bytes lie one behind the other. -/
theorem mp3_exact {ε : Type} (entries : SampleEntries ε) (address : Nat) (properties : FileProperties)
    (tag : Option Id3Tag) (frames : List Mp3Frame) (bytes : List UInt8) :
    ((∃ e, mp3Entry entries properties = .error e ∧
          remuxMp3 entries address properties (mp3File tag frames) = some (.error e)) ∨
        frames = [] ∧
          remuxMp3 entries address properties (mp3File tag []) = some (.error (.invalidData "no MP3 frames found")) ∨
        2 ^ 64 ≤ frames.length ∨ ∃ track,
          remuxMp3 entries address properties (mp3File tag frames) = some (.ok track) ∧ Mp3Exact tag frames track) ∧
      skipId3v2 bytes < 2 ^ 30 ∧ ∃ samples : List (RemuxSampleRef ε), mp3Frames bytes = some (.ok samples) ∧
        Framing.Apart 0 (samples.map RemuxSampleRef.range) bytes.length ∧ ∀ track,
          remuxMp3 entries address properties bytes = some (.ok track) → track.samples = samples ∧ track.bytes = bytes := by
  obtain ⟨samples, hsamples, hapart⟩ := mp3Frames_total bytes
  refine ⟨?_, skipId3v2_lt bytes, samples, hsamples, hapart, ?_⟩
  · cases hentry : mp3Entry entries properties with
    | error e => exact .inl ⟨e, rfl, by rw [remuxMp3, hentry]⟩
    | ok made =>
      refine .inr ?_
      obtain ⟨timescale, entry⟩ := made
      have hremux := @remuxMp3_ok _ _ _ address _ _ _ _ hentry (mp3Frames_file tag frames)
      by_cases hne : frames = []
      · subst hne
        exact .inl ⟨rfl, hremux⟩
      · refine .inr ?_
        rcases Nat.lt_or_ge frames.length (2 ^ 64) with hlength | hlong
        · obtain ⟨track, htrack⟩ := @exists_mp3Track _ tag _ address timescale entry hne hlength
          obtain ⟨hsame, hbytes⟩ := mp3Track_ok htrack
          exact .inr ⟨track, hremux.trans (congrArg some htrack), mp3Exact_of hsame hbytes⟩
        · exact .inl hlong
  · intro track htrack
    cases hentry : mp3Entry entries properties with
    | error e =>
      rw [remuxMp3, hentry] at htrack
      cases htrack
    | ok made =>
      rw [remuxMp3_ok hentry hsamples] at htrack
      exact mp3Track_ok (Option.some.inj htrack)

end Kanade

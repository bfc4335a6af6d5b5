import Kanade.Bits.Byte
import Kanade.Framing.Resync
import Kanade.Hls.Flac
import Kanade.Hls.Segments
import Mathlib.Data.List.Chain

/-!
# Kanade.Hls.Adts

`remux_aac_adts`: the frames of an ADTS file, with one sample entry for as long as the configuration stays. What
an entry holds is a parameter; making one does not fail.

* `reads_adts`: what `parse_adts_frame` reads off a well-formed frame.
* `adts_exact`: the samples of a sequence of frames, and the ranges for any bytes.
-/

namespace Kanade

open Framing (Reader)

structure AdtsFrameInfo where
  frameLength : Nat
  headerLen : Nat
  sampleRate : UInt32
  samplingFrequencyIndex : UInt8
  channelConfig : UInt8
  audioObjectType : UInt8
  samplesPerFrame : UInt32
deriving DecidableEq, Repr

def adtsSampleRates : List UInt32 :=
  [96000, 88200, 64000, 48000, 44100, 32000, 24000, 22050, 16000, 12000, 11025, 8000, 7350]

def parseAdtsFrame (bytes : List UInt8) : Option AdtsFrameInfo :=
  let byte := fun i => bytes.getD i 0
  if bytes.length < 7 ∨ byte 0 ≠ 0xFF ∨ byte 1 &&& 0xF0 ≠ 0xF0 then none
  else do
    let hasCrc : Bool := byte 1 &&& 0x01 = 0
    let audioObjectType := (byte 2 >>> 6 &&& 0x03) + 1
    let samplingFrequencyIndex := byte 2 >>> 2 &&& 0x0F
    let sampleRate ← adtsSampleRates[samplingFrequencyIndex.toNat]?
    let channelConfig := (byte 2 &&& 0x01) <<< 2 ||| (byte 3 >>> 6 &&& 0x03)
    let frameLength := (byte 3 &&& 0x03).toNat <<< 11 ||| (byte 4).toNat <<< 3 |||
      ((byte 5).toNat &&& 0xE0) >>> 5
    let rawBlocks := byte 6 &&& 0x03
    some {
      frameLength := frameLength
      headerLen := if hasCrc then 9 else 7
      sampleRate := sampleRate
      samplingFrequencyIndex := samplingFrequencyIndex
      channelConfig := channelConfig
      audioObjectType := audioObjectType
      samplesPerFrame := 1024 * (rawBlocks.toUInt32 + 1) }

def aacAudioSpecificConfig (audioObjectType sampleRateIndex channelConfig : UInt8) : List UInt8 :=
  [audioObjectType <<< 3 ||| (sampleRateIndex &&& 0x0E) >>> 1,
    (sampleRateIndex &&& 0x01) <<< 7 ||| (channelConfig &&& 0x0F) <<< 3]

/-- Sample rate, channel configuration, object type and index of the sampling frequency. -/
abbrev EntryKey : Type := UInt32 × UInt8 × UInt8 × UInt8

def AdtsFrameInfo.entryKey (frame : AdtsFrameInfo) : EntryKey :=
  (frame.sampleRate, frame.channelConfig, frame.audioObjectType, frame.samplingFrequencyIndex)

section Loop

variable {ε : Type}

/-- The variables of the loop. The last two of `channels` and `audio_object_type` are not used. -/
structure AdtsState (ε : Type) where
  samples : List (RemuxSampleRef ε) := []
  sampleRate : Option UInt32 := none
  currentEntryKey : Option EntryKey := none
  currentEntry : Option (Arc ε) := none
  /-- Where the next entry will be. -/
  nextAddress : Nat

/-- `mp4a_entry` of sample rate, channels, bits per sample and payload. -/
abbrev Mp4aEntry (ε : Type) : Type := UInt32 → UInt8 → UInt16 → List UInt8 → ε

def AdtsFrameInfo.entry (mp4aEntry : Mp4aEntry ε) (frame : AdtsFrameInfo) : ε :=
  mp4aEntry frame.sampleRate frame.channelConfig 16
    (aacAudioSpecificConfig frame.audioObjectType frame.samplingFrequencyIndex frame.channelConfig)

/-- An entry of its own for a configuration that is not the one before. -/
def AdtsState.renew (mp4aEntry : Mp4aEntry ε) (frame : AdtsFrameInfo) (s : AdtsState ε) : AdtsState ε :=
  if s.currentEntryKey ≠ some frame.entryKey then
    { s with
      currentEntry := some ⟨s.nextAddress, frame.entry mp4aEntry⟩
      currentEntryKey := some frame.entryKey
      nextAddress := s.nextAddress + 1 }
  else s

def AdtsState.take (mp4aEntry : Mp4aEntry ε) (s : AdtsState ε) (offset : Nat) (frame : AdtsFrameInfo) :
    AdtsState ε :=
  let s := { s with sampleRate := some frame.sampleRate }.renew mp4aEntry frame
  { s with
    samples := s.samples ++
      [⟨offset + frame.headerLen, offset + frame.frameLength, frame.samplesPerFrame, s.currentEntry, true, none⟩] }

abbrev AdtsState.takeAll (mp4aEntry : Mp4aEntry ε) (s : AdtsState ε) (frames : List (Nat × AdtsFrameInfo)) :
    AdtsState ε :=
  frames.foldl (fun s p => s.take mp4aEntry p.1 p.2) s

/-- A frame that is no longer than its header ends the loop, as one that does not fit. -/
def adtsReader : Reader UInt8 AdtsFrameInfo HlsFailure where
  least := 7
  read := fun bytes => .ok (parseAdtsFrame bytes)
  length := AdtsFrameInfo.frameLength
  accepts := fun frame => frame.headerLen < frame.frameLength

/-- The loop over the frames; at every round there is a byte less. -/
def adtsFrames (mp4aEntry : Mp4aEntry ε) (address : Nat) (bytes : List UInt8) :
    Option (Except HlsFailure (AdtsState ε)) :=
  Framing.scan adtsReader (AdtsState.take mp4aEntry) bytes bytes.length 0 { nextAddress := address }

def AdtsState.finish (bytes : List UInt8) (s : AdtsState ε) : Except HlsFailure (RemuxedTrack ε) :=
  match s.sampleRate with
  | none => .error (.invalidData "no AAC ADTS frames found")
  | some sampleRate => do
    let timescale ← nonzero sampleRate
    if h : s.samples.length < 2 ^ 64 then .ok ⟨timescale, bytes, none, s.samples, h⟩ else .error .panic

def remuxAacAdts (mp4aEntry : Mp4aEntry ε) (address : Nat) (bytes : List UInt8) :
    Option (Except HlsFailure (RemuxedTrack ε)) :=
  (adtsFrames mp4aEntry address bytes).map fun frames => frames.bind (AdtsState.finish bytes)

end Loop

/-! ## Frames -/

/-- Numbers are those of the header; `flags` are the four bits behind the channels, `rawBlocks` is one less
than there are. -/
structure AdtsFrame where
  id : Nat
  protectionAbsent : Bool
  profile : Nat
  samplingIndex : Nat
  privateBit : Nat
  channels : Nat
  flags : Nat
  fullness : Nat
  rawBlocks : Nat
  crc : List UInt8
  payload : List UInt8
  id_lt : id < 2
  profile_lt : profile < 4
  samplingIndex_lt : samplingIndex < 13
  privateBit_lt : privateBit < 2
  channels_lt : channels < 8
  flags_lt : flags < 16
  fullness_lt : fullness < 2048
  rawBlocks_lt : rawBlocks < 4
  crc_length : crc.length = if protectionAbsent then 0 else 2
  crc_single : protectionAbsent = false → rawBlocks = 0
  payload_ne : payload ≠ []
  length_lt : 7 + crc.length + payload.length < 8192

/-- A byte of 44.1 kHz stereo. -/
instance : Inhabited AdtsFrame where
  default :=
    { id := 0, protectionAbsent := true, profile := 1, samplingIndex := 4, privateBit := 0, channels := 2, flags := 0,
      fullness := 2047, rawBlocks := 0, crc := [], payload := [0], id_lt := by decide, profile_lt := by decide,
      samplingIndex_lt := by decide, privateBit_lt := by decide, channels_lt := by decide, flags_lt := by decide,
      fullness_lt := by decide, rawBlocks_lt := by decide, crc_length := rfl, crc_single := fun _ => rfl,
      payload_ne := List.cons_ne_nil _ _, length_lt := by decide }

namespace AdtsFrame

variable (frame : AdtsFrame)

def length : Nat := 7 + frame.crc.length + frame.payload.length

def headerBytes : List UInt8 :=
  [0xFF,
    UInt8.ofNat (240 + 8 * frame.id + if frame.protectionAbsent then 1 else 0),
    UInt8.ofNat (64 * frame.profile + 4 * frame.samplingIndex + 2 * frame.privateBit + frame.channels / 4),
    UInt8.ofNat (64 * (frame.channels % 4) + 4 * frame.flags + frame.length / 2048),
    UInt8.ofNat (frame.length / 8 % 256),
    UInt8.ofNat (32 * (frame.length % 8) + frame.fullness / 64),
    UInt8.ofNat (4 * (frame.fullness % 64) + frame.rawBlocks)]

def bytes : List UInt8 := frame.headerBytes ++ (frame.crc ++ frame.payload)

/-- What tells one configuration from another. -/
def config : Nat × Nat × Nat := (frame.profile, frame.samplingIndex, frame.channels)

def sampleRate : UInt32 := adtsSampleRates.getD frame.samplingIndex 0

def info : AdtsFrameInfo where
  frameLength := frame.length
  headerLen := 7 + frame.crc.length
  sampleRate := frame.sampleRate
  samplingFrequencyIndex := UInt8.ofNat frame.samplingIndex
  channelConfig := UInt8.ofNat frame.channels
  audioObjectType := UInt8.ofNat (frame.profile + 1)
  samplesPerFrame := UInt32.ofNat (1024 * (frame.rawBlocks + 1))

theorem length_lt_8192 : frame.length < 8192 := frame.length_lt

theorem length_bytes : frame.bytes.length = frame.length := by
  rw [bytes, List.length_append, List.length_append, length, Nat.add_assoc]
  rfl

end AdtsFrame

section Parsing

variable {frame : AdtsFrame}

theorem frameLength_fields {high mid low : UInt8} {length flags fullness : Nat} (hlength : length < 8192)
    (hhigh : high.toNat = 4 * flags + length / 2048) (hmid : mid.toNat = length / 8 % 256)
    (hlow : low.toNat = 32 * (length % 8) + fullness / 64) (hfullness : fullness < 2048) :
    (high &&& 0x03).toNat <<< 11 ||| mid.toNat <<< 3 ||| (low.toNat &&& 0xE0) >>> 5 = length := by
  have htwo : (high &&& 0x03).toNat = length / 2048 := by
    rw [Bits.toNat_and_low high 2 rfl, hhigh]
    omega
  have hthree : (low.toNat &&& 0xE0) >>> 5 = length % 8 := by
    have hmask : low.toNat &&& 0xE0 = low.toNat / 2 ^ 5 * 2 ^ 5 := Bits.and_high low.toNat 5 (by decide) low.toNat_lt
    rw [hmask, Nat.shiftRight_eq_div_pow, Nat.mul_div_cancel _ (Nat.two_pow_pos 5), hlow]
    omega
  have hlow_lt : length % 8 < 2 ^ 3 := by omega
  have hmid_lt : mid.toNat * 2 ^ 3 + length % 8 < 2 ^ 11 := by omega
  rw [htwo, hthree, Nat.or_assoc, @Bits.shiftLeft_or mid.toNat (length % 8) 3 hlow_lt, Bits.shiftLeft_or hmid_lt,
    hmid]
  omega

theorem channelConfig_fields {high low : UInt8} {rest channels flags : Nat} (hchannels : channels < 8)
    (hhigh : high.toNat = 2 * rest + channels / 4) (hlow : low.toNat = 64 * (channels % 4) + flags)
    (hflags : flags < 64) :
    (high &&& 0x01) <<< 2 ||| (low >>> 6 &&& 0x03) = UInt8.ofNat channels := by
  have hone : (high &&& 0x01).toNat = channels / 4 := by
    rw [Bits.toNat_and_low high 1 rfl, hhigh]
    omega
  have htwo : (low >>> 6 &&& 0x03).toNat = channels % 4 := by
    rw [Bits.toNat_field low 2 (by decide) rfl, hlow]
    show (64 * (channels % 4) + flags) / 64 % 4 = channels % 4
    omega
  have hshift : ((high &&& 0x01) <<< 2).toNat = (channels / 4) <<< 2 := by
    rw [UInt8.toNat_shiftLeft, hone]
    show ((channels / 4) <<< 2) % 2 ^ 8 = (channels / 4) <<< 2
    rw [Nat.shiftLeft_eq]
    omega
  rw [← UInt8.toNat_inj, UInt8.toNat_or, hshift, htwo, Bits.shiftLeft_or (by omega), Bits.toNat_ofNat (by omega)]
  omega

/-- The header is read as what it was made of. -/
theorem parseAdtsFrame_header (frame : AdtsFrame) (rest : List UInt8) :
    parseAdtsFrame (frame.headerBytes ++ rest) = some frame.info := by
  have hid := frame.id_lt
  have hprofile := frame.profile_lt
  have hindex := frame.samplingIndex_lt
  have hprivate := frame.privateBit_lt
  have hchannels := frame.channels_lt
  have hflags := frame.flags_lt
  have hfullness := frame.fullness_lt
  have hblocks := frame.rawBlocks_lt
  have hlength := frame.length_lt_8192
  have hbit : (if frame.protectionAbsent then 1 else 0) < 2 := by split <;> decide
  have h1 := @Bits.toNat_ofNat (240 + 8 * frame.id + if frame.protectionAbsent then 1 else 0) (by omega)
  have h2 := @Bits.toNat_ofNat (64 * frame.profile + 4 * frame.samplingIndex + 2 * frame.privateBit +
    frame.channels / 4) (by omega)
  have h3 := @Bits.toNat_ofNat (64 * (frame.channels % 4) + 4 * frame.flags + frame.length / 2048) (by omega)
  have h4 := @Bits.toNat_ofNat (frame.length / 8 % 256) (by omega)
  have h5 := @Bits.toNat_ofNat (32 * (frame.length % 8) + frame.fullness / 64) (by omega)
  have h6 := @Bits.toNat_ofNat (4 * (frame.fullness % 64) + frame.rawBlocks) (by omega)
  unfold parseAdtsFrame
  simp only [AdtsFrame.headerBytes, List.cons_append, List.nil_append, List.getD_cons_zero, List.getD_cons_succ,
    List.length_cons]
  generalize UInt8.ofNat (240 + 8 * frame.id + if frame.protectionAbsent then 1 else 0) = second at *
  generalize UInt8.ofNat (64 * frame.profile + 4 * frame.samplingIndex + 2 * frame.privateBit +
    frame.channels / 4) = third at *
  generalize UInt8.ofNat (64 * (frame.channels % 4) + 4 * frame.flags + frame.length / 2048) = fourth at *
  generalize UInt8.ofNat (frame.length / 8 % 256) = fifth at *
  generalize UInt8.ofNat (32 * (frame.length % 8) + frame.fullness / 64) = sixth at *
  generalize UInt8.ofNat (4 * (frame.fullness % 64) + frame.rawBlocks) = seventh at *
  have hsync : second &&& 0xF0 = 0xF0 := by
    refine (Bits.mask_iff 4 (by decide) rfl (by decide)).2 ?_
    rw [h1]
    exact ⟨by show 240 ≤ _; omega, by show _ < 240 + 16; omega⟩
  have hcrc : second &&& 0x01 = 0 ↔ frame.protectionAbsent = false := by
    rw [← UInt8.toNat_inj, Bits.toNat_and_low second 1 rfl, h1]
    cases frame.protectionAbsent
    · refine iff_of_true ?_ rfl
      show (240 + 8 * frame.id + 0) % 2 = 0
      omega
    · refine iff_of_false ?_ (by decide)
      show ¬ (240 + 8 * frame.id + 1) % 2 = 0
      omega
  have hsampling : third >>> 2 &&& 0x0F = UInt8.ofNat frame.samplingIndex := by
    rw [← UInt8.toNat_inj, Bits.toNat_field third 4 (by decide) rfl, h2, Bits.toNat_ofNat (by omega)]
    show (_ : Nat) / 4 % 16 = _
    omega
  have hobject : (third >>> 6 &&& 0x03) + 1 = UInt8.ofNat (frame.profile + 1) := by
    rw [← UInt8.toNat_inj, UInt8.toNat_add, Bits.toNat_field third 2 (by decide) rfl, h2, Bits.toNat_ofNat (by omega)]
    show ((_ : Nat) / 64 % 4 + 1) % 256 = _
    omega
  have hchan : (third &&& 0x01) <<< 2 ||| (fourth >>> 6 &&& 0x03) = UInt8.ofNat frame.channels :=
    @channelConfig_fields third fourth (32 * frame.profile + 2 * frame.samplingIndex + frame.privateBit)
      frame.channels (4 * frame.flags + frame.length / 2048) hchannels (by omega) (by omega) (by omega)
  have hframe : (fourth &&& 0x03).toNat <<< 11 ||| fifth.toNat <<< 3 ||| (sixth.toNat &&& 0xE0) >>> 5 =
      frame.length :=
    @frameLength_fields fourth fifth sixth frame.length (16 * (frame.channels % 4) + frame.flags)
      frame.fullness hlength (by omega) h4 h5 hfullness
  have hraw : (seventh &&& 0x03).toUInt32 = UInt32.ofNat frame.rawBlocks := by
    rw [← UInt32.toNat_inj, UInt8.toNat_toUInt32, Bits.toNat_and_low seventh 2 rfl, h6,
      UInt32.toNat_ofNat_of_lt' (Nat.lt_trans hblocks (by decide))]
    omega
  have hrate : adtsSampleRates[(UInt8.ofNat frame.samplingIndex).toNat]? = some frame.sampleRate := by
    have hbound : frame.samplingIndex < adtsSampleRates.length := hindex
    rw [Bits.toNat_ofNat (by omega), AdtsFrame.sampleRate, List.getD_eq_getElem?_getD,
      List.getElem?_eq_getElem hbound]
    rfl
  have hsamples : 1024 * (UInt32.ofNat frame.rawBlocks + 1) = UInt32.ofNat (1024 * (frame.rawBlocks + 1)) := by
    rw [UInt32.ofNat_mul, UInt32.ofNat_add]
    rfl
  have hheader : (if decide (second &&& 0x01 = 0) = true then 9 else 7) = 7 + frame.crc.length := by
    rw [frame.crc_length]
    cases h : frame.protectionAbsent
    · simp [hcrc.2 h]
    · have hne : ¬ second &&& 0x01 = 0 := fun h' => by
        rw [hcrc.1 h'] at h
        cases h
      simp [hne]
  rw [if_neg (by simp [hsync]), hsampling, hrate, hframe, hobject, hchan, hraw, hsamples, hheader]
  rfl

theorem length_headerBytes (frame : AdtsFrame) : frame.headerBytes.length = 7 := rfl

theorem headerLen_lt (frame : AdtsFrame) : 7 + frame.crc.length < frame.length := by
  have hpos := List.length_pos_iff.2 frame.payload_ne
  rw [AdtsFrame.length]
  omega

theorem reads_adts (frame : AdtsFrame) : adtsReader.Reads frame.info frame.bytes where
  least := by
    rw [AdtsFrame.bytes, List.length_append]
    exact Nat.le_add_right 7 _
  read := by
    intro after
    show Except.ok (parseAdtsFrame (frame.bytes ++ after)) = Except.ok (some frame.info)
    rw [AdtsFrame.bytes, List.append_assoc, parseAdtsFrame_header]
  length := frame.length_bytes.symm
  accepts := decide_eq_true (headerLen_lt frame)

theorem sound_adtsReader : adtsReader.Sound where
  least_pos := by decide
  answers := fun bytes _ => ⟨parseAdtsFrame bytes, rfl⟩
  length_pos := by
    intro bytes frame _ haccepts
    exact Nat.zero_lt_of_lt (of_decide_eq_true haccepts)

theorem drop_headerLen (frame : AdtsFrame) : frame.bytes.drop (7 + frame.crc.length) = frame.payload := by
  rw [AdtsFrame.bytes, ← List.append_assoc]
  refine List.drop_left' ?_
  rw [List.length_append, length_headerBytes]

end Parsing

/-! ## Samples -/

section Samples

variable {ε : Type} {mp4aEntry : Mp4aEntry ε} {s : AdtsState ε} {bytes : List UInt8}

/-- The address of an entry, and what it is made of. -/
abbrev EntryTag : Type := Option Nat × Option EntryKey

def SameTag (p q : EntryTag) : Prop := p.1 = q.1 ↔ p.2 = q.2

def AdtsState.tag (s : AdtsState ε) : EntryTag := (s.currentEntry.map Arc.address, s.currentEntryKey)

def entryTags (samples : List (RemuxSampleRef ε)) (frames : List (Nat × AdtsFrameInfo)) : List EntryTag :=
  (samples.map fun sample => sample.sampleEntry.map Arc.address).zip
    (frames.map fun p => some p.2.entryKey)

/-- The current entry was made for the current key, and new ones are made elsewhere. -/
structure AdtsState.Inv (mp4aEntry : Mp4aEntry ε) (s : AdtsState ε) : Prop where
  fresh : ∀ entry, s.currentEntry = some entry → entry.address < s.nextAddress
  current : ∀ frame : AdtsFrameInfo, s.currentEntryKey = some frame.entryKey →
    s.currentEntry.map Arc.value = some (frame.entry mp4aEntry)

/-- The key has all that an entry is made of. -/
theorem entry_of_entryKey {frame frame' : AdtsFrameInfo} (h : frame.entryKey = frame'.entryKey) :
    frame.entry mp4aEntry = frame'.entry mp4aEntry := by
  simp only [AdtsFrameInfo.entryKey, Prod.mk.injEq] at h
  obtain ⟨hrate, hchannels, hobject, hindex⟩ := h
  rw [AdtsFrameInfo.entry, AdtsFrameInfo.entry, hrate, hchannels, hobject, hindex]

theorem renew_spec (h : s.Inv mp4aEntry) (frame : AdtsFrameInfo) :
    (s.renew mp4aEntry frame).Inv mp4aEntry ∧ SameTag s.tag (s.renew mp4aEntry frame).tag ∧
      (s.renew mp4aEntry frame).currentEntryKey = some frame.entryKey ∧
      (s.renew mp4aEntry frame).samples = s.samples := by
  unfold AdtsState.renew
  split
  · rename_i hkey
    refine ⟨⟨?_, ?_⟩, ?_, rfl, rfl⟩
    · intro entry hentry
      cases hentry
      exact Nat.lt_succ_self _
    · intro frame' hkey'
      rw [entry_of_entryKey (Option.some.inj hkey').symm]
      rfl
    · refine iff_of_false ?_ hkey
      intro haddress
      obtain ⟨entry, hentry, hsame⟩ := Option.map_eq_some_iff.1 haddress
      have hlt := h.fresh entry hentry
      rw [hsame] at hlt
      exact Nat.lt_irrefl _ hlt
  · rename_i hkey
    exact ⟨h, iff_of_true rfl rfl, not_not.1 hkey, rfl⟩

/-- What the loop adds to the samples, frame after frame. -/
theorem foldl_take (h : s.Inv mp4aEntry) (frames : List (Nat × AdtsFrameInfo)) :
    ∃ added, (s.takeAll mp4aEntry frames).samples = s.samples ++ added ∧
      added.map RemuxSampleRef.range =
        frames.map (fun p => (p.1 + p.2.headerLen, p.1 + p.2.frameLength)) ∧
      added.map RemuxSampleRef.duration = frames.map (fun p => p.2.samplesPerFrame) ∧
      added.map (fun sample => sample.sampleEntry.map Arc.value) =
        frames.map (fun p => some (p.2.entry mp4aEntry)) ∧
      List.IsChain SameTag (s.tag :: entryTags added frames) := by
  induction frames generalizing s with
  | nil => exact ⟨[], (List.append_nil _).symm, rfl, rfl, rfl, List.isChain_singleton _⟩
  | cons p frames ih =>
    have hrate : AdtsState.Inv mp4aEntry { s with sampleRate := some p.2.sampleRate } := ⟨h.fresh, h.current⟩
    obtain ⟨hinv, hsame, hkey, hsamples⟩ := renew_spec hrate p.2
    obtain ⟨added, hadded, hranges, hdurations, hentries, hchain⟩ :=
      @ih (s.take mp4aEntry p.1 p.2) ⟨hinv.fresh, hinv.current⟩
    have htag : (s.take mp4aEntry p.1 p.2).tag =
        ((AdtsState.renew mp4aEntry p.2 { s with sampleRate := some p.2.sampleRate }).currentEntry.map Arc.address,
          some p.2.entryKey) := by rw [← hkey]; rfl
    refine ⟨⟨p.1 + p.2.headerLen, p.1 + p.2.frameLength, p.2.samplesPerFrame,
      (AdtsState.renew mp4aEntry p.2 { s with sampleRate := some p.2.sampleRate }).currentEntry, true, none⟩ :: added,
      ?_, ?_, ?_, ?_, ?_⟩
    · rw [AdtsState.takeAll, List.foldl_cons, hadded, List.append_cons]
      show _ ++ _ ++ added = _
      rw [hsamples]
    · rw [List.map_cons, hranges]
      rfl
    · rw [List.map_cons, hdurations]
      rfl
    · rw [List.map_cons, hentries, List.map_cons]
      exact congrArg (· :: _) (hinv.current p.2 hkey)
    · have hfirst : SameTag s.tag (s.take mp4aEntry p.1 p.2).tag := hsame
      rw [htag] at hfirst hchain
      exact List.isChain_cons_cons.2 ⟨hfirst, hchain⟩

/-- Where the payloads are. -/
def payloadRanges : Nat → List AdtsFrame → List (Nat × Nat)
  | _, [] => []
  | offset, frame :: frames =>
    (offset + (if frame.protectionAbsent then 7 else 9), offset + frame.bytes.length) ::
      payloadRanges (offset + frame.bytes.length) frames

/-- One sample for each frame; neighbours have one entry exactly if they are of one configuration. -/
structure AdtsExact (mp4aEntry : Mp4aEntry ε) (frames : List AdtsFrame) (track : RemuxedTrack ε) : Prop where
  ranges : track.samples.map RemuxSampleRef.range = payloadRanges 0 frames
  payloads : track.samples.map track.bytesOf = frames.map AdtsFrame.payload
  durations : track.samples.map (fun sample => sample.duration.toNat) =
    frames.map fun frame => 1024 * (frame.rawBlocks + 1)
  entries : track.samples.map (fun sample => sample.sampleEntry.map Arc.value) =
    frames.map fun frame => some (frame.info.entry mp4aEntry)
  shared : List.IsChain
    (fun p q => p.1.sampleEntry.map Arc.address = q.1.sampleEntry.map Arc.address ↔ p.2.config = q.2.config)
    (track.samples.zip frames)

theorem placed_ranges (frames : List AdtsFrame) (offset : Nat) :
    (Framing.placed adtsReader offset (frames.map AdtsFrame.info)).map
      (fun p => (p.1 + p.2.headerLen, p.1 + p.2.frameLength)) = payloadRanges offset frames := by
  induction frames generalizing offset with
  | nil => rfl
  | cons frame frames ih =>
    have hheader : 7 + frame.crc.length = if frame.protectionAbsent then 7 else 9 := by
      rw [frame.crc_length]
      cases frame.protectionAbsent <;> rfl
    have hlength : adtsReader.length frame.info = frame.bytes.length := frame.length_bytes.symm
    rw [List.map_cons, Framing.placed, List.map_cons, hlength, ih, payloadRanges, ← hheader,
      frame.length_bytes]
    rfl

theorem placed_infos {β : Type} (f : AdtsFrameInfo → β) (frames : List AdtsFrame) (offset : Nat) :
    (Framing.placed adtsReader offset (frames.map AdtsFrame.info)).map (fun p => f p.2) =
      frames.map fun frame => f frame.info := by
  rw [Framing.map_placed, List.map_map]
  rfl

/-- The entry is another exactly if the configuration is. -/
theorem entryKey_inj_iff (frame frame' : AdtsFrame) :
    frame.info.entryKey = frame'.info.entryKey ↔ frame.config = frame'.config := by
  have hprofile := frame.profile_lt
  have hindex := frame.samplingIndex_lt
  have hchannels := frame.channels_lt
  have hprofile' := frame'.profile_lt
  have hindex' := frame'.samplingIndex_lt
  have hchannels' := frame'.channels_lt
  constructor
  · intro h
    simp only [AdtsFrameInfo.entryKey, AdtsFrame.info, Prod.mk.injEq, ← UInt8.toNat_inj] at h
    rw [Bits.toNat_ofNat (by omega), Bits.toNat_ofNat (by omega), Bits.toNat_ofNat (by omega), Bits.toNat_ofNat (by omega),
      Bits.toNat_ofNat (by omega), Bits.toNat_ofNat (by omega)] at h
    obtain ⟨-, hsame, hobject, hsampling⟩ := h
    rw [AdtsFrame.config, AdtsFrame.config, hsame, hsampling, Nat.succ.inj hobject]
  · intro h
    simp only [AdtsFrame.config, Prod.mk.injEq] at h
    obtain ⟨hobject, hsampling, hsame⟩ := h
    simp only [AdtsFrameInfo.entryKey, AdtsFrame.info, AdtsFrame.sampleRate, hobject, hsampling, hsame]

theorem sampleRate_take (mp4aEntry : Mp4aEntry ε) (s : AdtsState ε) (offset : Nat) (frame : AdtsFrameInfo) :
    (s.take mp4aEntry offset frame).sampleRate = some frame.sampleRate := by
  unfold AdtsState.take AdtsState.renew
  dsimp only
  split <;> rfl

theorem sampleRate_takeAll {frames : List (Nat × AdtsFrameInfo)} (hframes : ∀ p ∈ frames, p.2.sampleRate ≠ 0)
    (hne : frames ≠ []) : ∃ rate, rate ≠ 0 ∧ (s.takeAll mp4aEntry frames).sampleRate = some rate := by
  induction frames generalizing s with
  | nil => exact absurd rfl hne
  | cons p frames ih =>
    cases frames with
    | nil => exact ⟨p.2.sampleRate, hframes p List.mem_cons_self, sampleRate_take mp4aEntry s p.1 p.2⟩
    | cons p' frames =>
      refine ih ?_ (List.cons_ne_nil p' frames)
      intro q hq
      exact hframes q (List.mem_cons_of_mem _ hq)

theorem inv_init (mp4aEntry : Mp4aEntry ε) (address : Nat) :
    AdtsState.Inv mp4aEntry ({ nextAddress := address } : AdtsState ε) where
  fresh := by
    intro entry hentry
    cases hentry
  current := by
    intro frame hkey
    cases hkey

theorem finish_ok (bytes : List UInt8) {rate : UInt32} (hs : s.sampleRate = some rate) (hrate : rate ≠ 0)
    (hlength : s.samples.length < 2 ^ 64) :
    ∃ track, s.finish bytes = .ok track ∧ track.bytes = bytes ∧ track.samples = s.samples := by
  unfold AdtsState.finish
  rw [hs]
  have hscale : nonzero rate = .ok rate.toNat := if_neg hrate
  dsimp only [bind, Except.bind]
  rw [hscale]
  dsimp only
  rw [dif_pos hlength]
  exact ⟨_, rfl, rfl, rfl⟩

/-- What `finish` makes has the samples of the loop, and only too many of them panic. -/
theorem finish_cases (bytes : List UInt8) (s : AdtsState ε) :
    (s.finish bytes = .error .panic → 2 ^ 64 ≤ s.samples.length) ∧
      ∀ track, s.finish bytes = .ok track → track.bytes = bytes ∧ track.samples = s.samples := by
  unfold AdtsState.finish
  cases s.sampleRate with
  | none => simp [HlsFailure.invalidData]
  | some rate =>
    by_cases hzero : rate = 0
    · simp [nonzero, hzero, HlsFailure.invalidData, bind, Except.bind]
    · by_cases hlength : s.samples.length < 2 ^ 64
      · simp only [nonzero, hzero, hlength, bind, Except.bind, if_false, dite_true]
        constructor
        · intro hpanic
          cases hpanic
        · intro track htrack
          cases htrack
          exact ⟨rfl, rfl⟩
      · simp only [nonzero, hzero, hlength, bind, Except.bind, if_false, dite_false]
        refine ⟨fun _ => Nat.not_lt.1 hlength, ?_⟩
        intro track htrack
        cases htrack

theorem sampleRate_ne_zero (frame : AdtsFrame) : frame.sampleRate ≠ 0 := by
  have hrates : ∀ i < 13, adtsSampleRates.getD i 0 ≠ 0 := by decide
  exact hrates frame.samplingIndex frame.samplingIndex_lt

theorem mem_placed {frames : List AdtsFrame} {offset : Nat} {p : Nat × AdtsFrameInfo}
    (hp : p ∈ Framing.placed adtsReader offset (frames.map AdtsFrame.info)) :
    ∃ frame ∈ frames, p.2 = frame.info := by
  have hinfo : p.2 ∈ frames.map AdtsFrame.info := by
    have hinfos := placed_infos id frames offset
    exact hinfos ▸ List.mem_map_of_mem hp
  obtain ⟨frame, hframe, hp⟩ := List.mem_map.1 hinfo
  exact ⟨frame, hframe, hp.symm⟩

/-- The samples that the loop makes of a sequence of frames. -/
theorem exact_of_added {frames : List AdtsFrame} {track : RemuxedTrack ε} {before : EntryTag}
    (hbytes : track.bytes = frames.flatMap AdtsFrame.bytes)
    (hranges : track.samples.map RemuxSampleRef.range =
      (Framing.placed adtsReader 0 (frames.map AdtsFrame.info)).map
        fun p => (p.1 + p.2.headerLen, p.1 + p.2.frameLength))
    (hdurations : track.samples.map RemuxSampleRef.duration =
      (Framing.placed adtsReader 0 (frames.map AdtsFrame.info)).map fun p => p.2.samplesPerFrame)
    (hentries : track.samples.map (fun sample => sample.sampleEntry.map Arc.value) =
      (Framing.placed adtsReader 0 (frames.map AdtsFrame.info)).map fun p => some (p.2.entry mp4aEntry))
    (hchain : List.IsChain SameTag
      (before :: entryTags track.samples (Framing.placed adtsReader 0 (frames.map AdtsFrame.info)))) :
    AdtsExact mp4aEntry frames track where
  ranges := hranges.trans (placed_ranges frames 0)
  payloads := by
    have hslices := @Framing.slices_placed _ _ _ adtsReader (frames.flatMap AdtsFrame.bytes) 0 _ AdtsFrame.info
      AdtsFrame.bytes AdtsFrameInfo.headerLen (fun frame => frame.length_bytes.symm) frames rfl
    have hpayloads : frames.map (fun frame => frame.bytes.drop frame.info.headerLen) =
        frames.map AdtsFrame.payload := List.map_congr_left fun frame _ => drop_headerLen frame
    rw [hpayloads] at hslices
    rw [← hslices]
    have hbytesOf : track.bytesOf = (fun range => (track.bytes.take range.2).drop range.1) ∘
        RemuxSampleRef.range := rfl
    rw [hbytesOf, ← List.map_map, hranges, List.map_map, hbytes]
    rfl
  durations := by
    have hnat := congrArg (List.map UInt32.toNat) hdurations
    rw [List.map_map, List.map_map] at hnat
    refine hnat.trans ((placed_infos (fun frame => frame.samplesPerFrame.toNat) frames 0).trans ?_)
    refine List.map_congr_left fun frame _ => ?_
    have hblocks := frame.rawBlocks_lt
    exact UInt32.toNat_ofNat_of_lt' (Nat.lt_of_le_of_lt (Nat.mul_le_mul_left 1024 hblocks) (by decide))
  entries := hentries.trans (placed_infos (fun frame => some (frame.entry mp4aEntry)) frames 0)
  shared := by
    have htags : entryTags track.samples (Framing.placed adtsReader 0 (frames.map AdtsFrame.info)) =
        (track.samples.zip frames).map
          fun p => (p.1.sampleEntry.map Arc.address, some p.2.info.entryKey) := by
      rw [entryTags, placed_infos (fun frame => some frame.entryKey) frames 0, List.zip_map]
      rfl
    rw [htags] at hchain
    refine ((List.isChain_map _).1 hchain.tail).imp ?_
    intro p q hsame
    rw [← entryKey_inj_iff]
    exact hsame.trans Option.some_inj

theorem remuxAacAdts_of {address : Nat} (h : adtsFrames mp4aEntry address bytes = some (.ok s)) :
    remuxAacAdts mp4aEntry address bytes = some (s.finish bytes) := by
  rw [remuxAacAdts, h]
  rfl

theorem remuxAacAdts_frames (mp4aEntry : Mp4aEntry ε) (address : Nat) {frames : List AdtsFrame}
    (hne : frames ≠ []) (hlength : frames.length < 2 ^ 64) :
    ∃ track, remuxAacAdts mp4aEntry address (frames.flatMap AdtsFrame.bytes) = some (.ok track) ∧
      AdtsExact mp4aEntry frames track := by
  have hscan : adtsFrames mp4aEntry address (frames.flatMap AdtsFrame.bytes) = _ :=
    Framing.scan_frames (by decide) reads_adts (AdtsState.take mp4aEntry) { nextAddress := address }
      (Framing.length_le_flatMap (by decide) reads_adts frames) rfl
  obtain ⟨added, hadded, hranges, hdurations, hentries, hchain⟩ :=
    foldl_take (inv_init mp4aEntry address) (Framing.placed adtsReader 0 (frames.map AdtsFrame.info))
  have hrate : ∃ rate, rate ≠ 0 ∧ (AdtsState.takeAll mp4aEntry { nextAddress := address }
      (Framing.placed adtsReader 0 (frames.map AdtsFrame.info))).sampleRate = some rate := by
    refine sampleRate_takeAll ?_ ?_
    · intro p hp
      obtain ⟨frame, -, hinfo⟩ := mem_placed hp
      rw [hinfo]
      exact sampleRate_ne_zero frame
    · cases frames with
      | nil => exact absurd rfl hne
      | cons frame frames => exact List.cons_ne_nil _ _
  obtain ⟨rate, hnonzero, hrate⟩ := hrate
  rw [List.nil_append] at hadded
  have hcount : added.length = frames.length := by
    have hmap := congrArg List.length (hdurations.trans (placed_infos AdtsFrameInfo.samplesPerFrame frames 0))
    rwa [List.length_map, List.length_map] at hmap
  have hfits : added.length < 2 ^ 64 := hcount ▸ hlength
  rw [← hadded] at hfits
  obtain ⟨track, htrack, hbytes, hsamples⟩ :=
    finish_ok (frames.flatMap AdtsFrame.bytes) hrate hnonzero hfits
  refine ⟨track, (remuxAacAdts_of hscan).trans (congrArg some htrack), ?_⟩
  rw [hadded] at hsamples
  rw [← hsamples] at hranges hdurations hentries hchain
  exact exact_of_added hbytes hranges hdurations hentries hchain

theorem remuxAacAdts_total (mp4aEntry : Mp4aEntry ε) (address : Nat) (bytes : List UInt8) :
    ∃ result, remuxAacAdts mp4aEntry address bytes = some result ∧
      (result = .error .panic → 2 ^ 64 ≤ bytes.length) ∧
      ∀ track, result = .ok track →
        track.bytes = bytes ∧ Framing.Apart 0 (track.samples.map RemuxSampleRef.range) bytes.length := by
  obtain ⟨frames, hspaced, hscan⟩ := Framing.scan_total sound_adtsReader (AdtsState.take mp4aEntry)
    { nextAddress := address } (Nat.le_add_left bytes.length 0)
  obtain ⟨added, hadded, hranges, -⟩ := foldl_take (inv_init mp4aEntry address) frames
  rw [List.nil_append] at hadded
  have hapart : Framing.Apart 0 (added.map RemuxSampleRef.range) bytes.length := by
    rw [hranges]
    exact hspaced.apart (Nat.zero_le _) fun frame haccepts _ => of_decide_eq_true haccepts
  obtain ⟨hpanic, hok⟩ := finish_cases bytes (AdtsState.takeAll mp4aEntry { nextAddress := address } frames)
  rw [hadded] at hpanic hok
  refine ⟨_, remuxAacAdts_of hscan, ?_, ?_⟩
  · intro h
    have hle := hapart.length_le
    rw [List.length_map] at hle
    have hlong := hpanic h
    omega
  · intro track h
    obtain ⟨hbytes, hsamples⟩ := hok track h
    rw [hsamples]
    exact ⟨hbytes, hapart⟩

/-- The samples of a sequence of frames are these frames, and the ranges for any bytes lie one behind the
other. -/
theorem adts_exact (mp4aEntry : Mp4aEntry ε) (address : Nat) (frames : List AdtsFrame) (bytes : List UInt8) :
    (frames = [] ∧ remuxAacAdts mp4aEntry address [] = some (.error (.invalidData "no AAC ADTS frames found")) ∨
      2 ^ 64 ≤ frames.length ∨ ∃ track,
        remuxAacAdts mp4aEntry address (frames.flatMap AdtsFrame.bytes) = some (.ok track) ∧
          AdtsExact mp4aEntry frames track) ∧
      ∃ result, remuxAacAdts mp4aEntry address bytes = some result ∧
        (result = .error .panic → 2 ^ 64 ≤ bytes.length) ∧
        ∀ track, result = .ok track →
          track.bytes = bytes ∧ Framing.Apart 0 (track.samples.map RemuxSampleRef.range) bytes.length := by
  refine ⟨?_, remuxAacAdts_total mp4aEntry address bytes⟩
  by_cases hne : frames = []
  · exact .inl ⟨hne, rfl⟩
  · rcases Nat.lt_or_ge frames.length (2 ^ 64) with hlength | hlong
    · exact .inr (.inr (remuxAacAdts_frames mp4aEntry address hne hlength))
    · exact .inr (.inl hlong)

end Samples

end Kanade

import Mathlib.Algebra.Group.Nat.Defs
import Mathlib.Algebra.Group.Int.Defs
import Kanade.Chunks.Whole
import Kanade.Hls.Pcm

/-!
# Kanade.Hls.Alac

The samples that PCM data carries, before and after `pcm_to_alac_bytes`, and as the ALAC encoder is given them.

* `piecewise_reorder`: the order of the bytes changes sample by sample.
* `decodeSamples_reorder`: the samples stay as they are.
* `alac_preserves_samples`: for the whole data and for each packet.
-/

namespace Kanade

/-! ## Samples -/

/-- A sample, as a signed integer. -/
def decodeSample (bigEndian : Bool) (sample : List UInt8) : Int :=
  Int.bmod (if bigEndian then readBe sample else readLe sample : Nat) (2 ^ (8 * sample.length))

def decodeSamples (bigEndian : Bool) (bytesPerSample : Nat) (bytes : List UInt8) : List Int :=
  (bytes.toChunks bytesPerSample).map (decodeSample bigEndian)

/-- The order in which the encoder reads the bytes of a sample. -/
def targetBigEndian (bitDepth : UInt8) : Bool := bitDepth = 20 ∨ bitDepth = 24

/-- Whole samples of a bit depth that the encoder takes. -/
structure AlacPayload where
  bitDepth : UInt8
  bytesPerSample : Nat
  supported : pcmBytesPerSample bitDepth = .ok bytesPerSample
  pcmBytes : List UInt8
  whole : bytesPerSample ∣ pcmBytes.length

instance : Inhabited AlacPayload := ⟨⟨24, 3, rfl, [1, 2, 3], Nat.dvd_refl 3⟩⟩

def AlacPayload.samples (payload : AlacPayload) (bigEndian : Bool) : List Int :=
  decodeSamples bigEndian payload.bytesPerSample payload.pcmBytes

/-- Given these chunks, one after the other, the encoder makes these packets. -/
inductive Encodes {σ : Type} (codec : AlacCodec σ) : σ → List (List UInt8) → List (List UInt8) → Prop where
  | done (encoder : σ) : Encodes codec encoder [] []
  | packet {encoder encoder' : σ} {pcmChunk encoded : List UInt8} {pcmChunks packets : List (List UInt8)}
      (now : codec.encode encoder pcmChunk = some (encoded, encoder'))
      (later : Encodes codec encoder' pcmChunks packets) :
      Encodes codec encoder (pcmChunk :: pcmChunks) (encoded :: packets)

section Reorder

variable {bytesPerSample : Nat} {bytes : List UInt8} {bitDepth : UInt8}

theorem readBe_reverse (bytes : List UInt8) : readBe bytes.reverse = readLe bytes := by
  rw [readBe, readLe, List.foldl_reverse]
  congr 1
  funext byte n
  exact Nat.add_comm _ _

theorem readLe_reverse (bytes : List UInt8) : readLe bytes.reverse = readBe bytes := by
  rw [← readBe_reverse, List.reverse_reverse]

theorem decodeSample_reverse (bigEndian : Bool) (sample : List UInt8) :
    decodeSample (!bigEndian) sample.reverse = decodeSample bigEndian sample := by
  unfold decodeSample
  rw [List.length_reverse, readBe_reverse, readLe_reverse]
  cases bigEndian <;> rfl

/-- The bytes of each sample in the other order. -/
def reorder (bytesPerSample : Nat) (bytes : List UInt8) : List UInt8 :=
  ((bytes.toChunks bytesPerSample).map List.reverse).flatten

theorem toChunks_reorder (hpos : 0 < bytesPerSample) (hwhole : bytesPerSample ∣ bytes.length) :
    (reorder bytesPerSample bytes).toChunks bytesPerSample = (bytes.toChunks bytesPerSample).map List.reverse := by
  apply Chunks.toChunks_flatten hpos
  intro sample hsample
  obtain ⟨original, horiginal, rfl⟩ := List.mem_map.1 hsample
  rw [List.length_reverse]
  exact Chunks.length_of_mem_toChunks hpos hwhole original horiginal

theorem decodeSamples_reorder (bigEndian : Bool) (hpos : 0 < bytesPerSample)
    (hwhole : bytesPerSample ∣ bytes.length) :
    decodeSamples (!bigEndian) bytesPerSample (reorder bytesPerSample bytes) =
      decodeSamples bigEndian bytesPerSample bytes := by
  rw [decodeSamples, toChunks_reorder hpos hwhole, List.map_map, decodeSamples]
  apply List.map_congr_left
  intro sample _
  exact decodeSample_reverse bigEndian sample

theorem piecewise_reorder (hpos : 0 < bytesPerSample) : Chunks.Piecewise bytesPerSample (reorder bytesPerSample) where
  length_eq := by
    intro bytes hwhole
    refine Chunks.whole_induction ?_ ?_ hwhole
    · rw [reorder, Chunks.toChunks_nil]
      rfl
    · intro sample rest hlen _ ih
      rw [reorder, Chunks.toChunks_append hpos hlen, List.map_cons, List.flatten_cons, List.length_append,
        List.length_reverse, List.length_append]
      exact congrArg _ ih
  append := by
    intro bytes more hwhole
    refine Chunks.whole_induction ?_ ?_ hwhole
    · rw [reorder, reorder, Chunks.toChunks_nil]
      rfl
    · intro sample rest hlen _ ih
      rw [List.append_assoc, reorder, reorder, Chunks.toChunks_append hpos hlen, Chunks.toChunks_append hpos hlen,
        List.map_cons, List.map_cons, List.flatten_cons, List.flatten_cons, List.append_assoc]
      exact congrArg _ ih

/-- What is said of `reorder` for any chunks of whole samples. -/
theorem map_decodeSamples_reorder (bigEndian : Bool) {n : Nat} (hpos : 0 < bytesPerSample)
    (hwhole : bytesPerSample ∣ bytes.length) (hn : bytesPerSample ∣ n) :
    ((reorder bytesPerSample bytes).toChunks n).map (decodeSamples (!bigEndian) bytesPerSample) =
      (bytes.toChunks n).map (decodeSamples bigEndian bytesPerSample) := by
  rw [Chunks.toChunks_comm (piecewise_reorder hpos) hn bytes hwhole, List.map_map]
  apply List.map_congr_left
  intro chunk hchunk
  exact decodeSamples_reorder bigEndian hpos (Chunks.pieces_of_mem_toChunks hn bytes hwhole chunk hchunk).1

theorem pcmBytesPerSample_pos (h : pcmBytesPerSample bitDepth = .ok bytesPerSample) : 0 < bytesPerSample := by
  unfold pcmBytesPerSample at h
  split at h
  · cases h
    decide
  split at h
  · cases h
    decide
  split at h
  · cases h
    decide
  · cases h

theorem pcmToAlacBytes_eq (payload : AlacPayload) (sourceBigEndian : Bool) :
    pcmToAlacBytes payload.pcmBytes payload.bitDepth sourceBigEndian =
      .ok (if sourceBigEndian = targetBigEndian payload.bitDepth then payload.pcmBytes
        else reorder payload.bytesPerSample payload.pcmBytes) := by
  have hpos := pcmBytesPerSample_pos payload.supported
  have hlen := Chunks.length_of_mem_toChunks hpos payload.whole
  have hfilter : ((payload.pcmBytes.toChunks payload.bytesPerSample).filter fun sample =>
      sample.length = payload.bytesPerSample) = payload.pcmBytes.toChunks payload.bytesPerSample := by
    apply List.filter_eq_self.2
    intro sample hsample
    exact decide_eq_true (hlen sample hsample)
  rw [pcmToAlacBytes, bind_of_ok payload.supported, hfilter]
  unfold targetBigEndian reorder
  dsimp only
  split
  · rfl
  · rw [List.flatMap_def]

theorem pcmToAlacBytes_spec (payload : AlacPayload) (sourceBigEndian : Bool) :
    ∃ converted, pcmToAlacBytes payload.pcmBytes payload.bitDepth sourceBigEndian = .ok converted ∧
      converted.length = payload.pcmBytes.length ∧
      decodeSamples (targetBigEndian payload.bitDepth) payload.bytesPerSample converted =
        payload.samples sourceBigEndian ∧
      ∀ n, payload.bytesPerSample ∣ n →
        (converted.toChunks n).map (decodeSamples (targetBigEndian payload.bitDepth) payload.bytesPerSample) =
          (payload.pcmBytes.toChunks n).map (decodeSamples sourceBigEndian payload.bytesPerSample) := by
  have hpos := pcmBytesPerSample_pos payload.supported
  have hconverted := pcmToAlacBytes_eq payload sourceBigEndian
  by_cases hsame : sourceBigEndian = targetBigEndian payload.bitDepth
  · rw [if_pos hsame] at hconverted
    refine ⟨payload.pcmBytes, hconverted, rfl, ?_, ?_⟩
    · rw [← hsame]
      rfl
    · intro n _
      rw [hsame]
  · have htarget : targetBigEndian payload.bitDepth = !sourceBigEndian := Bool.eq_not.2 (Ne.symm hsame)
    rw [if_neg hsame] at hconverted
    refine ⟨reorder payload.bytesPerSample payload.pcmBytes, hconverted,
      (piecewise_reorder hpos).length_eq _ payload.whole, ?_, ?_⟩
    · rw [htarget]
      exact decodeSamples_reorder sourceBigEndian hpos payload.whole
    · intro n hn
      rw [htarget]
      exact map_decodeSamples_reorder sourceBigEndian hpos payload.whole hn

end Reorder

/-! ## Packets -/

section Packets

variable {ε σ : Type} {codec : AlacCodec σ} {encoder : σ} {payload payload' : List UInt8} {bytesPerFrame : Nat}
  {pcmChunks : List (List UInt8)} {samples : List (RemuxSampleRef ε)}

theorem alacPackets_encodes (hframes : ∀ pcmChunk ∈ pcmChunks, pcmChunk.length / bytesPerFrame ≠ 0)
    (h : alacPackets codec bytesPerFrame pcmChunks encoder payload = .ok (payload', samples)) :
    ∃ packets, Encodes codec encoder pcmChunks packets ∧ payload' = payload ++ packets.flatten := by
  induction pcmChunks generalizing encoder payload samples with
  | nil =>
    cases h
    exact ⟨[], .done encoder, (List.append_nil _).symm⟩
  | cons pcmChunk pcmChunks ih =>
    rw [alacPackets] at h
    dsimp only at h
    rw [if_neg (hframes pcmChunk List.mem_cons_self)] at h
    obtain ⟨⟨encoded, encoder'⟩, hencode, h⟩ := bind_eq_ok h
    obtain ⟨⟨payload'', samples'⟩, hrest, h⟩ := bind_eq_ok h
    cases h
    obtain ⟨packets, hencodes, rfl⟩ := ih (fun other hother => hframes other (List.mem_cons_of_mem _ hother)) hrest
    refine ⟨encoded :: packets, .packet ?_ hencodes, ?_⟩
    · exact orPanic_eq_ok hencode
    · rw [List.flatten_cons, List.append_assoc]

/-- A track is what the encoder makes of the chunks of the converted data. -/
theorem remuxPcmAsAlac_encodes {entries : SampleEntries ε} {address bytesPerSample : Nat} {pcmBytes converted : List UInt8}
    {sampleRate : UInt32} {channels bitDepth : UInt8} {sourceBigEndian : Bool} {track : RemuxedTrack ε}
    (hsupported : pcmBytesPerSample bitDepth = .ok bytesPerSample)
    (hconverted : pcmToAlacBytes pcmBytes bitDepth sourceBigEndian = .ok converted)
    (hlength : converted.length = pcmBytes.length)
    (h : remuxPcmAsAlac codec entries address pcmBytes sampleRate channels bitDepth sourceBigEndian = .ok track) :
    ∃ packets, Encodes codec (codec.new sampleRate channels bitDepth)
        (converted.toChunks (codec.framesPerPacket * (bytesPerSample * channels.toNat))) packets ∧
      track.bytes = packets.flatten := by
  have hframe : alacBytesPerFrame channels bitDepth = .ok (bytesPerSample * channels.toNat) := by
    rw [alacBytesPerFrame, hsupported]
    rfl
  rw [remuxPcmAsAlac, bind_of_ok hframe] at h
  generalize bytesPerSample * channels.toNat = bytesPerFrame at h
  split at h
  · cases h
  rename_i hne
  split at h
  · cases h
  rename_i haligned
  rw [bind_of_ok hconverted] at h
  obtain ⟨sampleEntry, -, h⟩ := bind_eq_ok h
  obtain ⟨⟨payload, samples⟩, hpackets, h⟩ := bind_eq_ok h
  have hpos : 0 < bytesPerFrame := Nat.pos_of_ne_zero hne
  have hwhole : bytesPerFrame ∣ converted.length := by
    rw [hlength]
    exact Nat.dvd_of_mod_eq_zero (not_not.1 haligned)
  have hframes : ∀ pcmChunk ∈ converted.toChunks (codec.framesPerPacket * bytesPerFrame),
      pcmChunk.length / bytesPerFrame ≠ 0 := by
    intro pcmChunk hchunk
    obtain ⟨hdvd, hsome⟩ := Chunks.pieces_of_mem_toChunks (Nat.dvd_mul_left _ _) converted hwhole pcmChunk hchunk
    exact Nat.ne_of_gt (Nat.div_pos (Nat.le_of_dvd (List.length_pos_iff.2 hsome) hdvd) hpos)
  obtain ⟨packets, hencodes, hpayload⟩ := alacPackets_encodes hframes hpackets
  refine ⟨packets, hencodes, ?_⟩
  dsimp only at h
  split at h
  · cases h
  obtain ⟨timescale, -, h⟩ := bind_eq_ok h
  split at h
  · cases h
    exact hpayload
  · cases h

end Packets

/-- The samples of the whole data and of each packet are those of the source, and the packets of a track are what the
encoder makes of them. -/
theorem alac_preserves_samples {ε σ : Type} (codec : AlacCodec σ) (entries : SampleEntries ε) (address : Nat)
    (payload : AlacPayload) (sourceBigEndian : Bool) (sampleRate : UInt32) (channels : UInt8) :
    ∃ converted, pcmToAlacBytes payload.pcmBytes payload.bitDepth sourceBigEndian = .ok converted ∧
      converted.length = payload.pcmBytes.length ∧
      decodeSamples (targetBigEndian payload.bitDepth) payload.bytesPerSample converted =
        payload.samples sourceBigEndian ∧
      (converted.toChunks (codec.framesPerPacket * (payload.bytesPerSample * channels.toNat))).map
          (decodeSamples (targetBigEndian payload.bitDepth) payload.bytesPerSample) =
        (payload.pcmBytes.toChunks (codec.framesPerPacket * (payload.bytesPerSample * channels.toNat))).map
          (decodeSamples sourceBigEndian payload.bytesPerSample) ∧
      ∀ track, remuxPcmAsAlac codec entries address payload.pcmBytes sampleRate channels payload.bitDepth
          sourceBigEndian = .ok track →
        ∃ packets, Encodes codec (codec.new sampleRate channels payload.bitDepth)
            (converted.toChunks (codec.framesPerPacket * (payload.bytesPerSample * channels.toNat))) packets ∧
          track.bytes = packets.flatten := by
  obtain ⟨converted, hconverted, hlength, hsamples, hchunks⟩ := pcmToAlacBytes_spec payload sourceBigEndian
  refine ⟨converted, hconverted, hlength, hsamples,
    hchunks _ (Nat.dvd_mul_left_of_dvd (Nat.dvd_mul_right _ _) _), ?_⟩
  intro track htrack
  exact remuxPcmAsAlac_encodes payload.supported hconverted hlength htrack

end Kanade

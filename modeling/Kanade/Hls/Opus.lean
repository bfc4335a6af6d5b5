import Kanade.Bits.Byte
import Kanade.Hls.Ogg

/-!
# Kanade.Hls.Opus

The durations of Opus packets: what `opus_packet_duration` reads off the first two bytes, and what they say.

* `packetDuration_iff`: the two agree for seven of the 32 configurations.
* `opus_timing_iff`: so the samples of a track have the durations of their packets exactly if these have no
  other configuration.
-/

namespace Kanade

/-! ## Packets -/

/-- Samples of a frame at 48 kHz: 10, 20, 40 and 60 ms of SILK, 10 and 20 ms of both, or 2.5 to 20 ms of CELT. -/
def opusFrameSize (config : Nat) : Nat :=
  if config < 12 then [480, 960, 1920, 2880].getD (config % 4) 0
  else if config < 16 then [480, 960].getD (config % 2) 0
  else [120, 240, 480, 960].getD (config % 4) 0

/-- The five bits on top of the first byte. -/
def opusConfig (packet : List UInt8) : Nat := packet.head?.elim 0 fun toc => toc.toNat / 8

/-- By the two bits below, one frame, two, or as many as the next byte has. -/
def opusFrameCount : List UInt8 → Nat
  | [] => 0
  | toc :: packet =>
    if toc.toNat % 4 = 0 then 1
    else if toc.toNat % 4 = 3 then packet.head?.elim 0 fun count => count.toNat % 64
    else 2

def opusDuration (packet : List UInt8) : Nat := opusFrameSize (opusConfig packet) * opusFrameCount packet

/-- A packet has a first byte, and at least one frame but no more than 120 ms. What a well-formed packet must
be besides is about the lengths of the frames. -/
structure OpusConforms (packet : List UInt8) : Prop where
  frames : 1 ≤ opusFrameCount packet
  duration : opusDuration packet ≤ 5760

instance (packet : List UInt8) : Decidable (OpusConforms packet) :=
  decidable_of_iff (1 ≤ opusFrameCount packet ∧ opusDuration packet ≤ 5760)
    ⟨fun h => ⟨h.1, h.2⟩, fun h => ⟨h.frames, h.duration⟩⟩

/-- A stream of a header, comments and packets of audio. -/
structure OpusStream extends OggStream where
  head : List UInt8
  tags : List UInt8
  audio : List (List UInt8)
  packets_eq : packets = head :: tags :: audio
  isHead : isOpusHead head = true
  isTags : isOpusTags tags = true
  audio_ne : audio ≠ []
  conforms : ∀ packet ∈ audio, OpusConforms packet

/-- One sample for each packet, with its bytes and its duration. -/
structure OpusExact {ε : Type} (packets : List (List UInt8)) (track : RemuxedTrack ε) : Prop where
  ranges : Contiguous 0 (track.samples.map RemuxSampleRef.range) track.bytes.length
  bytes : track.samples.map track.bytesOf = packets
  durations : track.samples.map (fun sample => sample.duration.toNat) = packets.map opusDuration
  total : totalDuration track.samples = (packets.map opusDuration).foldl (fun total n => total + n) 0

/-! ## Durations -/

section Durations

variable {packet : List UInt8}

/-- The sizes of frames as the code groups the configurations. -/
def groupedFrameSize (config : Nat) : Nat :=
  if config ≤ 3 then 480
  else if config ≤ 7 then 960
  else if config ≤ 11 then 1920
  else if config ≤ 15 then 2880
  else if config ≤ 19 then 120
  else if config ≤ 23 then 240
  else if config ≤ 27 then 480
  else 960

/-- The configurations whose frames have the size of their group. -/
def timedConfigs : List Nat := [0, 5, 10, 16, 21, 26, 31]

theorem groupedFrameSize_iff : ∀ config < 32,
    (groupedFrameSize config = opusFrameSize config ↔ config ∈ timedConfigs) := by
  decide

theorem groupedFrameSize_bounds (config : Nat) :
    0 < groupedFrameSize config ∧ groupedFrameSize config ≤ 2880 := by
  unfold groupedFrameSize
  grind

theorem opusConfig_lt (packet : List UInt8) : opusConfig packet < 32 := by
  cases packet with
  | nil => decide
  | cons toc packet =>
    have hlt := toc.toNat_lt
    show toc.toNat / 8 < 32
    omega

theorem opusFrameCount_lt (packet : List UInt8) : opusFrameCount packet < 64 := by
  cases packet with
  | nil => decide
  | cons toc packet =>
    have hcount : (packet.head?.elim 0 fun count => count.toNat % 64) < 64 := by
      cases packet with
      | nil => decide
      | cons count packet => exact Nat.mod_lt count.toNat (Nat.zero_lt_succ 63)
    unfold opusFrameCount
    grind

/-- `max` of the machine integers, which have it from `≤`. -/
theorem max_eq_of_le {α : Type} [LE α] [DecidableLE α] (hantisymm : ∀ {a b : α}, a ≤ b → b ≤ a → a = b) {a b : α}
    (h : b ≤ a) : maxOfLe.max a b = a := by
  change (if a ≤ b then b else a) = a
  split
  · rename_i hle
    exact hantisymm h hle
  · rfl

/-- The count of frames in a packet that has any. -/
theorem toNat_frames {toc : UInt8} (hframes : 1 ≤ opusFrameCount (toc :: packet)) :
    (if toc &&& 0x03 = 0 then (1 : UInt8)
      else if toc &&& 0x03 = 3 then (packet.head?.map fun v => max (v &&& 0x3F) 1).getD 1
      else 2).toNat = opusFrameCount (toc :: packet) := by
  have hzero : toc &&& 0x03 = 0 ↔ toc.toNat % 4 = 0 := by
    rw [← UInt8.toNat_inj, Bits.toNat_and_low toc 2 rfl]
    rfl
  have hthree : toc &&& 0x03 = 3 ↔ toc.toNat % 4 = 3 := by
    rw [← UInt8.toNat_inj, Bits.toNat_and_low toc 2 rfl]
    rfl
  unfold opusFrameCount at hframes ⊢
  simp only [hzero, hthree]
  split
  · rfl
  split
  · rename_i hcode
    dsimp only at hframes
    rw [if_neg (by omega), if_pos hcode] at hframes
    cases packet with
    | nil => cases hframes
    | cons count packet =>
      have hmask : (count &&& 0x3F).toNat = count.toNat % 64 := Bits.toNat_and_low count 6 rfl
      have hcount : 1 ≤ count &&& 0x3F := by
        rw [UInt8.le_iff_toNat_le, hmask]
        exact hframes
      have hmax : max (count &&& 0x3F) 1 = count &&& 0x3F := max_eq_of_le UInt8.le_antisymm hcount
      rw [List.head?_cons, Option.map_some, Option.getD_some, hmax, hmask]
      rfl
  · rfl

theorem toNat_samplesPerFrame (toc : UInt8) :
    (if toc >>> 3 ≤ 3 then (480 : UInt32)
      else if toc >>> 3 ≤ 7 then 960
      else if toc >>> 3 ≤ 11 then 1920
      else if toc >>> 3 ≤ 15 then 2880
      else if toc >>> 3 ≤ 19 then 120
      else if toc >>> 3 ≤ 23 then 240
      else if toc >>> 3 ≤ 27 then 480
      else 960).toNat = groupedFrameSize (toc.toNat / 8) := by
  have hconfig : (toc >>> 3).toNat = toc.toNat / 8 := Bits.toNat_shiftRight toc (by decide)
  rw [← hconfig]
  simp only [UInt8.le_iff_toNat_le, apply_ite UInt32.toNat]
  rfl

/-- What is read off is the size by the groups times the number of frames. -/
theorem toNat_packetDuration (hconforms : OpusConforms packet) :
    (max (opusPacketDuration packet) 1).toNat =
      groupedFrameSize (opusConfig packet) * opusFrameCount packet := by
  have hframes := hconforms.frames
  cases packet with
  | nil => cases hframes
  | cons toc packet =>
    have hproduct : (opusPacketDuration (toc :: packet)).toNat =
        groupedFrameSize (toc.toNat / 8) * opusFrameCount (toc :: packet) := by
      have hlt : groupedFrameSize (toc.toNat / 8) * opusFrameCount (toc :: packet) < 2 ^ 32 :=
        calc groupedFrameSize (toc.toNat / 8) * opusFrameCount (toc :: packet)
            ≤ 2880 * 64 := Nat.mul_le_mul (groupedFrameSize_bounds _).2 (Nat.le_of_lt (opusFrameCount_lt _))
          _ < 2 ^ 32 := by decide
      unfold opusPacketDuration
      dsimp only
      rw [UInt32.toNat_mul, toNat_samplesPerFrame, UInt8.toNat_toUInt32, toNat_frames hframes,
        Nat.mod_eq_of_lt hlt]
    have hpos : 1 ≤ opusPacketDuration (toc :: packet) := by
      rw [UInt32.le_iff_toNat_le, hproduct]
      exact Nat.mul_pos (groupedFrameSize_bounds _).1 hframes
    have hmax : max (opusPacketDuration (toc :: packet)) 1 = opusPacketDuration (toc :: packet) :=
      max_eq_of_le UInt32.le_antisymm hpos
    rw [hmax, hproduct]
    rfl

/-- The duration is that of the packet exactly for these configurations. -/
theorem packetDuration_iff (hconforms : OpusConforms packet) :
    (max (opusPacketDuration packet) 1).toNat = opusDuration packet ↔ opusConfig packet ∈ timedConfigs := by
  rw [toNat_packetDuration hconforms, ← groupedFrameSize_iff _ (opusConfig_lt packet)]
  exact Nat.mul_left_inj (Nat.ne_of_gt hconforms.frames)

/-- Nothing that begins like a header is a packet: 48 frames of 20 ms. -/
theorem isAudio_of_conforms (hconforms : OpusConforms packet) : isAudio packet = true := by
  have hno : ∀ tail, ¬ (79 :: 112 :: tail) <+: packet := by
    rintro tail ⟨rest, rfl⟩
    have hlong : opusFrameSize 9 * 48 ≤ 5760 := hconforms.duration
    exact absurd hlong (by decide)
  have hhead : isOpusHead packet = false := by
    rw [isOpusHead, decide_eq_false_iff_not]
    intro h
    exact hno [117, 115, 72, 101, 97, 100] (List.isPrefixOf_iff_prefix.1 h.1)
  have htags : isOpusTags packet = false := by
    rw [isOpusTags, Bool.eq_false_iff]
    intro h
    exact hno [117, 115, 84, 97, 103, 115] (List.isPrefixOf_iff_prefix.1 h)
  rw [isAudio, hhead, htags]
  rfl

end Durations

/-! ## Tracks -/

section Track

variable {ε : Type} {packets : List (List UInt8)} {payload : List UInt8}

theorem opusSamples_ranges (hne : ∀ packet ∈ packets, packet ≠ []) (payload : List UInt8) :
    Contiguous payload.length ((opusSamples packets payload : List UInt8 × List (RemuxSampleRef ε)).2.map
      RemuxSampleRef.range) (payload ++ packets.flatten).length := by
  induction packets generalizing payload with
  | nil =>
    rw [List.flatten_nil, List.append_nil]
    rfl
  | cons packet packets ih =>
    have hpos := List.length_pos_iff.2 (hne packet List.mem_cons_self)
    have hrest := ih (fun packet hpacket => hne packet (List.mem_cons_of_mem _ hpacket)) (payload ++ packet)
    rw [List.length_append, List.append_assoc] at hrest
    exact ⟨rfl, Nat.lt_add_of_pos_right hpos, hrest⟩

theorem opusSamples_durations (packets : List (List UInt8)) (payload : List UInt8) :
    (opusSamples packets payload : List UInt8 × List (RemuxSampleRef ε)).2.map
      (fun sample => sample.duration.toNat) =
        packets.map fun packet => (max (opusPacketDuration packet) 1).toNat := by
  induction packets generalizing payload with
  | nil => rfl
  | cons packet packets ih => rw [opusSamples, List.map_cons, ih, List.map_cons]

theorem opusSamples_length (packets : List (List UInt8)) (payload : List UInt8) :
    (opusSamples packets payload : List UInt8 × List (RemuxSampleRef ε)).2.length = packets.length := by
  induction packets generalizing payload with
  | nil => rfl
  | cons packet packets ih => rw [opusSamples, List.length_cons, ih, List.length_cons]

theorem totalDuration_eq_foldl (samples : List (RemuxSampleRef ε)) :
    totalDuration samples =
      (samples.map fun sample => sample.duration.toNat).foldl (fun total n => total + n) 0 := by
  rw [List.foldl_map]
  rfl

variable {opusEntry : UInt8 → UInt8 → UInt16 → ε} {address : Nat} {properties : FileProperties}

/-- A track is made of any packets of audio, unless there are more than a `Vec` can hold. -/
theorem remuxOpus_ok {bytes : List UInt8} {opus : OggOpusData}
    (hopus : parseOggOpusPackets bytes = some (.ok opus)) (hne : opus.packets ≠ [])
    (hlength : opus.packets.length < 2 ^ 64) :
    ∃ track : RemuxedTrack ε, remuxOpus opusEntry address properties bytes = some (.ok track) ∧
      track.bytes = opus.packets.flatten ∧ track.samples = (opusSamples opus.packets []).2 := by
  have hsamples : (opusSamples opus.packets [] : List UInt8 × List (RemuxSampleRef ε)).2 ≠ [] := by
    intro hnil
    have hzero := congrArg List.length hnil
    rw [opusSamples_length] at hzero
    exact hne (List.length_eq_zero_iff.1 hzero)
  have hcount : (opusSamples opus.packets [] : List UInt8 × List (RemuxSampleRef ε)).2.length < 2 ^ 64 := by
    rwa [opusSamples_length]
  unfold remuxOpus
  rw [hopus]
  have hscale : nonzero 48000 = .ok 48000 := rfl
  dsimp only [Option.map_some, bind, Except.bind]
  rw [if_neg hsamples, hscale]
  dsimp only
  rw [dif_pos hcount]
  exact ⟨_, rfl, opusSamples_payload opus.packets [], rfl⟩

theorem OpusStream.filter_isAudio (stream : OpusStream) : stream.packets.filter isAudio = stream.audio := by
  have hhead : isAudio stream.head = false := by simp [isAudio, stream.isHead]
  have htags : isAudio stream.tags = false := by simp [isAudio, stream.isTags]
  have haudio : stream.audio.filter isAudio = stream.audio :=
    List.filter_eq_self.2 fun packet hpacket => isAudio_of_conforms (stream.conforms packet hpacket)
  simp [stream.packets_eq, hhead, htags, haudio]

theorem OpusStream.parse_audio (stream : OpusStream) : ∃ opus,
    parseOggOpusPackets stream.bytes = some (.ok opus) ∧ opus.packets = stream.audio := by
  rcases parseOggOpusPackets_stream stream.toOggStream with ⟨-, opus, hopus, hpackets⟩ | ⟨hnone, -⟩
  · exact ⟨opus, hopus, hpackets.trans stream.filter_isAudio⟩
  · have hmem : stream.head ∈ stream.packets := by simp [stream.packets_eq]
    exact absurd stream.isHead (hnone stream.head hmem)

/-- The samples of a stream are its packets of audio with their durations exactly if the configurations of
all packets are such that the code groups them with frames of their own size. -/
theorem opus_timing_iff (opusEntry : UInt8 → UInt8 → UInt16 → ε) (address : Nat)
    (properties : FileProperties) (stream : OpusStream) :
    2 ^ 64 ≤ stream.audio.length ∨ ∃ track,
      remuxOpus opusEntry address properties stream.bytes = some (.ok track) ∧
        (OpusExact stream.audio track ↔ ∀ packet ∈ stream.audio, opusConfig packet ∈ timedConfigs) := by
  rcases Nat.lt_or_ge stream.audio.length (2 ^ 64) with hlength | hlong
  swap
  · exact .inl hlong
  obtain ⟨opus, hopus, hpackets⟩ := stream.parse_audio
  rw [← hpackets] at hlength
  have hmade : ∃ track : RemuxedTrack ε,
      remuxOpus opusEntry address properties stream.bytes = some (.ok track) ∧
        track.bytes = opus.packets.flatten ∧ track.samples = (opusSamples opus.packets []).2 :=
    remuxOpus_ok hopus (hpackets ▸ stream.audio_ne) hlength
  obtain ⟨track, htrack, hbytes, hsamples⟩ := hmade
  rw [hpackets] at hbytes hsamples
  refine .inr ⟨track, htrack, ?_⟩
  have hdurations : track.samples.map (fun sample => sample.duration.toNat) =
        stream.audio.map opusDuration ↔ ∀ packet ∈ stream.audio, opusConfig packet ∈ timedConfigs := by
    rw [hsamples, opusSamples_durations, List.map_inj_left]
    refine forall₂_congr fun packet hpacket => ?_
    exact packetDuration_iff (stream.conforms packet hpacket)
  constructor
  · intro hexact
    exact hdurations.1 hexact.durations
  · intro hconfigs
    have hne : ∀ packet ∈ stream.audio, packet ≠ [] := by
      rintro packet hpacket rfl
      cases (stream.conforms [] hpacket).frames
    refine ⟨?_, ?_, hdurations.2 hconfigs, ?_⟩
    · rw [hsamples, hbytes]
      exact opusSamples_ranges hne []
    · rw [hsamples]
      unfold RemuxedTrack.bytesOf
      rw [hbytes]
      have hpayload : (opusSamples stream.audio [] : List UInt8 × List (RemuxSampleRef ε)).1 =
          stream.audio.flatten := opusSamples_payload stream.audio []
      have hsame := @opusSamples_bytes ε stream.audio []
      rwa [hpayload] at hsame
    · rw [totalDuration_eq_foldl, hdurations.2 hconfigs]

/-! One packet of a SILK frame of 20 ms. -/

def silkPage : OggPage where
  header := List.replicate 22 0
  laces := [19, 16, 2]
  data := ascii "OpusHead" ++ [1, 2, 0, 0, 0, 0, 0, 0, 0, 0, 0] ++ ascii "OpusTags" ++
    List.replicate 8 0 ++ [8, 0]
  header_length := rfl
  laces_le := by decide
  data_length := rfl

def silkStream : OpusStream where
  packets := [ascii "OpusHead" ++ [1, 2, 0, 0, 0, 0, 0, 0, 0, 0, 0], ascii "OpusTags" ++ List.replicate 8 0,
    [8, 0]]
  pages := [silkPage]
  lengths := rfl
  data := rfl
  head := ascii "OpusHead" ++ [1, 2, 0, 0, 0, 0, 0, 0, 0, 0, 0]
  tags := ascii "OpusTags" ++ List.replicate 8 0
  audio := [[8, 0]]
  packets_eq := rfl
  isHead := rfl
  isTags := rfl
  audio_ne := List.cons_ne_nil _ _
  conforms := by
    intro packet hpacket
    rw [List.mem_singleton.1 hpacket]
    decide

/-- It becomes a sample of half its duration. -/
theorem silk_frame_halved :
    opusDuration [8, 0] = 960 ∧
      (remuxOpus (fun _ _ _ => ()) 0 fromHeader silkStream.bytes).map (fun track =>
        track.toOption.map fun track => track.samples.map fun sample => sample.duration.toNat) =
          some (some [480]) := by
  decide +kernel

end Track

end Kanade

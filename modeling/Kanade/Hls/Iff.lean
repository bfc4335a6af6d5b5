import Kanade.Bits.Byte
import Kanade.Hls.Pcm

/-!
# Kanade.Hls.Iff

`parse_wav_pcm` and `parse_aiff_pcm` by their offsets, where a slice out of range panics, and what they find in
a file.

* `iffWalk_eq`: the loop over the chunks ends, with the chunks that fit.
* `wav_any_order`: the chunks of a WAV file in any order.
* `aiff_range_iff`: when the data of an AIFF file lies inside its chunk.
-/

namespace Kanade

/-! ## The loops -/

/-- What a loop does with a chunk: its id, the offset and size of its data. -/
abbrev ChunkHandler : Type := List UInt8 → Nat → Nat → PcmState → Except HlsFailure PcmState

/-- The loop over the chunks; no result if it is not over within so many rounds. -/
def iffWalk (readSize : List UInt8 → Nat) (handle : ChunkHandler) (bytes : List UInt8) :
    Nat → Nat → PcmState → Option (Except HlsFailure PcmState)
  | fuel, offset, s =>
    if offset + 8 ≤ bytes.length then
      match fuel with
      | 0 => none
      | fuel + 1 =>
        match slice? bytes offset (offset + 4), slice? bytes (offset + 4) (offset + 8) with
        | some chunkId, some size =>
          let chunkSize := readSize size
          let chunkEnd := offset + 8 + chunkSize
          if bytes.length < chunkEnd then some (.ok s)
          else
            match handle chunkId (offset + 8) chunkSize s with
            | .error e => some (.error e)
            | .ok s => iffWalk readSize handle bytes fuel (chunkEnd + chunkSize % 2) s
        | _, _ => some (.error .panic)
    else some (.ok s)

def wavHandler (bytes : List UInt8) : ChunkHandler := fun chunkId offset chunkSize s =>
  if chunkId = ascii "fmt " ∧ 16 ≤ chunkSize then do
    let channels ← orPanic (slice? bytes (offset + 2) (offset + 4))
    let sampleRate ← orPanic (slice? bytes (offset + 4) (offset + 8))
    let bitsPerSample ← orPanic (slice? bytes (offset + 14) (offset + 16))
    .ok { s with
      channels := some (UInt8.ofNat (readLe channels))
      sampleRate := some (UInt32.ofNat (readLe sampleRate))
      bitsPerSample := some (UInt8.ofNat (readLe bitsPerSample)) }
  else if chunkId = ascii "data" then .ok { s with data := some (offset, chunkSize) }
  else .ok s

def walkWavPcm (bytes : List UInt8) : Option (Except HlsFailure PcmInfo) :=
  if bytes.length < 12 then some (.error (.invalidData "not a RIFF/WAVE file"))
  else
    match slice? bytes 0 4, slice? bytes 8 12 with
    | some riff, some wave =>
      if riff ≠ ascii "RIFF" ∨ wave ≠ ascii "WAVE" then some (.error (.invalidData "not a RIFF/WAVE file"))
      else
        (iffWalk readLe (wavHandler bytes) bytes bytes.length 12 {}).map fun s =>
          s.bind fun s => s.finish "WAV" "data"
    | _, _ => some (.error .panic)

def aiffHandler (extendedF80 : List UInt8 → UInt32) (bytes : List UInt8) : ChunkHandler :=
  fun chunkId offset chunkSize s =>
    if chunkId = ascii "COMM" ∧ 18 ≤ chunkSize then do
      let channels ← orPanic (slice? bytes offset (offset + 2))
      let bitsPerSample ← orPanic (slice? bytes (offset + 6) (offset + 8))
      let sampleRate ← orPanic (slice? bytes (offset + 8) (offset + 18))
      .ok { s with
        channels := some (UInt8.ofNat (readBe channels))
        bitsPerSample := some (UInt8.ofNat (readBe bitsPerSample))
        sampleRate := some (extendedF80 sampleRate) }
    else if chunkId = ascii "SSND" ∧ 8 ≤ chunkSize then do
      let field ← orPanic (slice? bytes offset (offset + 4))
      let dataOffsetInChunk := readBe field
      let payloadOffset := offset + 8 + dataOffsetInChunk
      let payloadLen := chunkSize - (8 + dataOffsetInChunk)
      .ok { s with data := some (payloadOffset, payloadLen) }
    else .ok s

def walkAiffPcm (extendedF80 : List UInt8 → UInt32) (bytes : List UInt8) :
    Option (Except HlsFailure PcmInfo) :=
  if bytes.length < 12 then some (.error (.invalidData "not an AIFF file"))
  else
    match slice? bytes 0 4, slice? bytes 8 12 with
    | some form, some formType =>
      if form ≠ ascii "FORM" then some (.error (.invalidData "not an AIFF file"))
      else if formType ≠ ascii "AIFF" ∧ formType ≠ ascii "AIFC" then
        some (.error (.invalidData "unsupported AIFF form type"))
      else
        (iffWalk readBe (aiffHandler extendedF80 bytes) bytes bytes.length 12 {}).map fun s =>
          s.bind fun s => s.finish "AIFF" "SSND"
    | _, _ => some (.error .panic)

/-! ## Chunks in range -/

section Walk

variable {readSize : List UInt8 → Nat} {handle : ChunkHandler} {bytes : List UInt8} {fuel offset : Nat}
  {s : PcmState} {take : PcmState → IffChunk → PcmState}

/-- A part of a chunk is a part of the file. -/
theorem slice?_chunk {size i n : Nat} (hchunk : offset + size ≤ bytes.length) (hpart : i + n ≤ size) :
    slice? bytes (offset + i) (offset + i + n) = some ((((bytes.drop offset).take size).drop i).take n) := by
  rw [slice?_add (by omega), List.drop_take, List.take_take, List.drop_drop, Nat.min_eq_left (by omega)]

/-- With as much fuel as there are bytes left, the loop ends, and it has taken the chunks that fit. -/
theorem iffWalk_eq (hhandle : ∀ chunkId offset size s, offset + size ≤ bytes.length →
      handle chunkId offset size s = .ok (take s ⟨chunkId, offset, (bytes.drop offset).take size⟩))
    (hfuel : bytes.length ≤ offset + fuel) :
    iffWalk readSize handle bytes fuel offset s =
      some (.ok ((iffChunks readSize fuel offset (bytes.drop offset)).foldl take s)) := by
  induction fuel generalizing offset s with
  | zero =>
    unfold iffWalk
    rw [if_neg (by omega)]
    rfl
  | succ fuel ih =>
    have hlength : (bytes.drop offset).length = bytes.length - offset := List.length_drop
    unfold iffWalk iffChunks
    by_cases hmore : offset + 8 ≤ bytes.length
    · have hid : slice? bytes offset (offset + 4) = some ((bytes.drop offset).take 4) := slice?_add (by omega)
      have hsize : slice? bytes (offset + 4) (offset + 8) = some (((bytes.drop offset).drop 4).take 4) := by
        rw [List.drop_drop]
        exact @slice?_add _ bytes (offset + 4) 4 (by omega)
      rw [if_pos hmore, if_neg (by omega), hid, hsize]
      dsimp only
      generalize readSize (((bytes.drop offset).drop 4).take 4) = size
      by_cases hfits : bytes.length < offset + 8 + size
      · rw [if_pos hfits, if_pos (by rw [List.length_drop]; omega)]
        rfl
      · have hdrop : bytes.drop (offset + 8) = (bytes.drop offset).drop 8 := List.drop_drop.symm
        have hrest : (bytes.drop offset).drop (8 + size + size % 2) =
            bytes.drop (offset + 8 + size + size % 2) := by
          rw [List.drop_drop]
          congr 1
          omega
        rw [if_neg hfits, if_neg (by rw [List.length_drop]; omega), hhandle _ _ _ _ (by omega), hdrop, hrest]
        exact ih (by omega)
    · rw [if_neg hmore, if_pos (by omega)]
      rfl

/-- No slice that the handler takes of a chunk is out of range. -/
theorem wavHandler_eq {chunkId : List UInt8} {size : Nat} (hchunk : offset + size ≤ bytes.length) :
    wavHandler bytes chunkId offset size s =
      .ok (wavChunk s ⟨chunkId, offset, (bytes.drop offset).take size⟩) := by
  have hlength : ((bytes.drop offset).take size).length = size := by
    rw [List.length_take, List.length_drop]
    omega
  unfold wavHandler wavChunk
  dsimp only
  rw [hlength]
  split
  · rename_i hfmt
    have hchannels := @slice?_chunk bytes offset size 2 2 hchunk (by omega)
    have hrate := @slice?_chunk bytes offset size 4 4 hchunk (by omega)
    have hbits := @slice?_chunk bytes offset size 14 2 hchunk (by omega)
    rw [bind_of_ok (orPanic_of_some hchannels), bind_of_ok (orPanic_of_some hrate),
      bind_of_ok (orPanic_of_some hbits)]
  · split <;> rfl

theorem aiffHandler_eq {extendedF80 : List UInt8 → UInt32} {chunkId : List UInt8} {size : Nat}
    (hchunk : offset + size ≤ bytes.length) :
    aiffHandler extendedF80 bytes chunkId offset size s =
      .ok (aiffChunk extendedF80 s ⟨chunkId, offset, (bytes.drop offset).take size⟩) := by
  have hlength : ((bytes.drop offset).take size).length = size := by
    rw [List.length_take, List.length_drop]
    omega
  unfold aiffHandler aiffChunk
  dsimp only
  rw [hlength]
  split
  · rename_i hcomm
    have hchannels : slice? bytes offset (offset + 2) = some (((bytes.drop offset).take size).take 2) :=
      @slice?_chunk bytes offset size 0 2 hchunk (by omega)
    have hbits := @slice?_chunk bytes offset size 6 2 hchunk (by omega)
    have hrate := @slice?_chunk bytes offset size 8 10 hchunk (by omega)
    rw [bind_of_ok (orPanic_of_some hchannels), bind_of_ok (orPanic_of_some hbits),
      bind_of_ok (orPanic_of_some hrate)]
  · split
    · rename_i hssnd
      have hfield : slice? bytes offset (offset + 4) = some (((bytes.drop offset).take size).take 4) :=
        @slice?_chunk bytes offset size 0 4 hchunk (by omega)
      rw [bind_of_ok (orPanic_of_some hfield), Nat.add_assoc]
    · rfl

theorem walkWavPcm_eq (bytes : List UInt8) : walkWavPcm bytes = some (parseWavPcm bytes) := by
  unfold walkWavPcm parseWavPcm
  by_cases hlength : bytes.length < 12
  · rw [if_pos hlength, if_pos (.inl hlength)]
  · have hriff : slice? bytes 0 4 = some (bytes.take 4) := @slice?_add _ bytes 0 4 (by omega)
    have hwave : slice? bytes 8 12 = some ((bytes.drop 8).take 4) := @slice?_add _ bytes 8 4 (by omega)
    rw [if_neg hlength, hriff, hwave]
    dsimp only
    rw [@iffWalk_eq readLe (wavHandler bytes) bytes bytes.length 12 {} wavChunk
      (fun _ _ _ _ => wavHandler_eq) (Nat.le_add_left bytes.length 12)]
    simp only [hlength, false_or]
    split <;> rfl

theorem walkAiffPcm_eq (extendedF80 : List UInt8 → UInt32) (bytes : List UInt8) :
    walkAiffPcm extendedF80 bytes = some (parseAiffPcm extendedF80 bytes) := by
  unfold walkAiffPcm parseAiffPcm
  by_cases hlength : bytes.length < 12
  · rw [if_pos hlength, if_pos (.inl hlength)]
  · have hform : slice? bytes 0 4 = some (bytes.take 4) := @slice?_add _ bytes 0 4 (by omega)
    have htype : slice? bytes 8 12 = some ((bytes.drop 8).take 4) := @slice?_add _ bytes 8 4 (by omega)
    rw [if_neg hlength, hform, htype]
    dsimp only
    rw [@iffWalk_eq readBe (aiffHandler extendedF80 bytes) bytes bytes.length 12 {} (aiffChunk extendedF80)
      (fun _ _ _ _ => aiffHandler_eq) (Nat.le_add_left bytes.length 12)]
    simp only [hlength, false_or]
    split
    · rfl
    · split <;> rfl

/-- A chunk that is taken lies in the file. -/
theorem iffChunks_bounds {chunk : IffChunk}
    (h : chunk ∈ iffChunks readSize fuel offset (bytes.drop offset)) :
    chunk.offset + chunk.data.length ≤ bytes.length := by
  induction fuel generalizing offset with
  | zero => cases h
  | succ fuel ih =>
    unfold iffChunks at h
    split at h
    · cases h
    · dsimp only at h
      generalize readSize (((bytes.drop offset).drop 4).take 4) = size at h
      rw [List.length_drop, List.length_drop] at h
      rename_i hmore
      rw [List.length_drop] at hmore
      split at h
      · cases h
      · rcases List.mem_cons.1 h with rfl | h
        · dsimp only
          rw [List.length_take, List.length_drop, List.length_drop]
          omega
        · have hrest : (bytes.drop offset).drop (8 + size + size % 2) =
              bytes.drop (offset + 8 + size + size % 2) := by
            rw [List.drop_drop]
            congr 1
            omega
          rw [hrest] at h
          exact ih h

end Walk

/-! ## WAV -/

def le16 (n : Nat) : List UInt8 := [UInt8.ofNat (n % 256), UInt8.ofNat (n / 256)]

def le32 (n : Nat) : List UInt8 :=
  [UInt8.ofNat (n % 256), UInt8.ofNat (n / 256 % 256), UInt8.ofNat (n / 65536 % 256), UInt8.ofNat (n / 16777216)]

/-- A chunk with its byte of padding, which is there if the length is odd. -/
structure RiffChunk where
  chunkId : List UInt8
  data : List UInt8
  padding : UInt8
  chunkId_length : chunkId.length = 4
  data_lt : data.length < 2 ^ 32

def RiffChunk.bytes (chunk : RiffChunk) : List UInt8 :=
  chunk.chunkId ++ (le32 chunk.data.length ++
    (chunk.data ++ if chunk.data.length % 2 = 1 then [chunk.padding] else []))

structure WavFmt where
  formatTag : Nat
  channels : Nat
  sampleRate : Nat
  byteRate : Nat
  blockAlign : Nat
  bitsPerSample : Nat
  extra : List UInt8
  channels_lt : channels < 256
  sampleRate_lt : sampleRate < 2 ^ 32
  bitsPerSample_lt : bitsPerSample < 256

def WavFmt.bytes (fmt : WavFmt) : List UInt8 :=
  le16 fmt.formatTag ++ le16 fmt.channels ++ le32 fmt.sampleRate ++ le32 fmt.byteRate ++ le16 fmt.blockAlign ++
    le16 fmt.bitsPerSample ++ fmt.extra

def RiffChunk.isFmt (chunk : RiffChunk) : Bool := chunk.chunkId = ascii "fmt " ∧ 16 ≤ chunk.data.length

/-- A file of any chunks, with one of the data among them, and one `fmt ` chunk among the others (any that are
too short besides). -/
structure RiffWave where
  riffSize : List UInt8
  before : List RiffChunk
  dataChunk : RiffChunk
  after : List RiffChunk
  fmt : WavFmt
  riffSize_length : riffSize.length = 4
  isData : dataChunk.chunkId = ascii "data"
  noData : ∀ chunk ∈ before ++ after, chunk.chunkId ≠ ascii "data"
  hasFmt : ((before ++ after).filter RiffChunk.isFmt).map RiffChunk.data = [fmt.bytes]

/-- One sample of 16 bits, mono. -/
instance : Inhabited RiffWave where
  default :=
    { riffSize := le32 38
      before := [⟨ascii "fmt ", [1, 0, 1, 0, 0x44, 0xAC, 0, 0, 0x88, 0x58, 1, 0, 2, 0, 16, 0], 0, rfl, by decide⟩]
      dataChunk := ⟨ascii "data", [0, 0], 0, rfl, by decide⟩
      after := []
      fmt := ⟨1, 1, 44100, 88200, 2, 16, [], by decide, by decide, by decide⟩
      riffSize_length := rfl
      isData := rfl
      noData := by decide
      hasFmt := by decide }

namespace RiffWave

variable (file : RiffWave)

def chunks : List RiffChunk := file.before ++ file.dataChunk :: file.after

def bytes : List UInt8 :=
  ascii "RIFF" ++ (file.riffSize ++ (ascii "WAVE" ++ file.chunks.flatMap RiffChunk.bytes))

/-- Behind the header of the file, the chunks before the data and the header of its chunk. -/
def dataOffset : Nat := 12 + (file.before.flatMap RiffChunk.bytes).length + 8

end RiffWave

/-- The numbers of the `fmt ` chunk, and where the data is. -/
structure WavExact (file : RiffWave) (info : PcmInfo) : Prop where
  sampleRate : info.sampleRate.toNat = file.fmt.sampleRate
  channels : info.channels.toNat = file.fmt.channels
  bitsPerSample : info.bitsPerSample.toNat = file.fmt.bitsPerSample
  dataOffset : info.dataOffset = file.dataOffset
  dataLen : info.dataLen = file.dataChunk.data.length
  data : slice? file.bytes info.dataOffset (info.dataOffset + info.dataLen) = some file.dataChunk.data

section Wav

theorem readLe_le16 {n : Nat} (hn : n < 2 ^ 16) : readLe (le16 n) = n := by
  simp only [readLe, le16, List.foldr_cons, List.foldr_nil]
  rw [Bits.toNat_ofNat (by omega), Bits.toNat_ofNat (by omega)]
  omega

theorem readLe_le32 {n : Nat} (hn : n < 2 ^ 32) : readLe (le32 n) = n := by
  simp only [readLe, le32, List.foldr_cons, List.foldr_nil]
  rw [Bits.toNat_ofNat (by omega), Bits.toNat_ofNat (by omega), Bits.toNat_ofNat (by omega),
    Bits.toNat_ofNat (by omega)]
  omega

theorem length_le32 (n : Nat) : (le32 n).length = 4 := rfl

theorem RiffChunk.length_bytes (chunk : RiffChunk) :
    chunk.bytes.length = 8 + chunk.data.length + chunk.data.length % 2 := by
  have hpadding : (if chunk.data.length % 2 = 1 then [chunk.padding] else []).length = chunk.data.length % 2 := by
    split
    · rename_i hodd
      rw [hodd]
      rfl
    · rename_i heven
      rw [List.length_nil]
      omega
  rw [bytes, List.length_append, List.length_append, List.length_append, chunk.chunkId_length, length_le32,
    hpadding]
  omega

/-- The chunks of a file, as the loop sees them. -/
def placedChunks : Nat → List RiffChunk → List IffChunk
  | _, [] => []
  | offset, chunk :: chunks =>
    ⟨chunk.chunkId, offset + 8, chunk.data⟩ :: placedChunks (offset + chunk.bytes.length) chunks

theorem iffChunks_file {chunks : List RiffChunk} {fuel offset : Nat} (hfuel : chunks.length ≤ fuel) :
    iffChunks readLe fuel offset (chunks.flatMap RiffChunk.bytes) = placedChunks offset chunks := by
  induction chunks generalizing fuel offset with
  | nil => cases fuel <;> rfl
  | cons chunk chunks ih =>
    cases fuel with
    | zero => cases hfuel
    | succ fuel =>
      have hlength := chunk.length_bytes
      have hid : (chunk.bytes ++ chunks.flatMap RiffChunk.bytes).take 4 = chunk.chunkId := by
        rw [RiffChunk.bytes, List.append_assoc]
        exact List.take_left' chunk.chunkId_length
      have hdrop : (chunk.bytes ++ chunks.flatMap RiffChunk.bytes).drop 4 =
          le32 chunk.data.length ++ ((chunk.data ++ if chunk.data.length % 2 = 1 then [chunk.padding] else []) ++
            chunks.flatMap RiffChunk.bytes) := by
        rw [RiffChunk.bytes, List.append_assoc, List.append_assoc]
        exact List.drop_left' chunk.chunkId_length
      have hsize : readLe (((chunk.bytes ++ chunks.flatMap RiffChunk.bytes).drop 4).take 4) = chunk.data.length := by
        rw [hdrop, List.take_left' (length_le32 _), readLe_le32 chunk.data_lt]
      have hdata : ((chunk.bytes ++ chunks.flatMap RiffChunk.bytes).drop 8).take chunk.data.length = chunk.data := by
        rw [← List.drop_drop (i := 4) (j := 4), hdrop, List.drop_left' (length_le32 _), List.append_assoc, List.take_left]
      have hrest : (chunk.bytes ++ chunks.flatMap RiffChunk.bytes).drop
          (8 + chunk.data.length + chunk.data.length % 2) = chunks.flatMap RiffChunk.bytes :=
        List.drop_left' hlength
      rw [List.flatMap_cons]
      unfold iffChunks
      rw [if_neg (by rw [List.length_append]; omega)]
      dsimp only
      rw [hsize, if_neg (by rw [List.length_drop, List.length_append]; omega), hid, hdata, hrest,
        ih (Nat.le_of_succ_le_succ hfuel), Nat.add_assoc, Nat.add_assoc, ← Nat.add_assoc 8, ← hlength]
      rfl

theorem placedChunks_append (offset : Nat) (chunks chunks' : List RiffChunk) :
    placedChunks offset (chunks ++ chunks') =
      placedChunks offset chunks ++ placedChunks (offset + (chunks.flatMap RiffChunk.bytes).length) chunks' := by
  induction chunks generalizing offset with
  | nil => rfl
  | cons chunk chunks ih =>
    rw [List.cons_append, placedChunks, ih, placedChunks, List.flatMap_cons, List.length_append, Nat.add_assoc]
    rfl

/-- A `fmt ` chunk, wherever it is. -/
def PcmState.takeFmt (s : PcmState) (data : List UInt8) : PcmState := wavChunk s ⟨ascii "fmt ", 0, data⟩

theorem wavChunk_fmt (s : PcmState) (offset : Nat) (data : List UInt8) :
    wavChunk s ⟨ascii "fmt ", offset, data⟩ = s.takeFmt data := by
  have hne : ascii "fmt " ≠ ascii "data" := by decide
  unfold PcmState.takeFmt wavChunk
  simp only [hne, if_false]

/-- Of chunks without data, those of the format are taken. -/
theorem foldl_wavChunk {chunks : List RiffChunk} (hnoData : ∀ chunk ∈ chunks, chunk.chunkId ≠ ascii "data")
    (offset : Nat) (s : PcmState) :
    (placedChunks offset chunks).foldl wavChunk s =
      ((chunks.filter RiffChunk.isFmt).map RiffChunk.data).foldl PcmState.takeFmt s := by
  induction chunks generalizing offset s with
  | nil => rfl
  | cons chunk chunks ih =>
    have hrest := ih fun chunk hchunk => hnoData chunk (List.mem_cons_of_mem _ hchunk)
    rw [placedChunks, List.foldl_cons, hrest]
    by_cases hfmt : chunk.chunkId = ascii "fmt " ∧ 16 ≤ chunk.data.length
    · have hkept : chunk.isFmt = true := decide_eq_true hfmt
      rw [List.filter_cons_of_pos hkept, hfmt.1, wavChunk_fmt, List.map_cons, List.foldl_cons]
    · have hother : wavChunk s ⟨chunk.chunkId, offset + 8, chunk.data⟩ = s := by
        unfold wavChunk
        rw [if_neg hfmt, if_neg (hnoData chunk List.mem_cons_self)]
      have hdropped : ¬ chunk.isFmt = true := fun h => hfmt (of_decide_eq_true h)
      rw [List.filter_cons_of_neg hdropped, hother]

theorem takeFmt_bytes (fmt : WavFmt) (s : PcmState) : s.takeFmt fmt.bytes =
    { s with
      channels := some (UInt8.ofNat fmt.channels)
      sampleRate := some (UInt32.ofNat fmt.sampleRate)
      bitsPerSample := some (UInt8.ofNat fmt.bitsPerSample) } := by
  have hlength : 16 ≤ fmt.bytes.length := by
    simp only [WavFmt.bytes, le16, le32, List.length_append, List.length_cons, List.length_nil]
    omega
  have hchannels : (fmt.bytes.drop 2).take 2 = le16 fmt.channels := rfl
  have hrate : (fmt.bytes.drop 4).take 4 = le32 fmt.sampleRate := rfl
  have hbits : (fmt.bytes.drop 14).take 2 = le16 fmt.bitsPerSample := rfl
  have hchannels_lt : fmt.channels < 2 ^ 16 := Nat.lt_trans fmt.channels_lt (by decide)
  have hbits_lt : fmt.bitsPerSample < 2 ^ 16 := Nat.lt_trans fmt.bitsPerSample_lt (by decide)
  unfold PcmState.takeFmt wavChunk
  rw [if_pos ⟨rfl, hlength⟩, hchannels, hrate, hbits, readLe_le16 hchannels_lt, readLe_le32 fmt.sampleRate_lt,
    readLe_le16 hbits_lt]

theorem wavChunk_data (s : PcmState) (offset : Nat) (data : List UInt8) :
    wavChunk s ⟨ascii "data", offset, data⟩ = { s with data := some (offset, data.length) } := by
  have hne : ¬ (ascii "data" = ascii "fmt " ∧ 16 ≤ data.length) := fun h => absurd h.1 (by decide)
  unfold wavChunk
  rw [if_neg hne, if_pos rfl]

/-- The chunks of a file leave the numbers and the place of the data, whichever comes first. -/
theorem foldl_chunks (file : RiffWave) : (placedChunks 12 file.chunks).foldl wavChunk {} =
    { channels := some (UInt8.ofNat file.fmt.channels)
      sampleRate := some (UInt32.ofNat file.fmt.sampleRate)
      bitsPerSample := some (UInt8.ofNat file.fmt.bitsPerSample)
      data := some (file.dataOffset, file.dataChunk.data.length) } := by
  have hbefore : ∀ chunk ∈ file.before, chunk.chunkId ≠ ascii "data" :=
    fun chunk hchunk => file.noData chunk (List.mem_append_left _ hchunk)
  have hafter : ∀ chunk ∈ file.after, chunk.chunkId ≠ ascii "data" :=
    fun chunk hchunk => file.noData chunk (List.mem_append_right _ hchunk)
  have hfmt := file.hasFmt
  rw [List.filter_append, List.map_append] at hfmt
  rw [RiffWave.chunks, placedChunks_append, List.foldl_append, foldl_wavChunk hbefore, placedChunks, List.foldl_cons,
    file.isData, foldl_wavChunk hafter]
  rcases List.append_eq_singleton_iff.1 hfmt with ⟨hnone, hone⟩ | ⟨hone, hnone⟩
  · rw [hnone, hone, List.foldl_nil, List.foldl_cons, List.foldl_nil, takeFmt_bytes, wavChunk_data]
    rfl
  · rw [hnone, hone, List.foldl_nil, List.foldl_cons, List.foldl_nil, takeFmt_bytes, wavChunk_data]
    rfl

theorem length_chunks_le (chunks : List RiffChunk) : chunks.length ≤ (chunks.flatMap RiffChunk.bytes).length := by
  induction chunks with
  | nil => exact Nat.le_refl 0
  | cons chunk chunks ih =>
    have hlength := chunk.length_bytes
    rw [List.length_cons, List.flatMap_cons, List.length_append]
    omega

theorem RiffWave.bytes_parts (file : RiffWave) : 12 ≤ file.bytes.length ∧
    file.bytes.take 4 = ascii "RIFF" ∧ (file.bytes.drop 8).take 4 = ascii "WAVE" ∧
      file.bytes.drop 12 = file.chunks.flatMap RiffChunk.bytes := by
  have hriff : (ascii "RIFF").length = 4 := by decide
  have hwave : (ascii "WAVE").length = 4 := by decide
  have h4 : file.bytes.drop 4 = file.riffSize ++ (ascii "WAVE" ++ file.chunks.flatMap RiffChunk.bytes) :=
    List.drop_left' hriff
  have h8 : file.bytes.drop 8 = ascii "WAVE" ++ file.chunks.flatMap RiffChunk.bytes := by
    rw [← List.drop_drop (i := 4) (j := 4), h4, List.drop_left' file.riffSize_length]
  have h12 : file.bytes.drop 12 = file.chunks.flatMap RiffChunk.bytes := by
    rw [← List.drop_drop (i := 4) (j := 8), h8, List.drop_left' hwave]
  refine ⟨?_, List.take_left' hriff, h8 ▸ List.take_left' hwave, h12⟩
  rw [RiffWave.bytes, List.length_append, List.length_append, List.length_append, hriff, hwave,
    file.riffSize_length]
  omega

/-- The data is where the chunk of the data is. -/
theorem RiffWave.slice_data (file : RiffWave) :
    slice? file.bytes file.dataOffset (file.dataOffset + file.dataChunk.data.length) =
      some file.dataChunk.data := by
  obtain ⟨hlength, -, -, hdrop⟩ := file.bytes_parts
  have hchunks : file.chunks.flatMap RiffChunk.bytes = file.before.flatMap RiffChunk.bytes ++
      (file.dataChunk.bytes ++ file.after.flatMap RiffChunk.bytes) := by
    rw [RiffWave.chunks, List.flatMap_append, List.flatMap_cons]
  have hrest : file.bytes.drop file.dataOffset =
      file.dataChunk.data ++ ((if file.dataChunk.data.length % 2 = 1 then [file.dataChunk.padding] else []) ++
        file.after.flatMap RiffChunk.bytes) := by
    rw [RiffWave.dataOffset, ← List.drop_drop, ← List.drop_drop, hdrop, hchunks, List.drop_left, RiffChunk.bytes,
      List.append_assoc, ← List.drop_drop (i := 4) (j := 4), List.drop_left' file.dataChunk.chunkId_length,
      List.append_assoc, List.drop_left' (length_le32 _), List.append_assoc]
  have hle : file.dataOffset + file.dataChunk.data.length ≤ file.bytes.length := by
    have hcount := congrArg List.length hrest
    have htotal := congrArg List.length (hdrop.trans hchunks)
    have hdata := file.dataChunk.length_bytes
    rw [List.length_drop, List.length_append] at hcount htotal
    rw [List.length_append] at htotal
    rw [RiffWave.dataOffset]
    omega
  rw [slice?_add hle, hrest, List.take_left]

theorem parseWavPcm_file (file : RiffWave) :
    ∃ info, parseWavPcm file.bytes = .ok info ∧ WavExact file info := by
  obtain ⟨hlength, hriff, hwave, hdrop⟩ := file.bytes_parts
  have hfuel : file.chunks.length ≤ file.bytes.length := by
    have hle := length_chunks_le file.chunks
    rw [← hdrop, List.length_drop] at hle
    omega
  unfold parseWavPcm
  rw [if_neg (by simp [hriff, hwave, hlength]), hdrop, iffChunks_file hfuel, foldl_chunks]
  refine ⟨_, rfl, ?_⟩
  exact {
    sampleRate := UInt32.toNat_ofNat_of_lt' file.fmt.sampleRate_lt
    channels := Bits.toNat_ofNat file.fmt.channels_lt
    bitsPerSample := Bits.toNat_ofNat file.fmt.bitsPerSample_lt
    dataOffset := rfl
    dataLen := rfl
    data := file.slice_data }

end Wav

/-! ## Any bytes -/

section Any

variable {bytes : List UInt8} {s : PcmState} {info : PcmInfo} {format data : String}

theorem finish_ne_panic (s : PcmState) (format data : String) : s.finish format data ≠ .error .panic := by
  unfold PcmState.finish
  split <;> simp [HlsFailure.invalidData]

/-- What is found is a chunk of data, a sample rate and channels. -/
theorem finish_eq_ok (h : s.finish format data = .ok info) : s.data = some (info.dataOffset, info.dataLen) := by
  unfold PcmState.finish at h
  split at h
  · cases h
  · cases h
  · cases h
  · rename_i hdata hrate hchannels
    cases h
    exact hdata

theorem foldl_wavChunk_data {chunks : List IffChunk}
    (hbounds : ∀ chunk ∈ chunks, chunk.offset + chunk.data.length ≤ bytes.length)
    (hs : ∀ offset len, s.data = some (offset, len) → offset + len ≤ bytes.length) (offset len : Nat)
    (h : (chunks.foldl wavChunk s).data = some (offset, len)) : offset + len ≤ bytes.length := by
  induction chunks generalizing s with
  | nil => exact hs offset len h
  | cons chunk chunks ih =>
    refine ih (fun chunk hchunk => hbounds chunk (List.mem_cons_of_mem _ hchunk)) ?_ h
    intro offset len hdata
    unfold wavChunk at hdata
    split at hdata
    · exact hs offset len hdata
    · split at hdata
      · cases hdata
        exact hbounds chunk List.mem_cons_self
      · exact hs offset len hdata

theorem parseWavPcm_bounds (h : parseWavPcm bytes = .ok info) :
    info.dataOffset + info.dataLen ≤ bytes.length := by
  unfold parseWavPcm at h
  split at h
  · cases h
  · refine foldl_wavChunk_data (fun chunk hchunk => iffChunks_bounds hchunk) ?_ _ _ (finish_eq_ok h)
    intro offset len hnone
    cases hnone

theorem parseWavPcm_ne_panic (bytes : List UInt8) : parseWavPcm bytes ≠ .error .panic := by
  unfold parseWavPcm
  split
  · simp [HlsFailure.invalidData]
  · exact finish_ne_panic _ _ _

/-- A file is read whatever the order of its chunks, and no bytes make the loop fail or run out of them. -/
theorem wav_any_order (file : RiffWave) (bytes : List UInt8) :
    (∃ info, walkWavPcm file.bytes = some (.ok info) ∧ WavExact file info) ∧
      ∃ result, walkWavPcm bytes = some result ∧ result ≠ .error .panic ∧
        ∀ info, result = .ok info → info.dataOffset + info.dataLen ≤ bytes.length := by
  constructor
  · obtain ⟨info, hinfo, hexact⟩ := parseWavPcm_file file
    exact ⟨info, (walkWavPcm_eq file.bytes).trans (congrArg some hinfo), hexact⟩
  · exact ⟨parseWavPcm bytes, walkWavPcm_eq bytes, parseWavPcm_ne_panic bytes, fun info => parseWavPcm_bounds⟩

end Any

/-! ## AIFF -/

def IffChunk.isSsnd (chunk : IffChunk) : Bool := chunk.id = ascii "SSND" ∧ 8 ≤ chunk.data.length

/-- The chunk that the data is taken from. -/
def ssndChunk (bytes : List UInt8) : Option IffChunk :=
  ((iffChunks readBe bytes.length 12 (bytes.drop 12)).filter IffChunk.isSsnd).getLast?

/-- `offset` of the chunk, in bytes behind its eight of header. -/
def IffChunk.dataField (chunk : IffChunk) : Nat := readBe (chunk.data.take 4)

/-- The data inside the file and inside its chunk, so that it can be sliced. -/
structure InsideChunk (bytes : List UInt8) (chunk : IffChunk) (info : PcmInfo) : Prop where
  inFile : info.dataOffset + info.dataLen ≤ bytes.length
  start : chunk.offset ≤ info.dataOffset
  stop : info.dataOffset + info.dataLen ≤ chunk.offset + chunk.data.length
  sliced : (slice? bytes info.dataOffset (info.dataOffset + info.dataLen)).isSome = true

section Aiff

variable {extendedF80 : List UInt8 → UInt32} {bytes : List UInt8} {info : PcmInfo} {s : PcmState}

/-- Only the last chunk of the data counts. -/
theorem foldl_aiffChunk_data (chunks : List IffChunk) (s : PcmState) :
    (chunks.foldl (aiffChunk extendedF80) s).data =
      ((chunks.filter IffChunk.isSsnd).getLast?.map fun chunk =>
        (chunk.offset + (8 + chunk.dataField), chunk.data.length - (8 + chunk.dataField))).or s.data := by
  induction chunks generalizing s with
  | nil => rfl
  | cons chunk chunks ih =>
    rw [List.foldl_cons, ih]
    by_cases hssnd : chunk.id = ascii "SSND" ∧ 8 ≤ chunk.data.length
    · have hkept : chunk.isSsnd = true := decide_eq_true hssnd
      have hcomm : ¬ (chunk.id = ascii "COMM" ∧ 18 ≤ chunk.data.length) := by
        intro h
        exact absurd (hssnd.1.symm.trans h.1) (by decide)
      have hdata : (aiffChunk extendedF80 s chunk).data =
          some (chunk.offset + (8 + chunk.dataField), chunk.data.length - (8 + chunk.dataField)) := by
        unfold aiffChunk
        rw [if_neg hcomm, if_pos hssnd]
        rfl
      rw [List.filter_cons_of_pos hkept, List.getLast?_cons, hdata]
      cases (chunks.filter IffChunk.isSsnd).getLast? <;> rfl
    · have hdropped : ¬ chunk.isSsnd = true := fun h => hssnd (of_decide_eq_true h)
      have hdata : (aiffChunk extendedF80 s chunk).data = s.data := by
        unfold aiffChunk
        rw [if_neg hssnd]
        split <;> rfl
      rw [List.filter_cons_of_neg hdropped, hdata]

theorem parseAiffPcm_ne_panic (extendedF80 : List UInt8 → UInt32) (bytes : List UInt8) :
    parseAiffPcm extendedF80 bytes ≠ .error .panic := by
  unfold parseAiffPcm
  split
  · simp [HlsFailure.invalidData]
  · split
    · simp [HlsFailure.invalidData]
    · exact finish_ne_panic _ _ _

/-- The data begins behind the offset field, and has what is left of the chunk. -/
theorem parseAiffPcm_data (h : parseAiffPcm extendedF80 bytes = .ok info) : ∃ chunk,
    ssndChunk bytes = some chunk ∧ chunk.offset + chunk.data.length ≤ bytes.length ∧ 8 ≤ chunk.data.length ∧
      info.dataOffset = chunk.offset + (8 + chunk.dataField) ∧
      info.dataLen = chunk.data.length - (8 + chunk.dataField) := by
  unfold parseAiffPcm at h
  split at h
  · cases h
  · split at h
    · cases h
    · have hdata := finish_eq_ok h
      rw [foldl_aiffChunk_data, Option.or_none] at hdata
      obtain ⟨chunk, hlast, hinfo⟩ := Option.map_eq_some_iff.1 hdata
      have hmem := List.mem_of_getLast? hlast
      obtain ⟨hchunk, hssnd⟩ := List.mem_filter.1 hmem
      rw [Prod.mk.injEq] at hinfo
      exact ⟨chunk, hlast, iffChunks_bounds hchunk, (of_decide_eq_true hssnd).2, hinfo.1.symm, hinfo.2.symm⟩

/-- The loop ends with every slice in range; the data lies inside its chunk exactly if the offset field does. -/
theorem aiff_range_iff (extendedF80 : List UInt8 → UInt32) (bytes : List UInt8) :
    ∃ result, walkAiffPcm extendedF80 bytes = some result ∧ result ≠ .error .panic ∧
      ∀ info, result = .ok info → ∃ chunk, ssndChunk bytes = some chunk ∧
        (InsideChunk bytes chunk info ↔ 8 + chunk.dataField ≤ chunk.data.length) := by
  refine ⟨_, walkAiffPcm_eq extendedF80 bytes, parseAiffPcm_ne_panic extendedF80 bytes, ?_⟩
  intro info hinfo
  obtain ⟨chunk, hchunk, hbounds, hleast, hoffset, hlen⟩ := parseAiffPcm_data hinfo
  refine ⟨chunk, hchunk, ?_, ?_⟩
  · intro hinside
    have hstop := hinside.stop
    rw [hoffset] at hstop
    omega
  · intro hfield
    have hinFile : info.dataOffset + info.dataLen ≤ bytes.length := by omega
    refine ⟨hinFile, by omega, by omega, ?_⟩
    rw [slice?_add hinFile]
    rfl

end Aiff

/-- 96 kHz, two channels of 16 bits, no data, and an offset of 100 in a chunk of eight bytes. -/
def aiffOutside : List UInt8 :=
  ascii "FORM" ++ [0, 0, 0, 46] ++ ascii "AIFF" ++
    ascii "COMM" ++ [0, 0, 0, 18, 0, 2, 0, 0, 0, 0, 0, 16, 0x40, 0x0F, 0xBB, 0x80, 0, 0, 0, 0, 0, 0] ++
      ascii "SSND" ++ [0, 0, 0, 8, 0, 0, 0, 100, 0, 0, 0, 0]

theorem data_outside_file :
    (parseAiffPcm (fun _ => 96000) aiffOutside).toOption = some ⟨96000, 2, 16, 154, 0⟩ ∧
      aiffOutside.length = 54 ∧
      remuxAiff noCodec bareEntries 0 (fun _ => 96000) fromHeader aiffOutside = .error .panic := by
  have hparse : (parseAiffPcm (fun _ => 96000) aiffOutside).toOption = some ⟨96000, 2, 16, 154, 0⟩ := by
    decide +kernel
  have hlength : aiffOutside.length = 54 := by decide
  refine ⟨hparse, hlength, ?_⟩
  cases hok : parseAiffPcm (fun _ => 96000) aiffOutside with
  | error e =>
    rw [hok] at hparse
    cases hparse
  | ok info =>
    rw [hok] at hparse
    cases hparse
    have hslice : slice? aiffOutside 154 154 = none := by
      rw [slice?, hlength]
      rfl
    rw [remuxAiff, bind_of_ok hok, remuxPcm]
    show (if (65535 : UInt32) < 96000 then _ else _) = _
    rw [if_pos (by decide)]
    show (orPanic (slice? aiffOutside 154 154) >>= _) = _
    rw [hslice]
    rfl

end Kanade

import Kanade.Hls.Output

/-!
# Kanade.Hls.Segments

`split_into_segments` and `write_hls_output` as a whole: how the samples are cut up, and where the bytes of
each are in the file of its segment.

* `faithful_splitIntoSegments`: the samples of a segment share their entry, and only one sample that takes
  time by itself exceeds the target.
* `delimits_muxSamples`: the offsets and sizes that the muxer gets.
* `segments_faithful`: both, for all files that are written.
-/

namespace Kanade

variable {ε μ : Type}

/-! ## Segments -/

/-- The samples of a segment. -/
structure Segment (track : RemuxedTrack ε) (target : Nat) (samples : List (RemuxSampleRef ε))
    (duration : Nat) : Prop where
  total : duration = totalDuration samples
  entry : ∀ sample ∈ samples, ∀ sample' ∈ samples,
    (track.entryOf sample).map Arc.address = (track.entryOf sample').map Arc.address
  bounded : duration ≤ target ∨ (samples.filter fun sample => 0 < sample.duration).length = 1

def chunkSamples (track : RemuxedTrack ε) (chunk : SegmentChunk) : List (RemuxSampleRef ε) :=
  (track.samples.take chunk.stop).drop chunk.start

section Split

variable {track : RemuxedTrack ε} {target : Nat} {s : SplitState ε} {sample : RemuxSampleRef ε}
  {samples done : List (RemuxSampleRef ε)}

theorem toNat_pos_iff {d : UInt32} : 0 < d ↔ 0 < d.toNat := UInt32.lt_iff_toNat_lt

theorem segment_nil : Segment track target [] 0 where
  total := rfl
  entry := by
    intro sample hsample
    cases hsample
  bounded := .inl (Nat.zero_le _)

theorem segment_singleton (sample : RemuxSampleRef ε) :
    Segment track target [sample] sample.duration.toNat where
  total := by rw [totalDuration_cons]; rfl
  entry := by
    intro sample₁ h₁ sample₂ h₂
    rw [List.mem_singleton] at h₁ h₂
    rw [h₁, h₂]
  bounded := by
    by_cases hzero : 0 < sample.duration
    · exact .inr (by rw [List.filter_cons_of_pos (by simpa using hzero)]; rfl)
    · rw [toNat_pos_iff, Nat.pos_iff_ne_zero, not_not] at hzero
      exact .inl (hzero ▸ Nat.zero_le target)

theorem filter_of_totalDuration_zero (h : totalDuration samples = 0) :
    (samples.filter fun sample => 0 < sample.duration) = [] := by
  induction samples with
  | nil => rfl
  | cons sample samples ih =>
    rw [totalDuration_cons] at h
    have hzero : ¬ 0 < sample.duration := by
      rw [toNat_pos_iff]
      omega
    rw [List.filter_cons_of_neg (by simpa using hzero), ih (by omega)]

theorem map_address_of_entryChanged {e e' : Option (Arc ε)} (h : entryChanged e e' = false) :
    e'.map Arc.address = e.map Arc.address := by
  cases e with
  | none =>
    cases e' with
    | none => rfl
    | some next => cases h
  | some existing =>
    cases e' with
    | none => cases h
    | some next =>
      have haddress : existing.address = next.address := by simpa [entryChanged] using h
      rw [Option.map_some, Option.map_some, haddress]

/-- One more sample in the same segment. -/
theorem Segment.snoc {duration : Nat} (h : Segment track target samples duration)
    (hentry : ∀ sample' ∈ samples,
      (track.entryOf sample).map Arc.address = (track.entryOf sample').map Arc.address)
    (hfits : 0 < duration → duration + sample.duration.toNat ≤ target) :
    Segment track target (samples ++ [sample]) (duration + sample.duration.toNat) where
  total := by
    rw [totalDuration_append, totalDuration_cons, h.total]
    rfl
  entry := by
    intro sample₁ h₁ sample₂ h₂
    rw [List.mem_append, List.mem_singleton] at h₁ h₂
    rcases h₁ with h₁ | rfl
    · rcases h₂ with h₂ | rfl
      · exact h.entry sample₁ h₁ sample₂ h₂
      · exact (hentry sample₁ h₁).symm
    · rcases h₂ with h₂ | rfl
      · exact hentry sample₂ h₂
      · rfl
  bounded := by
    rcases Nat.eq_zero_or_pos duration with rfl | hpos
    · -- nothing so far takes time
      have halone : Segment track target [sample] _ := segment_singleton sample
      rw [List.filter_append, filter_of_totalDuration_zero h.total.symm, List.nil_append, Nat.zero_add]
      exact halone.bounded
    · exact .inl (hfits hpos)

theorem Tiles.stop_le {a b : Nat} {chunk : SegmentChunk} {chunks : List SegmentChunk}
    (h : Tiles a chunks b) (hchunk : chunk ∈ chunks) : chunk.stop ≤ b := by
  induction chunks generalizing a with
  | nil => cases hchunk
  | cons head chunks ih =>
    obtain ⟨-, -, hrest⟩ := h
    rcases List.mem_cons.1 hchunk with rfl | hchunk
    · have hle := hrest.le
      omega
    · exact ih hrest hchunk

/-- The chunks are segments of the samples so far, and so are the samples since the last of them. -/
structure SplitState.Faithful (track : RemuxedTrack ε) (target : Nat) (s : SplitState ε)
    (done : List (RemuxSampleRef ε)) : Prop where
  covers : s.Covers done.length
  chunks : ∀ chunk ∈ s.chunks,
    Segment track target ((done.take chunk.stop).drop chunk.start) chunk.duration
  current : Segment track target (done.drop s.currentStart) s.currentDuration
  currentEntry : ∀ sample ∈ done.drop s.currentStart,
    (track.entryOf sample).map Arc.address = s.currentEntry.map Arc.address

theorem SplitState.Faithful.push (h : s.Faithful track target done) (hlen : 0 < s.currentLen) :
    s.push.Faithful track target done := by
  have hpushed := h.covers.push hlen
  have hstart : s.push.currentStart = done.length := h.covers.total
  have hnone : done.drop s.push.currentStart = [] := by rw [hstart, List.drop_length]
  refine ⟨hpushed, ?_, hnone ▸ segment_nil, ?_⟩
  · intro chunk hchunk
    rcases List.mem_append.1 hchunk with hchunk | hchunk
    · exact h.chunks chunk hchunk
    · obtain rfl := List.mem_singleton.1 hchunk
      dsimp only
      rw [h.covers.total, List.take_length]
      exact h.current
  · intro sample hsample
    rw [hnone] at hsample
    cases hsample

/-- What is done stays as it is when a sample is added. -/
theorem SplitState.Faithful.chunks_append (h : s.Faithful track target done) :
    ∀ chunk ∈ s.chunks,
      Segment track target (((done ++ [sample]).take chunk.stop).drop chunk.start) chunk.duration := by
  intro chunk hchunk
  have hle := h.covers.tiles.stop_le hchunk
  have htotal := h.covers.total
  rw [List.take_append_of_le_length (by omega)]
  exact h.chunks chunk hchunk

/-- The end of a round: the sample joins the segment. -/
theorem SplitState.Faithful.join (h : s.Faithful track target done)
    (hsum : totalDuration (done ++ [sample]) < 2 ^ 64)
    (hentry : ∀ sample' ∈ done.drop s.currentStart,
      (track.entryOf sample).map Arc.address = (track.entryOf sample').map Arc.address)
    (hfits : 0 < s.currentDuration → s.currentDuration + sample.duration.toNat ≤ target) :
    ({ s with
      currentDuration := addSaturating s.currentDuration sample.duration.toNat
      currentLen := s.currentLen + 1
      currentEntry := track.entryOf sample } : SplitState ε).Faithful track target (done ++ [sample]) := by
  have htotal := h.covers.total
  have hdrop : (done ++ [sample]).drop s.currentStart = done.drop s.currentStart ++ [sample] :=
    List.drop_append_of_le_length (by omega)
  have hadd : addSaturating s.currentDuration sample.duration.toNat =
      s.currentDuration + sample.duration.toNat := by
    have hle := totalDuration_drop_le done s.currentStart
    have hcurrent := h.current.total
    rw [totalDuration_append, totalDuration_cons] at hsum
    rw [addSaturating]
    omega
  have hsnoc := h.current.snoc hentry hfits
  constructor
  · refine ⟨h.covers.tiles, ?_⟩
    rw [List.length_append, ← htotal]
    rfl
  · exact h.chunks_append
  · dsimp only
    rw [hdrop, hadd]
    exact hsnoc
  · intro sample' hsample'
    dsimp only at hsample'
    rw [hdrop] at hsample'
    exact hsnoc.entry sample' hsample' sample (List.mem_append_right _ (List.mem_singleton_self sample))

theorem SplitState.Faithful.add (h : s.Faithful track target done)
    (hsum : totalDuration (done ++ [sample]) < 2 ^ 64) :
    (SplitState.add track target s sample).Faithful track target (done ++ [sample]) := by
  have htotal := h.covers.total
  unfold SplitState.add
  dsimp only
  split
  · rename_i hcut
    have hpushed := h.push hcut.1
    have hnone : done.drop s.push.currentStart = [] := by
      have hstart : s.push.currentStart = done.length := htotal
      rw [hstart, List.drop_length]
    refine hpushed.join hsum ?_ (fun hpos => absurd hpos (Nat.lt_irrefl 0))
    intro sample' hsample'
    rw [hnone] at hsample'
    cases hsample'
  · rename_i hkeep
    refine h.join hsum ?_ ?_
    · intro sample' hsample'
      have hlen : 0 < s.currentLen := by
        have hpos := List.length_pos_of_mem hsample'
        rw [List.length_drop] at hpos
        omega
      have hsame : entryChanged s.currentEntry (track.entryOf sample) = false := by
        by_contra hchanged
        exact hkeep ⟨hlen, .inr ⟨hlen, eq_true_of_ne_false hchanged⟩⟩
      rw [h.currentEntry sample' hsample', map_address_of_entryChanged hsame]
    · intro hpos
      have hlen : 0 < s.currentLen := by
        by_contra hzero
        have hdrop : done.drop s.currentStart = [] := List.drop_of_length_le (by omega)
        have hcurrent := h.current.total
        rw [hdrop] at hcurrent
        exact absurd hcurrent (Nat.ne_of_gt hpos)
      by_contra hexceeds
      refine hkeep ⟨hlen, .inl ⟨hpos, ?_⟩⟩
      have hle := totalDuration_drop_le done s.currentStart
      have hcurrent := h.current.total
      rw [totalDuration_append, totalDuration_cons] at hsum
      rw [addSaturating]
      omega

/-- Induction on the samples: the chunks and the rest stay segments. -/
theorem faithful_foldl (h : s.Faithful track target done)
    (hsum : totalDuration (done ++ samples) < 2 ^ 64) :
    (samples.foldl (SplitState.add track target) s).Faithful track target (done ++ samples) := by
  induction samples generalizing s done with
  | nil => rwa [List.append_nil]
  | cons sample samples ih =>
    rw [List.append_cons] at hsum ⊢
    refine ih (h.add ?_) hsum
    rw [totalDuration_append] at hsum
    omega

/-- Every chunk is a segment. -/
theorem faithful_splitIntoSegments (hsum : totalDuration track.samples < 2 ^ 64) :
    ∀ chunk ∈ splitIntoSegments track target,
      Segment track target (chunkSamples track chunk) chunk.duration := by
  have hnew : ({} : SplitState ε).Faithful track target [] := by
    refine ⟨⟨rfl, rfl⟩, ?_, segment_nil, ?_⟩
    · intro chunk hchunk
      cases hchunk
    · intro sample hsample
      cases hsample
  have hall : (track.samples.foldl (SplitState.add track target) {}).Faithful track target track.samples :=
    faithful_foldl hnew hsum
  unfold splitIntoSegments
  dsimp only
  split
  · rename_i hlen
    exact (hall.push hlen).chunks
  · exact hall.chunks

end Split

/-! ## Offsets -/

/-- The bytes of a sample in the file it was made of. -/
def RemuxedTrack.bytesOf (track : RemuxedTrack ε) (sample : RemuxSampleRef ε) : List UInt8 :=
  (track.bytes.take sample.stop).drop sample.start

/-- A range, and what the muxer is told of it, are the same bytes. -/
structure Delimits (track : RemuxedTrack ε) (payload : List UInt8) (sample : RemuxSampleRef ε)
    (muxed : MuxSample ε) : Prop where
  range : sample.start ≤ sample.stop ∧ sample.stop ≤ track.bytes.length
  inside : muxed.dataOffset + muxed.dataSize ≤ payload.length
  bytes : (payload.drop muxed.dataOffset).take muxed.dataSize = track.bytesOf sample

section Offsets

variable {track : RemuxedTrack ε} {samples : List (RemuxSampleRef ε)} {sample : RemuxSampleRef ε}
  {muxed : List (MuxSample ε)} {data : List UInt8} {first : Bool} {offset : Nat}

theorem slice?_eq_some {α : Type} {xs ys : List α} {start stop : Nat} (h : slice? xs start stop = some ys) :
    (start ≤ stop ∧ stop ≤ xs.length) ∧ ys = (xs.take stop).drop start := by
  unfold slice? at h
  split at h
  · rename_i hrange
    exact ⟨hrange, (Option.some.inj h).symm⟩
  · cases h

theorem sampleBytes_cons (h : sampleBytes track (sample :: samples) = some data) :
    (sample.start ≤ sample.stop ∧ sample.stop ≤ track.bytes.length) ∧
      ∃ rest, sampleBytes track samples = some rest ∧ data = track.bytesOf sample ++ rest := by
  unfold sampleBytes at h ⊢
  rw [List.mapM_cons] at h
  cases hhere : slice? track.bytes sample.start sample.stop with
  | none =>
    rw [hhere] at h
    cases h
  | some here =>
    obtain ⟨hrange, rfl⟩ := slice?_eq_some hhere
    rw [hhere] at h
    refine ⟨hrange, ?_⟩
    cases hrest : samples.mapM fun sample => slice? track.bytes sample.start sample.stop with
    | none =>
      rw [hrest] at h
      cases h
    | some rest =>
      rw [hrest] at h
      exact ⟨rest.flatten, rfl, (Option.some.inj h).symm⟩

theorem sampleBytes_eq (h : sampleBytes track samples = some data) :
    data = samples.flatMap track.bytesOf := by
  induction samples generalizing data with
  | nil => exact (Option.some.inj h).symm
  | cons sample samples ih =>
    obtain ⟨-, rest, hrest, rfl⟩ := sampleBytes_cons h
    rw [List.flatMap_cons, ih hrest]

theorem muxSamples_cons (h : muxSamples track first offset (sample :: samples) = .ok muxed) :
    ∃ head rest, muxed = head :: rest ∧ head.dataOffset = offset ∧
      head.dataSize = sample.stop - sample.start ∧
        muxSamples track false (addSaturating offset (sample.stop - sample.start)) samples = .ok rest := by
  unfold muxSamples at h
  cases first with
  | false =>
    obtain ⟨entry, -, h⟩ := bind_eq_ok h
    obtain ⟨rest, hrest, h⟩ := bind_eq_ok h
    cases h
    exact ⟨_, rest, rfl, rfl, rfl, hrest⟩
  | true =>
    rw [if_pos rfl] at h
    cases hentry : track.entryOf sample with
    | none =>
      rw [hentry] at h
      cases h
    | some entry =>
      rw [hentry] at h
      obtain ⟨entry, -, h⟩ := bind_eq_ok h
      obtain ⟨rest, hrest, h⟩ := bind_eq_ok h
      cases h
      exact ⟨_, rest, rfl, rfl, rfl, hrest⟩

/-- The offsets are those of the bytes as they are written, from `offset` on. -/
theorem delimits_muxSamples (hmux : muxSamples track first offset samples = .ok muxed)
    {before : List UInt8} (hbefore : before.length = offset) (hdata : sampleBytes track samples = some data)
    (hlt : offset + data.length < 2 ^ 64) :
    muxed.length = samples.length ∧
      ∀ (i : Nat) (sample : RemuxSampleRef ε) (s : MuxSample ε), samples[i]? = some sample →
        muxed[i]? = some s → Delimits track (before ++ data) sample s := by
  induction samples generalizing first offset muxed data before with
  | nil =>
    cases hmux
    refine ⟨rfl, fun i sample s hsample => ?_⟩
    cases hsample
  | cons sample samples ih =>
    obtain ⟨head, rest, rfl, hoffset, hsize, hrest⟩ := muxSamples_cons hmux
    obtain ⟨hrange, later, hlater, rfl⟩ := sampleBytes_cons hdata
    have hlength : (track.bytesOf sample).length = sample.stop - sample.start := by
      rw [RemuxedTrack.bytesOf, List.length_drop, List.length_take]
      omega
    rw [List.length_append] at hlt
    have hnext : addSaturating offset (sample.stop - sample.start) =
        (before ++ track.bytesOf sample).length := by
      rw [addSaturating, List.length_append]
      omega
    rw [hnext] at hrest
    obtain ⟨hcount, hdelimits⟩ := ih hrest rfl hlater (by rw [List.length_append]; omega)
    refine ⟨congrArg (· + 1) hcount, fun i sample' s hsample hs => ?_⟩
    cases i with
    | zero =>
      cases hsample
      cases hs
      refine ⟨hrange, ?_, ?_⟩
      · rw [List.length_append, List.length_append]
        omega
      · rw [hoffset, hsize, ← hbefore, List.drop_left, ← hlength, List.take_left]
    | succ i =>
      rw [← List.append_assoc]
      exact hdelimits i sample' s hsample hs

end Offsets

/-! ## The files -/

/-- What is behind the metadata in the file of a chunk. -/
def RemuxedTrack.payload (track : RemuxedTrack ε) (chunk : SegmentChunk) : List UInt8 :=
  (chunkSamples track chunk).flatMap track.bytesOf

/-- The file of a chunk: what the muxer makes of its samples, and a payload of which it was told. -/
structure HoldsSamples (muxer : Muxer ε μ) (track : RemuxedTrack ε) (dir : HlsDir) (index : Nat)
    (chunk : SegmentChunk) (muxed : List (MuxSample ε)) : Prop where
  file : ∃ m segmentMeta m', muxer.createMediaSegmentMetadata m muxed = .ok (segmentMeta, m') ∧
    dir.read (segName index) = some (segmentMeta ++ track.payload chunk)
  length : muxed.length = (chunkSamples track chunk).length
  delimits : ∀ (i : Nat) (sample : RemuxSampleRef ε) (s : MuxSample ε),
    (chunkSamples track chunk)[i]? = some sample → muxed[i]? = some s →
      Delimits track (track.payload chunk) sample s

section Files

variable {muxer : Muxer ε μ} {printer : PlaylistPrinter} {track : RemuxedTrack ε} {dir dir' : HlsDir}
  {target index : Nat} {chunk : SegmentChunk}

theorem holdsSamples_of_hasChunk (h : dir.HasChunk muxer track index chunk)
    (hfiles : ∀ name content, dir.read name = some content → content.length < 2 ^ 64) :
    ∃ muxed, HoldsSamples muxer track dir index chunk muxed := by
  obtain ⟨samples, segmentMeta, data, hholds, hread⟩ := h
  obtain ⟨-, rfl⟩ := slice?_eq_some hholds.samples
  obtain ⟨m, muxed, m', hmux, hmeta⟩ := hholds.muxed
  have hdata : data = track.payload chunk := sampleBytes_eq hholds.data
  have hlt := hfiles _ _ hread
  rw [List.length_append] at hlt
  obtain ⟨hlength, hdelimits⟩ :=
    delimits_muxSamples hmux (rfl : ([] : List UInt8).length = 0) hholds.data (by omega)
  rw [hdata] at hread hdelimits
  exact ⟨muxed, ⟨m, segmentMeta, m', hmeta, hread⟩, hlength, hdelimits⟩

theorem flatten_payload (track : RemuxedTrack ε) (chunks : List SegmentChunk) :
    (chunks.map track.payload).flatten =
      (chunks.map (chunkSamples track)).flatten.flatMap track.bytesOf := by
  induction chunks with
  | nil => rfl
  | cons chunk chunks ih =>
    rw [List.map_cons, List.flatten_cons, ih, List.map_cons, List.flatten_cons, List.flatMap_append]
    rfl

/-- All payloads together are the bytes of all samples. -/
theorem flatten_payload_split (track : RemuxedTrack ε) (target : Nat) :
    ((splitIntoSegments track target).map track.payload).flatten = track.samples.flatMap track.bytesOf := by
  have hsamples : ((splitIntoSegments track target).map (chunkSamples track)).flatten = track.samples :=
    flatten_splitIntoSegments track target
  rw [flatten_payload, hsamples]

/-- The segments of a track cut its samples up, and the files hold exactly their bytes. -/
theorem segments_faithful (track : RemuxedTrack ε) (target : Nat)
    (hsum : totalDuration track.samples < 2 ^ 64) :
    Tiles 0 (splitIntoSegments track target) track.samples.length ∧
      (∀ chunk ∈ splitIntoSegments track target,
        Segment track target (chunkSamples track chunk) chunk.duration) ∧
      ∀ (muxer : Muxer ε μ) (printer : PlaylistPrinter) (dir dir' : HlsDir),
        writeHlsOutput muxer printer track dir target = .ok dir' →
        (∀ name content, dir'.read name = some content → content.length < 2 ^ 64) →
          (∀ (i : Nat) (chunk : SegmentChunk), (splitIntoSegments track target)[i]? = some chunk →
            ∃ muxed, HoldsSamples muxer track dir' i chunk muxed) ∧
          ((splitIntoSegments track target).map track.payload).flatten =
            track.samples.flatMap track.bytesOf := by
  refine ⟨tiles_splitIntoSegments track target, faithful_splitIntoSegments hsum, ?_⟩
  intro muxer printer dir dir' hwrite hfiles
  refine ⟨fun i chunk hchunk => ?_, flatten_payload_split track target⟩
  exact holdsSamples_of_hasChunk ((hlsWritten_of_ok hwrite).chunk i chunk hchunk) hfiles

/-- Two samples of six units with one that takes no time, in segments of six. -/
def threeSamples : RemuxedTrack Unit where
  timescale := 1
  bytes := [10, 20, 30]
  sampleEntry := some ⟨0, ()⟩
  samples := [⟨0, 1, 6, none, true, none⟩, ⟨1, 1, 0, none, true, none⟩, ⟨1, 3, 6, none, true, none⟩]
  samples_lt := by decide

theorem segments_faithful_three :
    Tiles 0 (splitIntoSegments threeSamples 6) 3 ∧
      (∀ chunk ∈ splitIntoSegments threeSamples 6,
        Segment threeSamples 6 (chunkSamples threeSamples chunk) chunk.duration) ∧
      ∀ (muxer : Muxer Unit Unit) (printer : PlaylistPrinter) (dir dir' : HlsDir),
        writeHlsOutput muxer printer threeSamples dir 6 = .ok dir' →
        (∀ name content, dir'.read name = some content → content.length < 2 ^ 64) →
          (∀ (i : Nat) (chunk : SegmentChunk), (splitIntoSegments threeSamples 6)[i]? = some chunk →
            ∃ muxed, HoldsSamples muxer threeSamples dir' i chunk muxed) ∧
          ((splitIntoSegments threeSamples 6).map threeSamples.payload).flatten =
            threeSamples.samples.flatMap threeSamples.bytesOf :=
  segments_faithful threeSamples 6 (by decide)

end Files

end Kanade

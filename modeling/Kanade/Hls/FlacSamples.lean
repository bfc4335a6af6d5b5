import Kanade.Hls.FlacFrames

/-!
# Kanade.Hls.FlacSamples

The samples that `remux_flac` makes of the frames it finds, and their durations once they are cut down to the
total of the stream.

* `contiguous_flacSamples`: they run from the first frame to the end of the file, one for each frame.
* `reduced_reduceDurations`: what the loop over the durations takes away, sample by sample from the end.
* `flac_sample_table`: both for the samples of a track, and that there is one.
-/

namespace Kanade

/-! ## Ranges -/

section Ranges

variable {bytes : List UInt8} {streaminfo : FlacStreamInfo} {start : Nat} {starts : List Nat}

theorem contiguous_flacSamples (hsorted : (start :: starts).Pairwise (· < ·))
    (hlt : ∀ i ∈ start :: starts, i < bytes.length) :
    Contiguous start ((flacSamples bytes streaminfo (start :: starts)).map RemuxSampleRef.range)
        bytes.length ∧
      (flacSamples bytes streaminfo (start :: starts)).length = starts.length + 1 ∧
        ∀ sample ∈ flacSamples bytes streaminfo (start :: starts), 1 ≤ sample.duration.toNat := by
  induction starts generalizing start with
  | nil =>
    have hstart := hlt start List.mem_cons_self
    obtain ⟨duration, hone, hsamples⟩ := @flacSamples_cons bytes streaminfo start [] hstart
    rw [hsamples]
    refine ⟨⟨rfl, hstart, rfl⟩, rfl, fun sample hsample => ?_⟩
    rw [flacSamples, List.mem_singleton] at hsample
    rw [hsample]
    exact hone
  | cons next starts ih =>
    obtain ⟨hfirst, hrest⟩ := List.pairwise_cons.1 hsorted
    have hnext := hfirst next List.mem_cons_self
    obtain ⟨hranges, hlength, hones⟩ := ih hrest fun i hi => hlt i (List.mem_cons_of_mem _ hi)
    obtain ⟨duration, hone, hsamples⟩ :=
      @flacSamples_cons bytes streaminfo start (next :: starts) hnext
    rw [hsamples]
    refine ⟨⟨rfl, hnext, hranges⟩, congrArg (· + 1) hlength, fun sample hsample => ?_⟩
    rcases List.mem_cons.1 hsample with rfl | hsample
    · exact hone
    · exact hones sample hsample

end Ranges

/-! ## Durations -/

section Durations

variable {ε : Type} {sample : RemuxSampleRef ε} {samples : List (RemuxSampleRef ε)} {excess : Nat}

/-- What is taken from a sample is what the excess loses; it goes on only from a sample of duration 1. -/
structure Reduced (excess : Nat) (sample sample' : RemuxSampleRef ε) (left : Nat) : Prop where
  total : sample'.duration.toNat + (excess - left) = sample.duration.toNat
  left_le : left ≤ excess
  one_le : 1 ≤ sample'.duration.toNat
  eq_one : 0 < left → sample'.duration.toNat = 1

theorem reduced_reduceDuration (hone : 1 ≤ sample.duration.toNat) :
    Reduced excess sample (reduceDuration excess sample).1 (reduceDuration excess sample).2 := by
  unfold reduceDuration
  by_cases hzero : excess = 0
  · rw [if_pos hzero]
    subst hzero
    exact ⟨rfl, Nat.le_refl 0, hone, fun h => absurd h (Nat.lt_irrefl 0)⟩
  · rw [if_neg hzero]
    have hduration : (sample.duration - UInt32.ofNat (min (sample.duration.toNat - 1) excess)).toNat =
        sample.duration.toNat - min (sample.duration.toNat - 1) excess := by
      have hlt := sample.duration.toNat_lt
      have hofNat : (UInt32.ofNat (min (sample.duration.toNat - 1) excess)).toNat =
          min (sample.duration.toNat - 1) excess :=
        UInt32.toNat_ofNat_of_lt' (Nat.lt_of_le_of_lt (Nat.min_le_left _ _) (Nat.lt_of_le_of_lt
          (Nat.sub_le _ 1) hlt))
      rw [UInt32.toNat_sub_of_le, hofNat]
      rw [UInt32.le_iff_toNat_le, hofNat]
      omega
    constructor
    · dsimp only
      rw [hduration]
      omega
    · dsimp only
      omega
    · dsimp only
      rw [hduration]
      omega
    · dsimp only
      rw [hduration]
      omega

/-- The same over all samples: a shortened one has only samples of duration 1 behind it. -/
structure ReducedAll (excess : Nat) (samples samples' : List (RemuxSampleRef ε)) (left : Nat) : Prop where
  total : totalDuration samples' + (excess - left) = totalDuration samples
  left_le : left ≤ excess
  length : samples'.length = samples.length
  one_le : ∀ sample ∈ samples', 1 ≤ sample.duration.toNat
  eq_one : 0 < left → ∀ sample ∈ samples', sample.duration.toNat = 1
  shortened : ∀ (i j : Nat) (sample sample' later : RemuxSampleRef ε), i < j → samples[i]? = some sample →
    samples'[i]? = some sample' → sample'.duration < sample.duration → samples'[j]? = some later →
      later.duration.toNat = 1

theorem reduced_reduceDurations (hone : ∀ sample ∈ samples, 1 ≤ sample.duration.toNat) :
    ReducedAll excess samples (reduceDurations excess samples).1 (reduceDurations excess samples).2 := by
  induction samples with
  | nil =>
    refine ⟨?_, Nat.le_refl _, rfl, ?_, ?_, ?_⟩
    · exact congrArg (totalDuration [] + ·) (Nat.sub_self excess)
    · intro sample hsample
      cases hsample
    · intro _ sample hsample
      cases hsample
    · intro i j sample sample' later _ hsample
      cases hsample
  | cons sample samples ih =>
    have hrest := ih fun sample hsample => hone sample (List.mem_cons_of_mem _ hsample)
    have hhere : Reduced (reduceDurations excess samples).2 sample _ _ :=
      reduced_reduceDuration (hone sample List.mem_cons_self)
    rw [reduceDurations]
    dsimp only
    generalize reduceDurations excess samples = later at *
    generalize reduceDuration later.2 sample = here at *
    have htotal := hrest.total
    have htotal' := hhere.total
    have hle := hrest.left_le
    have hle' := hhere.left_le
    constructor
    · rw [totalDuration_cons, totalDuration_cons]
      omega
    · omega
    · rw [List.length_cons, hrest.length, List.length_cons]
    · intro sample' hsample'
      rcases List.mem_cons.1 hsample' with rfl | hsample'
      · exact hhere.one_le
      · exact hrest.one_le sample' hsample'
    · intro hleft sample' hsample'
      rcases List.mem_cons.1 hsample' with rfl | hsample'
      · exact hhere.eq_one hleft
      · exact hrest.eq_one (by omega) sample' hsample'
    · intro i j s s' l hij hs hs' hlt hl
      obtain ⟨j, rfl⟩ := Nat.exists_eq_succ_of_ne_zero (Nat.ne_of_gt (Nat.lt_of_le_of_lt (Nat.zero_le i) hij))
      rw [List.getElem?_cons_succ] at hl
      cases i with
      | zero =>
        cases hs
        cases hs'
        have hexcess : 0 < later.2 := by
          rw [UInt32.lt_iff_toNat_lt] at hlt
          omega
        exact hrest.eq_one hexcess l (List.mem_of_getElem? hl)
      | succ i => exact hrest.shortened i j s s' l (by omega) hs hs' hlt hl

theorem length_le_totalDuration (hone : ∀ sample ∈ samples, 1 ≤ sample.duration.toNat) :
    samples.length ≤ totalDuration samples := by
  induction samples with
  | nil => exact Nat.zero_le _
  | cons sample samples ih =>
    have hhere := hone sample List.mem_cons_self
    have hrest := ih fun sample hsample => hone sample (List.mem_cons_of_mem _ hsample)
    rw [totalDuration_cons, List.length_cons]
    omega

theorem totalDuration_of_one (hone : ∀ sample ∈ samples, sample.duration.toNat = 1) :
    totalDuration samples = samples.length := by
  induction samples with
  | nil => rfl
  | cons sample samples ih =>
    have hhere := hone sample List.mem_cons_self
    have hrest := ih fun sample hsample => hone sample (List.mem_cons_of_mem _ hsample)
    rw [totalDuration_cons, List.length_cons]
    omega

end Durations

/-! ## The table -/

/-- The samples `after` the correction to the total of the stream (0 if it is not known), which were `before`
when they were made. -/
structure SampleTable (bytes : List UInt8) (start totalSamples : Nat)
    (before after : List (RemuxSampleRef FlacBox)) : Prop where
  ranges : Contiguous start (after.map RemuxSampleRef.range) bytes.length
  length : after.length = before.length
  one_le : ∀ sample ∈ after, 1 ≤ sample.duration.toNat
  total : 0 < totalSamples → totalSamples < totalDuration before →
    totalDuration after = max totalSamples after.length
  unchanged : totalSamples = 0 ∨ totalDuration before ≤ totalSamples → after = before
  shortened : ∀ (i j : Nat) (sample sample' later : RemuxSampleRef FlacBox), i < j →
    before[i]? = some sample → after[i]? = some sample' → sample'.duration < sample.duration →
      after[j]? = some later → later.duration.toNat = 1

section Table

variable {bytes : List UInt8} {blocks : List FlacMetadataBlock} {streaminfo : FlacStreamInfo}
  {audioOffset start : Nat} {starts : List Nat} {before after : List (RemuxSampleRef FlacBox)}

theorem sampleTable_of_ok (hranges : Contiguous start (before.map RemuxSampleRef.range) bytes.length)
    (hone : ∀ sample ∈ before, 1 ≤ sample.duration.toNat) {totalSamples : UInt64}
    (hafter : correctDurations totalSamples before = .ok after) :
    SampleTable bytes start totalSamples.toNat before after := by
  have hranges' := ranges_correctDurations hafter
  rw [correctDurations_ok hafter] at hranges' ⊢
  have hpos : 0 < totalSamples ↔ 0 < totalSamples.toNat := UInt64.lt_iff_toNat_lt
  split at hranges'
  · rename_i hover
    rw [if_pos hover]
    have hreduced := @reduced_reduceDurations FlacBox before
      (totalDuration before - totalSamples.toNat) hone
    generalize reduceDurations (totalDuration before - totalSamples.toNat) before = out at *
    have htotal := hreduced.total
    have hle := hreduced.left_le
    have hlength := length_le_totalDuration hreduced.one_le
    refine ⟨hranges' ▸ hranges, hreduced.length, hreduced.one_le, fun _ _ => ?_, ?_, hreduced.shortened⟩
    · rcases Nat.eq_zero_or_pos out.2 with hleft | hleft
      · omega
      · have hones := totalDuration_of_one (hreduced.eq_one hleft)
        omega
    · have hknown := hpos.1 hover.1
      rintro (hzero | hfits)
      · omega
      · omega
  · rename_i hover
    rw [if_neg hover]
    refine ⟨hranges, rfl, hone, fun h h' => absurd ⟨hpos.2 h, h'⟩ hover, fun _ => rfl, ?_⟩
    intro i j sample sample' later _ hs hs' hlt
    rw [hs, Option.some.injEq] at hs'
    subst hs'
    exact absurd hlt (UInt32.lt_irrefl _)

theorem exists_correctDurations {totalSamples : UInt64} (hfits : totalDuration before < 2 ^ 64) :
    ∃ after, correctDurations totalSamples before = .ok after := by
  unfold correctDurations
  split
  · dsimp only
    rw [if_neg (by omega)]
    split
    · exact ⟨_, rfl⟩
    · exact ⟨_, rfl⟩
  · exact ⟨_, rfl⟩

/-- The samples of a file with at least one frame: there is a track unless its time scale is 0 or the total
does not fit, and its samples are such a table. -/
theorem flac_sample_table (hparse : parseFlacMetadata bytes = .ok (blocks, streaminfo, audioOffset))
    (hfound : flacFrameStarts bytes audioOffset = start :: starts) :
    (∀ address sampleRate, [0x66, 0x4C, 0x61, 0x43].isPrefixOf bytes = true →
        sampleRate.getD streaminfo.sampleRate ≠ 0 →
        totalDuration (flacSamples bytes streaminfo (start :: starts)) < 2 ^ 64 →
          ∃ track, remuxFlac address sampleRate bytes = .ok track) ∧
      ∀ address sampleRate track, remuxFlac address sampleRate bytes = .ok track →
        track.samples.length = (start :: starts).length ∧
          SampleTable bytes start streaminfo.totalSamples.toNat
            (flacSamples bytes streaminfo (start :: starts)) track.samples := by
  have hsorted := Flac.sorted_flacFrameStarts bytes audioOffset
  rw [hfound] at hsorted
  have hlt : ∀ i ∈ start :: starts, i < bytes.length := by
    intro i hi
    rw [← hfound] at hi
    have hheader := (Flac.mem_flacFrameStarts.1 hi).2.lt
    omega
  obtain ⟨hranges, hlength, hone⟩ := @contiguous_flacSamples bytes streaminfo start starts hsorted hlt
  constructor
  · intro address sampleRate hmagic hrate hfits
    obtain ⟨after, hafter⟩ := @exists_correctDurations _ streaminfo.totalSamples hfits
    have htable := sampleTable_of_ok hranges hone hafter
    have hcount := length_le_totalDuration hone
    rw [← hfound] at hafter
    refine remuxFlac_of hmagic hparse hrate (hfound ▸ List.cons_ne_nil _ _) hafter ?_
    rw [htable.length]
    omega
  · intro address sampleRate track htrack
    obtain ⟨blocks', info', audioOffset', hparse', hsamples⟩ := remuxFlac_ok htrack
    rw [hparse] at hparse'
    obtain ⟨rfl, rfl, rfl⟩ : blocks = blocks' ∧ streaminfo = info' ∧ audioOffset = audioOffset' := by
      simpa using hparse'
    rw [hfound] at hsamples
    have htable := sampleTable_of_ok hranges hone hsamples
    exact ⟨htable.length.trans hlength, htable⟩

/-- A frame that was taken for two: the durations are cut down to the 16 of the stream. -/
theorem flac_sample_table_two : ∃ streaminfo,
    (∀ address sampleRate, [0x66, 0x4C, 0x61, 0x43].isPrefixOf Flac.lookAlikeFile.bytes = true →
        sampleRate.getD streaminfo.sampleRate ≠ 0 →
        totalDuration (flacSamples Flac.lookAlikeFile.bytes streaminfo [42, 50]) < 2 ^ 64 →
          ∃ track, remuxFlac address sampleRate Flac.lookAlikeFile.bytes = .ok track) ∧
      ∀ address sampleRate track, remuxFlac address sampleRate Flac.lookAlikeFile.bytes = .ok track →
        track.samples.length = 2 ∧
          SampleTable Flac.lookAlikeFile.bytes 42 streaminfo.totalSamples.toNat
            (flacSamples Flac.lookAlikeFile.bytes streaminfo [42, 50]) track.samples := by
  obtain ⟨streaminfo, -, hparse⟩ := Flac.parseFlacMetadata_bytes Flac.lookAlikeFile
  exact ⟨streaminfo, flac_sample_table hparse (by decide +kernel)⟩

end Table

end Kanade

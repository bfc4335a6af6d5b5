import Mathlib.Algebra.Group.Nat.Defs
import Mathlib.Data.Set.Finite.Basic
import Mathlib.Order.Interval.Set.Infinite
import Kanade.Text.Percent

/-!
# Kanade.Hls.Output

What `write_hls_output` puts into the directory of a variant, and what `HlsSegments::open` finds there.

The muxer and the printer of the playlist are parameters. Durations in seconds are left to the printer,
which gets them in units of the time scale.

* `tiles_splitIntoSegments`: the chunks cut the samples up, in order, and none is empty.
* `hlsWritten_of_ok`: the files, one for each chunk.
* `HlsWritten.opens`: what is written can be opened, and every file of a chunk is counted.
-/

namespace Kanade

/-! ## Samples -/

/-- `ptr_eq` compares the addresses. -/
structure Arc (α : Type) where
  address : Nat
  value : α

structure RemuxSampleRef (ε : Type) where
  start : Nat
  stop : Nat
  duration : UInt32
  sampleEntry : Option (Arc ε)
  keyframe : Bool
  compositionTimeOffset : Option Int

def RemuxSampleRef.range {ε : Type} (sample : RemuxSampleRef ε) : Nat × Nat := (sample.start, sample.stop)

structure RemuxedTrack (ε : Type) where
  timescale : Nat
  bytes : List UInt8
  sampleEntry : Option (Arc ε)
  samples : List (RemuxSampleRef ε)
  /-- The length of a `Vec` is a `usize`. -/
  samples_lt : samples.length < 2 ^ 64

structure SegmentChunk where
  start : Nat
  stop : Nat
  /-- In units of the time scale. -/
  duration : Nat
deriving DecidableEq, Repr

/-- `saturating_add` of `u64`. -/
def addSaturating (a b : Nat) : Nat := min (a + b) (2 ^ 64 - 1)

/-- A slice, which panics where there is no such range. -/
def slice? {α : Type} (xs : List α) (start stop : Nat) : Option (List α) :=
  if start ≤ stop ∧ stop ≤ xs.length then some ((xs.take stop).drop start) else none

theorem slice?_add {α : Type} {xs : List α} {start n : Nat} (hle : start + n ≤ xs.length) :
    slice? xs start (start + n) = some ((xs.drop start).take n) := by
  unfold slice?
  rw [if_pos ⟨Nat.le_add_right start n, hle⟩, List.drop_take, Nat.add_sub_cancel_left]

theorem slice?_drop {α : Type} {xs : List α} {pos : Nat} (hle : pos ≤ xs.length) :
    slice? xs pos xs.length = some (xs.drop pos) := by
  have hadd := @slice?_add α xs pos (xs.length - pos) (by omega)
  rw [Nat.add_sub_cancel' hle, ← List.length_drop, List.take_length] at hadd
  exact hadd

/-- The element at `pos` and what is behind it. -/
theorem next_of_drop {α : Type} {xs rest : List α} {x : α} {pos : Nat} (hdrop : xs.drop pos = x :: rest) :
    xs[pos]? = some x ∧ pos + 1 ≤ xs.length ∧ xs.drop (pos + 1) = rest := by
  have hlength := congrArg List.length hdrop
  rw [List.length_drop, List.length_cons] at hlength
  have hat : (xs.drop pos)[0]? = xs[pos]? := by
    rw [List.getElem?_drop, Nat.add_zero]
  rw [hdrop] at hat
  refine ⟨hat.symm, by omega, ?_⟩
  rw [← List.drop_drop, hdrop]
  rfl

theorem exists_cons {α : Type} {xs : List α} {n : Nat} (hlength : n + 1 ≤ xs.length) :
    ∃ x rest, xs = x :: rest ∧ n ≤ rest.length := by
  cases xs with
  | nil => simp at hlength
  | cons x rest => exact ⟨x, rest, rfl, Nat.le_of_succ_le_succ hlength⟩

def totalDuration {ε : Type} (samples : List (RemuxSampleRef ε)) : Nat :=
  samples.foldl (fun total sample => total + sample.duration.toNat) 0

section Split

variable {ε : Type}

def RemuxedTrack.entryOf (track : RemuxedTrack ε) (sample : RemuxSampleRef ε) : Option (Arc ε) :=
  sample.sampleEntry.or track.sampleEntry

/-- The variables of the loop. -/
structure SplitState (ε : Type) where
  chunks : List SegmentChunk := []
  currentStart : Nat := 0
  currentDuration : Nat := 0
  currentLen : Nat := 0
  currentEntry : Option (Arc ε) := none

def entryChanged : Option (Arc ε) → Option (Arc ε) → Bool
  | some existing, some next => existing.address ≠ next.address
  | none, none => false
  | _, _ => true

def SplitState.push (s : SplitState ε) : SplitState ε :=
  { s with
    chunks := s.chunks ++ [⟨s.currentStart, s.currentStart + s.currentLen, s.currentDuration⟩]
    currentStart := s.currentStart + s.currentLen
    currentDuration := 0
    currentLen := 0 }

def SplitState.add (track : RemuxedTrack ε) (targetDurationUnits : Nat) (s : SplitState ε)
    (sample : RemuxSampleRef ε) : SplitState ε :=
  let exceedsTarget := 0 < s.currentDuration ∧
    targetDurationUnits < addSaturating s.currentDuration sample.duration.toNat
  let changed := 0 < s.currentLen ∧ entryChanged s.currentEntry (track.entryOf sample)
  let s := if 0 < s.currentLen ∧ (exceedsTarget ∨ changed) then s.push else s
  { s with
    currentDuration := addSaturating s.currentDuration sample.duration.toNat
    currentLen := s.currentLen + 1
    currentEntry := track.entryOf sample }

/-- `split_into_segments`, for any length of a segment in units of the time scale. -/
def splitIntoSegments (track : RemuxedTrack ε) (targetDurationUnits : Nat) : List SegmentChunk :=
  let s := track.samples.foldl (SplitState.add track targetDurationUnits) {}
  if 0 < s.currentLen then s.push.chunks else s.chunks

end Split

/-! ## The directory -/

/-- The files of a directory; the one written last counts. -/
abbrev HlsDir : Type := List (String × List UInt8)

namespace HlsDir

def read (dir : HlsDir) (name : String) : Option (List UInt8) := dir.lookup name

def write (dir : HlsDir) (name : String) (content : List UInt8) : HlsDir := (name, content) :: dir

def has (dir : HlsDir) (name : String) : Bool := (dir.read name).isSome

end HlsDir

def segName (index : Nat) : String := "seg" ++ index.repr ++ ".m4s"

/-! ## write_hls_output -/

inductive HlsFailure where
  /-- An `HlsError` is what it prints. -/
  | error (text : String)
  | panic
deriving DecidableEq, Repr

def HlsFailure.mux (e : String) : HlsFailure := .error ("mp4 mux error: " ++ e)

def HlsFailure.invalidData (text : String) : HlsFailure := .error ("invalid data: " ++ text)

def orPanic {α : Type} : Option α → Except HlsFailure α
  | some a => .ok a
  | none => .error .panic

/-- `Sample`. -/
structure MuxSample (ε : Type) where
  timescale : Nat
  sampleEntry : Option ε
  duration : UInt32
  keyframe : Bool
  compositionTimeOffset : Option Int
  dataOffset : Nat
  dataSize : Nat

/-- `Fmp4SegmentMuxer`. -/
structure Muxer (ε μ : Type) where
  new : Except String μ
  createMediaSegmentMetadata : μ → List (MuxSample ε) → Except String (List UInt8 × μ)
  initSegmentBytes : μ → Except String (List UInt8)

/-- `MediaSegment`, as the builder gets it. -/
structure PlaylistSegment where
  map : Option String
  /-- In units of the time scale. -/
  duration : Nat
  uri : String
deriving DecidableEq, Repr

/-- The builders of segments and playlist and `to_string`, for a time scale. -/
abbrev PlaylistPrinter : Type := Nat → List PlaylistSegment → Except String String

section Write

variable {ε μ : Type} (muxer : Muxer ε μ) (printer : PlaylistPrinter) (track : RemuxedTrack ε)

/-- The samples for the muxer; the first of a segment has the entry. -/
def muxSamples : Bool → Nat → List (RemuxSampleRef ε) → Except HlsFailure (List (MuxSample ε))
  | _, _, [] => .ok []
  | first, dataOffset, sample :: rest => do
    let sampleEntry ←
      if first then
        match track.entryOf sample with
        | some entry => Except.ok (some entry.value)
        | none => Except.error (HlsFailure.invalidData "missing sample entry for media segment")
      else Except.ok none
    let size := sample.stop - sample.start
    let rest ← muxSamples false (addSaturating dataOffset size) rest
    .ok ({
      timescale := track.timescale
      sampleEntry := sampleEntry
      duration := sample.duration
      keyframe := sample.keyframe
      compositionTimeOffset := sample.compositionTimeOffset
      dataOffset := dataOffset
      dataSize := size } :: rest)

/-- The bytes of the samples, one after the other. -/
def sampleBytes (samples : List (RemuxSampleRef ε)) : Option (List UInt8) :=
  (samples.mapM fun sample => slice? track.bytes sample.start sample.stop).map List.flatten

def writeSegment (index : Nat) (chunk : SegmentChunk) (m : μ) (dir : HlsDir) :
    Except HlsFailure (μ × HlsDir) := do
  let chunkSamples ← orPanic (slice? track.samples chunk.start chunk.stop)
  let samples ← muxSamples track true 0 chunkSamples
  let (segmentMeta, m) ← (muxer.createMediaSegmentMetadata m samples).mapError HlsFailure.mux
  let data ← orPanic (sampleBytes track chunkSamples)
  .ok (m, dir.write (segName index) (segmentMeta ++ data))

def writeSegments : Nat → List SegmentChunk → μ → HlsDir → Except HlsFailure (μ × HlsDir)
  | _, [], m, dir => .ok (m, dir)
  | index, chunk :: chunks, m, dir => do
    let (m, dir) ← writeSegment muxer track index chunk m dir
    writeSegments (index + 1) chunks m dir

/-- The segments of the playlist; the first has the map. -/
def playlistSegments (chunks : List SegmentChunk) : List PlaylistSegment :=
  chunks.mapIdx fun index chunk =>
    { map := if index = 0 then some "init.mp4" else none
      duration := chunk.duration
      uri := segName index }

/-- What there is in the directory afterwards. -/
def writeHlsOutput (dir : HlsDir) (targetDurationUnits : Nat) : Except HlsFailure HlsDir :=
  let chunks := splitIntoSegments track targetDurationUnits
  if chunks = [] then .error (.invalidData "no HLS chunks were produced from source track")
  else do
    let m ← muxer.new.mapError HlsFailure.mux
    let (m, dir) ← writeSegments muxer track 0 chunks m dir
    let init ← (muxer.initSegmentBytes m).mapError HlsFailure.mux
    let dir := dir.write "init.mp4" init
    let text ← (printer track.timescale (playlistSegments chunks)).mapError HlsFailure.invalidData
    .ok (dir.write "index.m3u8" (Percent.bytes text))

end Write

/-! ## HlsSegments -/

inductive OpenError where
  | missingCache
  | invalidData (text : String)
deriving DecidableEq, Repr

theorem segName_injective : Function.Injective segName := by
  intro i j h
  have hlist := congrArg String.toList h
  simp only [segName, String.toList_append] at hlist
  have hdigits := List.append_cancel_left (List.append_cancel_right hlist)
  rw [Nat.toList_repr, Nat.toList_repr] at hdigits
  have hof := congrArg (fun cs => Nat.ofDigitChars 10 cs 0) hdigits
  rwa [Nat.ofDigitChars_toDigits (by omega) (by omega),
    Nat.ofDigitChars_toDigits (by omega) (by omega)] at hof

/-- A directory has finitely many files, so one of the segments is not there. -/
theorem exists_missing (dir : HlsDir) : ∃ i, dir.has (segName i) = false := by
  by_contra hall
  simp only [not_exists, Bool.not_eq_false] at hall
  have hsub : Set.range segName ⊆ {name | name ∈ dir.map Prod.fst} := by
    rintro _ ⟨i, rfl⟩
    by_contra hmem
    have hread : dir.read (segName i) = none := by
      rw [HlsDir.read, List.lookup_eq_none_iff]
      intro file hfile
      rw [bne_iff_ne]
      intro heq
      exact hmem (List.mem_map.2 ⟨file, hfile, heq.symm⟩)
    have hhas := hall i
    rw [HlsDir.has, hread] at hhas
    cases hhas
  exact Set.infinite_range_of_injective segName_injective
    ((List.finite_toSet (dir.map Prod.fst)).subset hsub)

structure HlsSegments where
  root : HlsDir
  segmentCount : Nat

namespace HlsSegments

/-- `open`: the segments are counted up to the first that is missing. -/
def openDir (root : HlsDir) : Except OpenError HlsSegments :=
  if ¬ root.has "index.m3u8" ∨ ¬ root.has "init.mp4" then .error .missingCache
  else
    let segmentCount := Nat.find (exists_missing root)
    if segmentCount = 0 then
      .error (.invalidData "generated HLS cache did not contain any media segments")
    else .ok { root := root, segmentCount := segmentCount }

/-- The name in `root`. -/
def segmentPath (segments : HlsSegments) (index : Nat) : Option String :=
  if index < segments.segmentCount then some (segName index) else none

end HlsSegments

/-! ## Ranges and durations -/

/-- Ranges that are not empty, each from where the one before ends. -/
def Contiguous : Nat → List (Nat × Nat) → Nat → Prop
  | start, [], stop => start = stop
  | start, range :: ranges, stop => range.1 = start ∧ start < range.2 ∧ Contiguous range.2 ranges stop


theorem Contiguous.le {a b : Nat} {ranges : List (Nat × Nat)} (h : Contiguous a ranges b) :
    a + ranges.length ≤ b := by
  induction ranges generalizing a with
  | nil => exact Nat.le_of_eq h
  | cons range ranges ih =>
    obtain ⟨-, hlt, hrest⟩ := h
    have hle := ih hrest
    rw [List.length_cons]
    omega

section Durations

variable {ε : Type} {samples : List (RemuxSampleRef ε)}

theorem totalDuration_cons (sample : RemuxSampleRef ε) (samples : List (RemuxSampleRef ε)) :
    totalDuration (sample :: samples) = sample.duration.toNat + totalDuration samples := by
  have hadd : ∀ (samples : List (RemuxSampleRef ε)) (total : Nat),
      samples.foldl (fun total sample => total + sample.duration.toNat) total =
        total + samples.foldl (fun total sample => total + sample.duration.toNat) 0 := by
    intro samples
    induction samples with
    | nil => exact fun total => rfl
    | cons sample samples ih =>
      intro total
      rw [List.foldl_cons, ih, List.foldl_cons, ih (0 + _)]
      omega
  rw [totalDuration, List.foldl_cons, hadd, Nat.zero_add]
  rfl

theorem totalDuration_append (samples samples' : List (RemuxSampleRef ε)) :
    totalDuration (samples ++ samples') = totalDuration samples + totalDuration samples' := by
  induction samples with
  | nil => exact (Nat.zero_add _).symm
  | cons sample samples ih =>
    rw [List.cons_append, totalDuration_cons, totalDuration_cons, ih, Nat.add_assoc]

theorem totalDuration_drop_le (samples : List (RemuxSampleRef ε)) (n : Nat) :
    totalDuration (samples.drop n) ≤ totalDuration samples := by
  have hsplit := totalDuration_append (samples.take n) (samples.drop n)
  rw [List.take_append_drop] at hsplit
  omega

end Durations

/-! ## The chunks -/

/-- Chunks that follow one another from `a` to `b`, none of them empty. -/
def Tiles : Nat → List SegmentChunk → Nat → Prop
  | a, [], b => a = b
  | a, chunk :: chunks, b => chunk.start = a ∧ chunk.start < chunk.stop ∧ Tiles chunk.stop chunks b

section Tiles

variable {a b c : Nat} {chunk : SegmentChunk} {chunks : List SegmentChunk}

theorem Tiles.snoc (h : Tiles a chunks b) (hstart : chunk.start = b) (hlt : b < chunk.stop) :
    Tiles a (chunks ++ [chunk]) chunk.stop := by
  induction chunks generalizing a with
  | nil =>
    obtain rfl : a = b := h
    exact ⟨hstart, hstart ▸ hlt, rfl⟩
  | cons head chunks ih => exact ⟨h.1, h.2.1, ih h.2.2⟩

theorem Tiles.le (h : Tiles a chunks b) : a + chunks.length ≤ b := by
  induction chunks generalizing a with
  | nil =>
    obtain rfl : a = b := h
    exact Nat.le_refl _
  | cons head chunks ih =>
    obtain ⟨rfl, hlt, hrest⟩ := h
    have := ih hrest
    rw [List.length_cons]
    omega

theorem Tiles.ne_nil (h : Tiles a chunks b) (hlt : a < b) : chunks ≠ [] := by
  rintro rfl
  exact Nat.ne_of_lt hlt h

/-- Taken one after the other, the slices are the list. -/
theorem Tiles.flatten_slices {α : Type} {xs : List α} (h : Tiles a chunks b) (hb : b ≤ xs.length) :
    (chunks.map fun chunk => (xs.take chunk.stop).drop chunk.start).flatten = (xs.take b).drop a := by
  induction chunks generalizing a with
  | nil =>
    obtain rfl : a = b := h
    simp
  | cons head chunks ih =>
    obtain ⟨rfl, hlt, hrest⟩ := h
    have hle := hrest.le
    have htake : xs.take head.stop = (xs.take b).take head.stop := by
      rw [List.take_take, Nat.min_eq_left (by omega)]
    have hlength : head.start ≤ ((xs.take b).take head.stop).length := by
      rw [← htake, List.length_take]
      omega
    rw [List.map_cons, List.flatten_cons, ih hrest, htake, ← List.drop_append_of_le_length hlength,
      List.take_append_drop]

end Tiles

section Split

variable {ε : Type} {track : RemuxedTrack ε} {target : Nat}

/-- The chunks so far, and the samples since. -/
structure SplitState.Covers (s : SplitState ε) (n : Nat) : Prop where
  tiles : Tiles 0 s.chunks s.currentStart
  total : s.currentStart + s.currentLen = n

theorem SplitState.Covers.push {s : SplitState ε} {n : Nat} (h : s.Covers n)
    (hlen : 0 < s.currentLen) : s.push.Covers n where
  tiles := h.tiles.snoc rfl (Nat.lt_add_of_pos_right hlen)
  total := h.total

theorem SplitState.Covers.add {s : SplitState ε} {n : Nat} (h : s.Covers n)
    (sample : RemuxSampleRef ε) : (SplitState.add track target s sample).Covers (n + 1) := by
  unfold SplitState.add
  dsimp only
  split
  · rename_i hpush
    have hpushed := h.push hpush.1
    exact ⟨hpushed.tiles, congrArg (· + 1) hpushed.total⟩
  · exact ⟨h.tiles, congrArg (· + 1) h.total⟩

theorem covers_foldl {s : SplitState ε} {n : Nat} (h : s.Covers n)
    (samples : List (RemuxSampleRef ε)) :
    (samples.foldl (SplitState.add track target) s).Covers (n + samples.length) := by
  induction samples generalizing s n with
  | nil => exact h
  | cons sample samples ih =>
    rw [List.foldl_cons, List.length_cons, Nat.add_comm samples.length, ← Nat.add_assoc]
    exact ih (h.add sample)

/-- The chunks cut the samples up. -/
theorem tiles_splitIntoSegments (track : RemuxedTrack ε) (target : Nat) :
    Tiles 0 (splitIntoSegments track target) track.samples.length := by
  have hcovers : (track.samples.foldl (SplitState.add track target) {}).Covers
      track.samples.length := by
    have hnew : ({} : SplitState ε).Covers 0 := ⟨rfl, rfl⟩
    rw [← Nat.zero_add track.samples.length]
    exact covers_foldl hnew track.samples
  unfold splitIntoSegments
  dsimp only
  split
  · rename_i hlen
    have hpushed := hcovers.push hlen
    rw [← hpushed.total]
    exact hpushed.tiles
  · rename_i hlen
    rw [← hcovers.total, Nat.eq_zero_of_not_pos hlen]
    exact hcovers.tiles

/-- The chunks hold all samples, in order. -/
theorem flatten_splitIntoSegments (track : RemuxedTrack ε) (target : Nat) :
    ((splitIntoSegments track target).map fun chunk =>
      (track.samples.take chunk.stop).drop chunk.start).flatten = track.samples := by
  rw [(tiles_splitIntoSegments track target).flatten_slices (Nat.le_refl _), List.take_length,
    List.drop_zero]

theorem splitIntoSegments_ne_nil (h : track.samples ≠ []) : splitIntoSegments track target ≠ [] :=
  (tiles_splitIntoSegments track target).ne_nil (List.length_pos_iff.2 h)

/-- There are no more chunks than samples, so that an index is a `usize`. -/
theorem length_splitIntoSegments (track : RemuxedTrack ε) (target : Nat) :
    (splitIntoSegments track target).length < 2 ^ 64 := by
  have hle := (tiles_splitIntoSegments track target).le
  have hlt := track.samples_lt
  omega

end Split

/-! ## The files -/

namespace HlsDir

variable {dir : HlsDir} {name name' : String} {content : List UInt8}

theorem read_write_self : (dir.write name content).read name = some content := by
  simp [read, write]

theorem read_write_of_ne (h : name' ≠ name) : (dir.write name content).read name' = dir.read name' := by
  rw [read, write, List.lookup_cons, beq_false_of_ne h]
  rfl

theorem has_of_read (h : dir.read name = some content) : dir.has name = true := by
  rw [has, h]
  rfl

end HlsDir

theorem segName_toList (index : Nat) :
    (segName index).toList = "seg".toList ++ (Nat.toDigits 10 index ++ ".m4s".toList) := by
  rw [segName, String.toList_append, String.toList_append, Nat.toList_repr, List.append_assoc]

theorem segName_ne {s : String} (h : s.toList.head? ≠ some 's') (index : Nat) : segName index ≠ s := by
  rintro rfl
  rw [segName_toList] at h
  exact h rfl

section Inversion

variable {α β : Type}

theorem bind_eq_ok {x : Except HlsFailure α} {f : α → Except HlsFailure β} {b : β}
    (h : (x >>= f) = .ok b) : ∃ a, x = .ok a ∧ f a = .ok b := by
  cases x with
  | error e => cases h
  | ok a => exact ⟨a, rfl, h⟩

theorem bind_of_ok {x : Except HlsFailure α} {f : α → Except HlsFailure β} {a : α} (h : x = .ok a) :
    (x >>= f) = f a := by
  rw [h]
  rfl

theorem mapError_eq_ok {x : Except String α} {f : String → HlsFailure} {a : α}
    (h : x.mapError f = .ok a) : x = .ok a := by
  cases x with
  | error e => cases h
  | ok a' => exact congrArg Except.ok (Except.ok.inj h)

theorem orPanic_eq_ok {x : Option α} {a : α} (h : orPanic x = .ok a) : x = some a := by
  cases x with
  | none => cases h
  | some a' => exact congrArg some (Except.ok.inj h)

theorem orPanic_of_some {x : Option α} {a : α} (h : x = some a) : orPanic x = .ok a := by
  rw [h]
  rfl

end Inversion

section Files

variable {ε μ : Type} {muxer : Muxer ε μ} {printer : PlaylistPrinter} {track : RemuxedTrack ε}
  {index target : Nat} {chunk : SegmentChunk} {chunks : List SegmentChunk} {m m' : μ} {dir dir' : HlsDir}

/-- The file of a chunk: what the muxer says of its samples, and their bytes. -/
structure HoldsChunk (muxer : Muxer ε μ) (track : RemuxedTrack ε) (chunk : SegmentChunk)
    (chunkSamples : List (RemuxSampleRef ε)) (segmentMeta data : List UInt8) : Prop where
  samples : slice? track.samples chunk.start chunk.stop = some chunkSamples
  muxed : ∃ m samples m', muxSamples track true 0 chunkSamples = .ok samples ∧
    muxer.createMediaSegmentMetadata m samples = .ok (segmentMeta, m')
  data : sampleBytes track chunkSamples = some data

/-- The directory has the chunk in the file of that number. -/
def HlsDir.HasChunk (dir : HlsDir) (muxer : Muxer ε μ) (track : RemuxedTrack ε) (index : Nat)
    (chunk : SegmentChunk) : Prop :=
  ∃ chunkSamples segmentMeta data, HoldsChunk muxer track chunk chunkSamples segmentMeta data ∧
    dir.read (segName index) = some (segmentMeta ++ data)

theorem writeSegment_ok (h : writeSegment muxer track index chunk m dir = .ok (m', dir')) :
    dir'.HasChunk muxer track index chunk ∧
      ∀ name, name ≠ segName index → dir'.read name = dir.read name := by
  obtain ⟨chunkSamples, hsamples, h⟩ := bind_eq_ok h
  obtain ⟨samples, hmux, h⟩ := bind_eq_ok h
  obtain ⟨⟨segmentMeta, m₁⟩, hmeta, h⟩ := bind_eq_ok h
  obtain ⟨data, hdata, h⟩ := bind_eq_ok h
  cases h
  have hmeta := mapError_eq_ok hmeta
  refine ⟨⟨chunkSamples, segmentMeta, data, ⟨orPanic_eq_ok hsamples, ⟨m, samples, m', hmux, hmeta⟩,
    orPanic_eq_ok hdata⟩, HlsDir.read_write_self⟩, ?_⟩
  intro name hname
  exact HlsDir.read_write_of_ne hname

/-- Induction on the chunks: what is written later has other names. -/
theorem writeSegments_ok (h : writeSegments muxer track index chunks m dir = .ok (m', dir')) :
    (∀ i chunk, chunks[i]? = some chunk → dir'.HasChunk muxer track (index + i) chunk) ∧
      ∀ name, (∀ i, index ≤ i → name ≠ segName i) → dir'.read name = dir.read name := by
  induction chunks generalizing index m dir with
  | nil =>
    cases h
    exact ⟨nofun, fun _ _ => rfl⟩
  | cons head chunks ih =>
    obtain ⟨⟨m₁, dir₁⟩, hhead, h⟩ := bind_eq_ok h
    obtain ⟨hchunks, hothers⟩ := ih h
    obtain ⟨⟨chunkSamples, segmentMeta, data, hholds, hread⟩, hframe⟩ := writeSegment_ok hhead
    constructor
    · intro i chunk hi
      cases i with
      | zero =>
        obtain rfl : head = chunk := Option.some.inj hi
        have hlater : ∀ i, index + 1 ≤ i → segName index ≠ segName i := by
          intro i hi heq
          have := segName_injective heq
          omega
        exact ⟨chunkSamples, segmentMeta, data, hholds, by rw [Nat.add_zero, hothers _ hlater, hread]⟩
      | succ i =>
        have hrest := hchunks i chunk (by simpa using hi)
        rwa [Nat.add_assoc, Nat.add_comm 1] at hrest
    · intro name hname
      rw [hothers name fun i hi => hname i (by omega), hframe name (hname index (Nat.le_refl _))]

/-- The directory after `write_hls_output`. -/
structure HlsWritten (muxer : Muxer ε μ) (printer : PlaylistPrinter) (track : RemuxedTrack ε)
    (chunks : List SegmentChunk) (dir : HlsDir) : Prop where
  playlist : ∃ text, printer track.timescale (playlistSegments chunks) = .ok text ∧
    dir.read "index.m3u8" = some (Percent.bytes text)
  init : ∃ m init, muxer.initSegmentBytes m = .ok init ∧ dir.read "init.mp4" = some init
  chunk : ∀ i chunk, chunks[i]? = some chunk → dir.HasChunk muxer track i chunk

theorem hlsWritten_of_ok (h : writeHlsOutput muxer printer track dir target = .ok dir') :
    HlsWritten muxer printer track (splitIntoSegments track target) dir' := by
  unfold writeHlsOutput at h
  dsimp only at h
  split at h
  · cases h
  obtain ⟨m, -, h⟩ := bind_eq_ok h
  obtain ⟨⟨m₁, dir₁⟩, hsegments, h⟩ := bind_eq_ok h
  obtain ⟨init, hinit, h⟩ := bind_eq_ok h
  obtain ⟨text, htext, h⟩ := bind_eq_ok h
  cases h
  obtain ⟨hchunks, -⟩ := writeSegments_ok hsegments
  refine ⟨⟨text, mapError_eq_ok htext, HlsDir.read_write_self⟩, ⟨m₁, init, mapError_eq_ok hinit, ?_⟩, ?_⟩
  · rw [HlsDir.read_write_of_ne (by decide), HlsDir.read_write_self]
  · intro i chunk hi
    obtain ⟨chunkSamples, segmentMeta, data, hholds, hread⟩ := hchunks i chunk hi
    refine ⟨chunkSamples, segmentMeta, data, hholds, ?_⟩
    rw [HlsDir.read_write_of_ne (segName_ne (by decide) i),
      HlsDir.read_write_of_ne (segName_ne (by decide) i),
      ← Nat.zero_add i, hread]

/-- What was written can be opened, whatever else there is in the directory, and the files of all
chunks are counted. -/
theorem HlsWritten.opens (h : HlsWritten muxer printer track chunks dir) (hne : chunks ≠ []) :
    ∃ segments, HlsSegments.openDir dir = .ok segments ∧ segments.root = dir ∧
      ∀ i < chunks.length, segments.segmentPath i = some (segName i) := by
  obtain ⟨text, -, hindex⟩ := h.playlist
  obtain ⟨-, init, -, hinit⟩ := h.init
  have hhas : ∀ i < chunks.length, dir.has (segName i) = true := by
    intro i hi
    obtain ⟨_, _, _, -, hread⟩ := h.chunk i chunks[i] (List.getElem?_eq_getElem hi)
    exact HlsDir.has_of_read hread
  have hcount : chunks.length ≤ Nat.find (exists_missing dir) := by
    rw [Nat.le_find_iff]
    intro i hi
    rw [hhas i hi]
    exact Bool.noConfusion
  have hpos : 0 < chunks.length := List.length_pos_iff.2 hne
  refine ⟨⟨dir, Nat.find (exists_missing dir)⟩, ?_, rfl, ?_⟩
  · rw [HlsSegments.openDir, if_neg (by simp [HlsDir.has_of_read hindex, HlsDir.has_of_read hinit])]
    exact if_neg (by omega)
  · intro i hi
    exact if_pos (Nat.lt_of_lt_of_le hi hcount)

end Files

end Kanade

import Kanade.Hls.FlacFrames

/-!
# Kanade.Hls.FlacHeaders

The two functions that walk over the header of a FLAC frame: `find_flac_frame_header_end` over the file, for the
check, and `parse_flac_frame_block_size` over what begins with the frame, for the duration.

* `walkFlacFrameHeader_end`: behind a sync code they stop at the same byte, or neither finds its end.
* `flac_header_walkers_agree`: what the check lets through has a block size.
-/

namespace Kanade

namespace Flac

/-- `parse_flac_frame_block_size`, with the offset that it comes to. -/
def walkFlacFrameHeader (frame : List UInt8) (streaminfo : FlacStreamInfo) : Option (UInt32 × Nat) :=
  if frame.length < 5 ∨ frame.getD 0 0 ≠ 0xFF ∨ frame.getD 1 0 &&& 0xFC ≠ 0xF8 then none
  else do
    let codes := frame.getD 2 0
    let utf8Len ← skipFlacUtf8Number (frame.drop 4)
    let (blockSize, offset) ← flacBlockSize frame streaminfo ((codes &&& 0xF0) >>> 4) (4 + utf8Len)
    let stop := offset + sampleRateLen (codes &&& 0x0F)
    let _ ← frame[stop]?
    some (blockSize, stop)

/-- The loop of `remux_flac` with `fallback` where a frame has no block size. -/
def flacSamplesOr (fallback : UInt32) (bytes : List UInt8) (streaminfo : FlacStreamInfo) :
    List Nat → List (RemuxSampleRef FlacBox)
  | [] => []
  | start :: starts =>
    let stop := starts.head?.getD bytes.length
    if stop ≤ start then flacSamplesOr fallback bytes streaminfo starts
    else
      let duration := (parseFlacFrameBlockSize (bytes.drop start) streaminfo).getD fallback
      ⟨start, stop, max duration 1, none, true, none⟩ :: flacSamplesOr fallback bytes streaminfo starts

section Walk

variable {frame bytes : List UInt8} {streaminfo : FlacStreamInfo} {blockSizeCode : UInt8} {offset : Nat}

theorem flacSamples_eq (starts : List Nat) : flacSamples bytes streaminfo starts =
    flacSamplesOr (max streaminfo.maxBlockSize 1).toUInt32 bytes streaminfo starts := by
  induction starts with
  | nil => rfl
  | cons start starts ih => rw [flacSamples, flacSamplesOr, ih]

theorem parseFlacFrameBlockSize_eq (frame : List UInt8) (streaminfo : FlacStreamInfo) :
    parseFlacFrameBlockSize frame streaminfo = (walkFlacFrameHeader frame streaminfo).map Prod.fst := by
  unfold parseFlacFrameBlockSize walkFlacFrameHeader
  split
  · rfl
  · cases skipFlacUtf8Number (frame.drop 4) with
    | none => rfl
    | some utf8Len =>
      simp only [Option.bind_eq_bind, Option.bind_some]
      cases flacBlockSize frame streaminfo ((frame.getD 2 0 &&& 0xF0) >>> 4) (4 + utf8Len) with
      | none => rfl
      | some next =>
        obtain ⟨blockSize, offset⟩ := next
        simp only [Option.bind_some]
        cases frame[offset + sampleRateLen (frame.getD 2 0 &&& 0x0F)]? <;> rfl

/-- A block size is told by every code, if the bytes that the code asks for are there. -/
theorem flacBlockSize_end (hcode : blockSizeCode.toNat < 16) (hle : offset ≤ frame.length) :
    (flacBlockSize frame streaminfo blockSizeCode offset).map Prod.snd =
      if offset + blockSizeLen blockSizeCode ≤ frame.length then some (offset + blockSizeLen blockSizeCode)
      else none := by
  have hlen : blockSizeLen blockSizeCode =
      if blockSizeCode.toNat = 6 then 1 else if blockSizeCode.toNat = 7 then 2 else 0 := by
    simp only [blockSizeLen, ← UInt8.toNat_inj]
    rfl
  rw [hlen]
  unfold flacBlockSize
  generalize blockSizeCode.toNat = code at *
  split
  case h_7 =>
    change _ = if offset + 1 ≤ frame.length then some (offset + 1) else none
    by_cases hfits : offset + 1 ≤ frame.length
    · rw [List.getElem?_eq_getElem hfits, if_pos hfits]
      rfl
    · rw [List.getElem?_eq_none (by omega), if_neg hfits]
      rfl
  case h_8 =>
    change _ = if offset + 2 ≤ frame.length then some (offset + 2) else none
    by_cases hfits : offset + 2 ≤ frame.length
    · rw [List.getElem?_eq_getElem (by omega : offset < frame.length), List.getElem?_eq_getElem hfits, if_pos hfits]
      rfl
    · rw [List.getElem?_eq_none (by omega : frame.length ≤ offset + 1), if_neg hfits]
      cases frame[offset]? <;> rfl
  case h_17 => grind
  all_goals exact (if_pos hle).symm

/-- Behind a sync code, both come to the same byte, which is there, or neither does. -/
theorem walkFlacFrameHeader_end (hsync : frame.getD 0 0 = 0xFF) (hsecond : frame.getD 1 0 &&& 0xFC = 0xF8) :
    (walkFlacFrameHeader frame streaminfo).map Prod.snd =
      (findFlacFrameHeaderEnd frame 0).filter (· < frame.length) := by
  unfold walkFlacFrameHeader findFlacFrameHeaderEnd
  by_cases hshort : frame.length < 5
  · rw [if_pos (.inl hshort)]
    by_cases hlen : frame.length < 0 + 4
    · rw [if_pos hlen]
      rfl
    · have hdrop : frame.drop (0 + 4) = [] := List.drop_eq_nil_of_le (by omega)
      rw [if_neg hlen, hdrop]
      rfl
  · have hcode : ((frame.getD 2 0 &&& 0xF0) >>> 4).toNat < 16 := by
      have hlt := (frame.getD 2 0).toNat_lt
      rw [toNat_blockSizeCode]
      omega
    have hheader : ¬(frame.length < 5 ∨ frame.getD 0 0 ≠ 0xFF ∨ frame.getD 1 0 &&& 0xFC ≠ 0xF8) := by
      simp only [hsync, hsecond, ne_eq, not_true_eq_false, or_false]
      exact hshort
    rw [if_neg hheader, if_neg (by omega)]
    simp only [Nat.zero_add]
    cases hskip : skipFlacUtf8Number (frame.drop 4) with
    | none => rfl
    | some utf8Len =>
      have hle : 4 + utf8Len ≤ frame.length := by
        have hskip := skipFlacUtf8Number_le hskip
        rw [List.length_drop] at hskip
        omega
      have hsize := @flacBlockSize_end frame streaminfo _ _ hcode hle
      simp only [Option.bind_eq_bind, Option.bind_some]
      by_cases hfits : 4 + utf8Len + blockSizeLen ((frame.getD 2 0 &&& 0xF0) >>> 4) ≤ frame.length
      · rw [if_pos hfits] at hsize
        obtain ⟨⟨blockSize, offset⟩, hnext, hoffset⟩ := Option.map_eq_some_iff.1 hsize
        rw [hnext, ← hoffset, Option.bind_some]
        by_cases hstop : offset + sampleRateLen (frame.getD 2 0 &&& 0x0F) < frame.length
        · rw [List.getElem?_eq_getElem hstop, Option.filter_some, if_pos (decide_eq_true hstop)]
          rfl
        · rw [List.getElem?_eq_none (by omega), Option.filter_some, if_neg (by simpa using hstop)]
          rfl
      · rw [if_neg hfits] at hsize
        rw [Option.map_eq_none_iff.1 hsize, Option.filter_some, if_neg (by simp only [decide_eq_true_eq]; omega)]
        rfl

/-- What is known of a place where a header seems to begin. -/
theorem HeaderAt.walk {start : Nat} (h : HeaderAt bytes start) (streaminfo : FlacStreamInfo) :
    ∃ blockSize stop crc, walkFlacFrameHeader (bytes.drop start) streaminfo = some (blockSize, stop) ∧
      findFlacFrameHeaderEnd bytes start = some (start + stop) ∧ bytes[start + stop]? = some crc ∧
      flacCrc8 ((bytes.take (start + stop)).drop start) = crc := by
  obtain ⟨header, hplausible, tail, hdrop⟩ := h
  have hend := hplausible.headerEnd tail
  have hlt : header.unchecked.length < (header.bytes ++ tail).length := by
    rw [Header.bytes, List.length_append, List.length_append, List.length_singleton]
    omega
  have hwalk := @walkFlacFrameHeader_end (header.bytes ++ tail) streaminfo rfl hplausible.sync
  rw [hend, Option.filter_some, if_pos (decide_eq_true hlt), hdrop] at hwalk
  obtain ⟨⟨blockSize, stop⟩, hwalk, hstop⟩ := Option.map_eq_some_iff.1 hwalk
  have hstop : stop = header.unchecked.length := hstop
  rw [hdrop] at hend
  refine ⟨blockSize, stop, header.crc, hwalk, ?_, ?_, ?_⟩
  · rw [findFlacFrameHeaderEnd_drop, hend, Option.map_some, ← hstop]
  · rw [← List.getElem?_drop, ← hdrop, hstop]
    simp [Header.bytes]
  · rw [List.drop_take, ← hdrop, Nat.add_sub_cancel_left, hstop, Header.bytes, List.append_assoc,
      List.take_left']
    · exact codeword_iff_flacCrc8.1 hplausible.crc
    · rfl

theorem flacSamplesOr_congr (fallback fallback' : UInt32) {starts : List Nat}
    (h : ∀ start ∈ starts, parseFlacFrameBlockSize (bytes.drop start) streaminfo ≠ none) :
    flacSamplesOr fallback bytes streaminfo starts = flacSamplesOr fallback' bytes streaminfo starts := by
  induction starts with
  | nil => rfl
  | cons start starts ih =>
    obtain ⟨blockSize, hsize⟩ := Option.ne_none_iff_exists'.1 (h start List.mem_cons_self)
    rw [flacSamplesOr, flacSamplesOr, ih fun other hother => h other (List.mem_cons_of_mem _ hother), hsize]
    rfl

/-- What the check lets through has a block size, which is found by coming to the checked byte; and what stands in for
a missing block size does not matter. -/
theorem flac_header_walkers_agree (bytes : List UInt8) (audioOffset : Nat) (streaminfo : FlacStreamInfo) :
    (∀ start ∈ flacFrameStarts bytes audioOffset, ∃ blockSize stop crc,
      parseFlacFrameBlockSize (bytes.drop start) streaminfo = some blockSize ∧
        walkFlacFrameHeader (bytes.drop start) streaminfo = some (blockSize, stop) ∧
        findFlacFrameHeaderEnd bytes start = some (start + stop) ∧ bytes[start + stop]? = some crc ∧
        flacCrc8 ((bytes.take (start + stop)).drop start) = crc) ∧
    ∀ fallback, flacSamples bytes streaminfo (flacFrameStarts bytes audioOffset) =
      flacSamplesOr fallback bytes streaminfo (flacFrameStarts bytes audioOffset) := by
  have hstarts : ∀ start ∈ flacFrameStarts bytes audioOffset, ∃ blockSize stop crc,
      parseFlacFrameBlockSize (bytes.drop start) streaminfo = some blockSize ∧
        walkFlacFrameHeader (bytes.drop start) streaminfo = some (blockSize, stop) ∧
        findFlacFrameHeaderEnd bytes start = some (start + stop) ∧ bytes[start + stop]? = some crc ∧
        flacCrc8 ((bytes.take (start + stop)).drop start) = crc := by
    intro start hstart
    obtain ⟨-, hheader⟩ := mem_flacFrameStarts.1 hstart
    obtain ⟨blockSize, stop, crc, hwalk, hfound⟩ := hheader.walk streaminfo
    refine ⟨blockSize, stop, crc, ?_, hwalk, hfound⟩
    rw [parseFlacFrameBlockSize_eq, hwalk]
    rfl
  refine ⟨hstarts, ?_⟩
  intro fallback
  rw [flacSamples_eq]
  apply flacSamplesOr_congr
  intro start hstart
  obtain ⟨blockSize, -, -, hsize, -⟩ := hstarts start hstart
  rw [hsize]
  exact Option.some_ne_none blockSize

end Walk

end Flac

end Kanade

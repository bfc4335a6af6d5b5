import Kanade.Bits.Byte
import Kanade.Hls.Flac

/-!
# Kanade.Hls.FlacMetadata

`parse_flac_metadata` by its offsets, where an index or a slice out of range panics, and the blocks it reads
against the bytes they are written as.

* `walkFlacBlocks_eq`: the loop ends, and nothing is out of range.
* `parseFlacBlocks_ok`, `parseFlacBlocks_flatMap`: what is read was written, and what is written is read.
* `flac_metadata_round_trip`: all of it for a file.
-/

namespace Kanade

/-! ## Blocks as they are written -/

namespace FlacMetadataBlock

/-- The flag and the type, the length in three bytes, the data. -/
def bytes (block : FlacMetadataBlock) : List UInt8 :=
  ((if block.lastMetadataBlockFlag then 0x80 else 0) ||| block.blockType) ::
    UInt8.ofNat (block.blockData.length / 2 ^ 16) :: UInt8.ofNat (block.blockData.length / 2 ^ 8 % 2 ^ 8) ::
    UInt8.ofNat (block.blockData.length % 2 ^ 8) :: block.blockData

/-- The type has seven bits and the length has 24. -/
structure Fits (block : FlacMetadataBlock) : Prop where
  blockType_lt : block.blockType.toNat < 2 ^ 7
  length_lt : block.blockData.length < 2 ^ 24

end FlacMetadataBlock

/-- The last block is flagged as the last one, and no other is. -/
def OnlyLastFlagged (blocks : List FlacMetadataBlock) : Prop :=
  ∃ before last, blocks = before ++ [last] ∧ last.lastMetadataBlockFlag = true ∧
    ∀ block ∈ before, block.lastMetadataBlockFlag = false

/-- Metadata with a STREAMINFO. -/
structure FlacMetadata where
  blocks : List FlacMetadataBlock
  fits : ∀ block ∈ blocks, block.Fits
  flagged : OnlyLastFlagged blocks
  streaminfo : ∃ block ∈ blocks, block.blockType = 0
  streaminfo_length : ∀ block ∈ blocks, block.blockType = 0 → block.blockData.length = 34

/-! ## The loop -/

/-- The loop from `offset` on; no result if it is not over within so many rounds. Offsets are at most the length of
a slice, so that no sum overflows or saturates. -/
def walkFlacBlocks (bytes : List UInt8) : Nat → Nat → List FlacMetadataBlock → Option FlacStreamInfo →
    Option (Except HlsFailure (List FlacMetadataBlock × FlacStreamInfo × Nat))
  | fuel, offset, blocks, streaminfo =>
    if bytes.length < offset + 4 then
      some (.error (.invalidData "unexpected end of FLAC metadata blocks"))
    else
      match fuel with
      | 0 => none
      | fuel + 1 =>
        match bytes[offset]?, bytes[offset + 1]?, bytes[offset + 2]?, bytes[offset + 3]? with
        | some header, some a, some b, some c =>
          let isLast := header &&& 0x80 ≠ 0
          let blockType := header &&& 0x7F
          let length := a.toNat <<< 16 ||| b.toNat <<< 8 ||| c.toNat
          let stop := offset + 4 + length
          if bytes.length < stop then
            some (.error (.invalidData "FLAC metadata block exceeded file bounds"))
          else
            match slice? bytes (offset + 4) stop with
            | none => some (.error .panic)
            | some blockData =>
              match nextStreaminfo blockType blockData streaminfo with
              | .error e => some (.error e)
              | .ok streaminfo =>
                let blocks := blocks ++ [⟨isLast, blockType, blockData⟩]
                if isLast then
                  match streaminfo with
                  | some streaminfo => some (.ok (blocks, streaminfo, stop))
                  | none => some (.error (.invalidData "FLAC streaminfo block missing"))
                else walkFlacBlocks bytes fuel stop blocks streaminfo
        | _, _, _, _ => some (.error .panic)

def walkFlacMetadata (bytes : List UInt8) :
    Option (Except HlsFailure (List FlacMetadataBlock × FlacStreamInfo × Nat)) :=
  walkFlacBlocks bytes bytes.length 4 [] none

section Walk

variable {bytes : List UInt8} {fuel offset : Nat} {blocks : List FlacMetadataBlock}
  {streaminfo : Option FlacStreamInfo}

theorem walkFlacBlocks_eq (hfuel : bytes.length ≤ offset + fuel) :
    walkFlacBlocks bytes fuel offset blocks streaminfo =
      some (parseFlacBlocks fuel offset (bytes.drop offset) blocks streaminfo) := by
  induction fuel generalizing offset blocks streaminfo with
  | zero =>
    unfold walkFlacBlocks
    rw [if_pos (by omega)]
    rfl
  | succ fuel ih =>
    unfold walkFlacBlocks
    by_cases hmore : bytes.length < offset + 4
    · rw [if_pos hmore]
      have hlength : (bytes.drop offset).length < 4 := by
        rw [List.length_drop]
        omega
      rcases hdrop : bytes.drop offset with _ | ⟨header, _ | ⟨a, _ | ⟨b, _ | ⟨c, rest⟩⟩⟩⟩
      · rfl
      · rfl
      · rfl
      · rfl
      · rw [hdrop] at hlength
        simp only [List.length_cons] at hlength
        omega
    · obtain ⟨header, a, b, c, rest, hdrop⟩ : ∃ header a b c rest, bytes.drop offset = header :: a :: b :: c :: rest := by
        have hlength : 4 ≤ (bytes.drop offset).length := by
          rw [List.length_drop]
          omega
        obtain ⟨header, _, hdrop, hthree⟩ := exists_cons hlength
        obtain ⟨a, _, rfl, htwo⟩ := exists_cons hthree
        obtain ⟨b, _, rfl, hone⟩ := exists_cons htwo
        obtain ⟨c, rest, rfl, -⟩ := exists_cons hone
        exact ⟨header, a, b, c, rest, hdrop⟩
      have hat : ∀ i, bytes[offset + i]? = (header :: a :: b :: c :: rest)[i]? := by
        intro i
        rw [← hdrop, List.getElem?_drop]
      have hrest : bytes.drop (offset + 4) = rest := by
        rw [← List.drop_drop, hdrop]
        rfl
      have hlength : rest.length = bytes.length - (offset + 4) := by
        rw [← hrest, List.length_drop]
      rw [if_neg hmore, hdrop, parseFlacBlocks]
      dsimp only
      have hheader : bytes[offset]? = some header := hat 0
      have ha : bytes[offset + 1]? = some a := hat 1
      have hb : bytes[offset + 2]? = some b := hat 2
      have hc : bytes[offset + 3]? = some c := hat 3
      rw [hheader, ha, hb, hc]
      dsimp only
      generalize a.toNat <<< 16 ||| b.toNat <<< 8 ||| c.toNat = length
      by_cases hfits : bytes.length < offset + 4 + length
      · rw [if_pos hfits, if_pos (by omega)]
      · rw [if_neg hfits, if_neg (by omega), slice?_add (by omega), hrest]
        dsimp only
        cases hnext : nextStreaminfo (header &&& 0x7F) (rest.take length) streaminfo with
        | error e => rfl
        | ok next =>
          dsimp only [bind, Except.bind]
          by_cases hlast : header &&& 0x80 ≠ 0
          · rw [if_pos hlast, if_pos hlast]
            cases next <;> rfl
          · have hnext : rest.drop length = bytes.drop (offset + 4 + length) := by
              rw [← hrest, List.drop_drop]
            rw [if_neg hlast, if_neg hlast, hnext]
            exact ih (by omega)

theorem walkFlacMetadata_eq (bytes : List UInt8) : walkFlacMetadata bytes = some (parseFlacMetadata bytes) :=
  walkFlacBlocks_eq (Nat.le_add_left _ _)

theorem nextStreaminfo_ne_panic (blockType : UInt8) (data : List UInt8) (streaminfo : Option FlacStreamInfo) :
    nextStreaminfo blockType data streaminfo ≠ .error .panic := by
  unfold nextStreaminfo parseFlacStreaminfo
  split
  · split
    · simp [Except.map, HlsFailure.invalidData]
    · simp [Except.map]
  · simp

theorem parseFlacBlocks_ne_panic {rest : List UInt8} :
    parseFlacBlocks fuel offset rest blocks streaminfo ≠ .error .panic := by
  induction fuel generalizing offset rest blocks streaminfo with
  | zero => simp [parseFlacBlocks, HlsFailure.invalidData]
  | succ fuel ih =>
    rcases rest with _ | ⟨header, _ | ⟨a, _ | ⟨b, _ | ⟨c, rest⟩⟩⟩⟩
    · simp [parseFlacBlocks, HlsFailure.invalidData]
    · simp [parseFlacBlocks, HlsFailure.invalidData]
    · simp [parseFlacBlocks, HlsFailure.invalidData]
    · simp [parseFlacBlocks, HlsFailure.invalidData]
    · rw [parseFlacBlocks]
      dsimp only
      generalize a.toNat <<< 16 ||| b.toNat <<< 8 ||| c.toNat = length
      split
      · simp [HlsFailure.invalidData]
      · cases hnext : nextStreaminfo (header &&& 0x7F) (rest.take length) streaminfo with
        | error e =>
          intro heq
          have he : e = .panic := Except.error.inj heq
          exact nextStreaminfo_ne_panic _ _ _ (hnext.trans (congrArg _ he))
        | ok next =>
          dsimp only [bind, Except.bind]
          split
          · cases next <;> simp [HlsFailure.invalidData]
          · exact ih

end Walk

/-! ## What is read was written -/

section Read

variable {fuel offset stop : Nat} {rest : List UInt8} {acc blocks : List FlacMetadataBlock}
  {streaminfo : Option FlacStreamInfo} {info : FlacStreamInfo}

theorem or_bytes {a b c : Nat} (hb : b < 2 ^ 8) (hc : c < 2 ^ 8) :
    a <<< 16 ||| b <<< 8 ||| c = a * 2 ^ 16 + b * 2 ^ 8 + c := by
  have hshift : a <<< 16 = a <<< 8 <<< 8 := Nat.shiftLeft_add a 8 8
  rw [hshift, ← Nat.shiftLeft_or_distrib, Bits.shiftLeft_or hb, Bits.shiftLeft_or hc]
  omega

/-- The flag and the type make up the byte. -/
theorem flag_or_type (header : UInt8) :
    (if header &&& 0x80 ≠ 0 then 0x80 else 0) ||| header &&& 0x7F = header := by
  have hhigh : (header &&& 0x80).toNat = header.toNat / 2 ^ 7 * 2 ^ 7 := Bits.toNat_and_high header 7 (by decide) rfl
  have hlow : (header &&& 0x7F).toNat = header.toNat % 2 ^ 7 := Bits.toNat_and_low header 7 rfl
  have hlt := header.toNat_lt
  have hset : header &&& 0x80 ≠ 0 ↔ 2 ^ 7 ≤ header.toNat := by
    rw [ne_eq, ← UInt8.toNat_inj, hhigh, UInt8.toNat_zero]
    omega
  rw [← UInt8.toNat_inj, UInt8.toNat_or, hlow]
  split
  · rename_i hone
    have hflag : (0x80 : UInt8).toNat = 1 <<< 7 := rfl
    have hle := hset.1 hone
    rw [hflag, Bits.shiftLeft_or (Nat.mod_lt _ (Nat.two_pow_pos 7))]
    omega
  · rename_i hzero
    have hnot := mt hset.2 hzero
    rw [UInt8.toNat_zero, Nat.zero_or]
    omega

/-- A header and the bytes that it asks for are a block. -/
theorem bytes_of_read (header a b c : UInt8) {data : List UInt8}
    (hlength : data.length = a.toNat <<< 16 ||| b.toNat <<< 8 ||| c.toNat) :
    (FlacMetadataBlock.mk (decide (header &&& 0x80 ≠ 0)) (header &&& 0x7F) data).bytes =
      header :: a :: b :: c :: data := by
  have hheader := flag_or_type header
  have ha := a.toNat_lt
  have hb := b.toNat_lt
  have hc := c.toNat_lt
  rw [or_bytes hb hc] at hlength
  have hbytes : data.length / 2 ^ 16 = a.toNat ∧ data.length / 2 ^ 8 % 2 ^ 8 = b.toNat ∧
      data.length % 2 ^ 8 = c.toNat := by
    omega
  unfold FlacMetadataBlock.bytes
  simp only [decide_eq_true_eq]
  rw [hheader, hbytes.1, hbytes.2.1, hbytes.2.2, UInt8.ofNat_toNat, UInt8.ofNat_toNat, UInt8.ofNat_toNat]

theorem parseFlacBlocks_ok (h : parseFlacBlocks fuel offset rest acc streaminfo = .ok (blocks, info, stop)) :
    ∃ read behind, blocks = acc ++ read ∧ OnlyLastFlagged read ∧
      rest = read.flatMap FlacMetadataBlock.bytes ++ behind ∧
      stop = offset + (read.flatMap FlacMetadataBlock.bytes).length := by
  induction fuel generalizing offset rest acc streaminfo with
  | zero =>
    rw [parseFlacBlocks] at h
    · cases h
    · simp
  | succ fuel ih =>
    rcases rest with _ | ⟨header, _ | ⟨a, _ | ⟨b, _ | ⟨c, rest⟩⟩⟩⟩
    · cases h
    · cases h
    · cases h
    · cases h
    · rw [parseFlacBlocks] at h
      dsimp only at h
      generalize hsize : a.toNat <<< 16 ||| b.toNat <<< 8 ||| c.toNat = length at h
      split at h
      · cases h
      · rename_i hfits
        obtain ⟨next, -, h⟩ := bind_eq_ok h
        have htake : (rest.take length).length = length := List.length_take_of_le (by omega)
        have hbytes := bytes_of_read header a b c (htake.trans hsize.symm)
        have hflag : (FlacMetadataBlock.mk (decide (header &&& 0x80 ≠ 0)) (header &&& 0x7F)
          (rest.take length)).lastMetadataBlockFlag = decide (header &&& 0x80 ≠ 0) := rfl
        generalize FlacMetadataBlock.mk (decide (header &&& 0x80 ≠ 0)) (header &&& 0x7F) (rest.take length) = block
          at h hbytes hflag
        split at h
        · rename_i hlast
          cases next with
          | none => cases h
          | some next =>
            cases h
            refine ⟨[block], rest.drop length, rfl, ⟨[], block, rfl, ?_, ?_⟩, ?_, ?_⟩
            · rw [hflag, decide_eq_true hlast]
            · intro other hother
              cases hother
            · rw [List.flatMap_singleton, hbytes]
              simp
            · rw [List.flatMap_singleton, hbytes]
              simp only [List.length_cons, htake]
              omega
        · rename_i hmore
          obtain ⟨read, behind, hblocks, ⟨before, last, hread, hlast, hothers⟩, hrest, hstop⟩ := ih h
          refine ⟨block :: read, behind, hblocks.trans (List.append_assoc _ _ _),
            ⟨block :: before, last, ?_, hlast, ?_⟩, ?_, ?_⟩
          · rw [hread]
            rfl
          · intro other hother
            rcases List.mem_cons.1 hother with rfl | hother
            · rw [hflag, decide_eq_false hmore]
            · exact hothers other hother
          · rw [List.flatMap_cons, hbytes, List.append_assoc, ← hrest]
            simp
          · rw [List.flatMap_cons, hbytes, List.length_append, hstop]
            simp only [List.length_cons, htake]
            omega

end Read

/-! ## What is written is read -/

section Written

variable {fuel offset : Nat} {rest : List UInt8} {acc before : List FlacMetadataBlock}
  {block last : FlacMetadataBlock} {streaminfo next : Option FlacStreamInfo} {info : FlacStreamInfo}

theorem length_bytes_block (block : FlacMetadataBlock) : block.bytes.length = 4 + block.blockData.length := by
  simp only [FlacMetadataBlock.bytes, List.length_cons]
  omega

theorem length_le_flatMap (blocks : List FlacMetadataBlock) :
    blocks.length ≤ (blocks.flatMap FlacMetadataBlock.bytes).length := by
  induction blocks with
  | nil => exact Nat.le_refl _
  | cons block blocks ih =>
    rw [List.flatMap_cons, List.length_append, List.length_cons, length_bytes_block]
    omega

/-- What is read of a block. -/
theorem read_of_bytes (hfits : block.Fits) : ∃ header a b c, block.bytes = header :: a :: b :: c :: block.blockData ∧
    (header &&& 0x80 ≠ 0 ↔ block.lastMetadataBlockFlag = true) ∧ header &&& 0x7F = block.blockType ∧
      a.toNat <<< 16 ||| b.toNat <<< 8 ||| c.toNat = block.blockData.length := by
  have hlength := hfits.length_lt
  have hbits : ∀ n < 128, UInt8.ofNat n &&& 0x80 = 0 ∧ UInt8.ofNat n &&& 0x7F = UInt8.ofNat n ∧
      (0x80 ||| UInt8.ofNat n) &&& 0x80 ≠ 0 ∧ (0x80 ||| UInt8.ofNat n) &&& 0x7F = UInt8.ofNat n := by
    decide
  obtain ⟨hzero, htype, hone, htype'⟩ := hbits block.blockType.toNat hfits.blockType_lt
  rw [UInt8.ofNat_toNat] at hzero htype hone htype'
  refine ⟨_, _, _, _, rfl, ?_, ?_, ?_⟩
  · cases block.lastMetadataBlockFlag with
    | true => exact iff_of_true hone rfl
    | false =>
      rw [if_neg Bool.false_ne_true, UInt8.zero_or]
      exact iff_of_false (fun hne => hne hzero) Bool.false_ne_true
  · cases block.lastMetadataBlockFlag with
    | true => exact htype'
    | false => rwa [if_neg Bool.false_ne_true, UInt8.zero_or]
  · rw [Bits.toNat_ofNat (by omega), Bits.toNat_ofNat (by omega), Bits.toNat_ofNat (by omega),
      or_bytes (by omega) (by omega)]
    omega

theorem parseFlacBlocks_bytes (fuel offset : Nat) (rest : List UInt8) (acc : List FlacMetadataBlock)
    (hfits : block.Fits)
    (hnext : nextStreaminfo block.blockType block.blockData streaminfo = .ok next) :
    (block.lastMetadataBlockFlag = false → parseFlacBlocks (fuel + 1) offset (block.bytes ++ rest) acc streaminfo =
      parseFlacBlocks fuel (offset + block.bytes.length) rest (acc ++ [block]) next) ∧
    (block.lastMetadataBlockFlag = true → ∀ info, next = some info →
      parseFlacBlocks (fuel + 1) offset (block.bytes ++ rest) acc streaminfo =
        .ok (acc ++ [block], info, offset + block.bytes.length)) := by
  obtain ⟨header, a, b, c, hbytes, hlast, htype, hlength⟩ := read_of_bytes hfits
  have hblock : FlacMetadataBlock.mk (decide (header &&& 0x80 ≠ 0)) block.blockType block.blockData = block := by
    rw [decide_eq_decide.2 hlast, Bool.decide_coe]
  have hfits : ¬ (block.blockData ++ rest).length < block.blockData.length := by
    rw [List.length_append]
    omega
  rw [length_bytes_block, hbytes]
  simp only [List.cons_append, parseFlacBlocks, htype, hlength, List.take_left', List.drop_left']
  rw [if_neg hfits, hnext, ← Nat.add_assoc, hblock]
  dsimp only [bind, Except.bind]
  constructor
  · intro hflag
    rw [if_neg (mt hlast.1 (ne_true_of_eq_false hflag))]
  · intro hflag info hinfo
    rw [if_pos (hlast.2 hflag), hinfo]

theorem nextStreaminfo_ok (hlength : block.blockType = 0 → block.blockData.length = 34) :
    ∃ next, nextStreaminfo block.blockType block.blockData streaminfo = .ok next ∧
      ((block.blockType = 0 ∧ ∃ info, next = some info ∧ parseFlacStreaminfo block.blockData = .ok info) ∨
        (block.blockType ≠ 0 ∧ next = streaminfo)) := by
  unfold nextStreaminfo
  by_cases htype : block.blockType = 0
  · obtain ⟨info, hinfo⟩ : ∃ info, parseFlacStreaminfo block.blockData = .ok info := by
      rw [parseFlacStreaminfo, if_neg (not_not.2 (hlength htype))]
      exact ⟨_, rfl⟩
    rw [if_pos htype, hinfo]
    exact ⟨some info, rfl, .inl ⟨htype, info, rfl, rfl⟩⟩
  · rw [if_neg htype]
    exact ⟨streaminfo, rfl, .inr ⟨htype, rfl⟩⟩

/-- A written block is read, and its STREAMINFO is what is known from then on. -/
theorem streaminfo_next (streaminfo : Option FlacStreamInfo)
    (hlength : block.blockType = 0 → block.blockData.length = 34) :
    ∃ next, nextStreaminfo block.blockType block.blockData streaminfo = .ok next ∧
      (streaminfo ≠ none ∨ block.blockType = 0 → next ≠ none) ∧
      ∀ info, next = some info → streaminfo = some info ∨
        (block.blockType = 0 ∧ parseFlacStreaminfo block.blockData = .ok info) := by
  obtain ⟨next, hnext, ⟨htype, info, hinfo, hparse⟩ | ⟨htype, hsame⟩⟩ := nextStreaminfo_ok hlength
  · refine ⟨next, hnext, fun _ => hinfo ▸ Option.some_ne_none _, ?_⟩
    intro other hother
    rw [hinfo] at hother
    cases hother
    exact .inr ⟨htype, hparse⟩
  · refine ⟨next, hnext, ?_, fun info hinfo => .inl (hsame ▸ hinfo)⟩
    intro hknown
    rcases hknown with hknown | hzero
    · exact hsame ▸ hknown
    · exact absurd hzero htype

theorem parseFlacBlocks_flatMap (offset : Nat) (rest : List UInt8) (acc : List FlacMetadataBlock)
    (streaminfo : Option FlacStreamInfo) (hfits : ∀ block ∈ before ++ [last], block.Fits)
    (hlength : ∀ block ∈ before ++ [last], block.blockType = 0 → block.blockData.length = 34)
    (hothers : ∀ block ∈ before, block.lastMetadataBlockFlag = false) (hlast : last.lastMetadataBlockFlag = true)
    (hknown : streaminfo ≠ none ∨ ∃ block ∈ before ++ [last], block.blockType = 0) (hfuel : before.length < fuel) :
    ∃ info, parseFlacBlocks fuel offset ((before ++ [last]).flatMap FlacMetadataBlock.bytes ++ rest) acc streaminfo =
        .ok (acc ++ (before ++ [last]), info,
          offset + ((before ++ [last]).flatMap FlacMetadataBlock.bytes).length) ∧
      (streaminfo = some info ∨
        ∃ block ∈ before ++ [last], block.blockType = 0 ∧ parseFlacStreaminfo block.blockData = .ok info) := by
  induction before generalizing offset acc streaminfo fuel with
  | nil =>
    obtain ⟨fuel, rfl⟩ : ∃ n, fuel = n + 1 := ⟨fuel - 1, by rw [List.length_nil] at hfuel; omega⟩
    have hmem : last ∈ [] ++ [last] := List.mem_singleton_self last
    obtain ⟨next, hnext, hsome, hfrom⟩ := streaminfo_next streaminfo (hlength last hmem)
    obtain ⟨info, hinfo⟩ : ∃ info, next = some info := by
      apply Option.ne_none_iff_exists'.1
      apply hsome
      rcases hknown with hknown | ⟨block, hblock, hzero⟩
      · exact .inl hknown
      · cases List.mem_singleton.1 hblock
        exact .inr hzero
    refine ⟨info, ?_, (hfrom info hinfo).imp_right fun h => ⟨last, hmem, h⟩⟩
    rw [List.nil_append, List.flatMap_singleton]
    exact (parseFlacBlocks_bytes fuel offset rest acc (hfits last hmem) hnext).2 hlast info hinfo
  | cons block before ih =>
    rw [List.cons_append] at hfits hlength hknown
    obtain ⟨fuel, rfl⟩ : ∃ n, fuel = n + 1 := by
      rw [List.length_cons] at hfuel
      exact ⟨fuel - 1, by omega⟩
    obtain ⟨next, hnext, hsome, hfrom⟩ := streaminfo_next streaminfo
      (hlength block List.mem_cons_self)
    have hknown' : next ≠ none ∨ ∃ block ∈ before ++ [last], block.blockType = 0 := by
      rcases hknown with hknown | ⟨other, hother, hzero⟩
      · exact .inl (hsome (.inl hknown))
      · rcases List.mem_cons.1 hother with rfl | hother
        · exact .inl (hsome (.inr hzero))
        · exact .inr ⟨other, hother, hzero⟩
    obtain ⟨info, hrest, hinfo⟩ := ih (offset + block.bytes.length) (acc ++ [block]) next
      (fun other hother => hfits other (List.mem_cons_of_mem _ hother))
      (fun other hother => hlength other (List.mem_cons_of_mem _ hother))
      (fun other hother => hothers other (List.mem_cons_of_mem _ hother))
      hknown' (Nat.lt_of_succ_lt_succ hfuel)
    have hread := (parseFlacBlocks_bytes fuel offset
      ((before ++ [last]).flatMap FlacMetadataBlock.bytes ++ rest) acc
      (hfits block List.mem_cons_self) hnext).1 (hothers block List.mem_cons_self)
    refine ⟨info, ?_, ?_⟩
    · rw [List.cons_append, List.flatMap_cons, List.append_assoc, hread, hrest, List.append_assoc,
        List.length_append, Nat.add_assoc]
      rfl
    · rcases hinfo with hinfo | ⟨other, hother, hparse⟩
      · rcases hfrom info hinfo with h | h
        · exact .inl h
        · exact .inr ⟨block, List.mem_cons_self, h⟩
      · exact .inr ⟨other, List.mem_cons_of_mem _ hother, hparse⟩

theorem parseFlacMetadata_written (metadata : FlacMetadata) (audio : List UInt8) :
    ∃ info, parseFlacMetadata ([0x66, 0x4C, 0x61, 0x43] ++ (metadata.blocks.flatMap FlacMetadataBlock.bytes ++ audio)) =
        .ok (metadata.blocks, info, 4 + (metadata.blocks.flatMap FlacMetadataBlock.bytes).length) ∧
      ∃ block ∈ metadata.blocks, block.blockType = 0 ∧ parseFlacStreaminfo block.blockData = .ok info := by
  obtain ⟨before, last, hblocks, hlast, hothers⟩ := metadata.flagged
  have hfits := metadata.fits
  have hstreaminfo := metadata.streaminfo
  have hlength := metadata.streaminfo_length
  rw [hblocks] at hfits hstreaminfo hlength ⊢
  have hbefore := length_le_flatMap (before ++ [last])
  have hfuel : before.length < 4 + ((before ++ [last]).flatMap FlacMetadataBlock.bytes ++ audio).length := by
    rw [List.length_append, List.length_singleton] at hbefore
    rw [List.length_append]
    omega
  obtain ⟨info, hparse, hinfo⟩ := parseFlacBlocks_flatMap 4 audio [] none hfits hlength hothers hlast
    (.inr hstreaminfo) hfuel
  refine ⟨info, ?_, ?_⟩
  · rw [parseFlacMetadata, List.length_append]
    exact hparse
  · rcases hinfo with hnone | hinfo
    · cases hnone
    · exact hinfo

end Written

/-! ## Both ways -/

theorem rebuildDflaBlocks_eq {blocks : List FlacMetadataBlock} (h : OnlyLastFlagged blocks) :
    rebuildDflaBlocks blocks = blocks := by
  obtain ⟨before, last, rfl, hlast, hothers⟩ := h
  induction before with
  | nil => rw [List.nil_append, rebuildDflaBlocks, ← hlast]
  | cons block before ih =>
    have hblock := hothers block List.mem_cons_self
    rw [List.cons_append, rebuildDflaBlocks, ih fun other hother => hothers other (List.mem_cons_of_mem _ hother),
      ← hblock]
    intro h
    exact List.append_ne_nil_of_right_ne_nil before (List.cons_ne_nil last []) h

/-- The offsets never lead out of the bytes and the walk ends; the blocks that are read are the bytes between the
marker and the audio, flagged as they are rebuilt; and metadata that is written is read. -/
theorem flac_metadata_round_trip (bytes : List UInt8) (metadata : FlacMetadata) (audio : List UInt8) :
    (∃ result, walkFlacMetadata bytes = some result ∧ result ≠ .error .panic ∧
      ∀ blocks info audioOffset, result = .ok (blocks, info, audioOffset) →
        slice? bytes 4 audioOffset = some (blocks.flatMap FlacMetadataBlock.bytes) ∧
          OnlyLastFlagged blocks ∧ rebuildDflaBlocks blocks = blocks) ∧
    ∃ info, walkFlacMetadata
        ([0x66, 0x4C, 0x61, 0x43] ++ (metadata.blocks.flatMap FlacMetadataBlock.bytes ++ audio)) =
      some (.ok (metadata.blocks, info, 4 + (metadata.blocks.flatMap FlacMetadataBlock.bytes).length)) ∧
      ∃ block ∈ metadata.blocks, block.blockType = 0 ∧ parseFlacStreaminfo block.blockData = .ok info := by
  constructor
  · refine ⟨parseFlacMetadata bytes, walkFlacMetadata_eq bytes, parseFlacBlocks_ne_panic, ?_⟩
    intro blocks info audioOffset hok
    obtain ⟨read, behind, hblocks, hflagged, hrest, hstop⟩ := parseFlacBlocks_ok hok
    rw [List.nil_append] at hblocks
    subst hblocks
    refine ⟨?_, hflagged, rebuildDflaBlocks_eq hflagged⟩
    have hlength : (bytes.drop 4).length = (blocks.flatMap FlacMetadataBlock.bytes ++ behind).length :=
      congrArg _ hrest
    rw [List.length_drop, List.length_append] at hlength
    obtain ⟨before, last, rfl, -, -⟩ := hflagged
    have hsome : 4 ≤ ((before ++ [last]).flatMap FlacMetadataBlock.bytes).length := by
      rw [List.flatMap_append, List.flatMap_singleton, List.length_append, length_bytes_block]
      omega
    rw [hstop, slice?_add (by omega), hrest, List.take_left']
    rfl
  · obtain ⟨info, hparse, hinfo⟩ := parseFlacMetadata_written metadata audio
    exact ⟨info, (walkFlacMetadata_eq _).trans (congrArg some hparse), hinfo⟩

end Kanade

import Kanade.Bits.Fields
import Kanade.Hls.Flac

/-!
# Kanade.Hls.FlacStreaminfo

The STREAMINFO block as the format lays it out, 34 bytes of fields that do not keep to the bytes, and what
`parse_flac_streaminfo` reads from it.

`parseFlacStreaminfo_bytes`: the fields that were written.
-/

namespace Kanade

structure Streaminfo where
  minBlockSize : Nat
  maxBlockSize : Nat
  minFrameSize : Nat
  maxFrameSize : Nat
  sampleRate : Nat
  channels : Nat
  bitsPerSample : Nat
  totalSamples : Nat
  /-- The MD5 of the audio. -/
  signature : Nat
  minBlockSize_lt : minBlockSize < 2 ^ 16
  maxBlockSize_lt : maxBlockSize < 2 ^ 16
  minFrameSize_lt : minFrameSize < 2 ^ 24
  maxFrameSize_lt : maxFrameSize < 2 ^ 24
  sampleRate_lt : sampleRate < 2 ^ 20
  channels_pos : 1 ≤ channels
  channels_le : channels ≤ 8
  bitsPerSample_pos : 1 ≤ bitsPerSample
  bitsPerSample_le : bitsPerSample ≤ 32
  totalSamples_lt : totalSamples < 2 ^ 36
  signature_lt : signature < 2 ^ 128

/-- 44.1 kHz stereo of 16 bits. -/
instance : Inhabited Streaminfo where
  default :=
    { minBlockSize := 4096, maxBlockSize := 4096, minFrameSize := 0, maxFrameSize := 0, sampleRate := 44100,
      channels := 2, bitsPerSample := 16, totalSamples := 0, signature := 0, minBlockSize_lt := by decide,
      maxBlockSize_lt := by decide, minFrameSize_lt := by decide, maxFrameSize_lt := by decide,
      sampleRate_lt := by decide, channels_pos := by decide, channels_le := by decide, bitsPerSample_pos := by decide,
      bitsPerSample_le := by decide, totalSamples_lt := by decide, signature_lt := by decide }

namespace Streaminfo

variable (info : Streaminfo)

theorem channels_lt : info.channels - 1 < 2 ^ 3 := by
  have hle := info.channels_le
  omega

theorem bitsPerSample_lt : info.bitsPerSample - 1 < 2 ^ 5 := by
  have hle := info.bitsPerSample_le
  omega

/-- In their order; of the channels and the bits per sample one less is written. -/
def fields : List Bits.Field :=
  [⟨16, info.minBlockSize, info.minBlockSize_lt⟩, ⟨16, info.maxBlockSize, info.maxBlockSize_lt⟩,
    ⟨24, info.minFrameSize, info.minFrameSize_lt⟩, ⟨24, info.maxFrameSize, info.maxFrameSize_lt⟩,
    ⟨20, info.sampleRate, info.sampleRate_lt⟩, ⟨3, info.channels - 1, info.channels_lt⟩,
    ⟨5, info.bitsPerSample - 1, info.bitsPerSample_lt⟩, ⟨36, info.totalSamples, info.totalSamples_lt⟩,
    ⟨128, info.signature, info.signature_lt⟩]

def packed : Nat := Bits.pack info.fields

def bytes : List UInt8 := Bits.toBytes 34 info.packed

/-! ## The fields in the block -/

theorem bits_maxBlockSize : Bits.bits info.packed 240 16 = info.maxBlockSize :=
  Bits.bits_pack (info.fields.take 1) (info.fields.drop 2) ⟨16, info.maxBlockSize, info.maxBlockSize_lt⟩

theorem bits_sampleRate : Bits.bits info.packed 172 20 = info.sampleRate :=
  Bits.bits_pack (info.fields.take 4) (info.fields.drop 5) ⟨20, info.sampleRate, info.sampleRate_lt⟩

theorem bits_channels : Bits.bits info.packed 169 3 + 1 = info.channels := by
  have hpos := info.channels_pos
  have hbits : Bits.bits info.packed 169 3 = info.channels - 1 :=
    Bits.bits_pack (info.fields.take 5) (info.fields.drop 6) ⟨3, info.channels - 1, info.channels_lt⟩
  omega

theorem bits_bitsPerSample : Bits.bits info.packed 164 5 + 1 = info.bitsPerSample := by
  have hpos := info.bitsPerSample_pos
  have hbits : Bits.bits info.packed 164 5 = info.bitsPerSample - 1 :=
    Bits.bits_pack (info.fields.take 6) (info.fields.drop 7) ⟨5, info.bitsPerSample - 1, info.bitsPerSample_lt⟩
  omega

theorem bits_totalSamples : Bits.bits info.packed 128 36 = info.totalSamples :=
  Bits.bits_pack (info.fields.take 7) (info.fields.drop 8) ⟨36, info.totalSamples, info.totalSamples_lt⟩

end Streaminfo

/-! ## What is read -/

section Read

variable {block : List UInt8} {m : Nat} (hbyte : ∀ i, i < 34 → (block.getD i 0).toNat = Bits.bits m (8 * (33 - i)) 8)
include hbyte

theorem read_maxBlockSize :
    ((block.getD 2 0).toUInt16 <<< 8 ||| (block.getD 3 0).toUInt16).toNat = Bits.bits m 240 16 := by
  rw [UInt16.toNat_or, UInt16.toNat_shiftLeft, UInt8.toNat_toUInt16, UInt8.toNat_toUInt16, hbyte 2 (by omega),
    hbyte 3 (by omega)]
  change Bits.bits m 248 8 <<< 8 % 2 ^ 16 ||| Bits.bits m 240 8 = _
  rw [Bits.bits_shiftLeft_mod (by omega)]
  exact Bits.bits_or m 240 8 8

theorem read_sampleRate :
    ((block.getD 10 0).toUInt32 <<< 12 ||| (block.getD 11 0).toUInt32 <<< 4 |||
      ((block.getD 12 0).toUInt32 &&& 0xF0) >>> 4).toNat = Bits.bits m 172 20 := by
  rw [UInt32.toNat_or, UInt32.toNat_or, UInt32.toNat_shiftLeft, UInt32.toNat_shiftLeft, UInt32.toNat_shiftRight,
    UInt32.toNat_and, UInt8.toNat_toUInt32, UInt8.toNat_toUInt32, UInt8.toNat_toUInt32, hbyte 10 (by omega),
    hbyte 11 (by omega), hbyte 12 (by omega)]
  change Bits.bits m 184 8 <<< 12 % 2 ^ 32 ||| Bits.bits m 176 8 <<< 4 % 2 ^ 32 |||
    (Bits.bits m 168 8 &&& 0xF0) >>> 4 = _
  rw [Bits.bits_shiftLeft_mod (by omega), Bits.bits_shiftLeft_mod (by omega),
    Bits.bits_and_shiftRight (by decide : 0xF0 >>> 4 = 2 ^ 4 - 1) (by omega)]
  calc Bits.bits m 184 8 <<< 12 ||| Bits.bits m 176 8 <<< 4 ||| Bits.bits m 172 4
      = Bits.bits m 176 16 <<< 4 ||| Bits.bits m 172 4 := by rw [Bits.bits_or_shiftLeft m 176 8 8 4]
    _ = Bits.bits m 172 20 := Bits.bits_or m 172 4 16

theorem read_channels :
    (((block.getD 12 0 &&& 0x0E) >>> 1) + 1).toNat = Bits.bits m 169 3 + 1 := by
  have hfield : ((block.getD 12 0 &&& 0x0E) >>> 1).toNat = Bits.bits m 169 3 := by
    rw [UInt8.toNat_shiftRight, UInt8.toNat_and, hbyte 12 (by omega)]
    exact Bits.bits_and_shiftRight (by decide : 0x0E >>> 1 = 2 ^ 3 - 1) (by decide)
  have hlt := Bits.bits_lt m 169 3
  rw [UInt8.toNat_add, hfield]
  exact Nat.mod_eq_of_lt (by change Bits.bits m 169 3 + 1 < 256; omega)

theorem read_bitsPerSample :
    (((block.getD 12 0 &&& 0x01) <<< 4 ||| (block.getD 13 0 &&& 0xF0) >>> 4) + 1).toNat = Bits.bits m 164 5 + 1 := by
  have hhigh : (Bits.bits m 168 8 &&& 0x01) >>> 0 = Bits.bits m 168 1 :=
    Bits.bits_and_shiftRight (by decide : 0x01 >>> 0 = 2 ^ 1 - 1) (by omega)
  have hfield : ((block.getD 12 0 &&& 0x01) <<< 4 ||| (block.getD 13 0 &&& 0xF0) >>> 4).toNat = Bits.bits m 164 5 := by
    rw [UInt8.toNat_or, UInt8.toNat_shiftLeft, UInt8.toNat_shiftRight, UInt8.toNat_and, UInt8.toNat_and,
      hbyte 12 (by omega), hbyte 13 (by omega)]
    change ((Bits.bits m 168 8 &&& 0x01) >>> 0) <<< 4 % 2 ^ 8 ||| (Bits.bits m 160 8 &&& 0xF0) >>> 4 = _
    rw [hhigh, Bits.bits_shiftLeft_mod (by omega),
      Bits.bits_and_shiftRight (by decide : 0xF0 >>> 4 = 2 ^ 4 - 1) (by omega)]
    exact Bits.bits_or m 164 4 1
  have hlt := Bits.bits_lt m 164 5
  rw [UInt8.toNat_add, hfield]
  exact Nat.mod_eq_of_lt (by change Bits.bits m 164 5 + 1 < 256; omega)

theorem read_totalSamples :
    (((block.getD 13 0).toUInt64 &&& 0x0F) <<< 32 ||| (block.getD 14 0).toUInt64 <<< 24 |||
      (block.getD 15 0).toUInt64 <<< 16 ||| (block.getD 16 0).toUInt64 <<< 8 |||
      (block.getD 17 0).toUInt64).toNat = Bits.bits m 128 36 := by
  have hhigh : (Bits.bits m 160 8 &&& 0x0F) >>> 0 = Bits.bits m 160 4 :=
    Bits.bits_and_shiftRight (by decide : 0x0F >>> 0 = 2 ^ 4 - 1) (by omega)
  simp only [UInt64.toNat_or, UInt64.toNat_shiftLeft, UInt64.toNat_and, UInt8.toNat_toUInt64]
  rw [hbyte 13 (by omega), hbyte 14 (by omega), hbyte 15 (by omega), hbyte 16 (by omega), hbyte 17 (by omega)]
  change ((Bits.bits m 160 8 &&& 0x0F) >>> 0) <<< 32 % 2 ^ 64 ||| Bits.bits m 152 8 <<< 24 % 2 ^ 64 |||
    Bits.bits m 144 8 <<< 16 % 2 ^ 64 ||| Bits.bits m 136 8 <<< 8 % 2 ^ 64 ||| Bits.bits m 128 8 = _
  rw [hhigh, Bits.bits_shiftLeft_mod (by omega), Bits.bits_shiftLeft_mod (by omega),
    Bits.bits_shiftLeft_mod (by omega), Bits.bits_shiftLeft_mod (by omega)]
  calc Bits.bits m 160 4 <<< 32 ||| Bits.bits m 152 8 <<< 24 ||| Bits.bits m 144 8 <<< 16 |||
        Bits.bits m 136 8 <<< 8 ||| Bits.bits m 128 8
      = Bits.bits m 152 12 <<< 24 ||| Bits.bits m 144 8 <<< 16 ||| Bits.bits m 136 8 <<< 8 ||| Bits.bits m 128 8 := by
        rw [Bits.bits_or_shiftLeft m 152 8 4 24]
    _ = Bits.bits m 144 20 <<< 16 ||| Bits.bits m 136 8 <<< 8 ||| Bits.bits m 128 8 := by
        rw [Bits.bits_or_shiftLeft m 144 8 12 16]
    _ = Bits.bits m 136 28 <<< 8 ||| Bits.bits m 128 8 := by
        rw [Bits.bits_or_shiftLeft m 136 8 20 8]
    _ = Bits.bits m 128 36 := Bits.bits_or m 128 8 28

end Read

/-- The fields that were written are read, whatever the others are. -/
theorem parseFlacStreaminfo_bytes (info : Streaminfo) : ∃ read, parseFlacStreaminfo info.bytes = .ok read ∧
    read.maxBlockSize.toNat = info.maxBlockSize ∧ read.sampleRate.toNat = info.sampleRate ∧
    read.channels.toNat = info.channels ∧ read.bitsPerSample.toNat = info.bitsPerSample ∧
    read.totalSamples.toNat = info.totalSamples := by
  have hlength : info.bytes.length = 34 := Bits.length_toBytes 34 info.packed
  have hbyte : ∀ i, i < 34 → (info.bytes.getD i 0).toNat = Bits.bits info.packed (8 * (33 - i)) 8 := by
    intro i hi
    exact Bits.toNat_getD_toBytes 34 info.packed hi
  unfold parseFlacStreaminfo
  rw [if_neg (not_not.2 hlength)]
  refine ⟨_, rfl, ?_, ?_, ?_, ?_, ?_⟩
  · exact (read_maxBlockSize hbyte).trans info.bits_maxBlockSize
  · exact (read_sampleRate hbyte).trans info.bits_sampleRate
  · exact (read_channels hbyte).trans info.bits_channels
  · exact (read_bitsPerSample hbyte).trans info.bits_bitsPerSample
  · exact (read_totalSamples hbyte).trans info.bits_totalSamples

end Kanade

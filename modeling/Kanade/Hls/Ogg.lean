import Kanade.Hls.Pcm
import Kanade.Hls.Segments
import Kanade.Lacing.Assembly

/-!
# Kanade.Hls.Ogg

`remux_opus`: the packets of an Ogg file, across its pages, and the samples made of them. The sample entry is
a parameter.

* `oggPages_stream`: what the loop over the pages makes of a well-formed stream.
* `oggPages_total`: for any bytes it comes to its end, and inside of them.
* `ogg_packets_exact`: which packets are seen, and which are returned.
-/

namespace Kanade

open Lacing (Assembly assemble lacing)

/-! ## Packets -/

structure OggOpusData where
  channels : UInt8
  preSkip : UInt16
  packets : List (List UInt8)
deriving DecidableEq, Repr

/-- The loop over the lacing values of a page. -/
def oggSegments (bytes : List UInt8) : List UInt8 → Nat → Assembly UInt8 →
    Except HlsFailure (Assembly UInt8)
  | [], _, s => .ok s
  | lace :: laces, pageOffset, s => do
    let segEnd := pageOffset + lace.toNat
    let segment ← orPanic (slice? bytes pageOffset segEnd)
    oggSegments bytes laces segEnd (s.add (lace < 255) segment)

/-- The loop over the pages, once for the page at `offset`: where the next one begins, and the packets so
far. A page has at most `27 + 255 + 255 * 255` bytes, so that no sum exceeds a `usize`. -/
def oggPage (bytes : List UInt8) (offset : Nat) (s : Assembly UInt8) :
    Except HlsFailure (Nat × Assembly UInt8) := do
  let capture ← orPanic (slice? bytes offset (offset + 4))
  if capture ≠ ascii "OggS" then .error (.invalidData "invalid Ogg page header")
  else do
    let pageSegments ← orPanic bytes[offset + 26]?
    let laceStart := offset + 27
    let dataStart := laceStart + pageSegments.toNat
    if bytes.length < dataStart then .error (.invalidData "invalid Ogg lacing table")
    else do
      let laces ← orPanic (slice? bytes laceStart dataStart)
      let dataEnd := dataStart + Lacing.total (laces.map UInt8.toNat)
      if bytes.length < dataEnd then .error (.invalidData "invalid Ogg page size")
      else do
        let s ← oggSegments bytes laces dataStart s
        .ok (dataEnd, s)

/-- The loop; no result if it is not over within so many rounds. -/
def oggPages (bytes : List UInt8) : Nat → Nat → Assembly UInt8 →
    Option (Except HlsFailure (Assembly UInt8))
  | fuel, offset, s =>
    if offset + 27 ≤ bytes.length then
      match fuel with
      | 0 => none
      | fuel + 1 =>
        match oggPage bytes offset s with
        | .error e => some (.error e)
        | .ok (dataEnd, s) => oggPages bytes fuel dataEnd s
    else some (.ok s)

/-- The packets before they are sorted out. Every round takes 27 bytes at least. -/
def oggPackets (bytes : List UInt8) : Option (Except HlsFailure (List (List UInt8))) :=
  (oggPages bytes bytes.length 0 .empty).map fun pages => pages.map Assembly.finish

/-- The variables of the loop over the packets. -/
structure OpusState where
  audioPackets : List (List UInt8) := []
  channels : UInt8 := 2
  preSkip : UInt16 := 312
  opusHead : Bool := false
deriving DecidableEq, Repr

def isOpusHead (packet : List UInt8) : Bool := (ascii "OpusHead").isPrefixOf packet ∧ 19 ≤ packet.length

def isOpusTags (packet : List UInt8) : Bool := (ascii "OpusTags").isPrefixOf packet

def OpusState.packet (s : OpusState) (packet : List UInt8) : Except HlsFailure OpusState :=
  if isOpusHead packet then do
    let channels ← orPanic packet[9]?
    let low ← orPanic packet[10]?
    let high ← orPanic packet[11]?
    .ok { s with
      channels := channels
      preSkip := UInt16.ofNat (readLe [low, high])
      opusHead := true }
  else if isOpusTags packet then .ok s
  else .ok { s with audioPackets := s.audioPackets ++ [packet] }

def OpusState.finish (s : OpusState) : Except HlsFailure OggOpusData :=
  if s.opusHead then .ok ⟨s.channels, s.preSkip, s.audioPackets⟩
  else .error (.invalidData "OpusHead packet missing")

def parseOggOpusPackets (bytes : List UInt8) : Option (Except HlsFailure OggOpusData) :=
  (oggPackets bytes).map fun packets => do
    let packets ← packets
    let s ← packets.foldlM OpusState.packet {}
    s.finish

/-! ## Samples -/

def opusPacketDuration : List UInt8 → UInt32
  | [] => 960
  | toc :: packet =>
    let config := toc >>> 3
    let frames : UInt8 :=
      if toc &&& 0x03 = 0 then 1
      else if toc &&& 0x03 = 3 then ((packet.head?.map fun v => max (v &&& 0x3F) 1)).getD 1
      else 2
    let samplesPerFrame : UInt32 :=
      if config ≤ 3 then 480
      else if config ≤ 7 then 960
      else if config ≤ 11 then 1920
      else if config ≤ 15 then 2880
      else if config ≤ 19 then 120
      else if config ≤ 23 then 240
      else if config ≤ 27 then 480
      else 960
    samplesPerFrame * frames.toUInt32

/-- The loop over the packets, with the payload so far. -/
def opusSamples {ε : Type} : List (List UInt8) → List UInt8 → List UInt8 × List (RemuxSampleRef ε)
  | [], payload => (payload, [])
  | packet :: packets, payload =>
    let duration := max (opusPacketDuration packet) 1
    let rest := opusSamples packets (payload ++ packet)
    (rest.1, ⟨payload.length, payload.length + packet.length, duration, none, true, none⟩ :: rest.2)

/-- `opusEntry` is the entry for channels, bits per sample and pre-skip. -/
def remuxOpus {ε : Type} (opusEntry : UInt8 → UInt8 → UInt16 → ε) (address : Nat)
    (properties : FileProperties) (bytes : List UInt8) : Option (Except HlsFailure (RemuxedTrack ε)) :=
  (parseOggOpusPackets bytes).map fun opus => do
    let opus ← opus
    let channels := properties.channels.getD opus.channels
    let entry := opusEntry channels (properties.bitDepth.getD 16) opus.preSkip
    let made := opusSamples opus.packets []
    if made.2 = [] then .error (.invalidData "no Opus packets found")
    else do
      let timescale ← nonzero 48000
      if h : made.2.length < 2 ^ 64 then .ok ⟨timescale, made.1, some ⟨address, entry⟩, made.2, h⟩
      else .error .panic

/-! ## Streams -/

/-- Two lacing values apart, `header` is all that a page has and the reader does not look at. -/
structure OggPage where
  header : List UInt8
  laces : List UInt8
  data : List UInt8
  header_length : header.length = 22
  laces_le : laces.length ≤ 255
  data_length : data.length = Lacing.total (laces.map UInt8.toNat)

namespace OggPage

def lengths (page : OggPage) : List Nat := page.laces.map UInt8.toNat

def bytes (page : OggPage) : List UInt8 :=
  ascii "OggS" ++ (page.header ++ UInt8.ofNat page.laces.length :: (page.laces ++ page.data))

end OggPage

/-- Packets, with their lacing values and their bytes distributed over pages. -/
structure OggStream where
  packets : List (List UInt8)
  pages : List OggPage
  lengths : pages.flatMap OggPage.lengths = packets.flatMap fun packet => lacing 255 packet.length
  data : pages.flatMap OggPage.data = packets.flatten

def OggStream.bytes (stream : OggStream) : List UInt8 := stream.pages.flatMap OggPage.bytes

/-- A page for each lacing value will do. -/
theorem exists_pages {ns : List Nat} {xs : List UInt8} (hns : ∀ n ∈ ns, n ≤ 255)
    (hlength : xs.length = Lacing.total ns) :
    ∃ pages : List OggPage, pages.flatMap OggPage.lengths = ns ∧ pages.flatMap OggPage.data = xs := by
  induction ns generalizing xs with
  | nil => exact ⟨[], rfl, (List.length_eq_zero_iff.1 hlength).symm⟩
  | cons n ns ih =>
    rw [Lacing.total_cons] at hlength
    have hlace : (UInt8.ofNat n).toNat = n :=
      UInt8.toNat_ofNat_of_lt' (Nat.lt_succ_of_le (hns n (List.mem_cons_self ..)))
    have hhere : (xs.take n).length = Lacing.total ([UInt8.ofNat n].map UInt8.toNat) := by
      rw [List.length_take, List.map_singleton, hlace, Lacing.total_cons, Lacing.total_nil]
      omega
    have hrest : (xs.drop n).length = Lacing.total ns := by
      rw [List.length_drop]
      omega
    obtain ⟨pages, hlengths, hdata⟩ := ih (fun m hm => hns m (List.mem_cons_of_mem n hm)) hrest
    refine ⟨⟨List.replicate 22 0, [UInt8.ofNat n], xs.take n, rfl, Nat.le_add_left 1 254, hhere⟩ :: pages, ?_, ?_⟩
    · rw [List.flatMap_cons, hlengths, OggPage.lengths, List.map_singleton, hlace]
      rfl
    · rw [List.flatMap_cons, hdata, List.take_append_drop]

/-- Any packets make a stream. -/
theorem exists_stream (packets : List (List UInt8)) : ∃ stream : OggStream, stream.packets = packets := by
  have hle : ∀ n ∈ packets.flatMap (fun packet => lacing 255 packet.length), n ≤ 255 := by
    intro n hn
    obtain ⟨packet, -, hmem⟩ := List.mem_flatMap.1 hn
    exact Lacing.le_of_mem_lacing (by decide) hmem
  obtain ⟨pages, hlengths, hdata⟩ := exists_pages hle (Lacing.total_flatMap_lacing 255 packets).symm
  exact ⟨⟨packets, pages, hlengths, hdata⟩, rfl⟩

/-! ## The loop over the pages -/

section Pages

variable {bytes : List UInt8} {offset : Nat} {s : Assembly UInt8}

theorem oggSegments_eq {laces : List UInt8}
    (hle : offset + Lacing.total (laces.map UInt8.toNat) ≤ bytes.length) :
    oggSegments bytes laces offset s =
      .ok (assemble 255 (laces.map UInt8.toNat) (bytes.drop offset) s) := by
  induction laces generalizing offset s with
  | nil => rfl
  | cons lace laces ih =>
    rw [List.map_cons, Lacing.total_cons] at hle
    have hlast : decide (lace < 255) = decide (lace.toNat < 255) :=
      decide_eq_decide.2 UInt8.lt_iff_toNat_lt
    unfold oggSegments
    dsimp only
    rw [slice?_add (by omega)]
    dsimp only [orPanic, bind, Except.bind]
    rw [ih (by omega), List.map_cons, Lacing.assemble_cons, List.drop_drop, hlast]

/-- What a page is read as, or that it is refused. It ends inside of the bytes, behind its header. -/
theorem oggPage_cases (hmore : offset + 27 ≤ bytes.length) :
    (∃ text, oggPage bytes offset s = .error (.error text)) ∨
      ∃ dataEnd s', oggPage bytes offset s = .ok (dataEnd, s') ∧ offset + 27 ≤ dataEnd ∧
        dataEnd ≤ bytes.length := by
  obtain ⟨pageSegments, hsegments⟩ : ∃ pageSegments, bytes[offset + 26]? = some pageSegments :=
    ⟨bytes[offset + 26], List.getElem?_eq_getElem (by omega)⟩
  unfold oggPage
  rw [slice?_add (by omega), hsegments]
  dsimp only [orPanic, bind, Except.bind]
  split
  · exact .inl ⟨_, rfl⟩
  split
  · exact .inl ⟨_, rfl⟩
  rename_i hlacing
  rw [slice?_add (by omega)]
  dsimp only
  split
  · exact .inl ⟨_, rfl⟩
  rename_i hsize
  rw [oggSegments_eq (by omega)]
  exact .inr ⟨_, _, rfl, by omega, by omega⟩

/-- The loop comes to its end for any bytes, and none of its ranges is outside of them. -/
theorem oggPages_total {fuel : Nat} (hfuel : bytes.length ≤ offset + fuel) :
    ∃ result, oggPages bytes fuel offset s = some result ∧ result ≠ .error .panic := by
  induction fuel generalizing offset s with
  | zero =>
    unfold oggPages
    rw [if_neg (by omega)]
    refine ⟨_, rfl, ?_⟩
    intro h
    cases h
  | succ fuel ih =>
    unfold oggPages
    split
    · rename_i hmore
      dsimp only
      rcases @oggPage_cases bytes offset s hmore with ⟨text, herror⟩ | ⟨dataEnd, s', hok, hlt, hle⟩
      · rw [herror]
        refine ⟨_, rfl, ?_⟩
        intro h
        cases h
      · rw [hok]
        exact ih (by omega)
    · refine ⟨_, rfl, ?_⟩
      intro h
      cases h

theorem OggPage.length_bytes (page : OggPage) :
    page.bytes.length = 27 + page.laces.length + page.data.length := by
  have hcapture : (ascii "OggS").length = 4 := rfl
  have hheader := page.header_length
  simp only [OggPage.bytes, List.length_append, List.length_cons]
  omega

/-- A page is read as its segments, whatever else is in its header. -/
theorem oggPage_page {page : OggPage} {after : List UInt8} (h : bytes.drop offset = page.bytes ++ after) :
    oggPage bytes offset s =
      .ok (offset + page.bytes.length, assemble 255 page.lengths page.data s) := by
  have hlength := congrArg List.length h
  rw [List.length_drop, List.length_append, page.length_bytes] at hlength
  have hheader := page.header_length
  have hdata := page.data_length
  have hcapture : (bytes.drop offset).take 4 = ascii "OggS" := by
    rw [h]
    rfl
  have hbehind : (bytes.drop offset).drop 4 =
      page.header ++ UInt8.ofNat page.laces.length :: (page.laces ++ (page.data ++ after)) := by
    rw [h, OggPage.bytes]
    simp [ascii]
  have hsegments : bytes[offset + 26]? = some (UInt8.ofNat page.laces.length) := by
    have hplace : bytes[offset + 26]? = ((bytes.drop offset).drop 4)[22]? := by
      rw [List.drop_drop, List.getElem?_drop]
    rw [hplace, hbehind, List.getElem?_append_right (by omega), hheader]
    rfl
  have hlaces : bytes.drop (offset + 27) = page.laces ++ (page.data ++ after) := by
    have hplace : bytes.drop (offset + 27) = ((bytes.drop offset).drop 4).drop 23 := by
      rw [List.drop_drop, List.drop_drop]
    rw [hplace, hbehind, List.drop_append, hheader, List.drop_eq_nil_of_le (by omega)]
    rfl
  have hcount : (UInt8.ofNat page.laces.length).toNat = page.laces.length :=
    UInt8.toNat_ofNat_of_lt' (Nat.lt_succ_of_le page.laces_le)
  unfold oggPage
  rw [slice?_add (by omega), hcapture, hsegments]
  dsimp only [orPanic, bind, Except.bind]
  rw [if_neg (fun hne => hne rfl), hcount, if_neg (by omega), slice?_add (by omega), hlaces, List.take_left]
  dsimp only
  rw [← hdata, if_neg (by omega), oggSegments_eq (by omega), ← List.drop_drop, hlaces, List.drop_left]
  have hend : offset + 27 + page.laces.length + page.data.length = offset + page.bytes.length := by
    rw [page.length_bytes]
    omega
  dsimp only
  rw [hend, Lacing.assemble_append_right hdata]
  rfl

theorem oggPages_pages {pages : List OggPage} {fuel : Nat} (hfuel : pages.length ≤ fuel)
    (h : bytes.drop offset = pages.flatMap OggPage.bytes) :
    oggPages bytes fuel offset s =
      some (.ok (pages.foldl (fun s page => assemble 255 page.lengths page.data s) s)) := by
  induction pages generalizing fuel offset s with
  | nil =>
    have hlength := congrArg List.length h
    rw [List.length_drop, List.flatMap_nil, List.length_nil] at hlength
    unfold oggPages
    rw [if_neg (by omega)]
    rfl
  | cons page pages ih =>
    rw [List.flatMap_cons] at h
    have hlength := congrArg List.length h
    rw [List.length_drop, List.length_append, page.length_bytes] at hlength
    have hrest : bytes.drop (offset + page.bytes.length) = pages.flatMap OggPage.bytes := by
      rw [← List.drop_drop, h, List.drop_left]
    cases fuel with
    | zero => cases hfuel
    | succ fuel =>
      unfold oggPages
      rw [if_pos (by omega), oggPage_page h]
      exact ih (Nat.le_of_succ_le_succ hfuel) hrest

theorem length_pages_le (pages : List OggPage) : pages.length ≤ (pages.flatMap OggPage.bytes).length := by
  induction pages with
  | nil => exact Nat.le_refl 0
  | cons page pages ih =>
    rw [List.flatMap_cons, List.length_append, page.length_bytes, List.length_cons]
    omega

/-- The packets are those of the stream, in whatever pages. -/
theorem oggPackets_stream (stream : OggStream) : oggPackets stream.bytes = some (.ok stream.packets) := by
  have hpages := @oggPages_pages stream.bytes 0 .empty stream.pages stream.bytes.length
    (length_pages_le stream.pages) rfl
  have hpackets := Lacing.foldl_pages_packets (by decide)
    (fun page : OggPage => page.data_length) stream.lengths stream.data
  unfold oggPackets
  rw [hpages]
  exact congrArg (fun s => some (Except.ok (Assembly.finish s))) hpackets

end Pages

/-! ## The loop over the packets -/

/-- What is kept for the samples. -/
def isAudio (packet : List UInt8) : Bool := ¬ isOpusHead packet ∧ ¬ isOpusTags packet

section Audio

variable {packets : List (List UInt8)} {packet : List UInt8}

theorem isOpusHead_length (h : isOpusHead packet = true) : 19 ≤ packet.length :=
  (of_decide_eq_true h).2

/-- No packet makes the loop fail; a head with 19 bytes has all that is read of it. -/
theorem OpusState.packet_eq (s : OpusState) (packet : List UInt8) : ∃ channels preSkip,
    s.packet packet = .ok ⟨s.audioPackets ++ [packet].filter isAudio, channels, preSkip,
      s.opusHead || isOpusHead packet⟩ := by
  unfold OpusState.packet
  cases hhead : isOpusHead packet with
  | true =>
    have hlength := isOpusHead_length hhead
    have haudio : [packet].filter isAudio = [] := by simp [isAudio, hhead]
    rw [if_pos rfl, List.getElem?_eq_getElem (by omega), List.getElem?_eq_getElem (by omega),
      List.getElem?_eq_getElem (by omega), haudio, List.append_nil, Bool.or_true]
    exact ⟨_, _, rfl⟩
  | false =>
    rw [if_neg Bool.false_ne_true, Bool.or_false]
    cases htags : isOpusTags packet with
    | true =>
      have haudio : [packet].filter isAudio = [] := by simp [isAudio, htags]
      rw [if_pos rfl, haudio, List.append_nil]
      exact ⟨_, _, rfl⟩
    | false =>
      have haudio : [packet].filter isAudio = [packet] := by simp [isAudio, hhead, htags]
      rw [if_neg Bool.false_ne_true, haudio]
      exact ⟨_, _, rfl⟩

theorem foldlM_packet (packets : List (List UInt8)) (s : OpusState) : ∃ channels preSkip,
    packets.foldlM OpusState.packet s =
      .ok ⟨s.audioPackets ++ packets.filter isAudio, channels, preSkip,
        s.opusHead || packets.any isOpusHead⟩ := by
  induction packets generalizing s with
  | nil =>
    rw [List.filter_nil, List.append_nil, List.any_nil, Bool.or_false]
    exact ⟨_, _, rfl⟩
  | cons packet packets ih =>
    obtain ⟨channels, preSkip, hpacket⟩ := s.packet_eq packet
    obtain ⟨channels', preSkip', hrest⟩ := ih ⟨s.audioPackets ++ [packet].filter isAudio, channels, preSkip,
      s.opusHead || isOpusHead packet⟩
    refine ⟨channels', preSkip', ?_⟩
    rw [List.foldlM_cons, hpacket]
    dsimp only [bind, Except.bind]
    rw [hrest, List.append_assoc, ← List.filter_append, List.singleton_append, List.any_cons, Bool.or_assoc]

/-- What the packets come to: those that are kept, unless there is no head among them. -/
theorem opusPackets_cases (packets : List (List UInt8)) :
    ((∃ packet ∈ packets, isOpusHead packet) ∧ ∃ channels preSkip,
        (packets.foldlM OpusState.packet {} >>= OpusState.finish) =
          .ok ⟨channels, preSkip, packets.filter isAudio⟩) ∨
      ((∀ packet ∈ packets, ¬ isOpusHead packet) ∧
        (packets.foldlM OpusState.packet {} >>= OpusState.finish) =
          .error (.invalidData "OpusHead packet missing")) := by
  obtain ⟨channels, preSkip, hpackets⟩ := foldlM_packet packets {}
  rw [hpackets]
  cases hany : packets.any isOpusHead with
  | true =>
    refine .inl ⟨?_, channels, preSkip, rfl⟩
    exact List.any_eq_true.1 hany
  | false =>
    refine .inr ⟨?_, rfl⟩
    exact List.any_eq_false.1 hany

theorem parseOggOpusPackets_stream (stream : OggStream) :
    ((∃ packet ∈ stream.packets, isOpusHead packet) ∧ ∃ opus,
        parseOggOpusPackets stream.bytes = some (.ok opus) ∧ opus.packets = stream.packets.filter isAudio) ∨
      ((∀ packet ∈ stream.packets, ¬ isOpusHead packet) ∧
        parseOggOpusPackets stream.bytes = some (.error (.invalidData "OpusHead packet missing"))) := by
  unfold parseOggOpusPackets
  rw [oggPackets_stream]
  rcases opusPackets_cases stream.packets with ⟨hhead, channels, preSkip, hopus⟩ | ⟨hnone, herror⟩
  · exact .inl ⟨hhead, _, congrArg some hopus, rfl⟩
  · exact .inr ⟨hnone, congrArg some herror⟩

/-- A stream is read as its packets in whatever pages; those that are neither tags nor a head are returned, and
only a missing head is an error. For any bytes at all there is a result, and no panic. -/
theorem ogg_packets_exact (stream : OggStream) (bytes : List UInt8) :
    oggPackets stream.bytes = some (.ok stream.packets) ∧
      (((∃ packet ∈ stream.packets, isOpusHead packet) ∧ ∃ opus,
          parseOggOpusPackets stream.bytes = some (.ok opus) ∧ opus.packets = stream.packets.filter isAudio) ∨
        ((∀ packet ∈ stream.packets, ¬ isOpusHead packet) ∧
          parseOggOpusPackets stream.bytes = some (.error (.invalidData "OpusHead packet missing")))) ∧
      ∃ result, parseOggOpusPackets bytes = some result ∧ result ≠ .error .panic := by
  refine ⟨oggPackets_stream stream, parseOggOpusPackets_stream stream, ?_⟩
  obtain ⟨result, hresult, hpanic⟩ := @oggPages_total bytes 0 .empty bytes.length (by omega)
  unfold parseOggOpusPackets oggPackets
  rw [hresult]
  cases result with
  | error e =>
    refine ⟨.error e, rfl, ?_⟩
    intro h
    cases h
    exact hpanic rfl
  | ok s =>
    rcases opusPackets_cases s.finish with ⟨-, channels, preSkip, hopus⟩ | ⟨-, herror⟩
    · refine ⟨_, congrArg some hopus, ?_⟩
      intro h
      cases h
    · refine ⟨_, congrArg some herror, ?_⟩
      intro h
      cases h

/-- A packet of 255 bytes ends behind them, here on the next page. -/
example : (oggPackets
    ((⟨List.replicate 22 7, [255], List.replicate 255 1, rfl, by decide, by decide +kernel⟩ : OggPage).bytes ++
      (⟨List.replicate 22 7, [0, 1], [9], rfl, by decide, rfl⟩ : OggPage).bytes)).map Except.toOption =
        some (some [List.replicate 255 1, [9]]) := by
  decide +kernel

end Audio

/-! ## The samples of a track -/

section Track

variable {ε : Type} {opusEntry : UInt8 → UInt8 → UInt16 → ε} {address : Nat} {properties : FileProperties}
  {track : RemuxedTrack ε}

theorem opusSamples_payload (packets : List (List UInt8)) (payload : List UInt8) :
    (opusSamples packets payload : List UInt8 × List (RemuxSampleRef ε)).1 = payload ++ packets.flatten := by
  induction packets generalizing payload with
  | nil => rw [List.flatten_nil, List.append_nil, opusSamples]
  | cons packet packets ih => rw [opusSamples, ih, List.flatten_cons, List.append_assoc]

/-- In the payload every sample is its packet, whatever stands before. -/
theorem opusSamples_bytes (packets : List (List UInt8)) (payload : List UInt8) :
    (opusSamples packets payload : List UInt8 × List (RemuxSampleRef ε)).2.map (fun sample =>
      ((opusSamples packets payload : List UInt8 × List (RemuxSampleRef ε)).1.take sample.stop).drop
        sample.start) = packets := by
  induction packets generalizing payload with
  | nil => rfl
  | cons packet packets ih =>
    have hhere : ((payload ++ packet ++ packets.flatten).take (payload.length + packet.length)).drop
        payload.length = packet := by
      rw [List.append_assoc, List.drop_take, List.drop_left, Nat.add_sub_cancel_left, List.take_left]
    rw [opusSamples, List.map_cons, ih]
    dsimp only
    rw [opusSamples_payload, hhere]

/-- The samples of a track that is made of a stream are its packets of audio. -/
theorem remuxOpus_stream (stream : OggStream)
    (h : remuxOpus opusEntry address properties stream.bytes = some (.ok track)) :
    track.samples.map track.bytesOf = stream.packets.filter isAudio := by
  unfold remuxOpus at h
  rcases parseOggOpusPackets_stream stream with ⟨-, opus, hopus, hpackets⟩ | ⟨-, herror⟩
  · rw [hopus] at h
    have htrack := Option.some.inj h
    dsimp only [bind, Except.bind] at htrack
    split at htrack
    · cases htrack
    split at htrack
    · cases htrack
    split at htrack
    · cases htrack
      exact (opusSamples_bytes opus.packets []).trans hpackets
    · cases htrack
  · rw [herror] at h
    cases h

end Track

end Kanade

import Kanade.Core.State
import Kanade.Core.Playlist
import Kanade.Serde.Value

/-!
# Kanade.Wire.Model

The types of `model.rs` as JSON, as their derives have them. `ser*` is `Serialize`, `de*` is
`Deserialize`; floats are finite.
-/

namespace Kanade

open Serde

/-! ## Numbers -/

def serUInt8 (n : UInt8) : Value := .int n.toNat

def deUInt8 (v : Value) : Except String UInt8 := (deNat (2 ^ 8) v).map UInt8.ofNat

def serUInt32 (n : UInt32) : Value := .int n.toNat

def deUInt32 (v : Value) : Except String UInt32 := (deNat (2 ^ 32) v).map UInt32.ofNat

/-- `u64`, and `usize` on a 64-bit machine. -/
def serUInt64 (n : UInt64) : Value := .int n.toNat

def deUInt64 (v : Value) : Except String UInt64 := (deNat (2 ^ 64) v).map UInt64.ofNat

/-! ## Enumerations -/

def serRepeatMode : RepeatMode → Value
  | .off => .str "off"
  | .one => .str "one"
  | .all => .str "all"

def deRepeatMode : Value → Except String RepeatMode :=
  deUnit true [("off", .off), ("one", .one), ("all", .all)]

def serPlaybackStatus : PlaybackStatus → Value
  | .stopped => .str "stopped"
  | .playing => .str "playing"
  | .paused => .str "paused"
  | .loading => .str "loading"

/-- Of a value that is owned, or only looked at. -/
def dePlaybackStatus (owned : Bool) : Value → Except String PlaybackStatus :=
  deUnit owned
    [("stopped", .stopped), ("playing", .playing), ("paused", .paused), ("loading", .loading)]

def serMatchMode : MatchMode → Value
  | .all => .str "all"
  | .any => .str "any"

def deMatchMode : Value → Except String MatchMode :=
  deUnit true [("all", .all), ("any", .any)]

def serSmartField : SmartField → Value
  | .title => .str "title"
  | .artist => .str "artist"
  | .albumArtist => .str "album_artist"
  | .album => .str "album"
  | .composer => .str "composer"
  | .genre => .str "genre"

def deSmartField : Value → Except String SmartField :=
  deUnit true
    [("title", .title), ("artist", .artist), ("album_artist", .albumArtist), ("album", .album),
      ("composer", .composer), ("genre", .genre)]

def serSmartOperator : SmartOperator → Value
  | .equals => .str "equals"
  | .notEquals => .str "not_equals"
  | .contains => .str "contains"
  | .notContains => .str "not_contains"
  | .startsWith => .str "starts_with"
  | .endsWith => .str "ends_with"

def deSmartOperator : Value → Except String SmartOperator :=
  deUnit true
    [("equals", .equals), ("not_equals", .notEquals), ("contains", .contains),
      ("not_contains", .notContains), ("starts_with", .startsWith), ("ends_with", .endsWith)]

def serSmartSort : SmartSort → Value
  | .title => .str "title"
  | .artist => .str "artist"
  | .album => .str "album"
  | .genre => .str "genre"

def deSmartSort : Value → Except String SmartSort :=
  deUnit true [("title", .title), ("artist", .artist), ("album", .album), ("genre", .genre)]

/-! ## Records -/

def serTrack (t : Track) : Value :=
  .obj <| [("id", .str t.id), ("file_path", .str t.filePath)] ++
    skipNone "album_id" .str t.albumId ++
    [("title", nullable .str t.title),
      ("artist", nullable .str t.artist),
      ("album_artist", nullable .str t.albumArtist),
      ("album_title", nullable .str t.albumTitle),
      ("composer", nullable .str t.composer),
      ("genre", nullable .str t.genre),
      ("track_number", nullable serUInt32 t.trackNumber),
      ("disc_number", nullable serUInt32 t.discNumber),
      ("duration_secs", nullable .float t.durationSecs),
      ("format", nullable .str t.format),
      ("sample_rate", nullable serUInt32 t.sampleRate)]

def trackShape : Shape :=
  ⟨["id", "file_path", "album_id", "title", "artist", "album_artist", "album_title", "composer",
    "genre", "track_number", "disc_number", "duration_secs", "format", "sample_rate"], []⟩

def deTrack : Value → Except String Track :=
  deStruct trackShape fun ms => do
    let id ← required "id" deString ms
    let filePath ← required "file_path" deString ms
    let albumId ← optional "album_id" deString ms
    let title ← optional "title" deString ms
    let artist ← optional "artist" deString ms
    let albumArtist ← optional "album_artist" deString ms
    let albumTitle ← optional "album_title" deString ms
    let composer ← optional "composer" deString ms
    let genre ← optional "genre" deString ms
    let trackNumber ← optional "track_number" deUInt32 ms
    let discNumber ← optional "disc_number" deUInt32 ms
    let durationSecs ← optional "duration_secs" deFloat ms
    let format ← optional "format" deString ms
    let sampleRate ← optional "sample_rate" deUInt32 ms
    .ok
      { id := id
        filePath := filePath
        albumId := albumId
        title := title
        artist := artist
        albumArtist := albumArtist
        albumTitle := albumTitle
        composer := composer
        genre := genre
        trackNumber := trackNumber
        discNumber := discNumber
        durationSecs := durationSecs
        format := format
        sampleRate := sampleRate }

def serSmartCondition (c : SmartCondition) : Value :=
  .obj [("field", serSmartField c.field), ("op", serSmartOperator c.op), ("value", .str c.value)]

def deSmartCondition : Value → Except String SmartCondition :=
  deStruct ⟨["field", "op", "value"], []⟩ fun ms => do
    let field ← required "field" deSmartField ms
    let op ← required "op" deSmartOperator ms
    let value ← required "value" deString ms
    .ok { field := field, op := op, value := value }

def serSmartFilter (f : SmartFilter) : Value :=
  .obj [("match_mode", serMatchMode f.matchMode),
    ("conditions", .arr (f.conditions.map serSmartCondition))]

def deSmartFilter : Value → Except String SmartFilter :=
  deStruct ⟨["match_mode", "conditions"], ["match_mode"]⟩ fun ms => do
    let matchMode ← defaulted "match_mode" .all deMatchMode ms
    let conditions ← required "conditions" (deVec deSmartCondition) ms
    .ok { matchMode := matchMode, conditions := conditions }

/-- The members of a `PlaylistKind`, which is tagged with `kind`. -/
def serPlaylistKind : PlaylistKind → Members
  | .normal => [("kind", .str "normal")]
  | .smart filter limit sortBy =>
    [("kind", .str "smart"), ("filter", serSmartFilter filter)] ++
      skipNone "limit" serUInt32 limit ++ skipNone "sort_by" serSmartSort sortBy

def dePlaylistKindVariant (name : String) (ms : Members) : Except String PlaylistKind :=
  if name = "normal" then .ok .normal
  else if name = "smart" then do
    let filter ← required "filter" deSmartFilter ms
    let limit ← optional "limit" deUInt32 ms
    let sortBy ← optional "sort_by" deSmartSort ms
    .ok (.smart filter limit sortBy)
  else unknownVariant name

def playlistKindVariants : Variants :=
  [("normal", some ⟨[], []⟩),
    ("smart", some ⟨["filter", "limit", "sort_by"], ["limit", "sort_by"]⟩)]

/-- Where it is a flattened field. -/
def deFlatPlaylistKind : Members → Except String PlaylistKind :=
  tagged "kind" (deIdentifier playlistKindVariants.names) dePlaylistKindVariant

/-- `deTag`: the number of a variant is no tag in a text, but in a value that was read from one. -/
def dePlaylistKind (deTag : Value → Except String String) : Value → Except String PlaylistKind :=
  deTagged "kind" playlistKindVariants deTag dePlaylistKindVariant

/-! ## Reading what was written -/

section Laws

variable {f : ℚ → ℚ}

theorem deString_str (s : String) : deString ((Value.str s).reread f) = .ok s := rfl

theorem deUInt8_ser (n : UInt8) : deUInt8 ((serUInt8 n).reread f) = .ok n := by
  rw [serUInt8, Value.reread, deUInt8, deNat_int n.toNat_lt, Except.map, UInt8.ofNat_toNat]

theorem deUInt32_ser (n : UInt32) : deUInt32 ((serUInt32 n).reread f) = .ok n := by
  rw [serUInt32, Value.reread, deUInt32, deNat_int n.toNat_lt, Except.map, UInt32.ofNat_toNat]

theorem deUInt64_ser (n : UInt64) : deUInt64 ((serUInt64 n).reread f) = .ok n := by
  rw [serUInt64, Value.reread, deUInt64, deNat_int n.toNat_lt, Except.map, UInt64.ofNat_toNat]

theorem deRepeatMode_ser (m : RepeatMode) : deRepeatMode ((serRepeatMode m).reread f) = .ok m := by
  cases m <;> rfl

theorem dePlaybackStatus_ser (owned : Bool) (s : PlaybackStatus) :
    dePlaybackStatus owned ((serPlaybackStatus s).reread f) = .ok s := by
  cases s <;> rfl

theorem deMatchMode_ser (m : MatchMode) : deMatchMode ((serMatchMode m).reread f) = .ok m := by
  cases m <;> rfl

theorem deSmartField_ser (s : SmartField) : deSmartField ((serSmartField s).reread f) = .ok s := by
  cases s <;> rfl

theorem deSmartOperator_ser (op : SmartOperator) :
    deSmartOperator ((serSmartOperator op).reread f) = .ok op := by
  cases op <;> rfl

/-- A track as a reader has it. -/
def Track.reread (f : ℚ → ℚ) (t : Track) : Track := { t with durationSecs := t.durationSecs.map f }

/-- The floats of a track. -/
def Track.floats (t : Track) : List ℚ := t.durationSecs.toList

theorem Track.reread_eq_self {t : Track} : t.reread f = t ↔ ∀ q ∈ t.floats, f q = q := by
  obtain ⟨_, _, _, _, _, _, _, _, _, _, _, durationSecs, _, _⟩ := t
  cases durationSecs <;> simp [Track.reread, Track.floats]

theorem map_reread_eq_self {ts : List Track} :
    ts.map (Track.reread f) = ts ↔ ∀ q ∈ ts.flatMap Track.floats, f q = q := by
  induction ts with
  | nil => simp
  | cons t ts ih =>
    simp only [List.map_cons, List.cons.injEq, Track.reread_eq_self, ih, List.flatMap_cons,
      List.mem_append]
    constructor
    · rintro ⟨ht, hts⟩ q (hq | hq)
      · exact ht q hq
      · exact hts q hq
    · intro h
      exact ⟨fun q hq => h q (.inl hq), fun q hq => h q (.inr hq)⟩

theorem deOption_string (s : String) : deOption deString ((Value.str s).reread f) = .ok (some s) := rfl

theorem deOption_nullable_str (o : Option String) :
    deOption deString ((nullable .str o).reread f) = .ok o := by
  simpa using deOption_nullable (g := id) (fun s => deString_str s) nofun o

theorem deOption_uint32 (n : UInt32) : deOption deUInt32 ((serUInt32 n).reread f) = .ok (some n) :=
  deOption_ok (deUInt32_ser n) nofun

theorem deOption_nullable_uint32 (o : Option UInt32) :
    deOption deUInt32 ((nullable serUInt32 o).reread f) = .ok o := by
  simpa using deOption_nullable (g := id) deUInt32_ser nofun o

theorem deOption_nullable_float (o : Option ℚ) :
    deOption deFloat ((nullable .float o).reread f) = .ok (o.map f) := by
  cases o <;> rfl

theorem deTrack_ser (t : Track) : deTrack ((serTrack t).reread f) = .ok (t.reread f) := by
  simp [serTrack, deTrack, optional_skipNone_self deOption_string, deOption_nullable_str,
    deOption_nullable_uint32, deOption_nullable_float, Track.reread]

theorem deSmartCondition_ser (c : SmartCondition) :
    deSmartCondition ((serSmartCondition c).reread f) = .ok c := by
  simp [serSmartCondition, deSmartCondition, deSmartField_ser, deSmartOperator_ser]

theorem deSmartConditions_ser (cs : List SmartCondition) :
    deVec deSmartCondition (.arr (rereadItems f (cs.map serSmartCondition))) = .ok cs := by
  have h := deItems_map (g := id) (f := f) deSmartCondition_ser cs
  rwa [List.map_id] at h

theorem deSmartFilter_ser (filter : SmartFilter) :
    deSmartFilter ((serSmartFilter filter).reread f) = .ok filter := by
  simp [serSmartFilter, deSmartFilter, deMatchMode_ser, deSmartConditions_ser]

theorem deTracks_ser (ts : List Track) :
    deVec deTrack (.arr (rereadItems f (ts.map serTrack))) = .ok (ts.map (Track.reread f)) :=
  deItems_map deTrack_ser ts

theorem deStrings_ser (l : List String) :
    deVec deString (.arr (rereadItems f (l.map .str))) = .ok l := by
  have h := deItems_map (g := id) (f := f) deString_str l
  rwa [List.map_id] at h

theorem deOption_smartSort (s : SmartSort) :
    deOption deSmartSort ((serSmartSort s).reread f) = .ok (some s) := by
  cases s <;> rfl

theorem tagged_playlistKind {deTag : Value → Except String String}
    (htag : ∀ name, deTag (.str name) = .ok name) (kind : PlaylistKind) :
    tagged "kind" deTag dePlaylistKindVariant (rereadMembers f (serPlaylistKind kind)) =
      .ok kind := by
  cases kind with
  | normal => simp [serPlaylistKind, dePlaylistKindVariant, htag]
  | smart filter limit sortBy =>
    cases limit <;> cases sortBy <;>
    simp [serPlaylistKind, dePlaylistKindVariant, skipNone, deSmartFilter_ser, deOption_uint32,
      deOption_smartSort, htag]

theorem deFlatPlaylistKind_ser (kind : PlaylistKind) :
    deFlatPlaylistKind (rereadMembers f (serPlaylistKind kind)) = .ok kind :=
  tagged_playlistKind (deIdentifier_str _) kind

theorem dePlaylistKind_ser {deTag : Value → Except String String}
    (htag : ∀ name, deTag (.str name) = .ok name) (kind : PlaylistKind) :
    dePlaylistKind deTag ((Value.obj (serPlaylistKind kind)).reread f) = .ok kind :=
  tagged_playlistKind htag kind

end Laws

/-! ## How deep they are -/

section Within

variable {depth : Nat}

theorem serUInt8_within (n : UInt8) : (serUInt8 n).within depth := rfl

theorem serUInt32_within (n : UInt32) : (serUInt32 n).within depth := rfl

theorem serUInt64_within (n : UInt64) : (serUInt64 n).within depth := rfl

theorem serRepeatMode_within (m : RepeatMode) : (serRepeatMode m).within depth := by
  cases m <;> rfl

theorem serPlaybackStatus_within (s : PlaybackStatus) : (serPlaybackStatus s).within depth := by
  cases s <;> rfl

theorem serTrack_within (t : Track) : (serTrack t).within (depth + 1) := by
  have hstr : ∀ o : Option String, (nullable .str o).within depth := within_nullable fun _ => rfl
  have huint32 : ∀ o : Option UInt32, (nullable serUInt32 o).within depth :=
    within_nullable serUInt32_within
  have hfloat : ∀ o : Option ℚ, (nullable .float o).within depth := within_nullable fun _ => rfl
  have hskip : ∀ key (o : Option String), withinMembers depth (skipNone key .str o) :=
    withinMembers_skipNone fun _ => rfl
  simp [serTrack, hstr, huint32, hfloat, hskip]

theorem serTracks_within (ts : List Track) :
    (Value.arr (ts.map serTrack)).within (depth + 2) := by
  simp [withinItems_map serTrack_within ts]

theorem serSmartCondition_within (c : SmartCondition) :
    (serSmartCondition c).within (depth + 1) := by
  have hfield : (serSmartField c.field).within depth := by cases c.field <;> rfl
  have hop : (serSmartOperator c.op).within depth := by cases c.op <;> rfl
  simp [serSmartCondition, hfield, hop]

theorem serSmartFilter_within (filter : SmartFilter) :
    (serSmartFilter filter).within (depth + 3) := by
  have hmode : (serMatchMode filter.matchMode).within (depth + 2) := by
    cases filter.matchMode <;> rfl
  simp [serSmartFilter, hmode, withinItems_map serSmartCondition_within filter.conditions]

theorem serPlaylistKind_within (kind : PlaylistKind) :
    withinMembers (depth + 3) (serPlaylistKind kind) := by
  cases kind with
  | normal => rfl
  | smart filter limit sortBy =>
    have hlimit : ∀ key (o : Option UInt32), withinMembers (depth + 3) (skipNone key serUInt32 o) :=
      withinMembers_skipNone serUInt32_within
    have hsort : ∀ key (o : Option SmartSort),
        withinMembers (depth + 3) (skipNone key serSmartSort o) :=
      withinMembers_skipNone fun s => by cases s <;> rfl
    simp [serPlaylistKind, serSmartFilter_within, hlimit, hsort]

end Within

end Kanade

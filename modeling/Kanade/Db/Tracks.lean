import Kanade.Db.Playlists

/-!
# Kanade.Db.Tracks

The operations of `repo.rs` on tracks, and the entries of a playlist as clients see them.
-/

namespace Kanade

open Keyed Sql

/-! ## `Path::parent` -/

/-- Segments that are no components: `std::path` passes over empty ones and over `.`, unless a path
starts with it. -/
def noSegment (segment : List Char) : Bool := segment = [] || segment = ['.']

/-- `Path::parent` for the part of a path behind its root, or behind a `.` it starts with; `none` if
there is no component. -/
def parentOfBody (body : List Char) : Option (List Char) :=
  match (body.splitOn '/').reverse.dropWhile noSegment with
  | [] => none
  | _ :: before => some (List.intercalate ['/'] (before.dropWhile noSegment).reverse)

/-- `Path::parent`, with `to_string_lossy`. -/
def parentDir (path : String) : Option String :=
  match path.toList with
  | '/' :: body => (parentOfBody body).map fun dir => String.ofList ('/' :: dir)
  | ['.'] => some ""
  | '.' :: '/' :: body =>
    some (String.ofList ((parentOfBody ('/' :: body)).elim [] fun dir => '.' :: dir))
  | body => (parentOfBody body).map String.ofList

example : parentDir "/music/album/01.flac" = some "/music/album" := by decide +kernel

/-- A row that is there takes over all columns of `row` but its key. -/
def AlbumRow.excluded (row r : AlbumRow) : AlbumRow := { row with id := r.id }

def AlbumRow.withArtwork (dirPath : String) (artworkPath : Option String) (row : AlbumRow) :
    AlbumRow :=
  if row.dirPath = dirPath then { row with artworkPath := artworkPath } else row

theorem AlbumRow.id_comp_withArtwork (dirPath : String) (artworkPath : Option String) :
    AlbumRow.id ∘ withArtwork dirPath artworkPath = AlbumRow.id := by
  funext row
  simp only [Function.comp, withArtwork]
  split <;> rfl

theorem AlbumRow.dirPath_comp_withArtwork (dirPath : String) (artworkPath : Option String) :
    AlbumRow.dirPath ∘ withArtwork dirPath artworkPath = AlbumRow.dirPath := by
  funext row
  simp only [Function.comp, withArtwork]
  split <;> rfl

def TrackRow.excluded (row r : TrackRow) : TrackRow :=
  { row with track := { row.track with filePath := r.track.filePath } }

namespace LibraryDb

variable (db : LibraryDb)

/-! ## Statements -/

/-- `INSERT INTO albums .. ON CONFLICT(id) DO UPDATE`. -/
def upsertAlbumRow (row : AlbumRow) : Except String LibraryDb :=
  if h : ((db.albums.upsert row row.excluded fun _ => rfl).rows.map AlbumRow.dirPath).Nodup then
    .ok { db with
      albums := db.albums.upsert row row.excluded fun _ => rfl
      dirPaths_nodup := h
      albums_of_tracks := fun t ht id hid =>
        Table.mem_keys_upsert (db.albums_of_tracks t ht id hid) }
  else .error "UNIQUE constraint failed: albums.dir_path"

/-- `INSERT INTO tracks .. ON CONFLICT(file_path) DO UPDATE`. -/
def upsertTrackRow (row : TrackRow) : Except String LibraryDb :=
  if h : ((db.tracks.upsert row row.excluded fun _ => rfl).rows.map
      fun row => row.track.id).Nodup then
    if hid : ∀ id ∈ row.track.albumId, id ∈ db.albums.rows.map AlbumRow.id then
      .ok { db with
        tracks := db.tracks.upsert row row.excluded fun _ => rfl
        trackIds_nodup := h
        albums_of_tracks := fun t ht => by
          obtain rfl | ht | ⟨t', -, rfl⟩ := mem_upsertRows ht
          · exact hid
          · exact db.albums_of_tracks t ht
          · exact hid }
    else .error "FOREIGN KEY constraint failed"
  else .error "UNIQUE constraint failed: tracks.id"

/-- `UPDATE albums SET artwork_path = ? WHERE dir_path = ?`. -/
def setArtwork (dirPath : String) (artworkPath : Option String) : LibraryDb :=
  { db with
    albums := db.albums.update (AlbumRow.withArtwork dirPath artworkPath) <| by
      rw [List.map_map, AlbumRow.id_comp_withArtwork]
      exact db.albums.nodup
    dirPaths_nodup := by
      rw [Table.update, List.map_map, AlbumRow.dirPath_comp_withArtwork]
      exact db.dirPaths_nodup
    albums_of_tracks := fun t ht id h => by
      rw [Table.update, List.map_map, AlbumRow.id_comp_withArtwork]
      exact db.albums_of_tracks t ht id h }

/-- `DELETE FROM tracks WHERE` the path is not among those to keep. -/
def restrictTracks (keep : String → Bool) : LibraryDb :=
  { db with
    tracks := db.tracks.restrict keep
    trackIds_nodup := (List.filter_sublist.map _).nodup db.trackIds_nodup
    albums_of_tracks := fun t ht => db.albums_of_tracks t (List.mem_of_mem_filter ht) }

/-- The query of `get_normal_playlist_tracks`: `playlist_tracks JOIN tracks`, by position. -/
def getNormalPlaylistTracks (playlistId : String) : List Track :=
  (db.playlistTracks.ordered playlistId).flatMap fun pt =>
    (db.tracks.rows.filter fun t => t.track.id = pt.trackId).map TrackRow.track

/-- `get_track_mtime`. -/
def getTrackMtime (filePath : String) : Option Int :=
  (db.tracks.get filePath).bind TrackRow.mtime

end LibraryDb

section Operations

variable (idOf : String → String)

/-- `upsert_album`, for an album without an artist. -/
def upsertAlbum (album : AlbumRow) : Exec LibraryDb Unit :=
  Exec.execute fun db => db.upsertAlbumRow album

/-- The album of a track is that of its directory, whatever the track says. -/
def upsertTrackWithMtime (track : Track) (mtime : Option Int) : Exec LibraryDb Unit := do
  let dir := parentDir track.filePath
  let albumId := dir.map idOf
  match dir with
  | some dir =>
    Exec.ignore <| upsertAlbum
      { id := idOf dir
        dirPath := dir
        title := track.albumTitle
        artworkPath := none }
  | none => pure ()
  Exec.execute fun db => db.upsertTrackRow
    { track := { track with albumId := albumId }
      mtime := mtime }

def updateAlbumArtwork (dirPath : String) (artworkPath : Option String) : Exec LibraryDb Unit :=
  Exec.execute fun db => .ok (db.setArtwork dirPath artworkPath)

/-- `conn.execute("DELETE FROM tracks ..")`, with the number of the rows deleted. -/
def deleteTrackRows (keep : String → Bool) : Exec LibraryDb Nat := do
  let removed ← Exec.query fun db => .ok (db.tracks.rows.filter fun t => !keep t.filePath).length
  Exec.execute fun db => .ok (db.restrictTracks keep)
  pure removed

def deleteTrack (filePath : String) : Exec LibraryDb Unit := do
  let _ ← deleteTrackRows fun path => path ≠ filePath

def purgeMissing (knownPaths : List String) : Exec LibraryDb Nat :=
  if knownPaths.isEmpty then deleteTrackRows fun _ => false
  else if maxVariableNumber < knownPaths.length then Exec.fail "too many SQL variables"
  else deleteTrackRows fun path => knownPaths.contains path

/-- What clients are shown of a playlist. The evaluation of smart filters is left open, as nothing here
depends on it. -/
def getPlaylistTracks (json : KindJson)
    (evaluateSmartFilter : SmartFilter → Option SmartSort → Option UInt32 →
      LibraryDb → Except String (List Track))
    (playlistId : String) (db : LibraryDb) : Except String (List Track) := do
  match ← db.getPlaylist json playlistId with
  | none => .error ("playlist " ++ playlistId ++ " not found")
  | some pl =>
    match pl.kind with
    | .normal => .ok (db.getNormalPlaylistTracks playlistId)
    | .smart filter limit sortBy => evaluateSmartFilter filter sortBy limit db

end Operations

/-! ## What an upsert stores -/

section Upsert

variable {db db' : LibraryDb} {idOf : String → String}

/-- Albums are stored under the ids of their directories. -/
def LibraryDb.AlbumIds (idOf : String → String) (db : LibraryDb) : Prop :=
  ∀ row ∈ db.albums.rows, row.id = idOf row.dirPath

theorem TrackRow.excluded_eq {row r : TrackRow} (h : r.filePath = row.filePath) :
    row.excluded r = row := by
  simp only [filePath] at h
  simp only [excluded, h]

theorem AlbumRow.excluded_eq {row r : AlbumRow} (h : r.id = row.id) : row.excluded r = row := by
  simp only [excluded, h]

namespace LibraryDb

theorem get_albums_upsert (row : AlbumRow) (h : ∀ r, (row.excluded r).id = r.id) (id : String) :
    (db.albums.upsert row row.excluded h).get id =
      if id = row.id then some row else db.albums.get id := by
  rw [Table.get_upsert]
  split
  · rename_i hid
    cases hget : db.albums.get id with
    | none => rfl
    | some r =>
      have hr : r.id = row.id := (Table.key_of_get hget).trans hid
      rw [Option.elim_some, AlbumRow.excluded_eq hr]
  · rfl

theorem get_tracks_upsert (row : TrackRow) (h : ∀ r, (row.excluded r).filePath = r.filePath)
    (path : String) :
    (db.tracks.upsert row row.excluded h).get path =
      if path = row.filePath then some row else db.tracks.get path := by
  rw [Table.get_upsert]
  split
  · rename_i hpath
    cases hget : db.tracks.get path with
    | none => rfl
    | some r =>
      have hr : r.filePath = row.filePath := (Table.key_of_get hget).trans hpath
      rw [Option.elim_some, TrackRow.excluded_eq hr]
  · rfl

theorem get_upsertAlbumRow {row : AlbumRow} (h : db.upsertAlbumRow row = .ok db') (id : String) :
    db'.albums.get id = (if id = row.id then some row else db.albums.get id) ∧
      db'.tracks = db.tracks := by
  unfold upsertAlbumRow at h
  split at h
  · cases h
    exact ⟨get_albums_upsert row (fun _ => rfl) id, rfl⟩
  · cases h

/-- The album of a directory can be stored. -/
theorem upsertAlbumRow_ok (hids : db.AlbumIds idOf) {row : AlbumRow} (hrow : row.id = idOf row.dirPath) :
    ∃ db', db.upsertAlbumRow row = .ok db' := by
  have hdir : ∀ r, (row.excluded r).dirPath = row.dirPath := fun _ => rfl
  have hnodup : ((upsertRows AlbumRow.id row row.excluded db.albums.rows).map
      AlbumRow.dirPath).Nodup :=
    nodup_map_upsertRows hdir db.dirPaths_nodup db.albums.nodup fun r hr hdir => by
      rw [hids r hr, hrow, hdir]
  unfold upsertAlbumRow
  split
  · exact ⟨_, rfl⟩
  · rename_i hdup
    exact absurd hnodup hdup

theorem albumIds_upsertAlbumRow (hids : db.AlbumIds idOf) {row : AlbumRow}
    (hrow : row.id = idOf row.dirPath) (h : db.upsertAlbumRow row = .ok db') : db'.AlbumIds idOf := by
  intro r hr
  have hget := Table.mem_rows_iff.1 hr
  rw [(get_upsertAlbumRow h r.id).1] at hget
  split at hget
  · cases hget
    exact hrow
  · exact hids r (Table.mem_of_get hget)

theorem get_upsertTrackRow {row : TrackRow} (h : db.upsertTrackRow row = .ok db') (path : String) :
    db'.tracks.get path = (if path = row.filePath then some row else db.tracks.get path) ∧
      db'.albums = db.albums := by
  unfold upsertTrackRow at h
  split at h
  · split at h
    · cases h
      exact ⟨get_tracks_upsert row (fun _ => rfl) path, rfl⟩
    · cases h
  · cases h

/-- A row can be stored if its album is there and no other file has its id. -/
theorem upsertTrackRow_ok {row : TrackRow}
    (halbum : ∀ id ∈ row.track.albumId, id ∈ db.albums.rows.map AlbumRow.id)
    (hids : ∀ r ∈ db.tracks.rows, r.track.id = row.track.id → r.filePath = row.filePath) :
    ∃ db', db.upsertTrackRow row = .ok db' := by
  have hid : ∀ r, (row.excluded r).track.id = row.track.id := fun _ => rfl
  have hnodup : ((upsertRows TrackRow.filePath row row.excluded db.tracks.rows).map
      fun r => r.track.id).Nodup :=
    nodup_map_upsertRows hid db.trackIds_nodup db.tracks.nodup hids
  unfold upsertTrackRow
  split
  · exact ⟨_, rfl⟩
  · rename_i hdup
    exact absurd hnodup hdup

end LibraryDb

/-- The row that `upsert_track_with_mtime` writes. -/
def upsertedRow (idOf : String → String) (track : Track) (mtime : Option Int) : TrackRow :=
  { track := { track with albumId := (parentDir track.filePath).map idOf }
    mtime := mtime }

/-- The part for the album. -/
theorem upsertTrackWithMtime_eq (idOf : String → String) (track : Track) (mtime : Option Int)
    (db : LibraryDb) :
    ∃ db₁, db₁.tracks = db.tracks ∧
      upsertTrackWithMtime idOf track mtime db =
        Exec.execute (fun db => db.upsertTrackRow (upsertedRow idOf track mtime)) db₁ ∧
      (db.AlbumIds idOf → db₁.AlbumIds idOf ∧
        ∀ id ∈ (upsertedRow idOf track mtime).track.albumId, id ∈ db₁.albums.rows.map AlbumRow.id) := by
  unfold upsertTrackWithMtime upsertedRow
  cases parentDir track.filePath with
  | none => exact ⟨db, rfl, rfl, fun hids => ⟨hids, fun id hid => nomatch hid⟩⟩
  | some dir =>
    generalize halbum : AlbumRow.mk (idOf dir) dir track.albumTitle none = album
    have hrow : album.id = idOf album.dirPath := by rw [← halbum]
    cases hup : db.upsertAlbumRow album with
    | error e =>
      refine ⟨db, rfl, ?_, fun hids => ?_⟩
      · have hskip : (upsertAlbum album db).2 = db := by rw [upsertAlbum, Exec.execute_error hup]
        dsimp only
        rw [halbum, Exec.bind_ignore, hskip]
      · obtain ⟨db', hok⟩ := LibraryDb.upsertAlbumRow_ok hids hrow
        rw [hup] at hok
        cases hok
    | ok db₁ =>
      refine ⟨db₁, (LibraryDb.get_upsertAlbumRow hup "").2, ?_, fun hids => ⟨?_, ?_⟩⟩
      · have hstored : (upsertAlbum album db).2 = db₁ := by rw [upsertAlbum, Exec.execute_ok hup]
        dsimp only
        rw [halbum, Exec.bind_ignore, hstored]
      · exact LibraryDb.albumIds_upsertAlbumRow hids hrow hup
      · intro id hid
        cases hid
        have hget := (LibraryDb.get_upsertAlbumRow hup album.id).1
        rw [if_pos rfl, ← halbum] at hget
        exact List.mem_map.2 ⟨_, Table.mem_of_get hget, rfl⟩

/-- What `upsert_track_with_mtime` does to the table: the row is written, or nothing is. -/
theorem upsertTrackWithMtime_cases (idOf : String → String) (track : Track) (mtime : Option Int)
    (db : LibraryDb) :
    (∃ e, (upsertTrackWithMtime idOf track mtime db).1 = .error e ∧
        (upsertTrackWithMtime idOf track mtime db).2.tracks = db.tracks) ∨
      (upsertTrackWithMtime idOf track mtime db).1 = .ok () ∧
        ∀ path, (upsertTrackWithMtime idOf track mtime db).2.tracks.get path =
          if path = track.filePath then some (upsertedRow idOf track mtime)
          else db.tracks.get path := by
  obtain ⟨db₁, htracks, heq, -⟩ := upsertTrackWithMtime_eq idOf track mtime db
  rw [heq]
  cases hup : db₁.upsertTrackRow (upsertedRow idOf track mtime) with
  | error e =>
    rw [Exec.execute_error hup]
    exact .inl ⟨e, rfl, htracks⟩
  | ok db₂ =>
    rw [Exec.execute_ok hup, ← htracks]
    exact .inr ⟨rfl, fun path => (LibraryDb.get_upsertTrackRow hup path).1⟩

/-- It succeeds if no other file has the id of the track. -/
theorem upsertTrackWithMtime_ok (hids : db.AlbumIds idOf) {track : Track} (mtime : Option Int)
    (htrack : ∀ r ∈ db.tracks.rows, r.track.id = track.id → r.filePath = track.filePath) :
    ∃ db', upsertTrackWithMtime idOf track mtime db = (.ok (), db') ∧ db'.AlbumIds idOf := by
  obtain ⟨db₁, htracks, heq, halbums⟩ :=
    upsertTrackWithMtime_eq idOf track mtime db
  obtain ⟨hids₁, halbum⟩ := halbums hids
  obtain ⟨db₂, hup⟩ := LibraryDb.upsertTrackRow_ok halbum (htracks.symm ▸ htrack)
  refine ⟨db₂, heq.trans (Exec.execute_ok hup), ?_⟩
  unfold LibraryDb.AlbumIds
  rw [(LibraryDb.get_upsertTrackRow hup "").2]
  exact hids₁

end Upsert

end Kanade

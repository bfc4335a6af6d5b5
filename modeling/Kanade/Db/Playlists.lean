import Kanade.Core.State
import Kanade.Core.Playlist
import Kanade.Db.Repo
import Kanade.Keyed.Ordered
import Kanade.Sql.Exec

/-!
# Kanade.Db.Playlists

The library in the database (`schema.rs`) and the playlist operations of `repo.rs`.

Keys and references are part of `LibraryDb`: rows of `playlist_tracks` have different pairs of
playlist and position, and a playlist that is there. A table has at most `maxRowid` rows, as row ids
are positive 64-bit integers.
-/

namespace Kanade

open Keyed Sql

/-- The columns of `albums`. -/
structure AlbumRow where
  id : String
  dirPath : String
  title : Option String
  artworkPath : Option String
deriving DecidableEq, Repr

/-- The columns of `tracks`. -/
structure TrackRow where
  track : Track
  mtime : Option Int
deriving DecidableEq, Repr

def TrackRow.filePath (row : TrackRow) : String := row.track.filePath

/-- The columns of `playlists`. -/
structure PlaylistRow where
  id : String
  name : String
  description : Option String
  kind : String
  smartFilter : Option String
  createdAt : Int
  updatedAt : Int
deriving DecidableEq, Repr

/-- The columns of `playlist_tracks`. -/
structure PlaylistTrack where
  playlistId : String
  position : Int
  trackId : String
deriving DecidableEq, Repr

def PlaylistTrack.key (row : PlaylistTrack) : String × Int := (row.playlistId, row.position)

/-- One step down in a playlist, for the entries behind a position. -/
def PlaylistTrack.closeGap (playlistId : String) (position : Int) (row : PlaylistTrack) :
    PlaylistTrack :=
  if row.playlistId = playlistId ∧ position < row.position then
    { row with position := row.position - 1 }
  else row

theorem PlaylistTrack.closeGap_playlistId (playlistId : String) (position : Int)
    (row : PlaylistTrack) : (closeGap playlistId position row).playlistId = row.playlistId := by
  unfold closeGap
  split <;> rfl

def maxRowid : Nat := 2 ^ 63 - 1

structure LibraryDb where
  albums : Table AlbumRow.id
  tracks : Table TrackRow.filePath
  playlists : Table PlaylistRow.id
  playlistTracks : Table PlaylistTrack.key
  dirPaths_nodup : (albums.rows.map AlbumRow.dirPath).Nodup
  trackIds_nodup : (tracks.rows.map fun row => row.track.id).Nodup
  albums_of_tracks : ∀ row ∈ tracks.rows, ∀ id ∈ row.track.albumId, id ∈ albums.rows.map AlbumRow.id
  playlists_of_tracks : ∀ row ∈ playlistTracks.rows,
    row.playlistId ∈ playlists.rows.map PlaylistRow.id
  playlistTracks_le : playlistTracks.rows.length ≤ maxRowid

/-- What the database relies on of `serde_json` for the column `smart_filter`. -/
structure KindJson where
  encode : PlaylistKind → String
  decode : String → Except String PlaylistKind
  decode_encode : ∀ kind, decode (encode kind) = .ok kind

/-- The database of a new server. -/
def LibraryDb.empty : LibraryDb where
  albums := .empty _
  tracks := .empty _
  playlists := .empty _
  playlistTracks := .empty _
  dirPaths_nodup := List.nodup_nil
  trackIds_nodup := List.nodup_nil
  albums_of_tracks := fun _ h => nomatch h
  playlists_of_tracks := fun _ h => nomatch h
  playlistTracks_le := Nat.zero_le _

namespace LibraryDb

variable (json : KindJson) (db : LibraryDb)

/-! ## Statements -/

/-- `INSERT INTO playlists`. -/
def insertPlaylist (row : PlaylistRow) : Except String LibraryDb :=
  if h : row.id ∈ db.playlists.rows.map PlaylistRow.id then
    .error "UNIQUE constraint failed: playlists.id"
  else
    .ok { db with
      playlists := db.playlists.insert row h
      playlists_of_tracks := fun r hr => by
        simpa [Table.insert] using .inl (by simpa using db.playlists_of_tracks r hr) }

/-- `UPDATE playlists .. WHERE id = ?`. -/
def updatePlaylistRow (id : String) (change : PlaylistRow → PlaylistRow)
    (hid : ∀ row, (change row).id = row.id) : LibraryDb :=
  { db with
    playlists := db.playlists.modify id change hid
    playlists_of_tracks := fun r hr => by
      obtain ⟨row, hrow, heq⟩ := List.mem_map.1 (db.playlists_of_tracks r hr)
      refine List.mem_map.2 ⟨_, List.mem_map_of_mem hrow, ?_⟩
      rw [← heq]
      split
      · exact hid row
      · rfl }

/-- `DELETE FROM playlists WHERE id = ?`, which takes the rows of `playlist_tracks` along. -/
def deletePlaylistRow (id : String) : LibraryDb :=
  { db with
    playlists := db.playlists.restrict fun id' => id' ≠ id
    playlistTracks := db.playlistTracks.restrict fun k => k.1 ≠ id
    playlists_of_tracks := fun r hr => by
      obtain ⟨hr, hne⟩ := List.mem_filter.1 hr
      obtain ⟨row, hrow, heq⟩ := List.mem_map.1 (db.playlists_of_tracks r hr)
      refine List.mem_map.2 ⟨row, List.mem_filter.2 ⟨hrow, ?_⟩, heq⟩
      rw [heq]
      exact hne
    playlistTracks_le := (List.length_filter_le _ _).trans db.playlistTracks_le }

/-- `INSERT INTO playlist_tracks`. -/
def insertPlaylistTrack (row : PlaylistTrack) : Except String LibraryDb :=
  if hfull : maxRowid ≤ db.playlistTracks.rows.length then .error "database or disk is full"
  else if hkey : row.key ∈ db.playlistTracks.rows.map PlaylistTrack.key then
    .error "UNIQUE constraint failed: playlist_tracks.playlist_id, playlist_tracks.position"
  else if hid : row.playlistId ∉ db.playlists.rows.map PlaylistRow.id then
    .error "FOREIGN KEY constraint failed"
  else
    .ok { db with
      playlistTracks := db.playlistTracks.insert row hkey
      playlists_of_tracks := fun r hr => by
        rcases List.mem_append.1 hr with hr | hr
        · exact db.playlists_of_tracks r hr
        · rw [List.mem_singleton.1 hr]
          exact not_not.1 hid
      playlistTracks_le := by
        simp only [Table.insert, List.length_append, List.length_singleton]
        omega }

/-- `DELETE FROM playlist_tracks WHERE` the key is not among those to keep. -/
def restrictPlaylistTracks (keep : String × Int → Bool) : LibraryDb :=
  { db with
    playlistTracks := db.playlistTracks.restrict keep
    playlists_of_tracks := fun r hr => db.playlists_of_tracks r (List.mem_of_mem_filter hr)
    playlistTracks_le := (List.length_filter_le _ _).trans db.playlistTracks_le }

/-- `UPDATE playlist_tracks SET position = position - 1 WHERE playlist_id = ? AND position > ?`. -/
def closeGap (playlistId : String) (position : Int) : Except String LibraryDb :=
  if h : ((db.playlistTracks.rows.map (PlaylistTrack.closeGap playlistId position)).map
      PlaylistTrack.key).Nodup then
    .ok { db with
      playlistTracks := db.playlistTracks.update (PlaylistTrack.closeGap playlistId position) h
      playlists_of_tracks := fun r hr => by
        obtain ⟨r', hr', rfl⟩ := List.mem_map.1 hr
        rw [PlaylistTrack.closeGap_playlistId]
        exact db.playlists_of_tracks r' hr'
      playlistTracks_le := by
        simpa [Table.update] using db.playlistTracks_le }
  else .error "UNIQUE constraint failed: playlist_tracks.playlist_id, playlist_tracks.position"

/-- `SELECT track_id FROM playlist_tracks WHERE playlist_id = ? ORDER BY position`. -/
def trackIds (playlistId : String) : List String :=
  (db.playlistTracks.ordered playlistId).map PlaylistTrack.trackId

/-- `SELECT COALESCE(MAX(position) + 1, 0) FROM playlist_tracks WHERE playlist_id = ?`. -/
def nextPosition (playlistId : String) : Int :=
  (((db.playlistTracks.ordered playlistId).map PlaylistTrack.position).max?.map (· + 1)).getD 0

/-! ## Playlists -/

def rowToPlaylist (row : PlaylistRow) : Except String Playlist := do
  let kind ←
    if row.kind = "normal" then .ok .normal
    else if row.kind = "smart" then
      match row.smartFilter with
      | some text => json.decode text
      | none => .error ("smart playlist " ++ row.id ++ " missing filter")
    else .error ("unknown playlist kind: " ++ row.kind)
  .ok
    { id := row.id
      name := row.name
      description := row.description
      kind := kind
      createdAt := row.createdAt
      updatedAt := row.updatedAt }

def getPlaylist (id : String) : Except String (Option Playlist) :=
  match db.playlists.get id with
  | some row => (rowToPlaylist json row).map some
  | none => .ok none

end LibraryDb

section Operations

variable (json : KindJson) (now : Int)

/-- The column `kind`. -/
def PlaylistKind.text : PlaylistKind → String
  | .normal => "normal"
  | .smart .. => "smart"

/-- The column `smart_filter`. -/
def smartFilterJson : PlaylistKind → Option String
  | .normal => none
  | .smart filter limit sortBy => some (json.encode (.smart filter limit sortBy))

def createPlaylistWithId (id name : String) (description : Option String) (kind : PlaylistKind) :
    Exec LibraryDb Playlist := do
  Exec.execute fun db => db.insertPlaylist
    { id := id
      name := name
      description := description
      kind := kind.text
      smartFilter := smartFilterJson json kind
      createdAt := now
      updatedAt := now }
  match ← Exec.query fun db => db.getPlaylist json id with
  | some playlist => pure playlist
  | none => Exec.fail ("playlist " ++ id ++ " not found after insert")

/-- `get_playlist(id)?.ok_or_else(..)?`. -/
def existingPlaylist (id : String) : Exec LibraryDb Playlist := do
  match ← Exec.query fun db => db.getPlaylist json id with
  | some playlist => pure playlist
  | none => Exec.fail ("playlist " ++ id ++ " not found")

def updatePlaylist (id : String) (name : Option String) (description : Option (Option String))
    (kind : Option PlaylistKind) : Exec LibraryDb Unit := do
  let existing ← existingPlaylist json id
  if kind.any fun newKind => newKind.isNormal ≠ existing.kind.isNormal then
    Exec.fail "cannot change playlist kind between normal and smart"
  else
    let newName := name.getD existing.name
    let newDescription := description.getD existing.description
    let newSmartFilter := smartFilterJson json (kind.getD existing.kind)
    Exec.execute fun db => .ok <| db.updatePlaylistRow id
      (fun row =>
        { row with
          name := newName
          description := newDescription
          smartFilter := newSmartFilter
          updatedAt := now })
      fun _ => rfl

def deletePlaylist (id : String) : Exec LibraryDb Unit :=
  Exec.execute fun db => .ok (db.deletePlaylistRow id)

def touchPlaylist (id : String) : Exec LibraryDb Unit :=
  Exec.execute fun db =>
    .ok (db.updatePlaylistRow id (fun row => { row with updatedAt := now }) fun _ => rfl)

/-- The checks of the operations on the entries of a playlist. -/
def checkEditable (playlistId : String) : Exec LibraryDb Unit := do
  let pl ← existingPlaylist json playlistId
  if pl.kind.isNormal then pure () else Exec.fail "cannot edit tracks of a smart playlist"

/-- The loop that inserts the entries from index `idx` on; `position` is that of an index. -/
def insertTracks (playlistId : String) (position : Nat → Int) :
    Nat → List String → Exec LibraryDb Unit
  | _, [] => pure ()
  | idx, tid :: tids => do
    Exec.execute fun db => db.insertPlaylistTrack
      { playlistId := playlistId, position := position idx, trackId := tid }
    insertTracks playlistId position (idx + 1) tids

/-- `DELETE FROM playlist_tracks WHERE playlist_id = ?`. -/
def deleteTracks (playlistId : String) : Exec LibraryDb Unit :=
  Exec.execute fun db => .ok (db.restrictPlaylistTracks fun k => k.1 ≠ playlistId)

def setPlaylistTracks (playlistId : String) (trackIds : List String) : Exec LibraryDb Unit := do
  checkEditable json playlistId
  Exec.transaction do
    deleteTracks playlistId
    insertTracks playlistId asI64 0 trackIds
    touchPlaylist now playlistId

def appendPlaylistTracks (playlistId : String) (trackIds : List String) : Exec LibraryDb Unit :=
  if trackIds.isEmpty then pure ()
  else do
    checkEditable json playlistId
    Exec.transaction do
      let nextPos ← Exec.query fun db => .ok (db.nextPosition playlistId)
      insertTracks playlistId (fun offset => nextPos + asI64 offset) 0 trackIds
      touchPlaylist now playlistId

def removePlaylistTrack (playlistId : String) (position : UInt64) : Exec LibraryDb Unit := do
  checkEditable json playlistId
  Exec.transaction do
    let removed ← Exec.query fun db =>
      .ok (db.playlistTracks.get (playlistId, asI64 position.toNat)).isSome
    Exec.execute fun db =>
      .ok (db.restrictPlaylistTracks fun k => k ≠ (playlistId, asI64 position.toNat))
    if removed then
      Exec.execute fun db => db.closeGap playlistId (asI64 position.toNat)
      touchPlaylist now playlistId

def movePlaylistTrack (playlistId : String) (src dst : UInt64) : Exec LibraryDb Unit :=
  if src = dst then pure ()
  else do
    checkEditable json playlistId
    Exec.transaction do
      let ids ← Exec.query fun db => .ok (db.trackIds playlistId)
      match ids[src.toNat]? with
      | none => Exec.fail ("from index " ++ toString src ++ " out of range")
      | some item =>
        let dst := min dst.toNat (ids.length - 1)
        deleteTracks playlistId
        insertTracks playlistId asI64 0 ((ids.eraseIdx src.toNat).insertIdx dst item)
        touchPlaylist now playlistId

end Operations

end Kanade

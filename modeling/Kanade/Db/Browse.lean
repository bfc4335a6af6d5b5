import Mathlib.Data.List.Dedup
import Kanade.Db.Search

/-!
# Kanade.Db.Browse

Browsing the catalog: the albums, artists and genres that `repo.rs` lists, and what it lists under each.

`LibraryDb.Filed`: every track is filed under its directory. `catalog_browsable`: after any calls, what is
listed leads to the tracks there are and to no others.
-/

namespace Kanade

open Keyed Sql Concur

structure Album where
  id : String
  dirPath : String
  title : Option String
  artist : Option String
  artworkPath : Option String
deriving DecidableEq, Repr

/-- `GROUP BY` shows of each group one of its rows. SQLite does not say which. -/
structure GroupRow where
  pick : List TrackRow → Option TrackRow
  pick_mem : ∀ rows, ∀ row ∈ pick rows, row ∈ rows
  pick_isSome : ∀ rows, rows ≠ [] → (pick rows).isSome

namespace TrackRow

variable (row : TrackRow)

/-- `album_id = ?1` -/
def inAlbum (albumId : String) : Bool := row.track.albumId = some albumId

/-- `artist = ?1 OR album_artist = ?1` -/
def byArtist (artist : String) : Bool := row.track.artist = some artist || row.track.albumArtist = some artist

/-- `genre = ?1` -/
def ofGenre (genre : String) : Bool := row.track.genre = some genre

/-- `album_artist IS NOT NULL OR artist IS NOT NULL` -/
def hasArtist : Bool := row.track.albumArtist.isSome || row.track.artist.isSome

/-- `COALESCE(album_artist, artist)` -/
def shownArtist : Option String := row.track.albumArtist.or row.track.artist

end TrackRow

def albumColumns : Columns Album where
  text album column :=
    match column with
    | "dir_path" => some album.dirPath
    | "title" => album.title
    | _ => none
  integer _ _ := none

/-- Rows of the one column `name`. -/
def nameColumns : Columns String where
  text name _ := some name
  integer _ _ := none

def sortNames (names : List String) : List String := sortRows nameColumns [.text "name" false] names

namespace LibraryDb

variable (group : GroupRow) (db : LibraryDb)

/-! ## Albums -/

/-- The column `artist_sub.artist` of `ALBUM_ARTIST_JOIN`. -/
def albumArtist (albumId : String) : Option String :=
  (group.pick (db.tracks.rows.filter fun row => row.inAlbum albumId && row.hasArtist)).bind
    TrackRow.shownArtist

def rowToAlbum (row : AlbumRow) : Album where
  id := row.id
  dirPath := row.dirPath
  title := row.title
  artist := db.albumArtist group row.id
  artworkPath := row.artworkPath

def getAlbumById (albumId : String) : Option Album := (db.albums.get albumId).map (db.rowToAlbum group)

def getAllAlbums : List Album :=
  sortRows albumColumns [.text "dir_path" false] (db.albums.rows.map (db.rowToAlbum group))

/-- `albums a JOIN tracks t ON t.album_id = a.id`, the albums of the tracks that meet the condition. -/
def joinedAlbums (cond : TrackRow → Bool) : List Album :=
  db.albums.rows.flatMap fun row =>
    (db.tracks.rows.filter fun t => t.inAlbum row.id && cond t).map fun _ => db.rowToAlbum group row

/-- `SELECT DISTINCT .. ORDER BY a.title, a.dir_path` -/
def albumsWhere (cond : TrackRow → Bool) : List Album :=
  sortRows albumColumns [.text "title" false, .text "dir_path" false] (db.joinedAlbums group cond).dedup

def getAlbumsByArtist (artist : String) : List Album := db.albumsWhere group fun t => t.byArtist artist

def getAlbumsByGenre (genre : String) : List Album := db.albumsWhere group fun t => t.ofGenre genre

/-! ## Names -/

def getAllArtists : List String :=
  let union := (db.tracks.rows.filterMap (fun row => row.track.artist) ++
    db.tracks.rows.filterMap fun row => row.track.albumArtist).dedup
  sortNames union.dedup

def getAllGenres : List String := sortNames (db.tracks.rows.filterMap fun row => row.track.genre).dedup

/-! ## Tracks -/

def tracksWhere (order : List OrderTerm) (cond : TrackRow → Bool) : List Track :=
  (sortRows trackColumns order (db.tracks.rows.filter cond)).map TrackRow.track

def getTracksByAlbumId (albumId : String) : List Track :=
  db.tracksWhere [.integer "disc_number", .integer "track_number", .text "title" false] fun t =>
    t.inAlbum albumId

def getTracksByArtist (artist : String) : List Track := db.tracksWhere albumOrder fun t => t.byArtist artist

def getTracksByGenre (genre : String) : List Track :=
  db.tracksWhere (.text "artist" false :: albumOrder) fun t => t.ofGenre genre

/-- SQL has no `OFFSET` without a `LIMIT`. -/
def getTracks (offset limit : Option UInt32) : Except String (List Track) :=
  let tracks := db.tracksWhere albumOrder fun _ => true
  match offset, limit with
  | none, none => .ok tracks
  | none, some n => .ok (tracks.take n.toNat)
  | some m, some n => .ok ((tracks.drop m.toNat).take n.toNat)
  | some _, none => .error "near \"OFFSET\": syntax error"

end LibraryDb

/-! ## What is listed -/

section Listed

variable {db : LibraryDb} {group : GroupRow}

theorem mem_tracksWhere {order : List OrderTerm} {cond : TrackRow → Bool} {t : Track} :
    t ∈ db.tracksWhere order cond ↔ ∃ row ∈ db.tracks.rows, cond row ∧ row.track = t := by
  unfold LibraryDb.tracksWhere
  rw [List.mem_map]
  constructor
  · intro ⟨row, hrow, ht⟩
    obtain ⟨hmem, hcond⟩ := List.mem_filter.1 ((perm_sortRows _ _ _).mem_iff.1 hrow)
    exact ⟨row, hmem, hcond, ht⟩
  · intro ⟨row, hmem, hcond, ht⟩
    exact ⟨row, (perm_sortRows _ _ _).mem_iff.2 (List.mem_filter.2 ⟨hmem, hcond⟩), ht⟩

/-- A list of tracks shows no file twice. -/
theorem nodup_tracksWhere (db : LibraryDb) (order : List OrderTerm) (cond : TrackRow → Bool) :
    ((db.tracksWhere order cond).map Track.filePath).Nodup := by
  unfold LibraryDb.tracksWhere
  rw [List.map_map]
  have hperm := (perm_sortRows trackColumns order (db.tracks.rows.filter cond)).map
    (Track.filePath ∘ TrackRow.track)
  rw [hperm.nodup_iff]
  exact (List.filter_sublist.map _).nodup db.tracks.nodup

theorem mem_getAllAlbums {album : Album} :
    album ∈ db.getAllAlbums group ↔ ∃ row ∈ db.albums.rows, db.rowToAlbum group row = album := by
  unfold LibraryDb.getAllAlbums
  rw [(perm_sortRows _ _ _).mem_iff, List.mem_map]

theorem mem_albumsWhere {cond : TrackRow → Bool} {album : Album} :
    album ∈ db.albumsWhere group cond ↔
      album ∈ db.getAllAlbums group ∧ ∃ t ∈ db.tracks.rows, t.inAlbum album.id ∧ cond t := by
  unfold LibraryDb.albumsWhere LibraryDb.joinedAlbums
  rw [(perm_sortRows _ _ _).mem_iff, List.mem_dedup, mem_getAllAlbums, List.mem_flatMap]
  constructor
  · intro ⟨row, hrow, h⟩
    obtain ⟨t, ht, rfl⟩ := List.mem_map.1 h
    obtain ⟨hmem, hcond⟩ := List.mem_filter.1 ht
    exact ⟨⟨row, hrow, rfl⟩, t, hmem, Bool.and_eq_true_iff.1 hcond⟩
  · intro ⟨⟨row, hrow, hshown⟩, t, hmem, hin, hcond⟩
    subst hshown
    have ht : t ∈ db.tracks.rows.filter fun t => t.inAlbum row.id && cond t :=
      List.mem_filter.2 ⟨hmem, Bool.and_eq_true_iff.2 ⟨hin, hcond⟩⟩
    exact ⟨row, hrow, List.mem_map.2 ⟨t, ht, rfl⟩⟩

/-- Two albums of one id are one. -/
theorem album_ext {a b : Album} (ha : a ∈ db.getAllAlbums group) (hb : b ∈ db.getAllAlbums group)
    (hid : a.id = b.id) : a = b := by
  obtain ⟨r, hr, rfl⟩ := mem_getAllAlbums.1 ha
  obtain ⟨r', hr', rfl⟩ := mem_getAllAlbums.1 hb
  rw [List.inj_on_of_nodup_map db.albums.nodup hr hr' hid]

theorem nodup_albumsWhere (db : LibraryDb) (group : GroupRow) (cond : TrackRow → Bool) :
    ((db.albumsWhere group cond).map Album.id).Nodup := by
  have hnodup : (db.albumsWhere group cond).Nodup := by
    unfold LibraryDb.albumsWhere
    rw [(perm_sortRows _ _ _).nodup_iff]
    exact List.nodup_dedup _
  refine List.Nodup.map_on ?_ hnodup
  intro a ha b hb hid
  exact album_ext (mem_albumsWhere.1 ha).1 (mem_albumsWhere.1 hb).1 hid

theorem nodup_getAllAlbums (db : LibraryDb) (group : GroupRow) :
    ((db.getAllAlbums group).map Album.dirPath).Nodup := by
  unfold LibraryDb.getAllAlbums
  rw [((perm_sortRows _ _ _).map _).nodup_iff, List.map_map]
  exact db.dirPaths_nodup

/-- The album that is looked up by its id is the one that is listed with it. -/
theorem getAlbumById_eq_some {album : Album} :
    db.getAlbumById group album.id = some album ↔ album ∈ db.getAllAlbums group := by
  unfold LibraryDb.getAlbumById
  rw [mem_getAllAlbums, Option.map_eq_some_iff]
  constructor
  · intro ⟨row, hrow, hshown⟩
    exact ⟨row, Table.mem_of_get hrow, hshown⟩
  · intro ⟨row, hrow, hshown⟩
    subst hshown
    exact ⟨row, Table.mem_rows_iff.1 hrow, rfl⟩

theorem mem_sortNames {names : List String} {name : String} : name ∈ sortNames names ↔ name ∈ names :=
  (perm_sortRows _ _ _).mem_iff

theorem mem_getAllArtists {artist : String} :
    artist ∈ db.getAllArtists ↔ ∃ row ∈ db.tracks.rows, row.byArtist artist := by
  simp only [LibraryDb.getAllArtists, mem_sortNames, List.mem_dedup, List.mem_append, List.mem_filterMap,
    TrackRow.byArtist, Bool.or_eq_true, decide_eq_true_eq]
  constructor
  · intro h
    rcases h with ⟨row, hrow, h⟩ | ⟨row, hrow, h⟩
    · exact ⟨row, hrow, .inl h⟩
    · exact ⟨row, hrow, .inr h⟩
  · intro ⟨row, hrow, h⟩
    rcases h with h | h
    · exact .inl ⟨row, hrow, h⟩
    · exact .inr ⟨row, hrow, h⟩

theorem mem_getAllGenres {genre : String} :
    genre ∈ db.getAllGenres ↔ ∃ row ∈ db.tracks.rows, row.ofGenre genre := by
  simp only [LibraryDb.getAllGenres, mem_sortNames, List.mem_dedup, List.mem_filterMap, TrackRow.ofGenre,
    decide_eq_true_eq]

theorem nodup_sortNames {names : List String} (h : names.Nodup) : (sortNames names).Nodup :=
  (perm_sortRows _ _ _).nodup_iff.2 h

/-- The artist that an album is shown with is one of its tracks; there is none only if no track has
one. -/
theorem albumArtist_cases (db : LibraryDb) (group : GroupRow) (albumId : String) :
    (∃ artist, db.albumArtist group albumId = some artist ∧
        ∃ row ∈ db.tracks.rows, row.inAlbum albumId ∧ row.byArtist artist) ∨
      db.albumArtist group albumId = none ∧
        ∀ row ∈ db.tracks.rows, row.inAlbum albumId → ∀ artist, ¬row.byArtist artist := by
  unfold LibraryDb.albumArtist
  generalize hrows : (db.tracks.rows.filter fun row => row.inAlbum albumId && row.hasArtist) = rows
  cases hpick : group.pick rows with
  | none =>
    refine .inr ⟨rfl, ?_⟩
    intro row hrow hin artist hby
    have hhas : row.hasArtist := by
      simp only [TrackRow.byArtist, Bool.or_eq_true, decide_eq_true_eq] at hby
      rcases hby with h | h
      · simp [TrackRow.hasArtist, h]
      · simp [TrackRow.hasArtist, h]
    have hmem : row ∈ rows := by
      rw [← hrows, List.mem_filter]
      exact ⟨hrow, Bool.and_eq_true_iff.2 ⟨hin, hhas⟩⟩
    have hsome := group.pick_isSome rows (List.ne_nil_of_mem hmem)
    rw [hpick] at hsome
    cases hsome
  | some row =>
    have hmem := group.pick_mem rows row hpick
    rw [← hrows, List.mem_filter, Bool.and_eq_true_iff] at hmem
    obtain ⟨hrow, hin, hhas⟩ := hmem
    left
    rw [Option.bind_some]
    unfold TrackRow.shownArtist TrackRow.byArtist
    unfold TrackRow.hasArtist at hhas
    cases halbum : row.track.albumArtist with
    | some artist => exact ⟨artist, rfl, row, hrow, hin, by simp [halbum]⟩
    | none =>
      rw [halbum, Option.isSome_none, Bool.false_or, Option.isSome_iff_exists] at hhas
      obtain ⟨artist, hartist⟩ := hhas
      exact ⟨artist, hartist, row, hrow, hin, by simp [hartist]⟩

end Listed

/-! ## Filed -/

/-- Every album has the id of its directory, and every track is filed under the id of its own. -/
structure LibraryDb.Filed (idOf : String → String) (db : LibraryDb) : Prop where
  albums : db.AlbumIds idOf
  tracks : ∀ row ∈ db.tracks.rows, row.track.albumId = (parentDir row.filePath).map idOf

section Filed

variable {json : KindJson} {idOf : String → String} {db db' : LibraryDb}

theorem filed_empty : LibraryDb.empty.Filed idOf where
  albums := fun _ h => by cases h
  tracks := fun _ h => by cases h

theorem LibraryDb.Filed.congr (h : db.Filed idOf) (hcatalog : db'.catalog = db.catalog) : db'.Filed idOf := by
  obtain ⟨halbums, htracks⟩ := Prod.mk.inj hcatalog
  constructor
  · unfold AlbumIds
    rw [halbums]
    exact h.albums
  · rw [htracks]
    exact h.tracks

theorem filed_restrictTracks (h : db.Filed idOf) (keep : String → Bool) :
    (db.restrictTracks keep).Filed idOf where
  albums := h.albums
  tracks := fun row hrow => h.tracks row (List.mem_of_mem_filter hrow)

theorem deleteTrackRows_filed (keep : String → Bool) :
    Exec.Preserves (LibraryDb.Filed idOf) (deleteTrackRows keep) := by
  refine .bind (.query _) fun removed => .bind (.execute ?_) fun _ => .pure _
  intro db db' h hrun
  cases hrun
  exact filed_restrictTracks h keep

theorem purgeMissing_filed (knownPaths : List String) :
    Exec.Preserves (LibraryDb.Filed idOf) (purgeMissing knownPaths) := by
  unfold purgeMissing
  split
  · exact deleteTrackRows_filed _
  · split
    · exact .fail _
    · exact deleteTrackRows_filed _

theorem upsertTrackWithMtime_filed (track : Track) (mtime : Option Int) :
    Exec.Preserves (LibraryDb.Filed idOf) (upsertTrackWithMtime idOf track mtime) := by
  intro db h
  obtain ⟨db₁, htracks, heq, halbums⟩ := upsertTrackWithMtime_eq idOf track mtime db
  have hids := (halbums h.albums).1
  rw [heq]
  cases hup : db₁.upsertTrackRow (upsertedRow idOf track mtime) with
  | error e =>
    rw [Exec.execute_error hup]
    exact ⟨hids, htracks ▸ h.tracks⟩
  | ok db₂ =>
    rw [Exec.execute_ok hup]
    constructor
    · unfold LibraryDb.AlbumIds
      rw [(LibraryDb.get_upsertTrackRow hup "").2]
      exact hids
    · intro row hrow
      have hget := Table.mem_rows_iff.1 hrow
      rw [(LibraryDb.get_upsertTrackRow hup row.filePath).1, htracks] at hget
      split at hget
      · cases hget
        rfl
      · exact h.tracks row (Table.mem_of_get hget)

theorem updateAlbumArtwork_filed (dirPath : String) (artworkPath : Option String) :
    Exec.Preserves (LibraryDb.Filed idOf) (updateAlbumArtwork dirPath artworkPath) := by
  refine .execute ?_
  intro db db' h hrun
  cases hrun
  refine ⟨?_, h.tracks⟩
  intro row hrow
  obtain ⟨row, hmem, rfl⟩ := List.mem_map.1 hrow
  have hid : (row.withArtwork dirPath artworkPath).id = row.id :=
    congrFun (AlbumRow.id_comp_withArtwork dirPath artworkPath) row
  have hdir : (row.withArtwork dirPath artworkPath).dirPath = row.dirPath :=
    congrFun (AlbumRow.dirPath_comp_withArtwork dirPath artworkPath) row
  rw [hid, hdir]
  exact h.albums row hmem

theorem CatalogOp.exec_filed (now : Int) (op : CatalogOp) :
    Exec.Preserves (LibraryDb.Filed idOf) (op.exec json idOf now) := by
  cases op with
  | library op =>
    cases op with
    | playlist op =>
      intro db h
      exact h.congr (op.exec_keeps json now db)
    | upsertTrackWithMtime track mtime => exact upsertTrackWithMtime_filed track mtime
    | deleteTrack filePath => exact .bind (deleteTrackRows_filed _) fun _ => .pure _
    | purgeMissing knownPaths => exact .bind (purgeMissing_filed knownPaths) fun _ => .pure _
  | updateAlbumArtwork dirPath artworkPath => exact updateAlbumArtwork_filed dirPath artworkPath

/-- The tracks of an album that is listed are those whose directory has its id. -/
theorem mem_getTracksByAlbumId (h : db.Filed idOf) {albumId : String} {t : Track} :
    t ∈ db.getTracksByAlbumId albumId ↔
      ∃ row ∈ db.tracks.rows, row.track = t ∧ (parentDir t.filePath).map idOf = some albumId := by
  unfold LibraryDb.getTracksByAlbumId
  rw [mem_tracksWhere]
  constructor
  · intro ⟨row, hrow, hin, ht⟩
    subst ht
    refine ⟨row, hrow, rfl, ?_⟩
    rw [← of_decide_eq_true hin]
    exact (h.tracks row hrow).symm
  · intro ⟨row, hrow, ht, hdir⟩
    subst ht
    exact ⟨row, hrow, decide_eq_true ((h.tracks row hrow).trans hdir), rfl⟩

/-- A track in a directory has an album, which has the id of the directory. -/
theorem exists_album (h : db.Filed idOf) (group : GroupRow) {row : TrackRow} (hrow : row ∈ db.tracks.rows)
    {dir : String} (hdir : parentDir row.filePath = some dir) :
    ∃ album ∈ db.getAllAlbums group, row.inAlbum album.id ∧ idOf album.dirPath = idOf dir := by
  have hfiled : row.track.albumId = some (idOf dir) := by rw [h.tracks row hrow, hdir, Option.map_some]
  obtain ⟨a, ha, hid⟩ := List.mem_map.1 (db.albums_of_tracks row hrow (idOf dir) hfiled)
  refine ⟨db.rowToAlbum group a, mem_getAllAlbums.2 ⟨a, ha, rfl⟩, decide_eq_true ?_, ?_⟩
  · exact hfiled.trans (congrArg some hid.symm)
  · exact (h.albums a ha).symm.trans hid

end Filed

/-! ## Browsing -/

/-- What the lists of a database are to each other. -/
structure LibraryDb.Browsable (idOf : String → String) (group : GroupRow) (db : LibraryDb) : Prop where
  /-- The names listed are those with tracks, each once. -/
  artists : db.getAllArtists.Nodup ∧ ∀ artist, artist ∈ db.getAllArtists ↔ db.getTracksByArtist artist ≠ []
  genres : db.getAllGenres.Nodup ∧ ∀ genre, genre ∈ db.getAllGenres ↔ db.getTracksByGenre genre ≠ []
  /-- The albums listed are those that are found by their ids, each once. -/
  albums : ((db.getAllAlbums group).map Album.dirPath).Nodup ∧
    ∀ album, album ∈ db.getAllAlbums group ↔ db.getAlbumById group album.id = some album
  /-- Under a name stand the albums with a track that is under it, each once. -/
  artistAlbums : ∀ artist, ((db.getAlbumsByArtist group artist).map Album.id).Nodup ∧
    ∀ album, album ∈ db.getAlbumsByArtist group artist ↔ album ∈ db.getAllAlbums group ∧
      ∃ t ∈ db.getTracksByAlbumId album.id, t ∈ db.getTracksByArtist artist
  genreAlbums : ∀ genre, ((db.getAlbumsByGenre group genre).map Album.id).Nodup ∧
    ∀ album, album ∈ db.getAlbumsByGenre group genre ↔ album ∈ db.getAllAlbums group ∧
      ∃ t ∈ db.getTracksByAlbumId album.id, t ∈ db.getTracksByGenre genre
  /-- The tracks of an album are those of its directory. -/
  albumTracks : ∀ album ∈ db.getAllAlbums group, album.id = idOf album.dirPath ∧
    ((db.getTracksByAlbumId album.id).map Track.filePath).Nodup ∧
    ∀ t, t ∈ db.getTracksByAlbumId album.id ↔ t ∈ db.tracks.rows.map TrackRow.track ∧
      (parentDir t.filePath).map idOf = some album.id
  /-- Every track is in an album and under its names, unless its file has no directory. -/
  reached : ∀ t ∈ db.tracks.rows.map TrackRow.track, parentDir t.filePath ≠ none →
    ∃ album ∈ db.getAllAlbums group, t ∈ db.getTracksByAlbumId album.id
  /-- A page has as many tracks as it is to have, as far as there are so many, and none twice. -/
  pages : (∀ offset, ∃ e, db.getTracks (some offset) none = .error e) ∧
    ∀ offset limit, ∃ page, db.getTracks offset (some limit) = .ok page ∧
      page.length = min limit.toNat (db.tracks.rows.length - offset.elim 0 UInt32.toNat) ∧
      (page.map Track.filePath).Nodup ∧ page ⊆ db.tracks.rows.map TrackRow.track
  /-- The artist that an album shows leads back to it. -/
  albumArtist : ∀ album ∈ db.getAllAlbums group,
    album.artist.elim (∀ artist, album ∉ db.getAlbumsByArtist group artist) fun artist =>
      artist ∈ db.getAllArtists ∧ album ∈ db.getAlbumsByArtist group artist

section Browsing

variable {idOf : String → String} {db : LibraryDb} {group : GroupRow}

theorem tracksWhere_ne_nil {order : List OrderTerm} {cond : TrackRow → Bool} :
    db.tracksWhere order cond ≠ [] ↔ ∃ row ∈ db.tracks.rows, cond row := by
  constructor
  · intro h
    obtain ⟨t, ht⟩ := List.exists_mem_of_ne_nil _ h
    obtain ⟨row, hrow, hcond, -⟩ := mem_tracksWhere.1 ht
    exact ⟨row, hrow, hcond⟩
  · intro ⟨row, hrow, hcond⟩
    exact List.ne_nil_of_mem (mem_tracksWhere.2 ⟨row, hrow, hcond, rfl⟩)

theorem getTracks_page (db : LibraryDb) (offset : Option UInt32) (limit : UInt32) :
    ∃ page, db.getTracks offset (some limit) = .ok page ∧
      page.Sublist (db.tracksWhere albumOrder fun _ => true) ∧
      page.length = min limit.toNat (db.tracks.rows.length - offset.elim 0 UInt32.toNat) := by
  have hall : (db.tracksWhere albumOrder fun _ => true).length = db.tracks.rows.length := by
    unfold LibraryDb.tracksWhere
    rw [List.length_map, (perm_sortRows _ _ _).length_eq, List.filter_true]
  cases offset with
  | none =>
    refine ⟨_, rfl, List.take_sublist _ _, ?_⟩
    rw [List.length_take, hall]
    rfl
  | some offset =>
    refine ⟨_, rfl, (List.take_sublist _ _).trans (List.drop_sublist _ _), ?_⟩
    rw [List.length_take, List.length_drop, hall]
    rfl

/-- The albums under a name, by the tracks under it. -/
theorem mem_albumsWhere_iff (order : List OrderTerm) {cond : TrackRow → Bool} {album : Album} :
    album ∈ db.albumsWhere group cond ↔ album ∈ db.getAllAlbums group ∧
      ∃ t ∈ db.getTracksByAlbumId album.id, t ∈ db.tracksWhere order cond := by
  rw [mem_albumsWhere]
  refine and_congr_right fun _ => ?_
  constructor
  · intro ⟨row, hrow, hin, hcond⟩
    exact ⟨row.track, mem_tracksWhere.2 ⟨row, hrow, hin, rfl⟩, mem_tracksWhere.2 ⟨row, hrow, hcond, rfl⟩⟩
  · intro ⟨t, halbum, hname⟩
    obtain ⟨row, hrow, hin, ht⟩ := mem_tracksWhere.1 halbum
    obtain ⟨row', hrow', hcond, ht'⟩ := mem_tracksWhere.1 hname
    -- both are the row of the file
    have hsame : row = row' :=
      List.inj_on_of_nodup_map db.tracks.nodup hrow hrow' (congrArg Track.filePath (ht.trans ht'.symm))
    exact ⟨row, hrow, hin, hsame ▸ hcond⟩

theorem browsable_of_filed (h : db.Filed idOf) (group : GroupRow) : db.Browsable idOf group where
  artists := by
    refine ⟨nodup_sortNames (List.nodup_dedup _), fun artist => ?_⟩
    rw [mem_getAllArtists, LibraryDb.getTracksByArtist, tracksWhere_ne_nil]
  genres := by
    refine ⟨nodup_sortNames (List.nodup_dedup _), fun genre => ?_⟩
    rw [mem_getAllGenres, LibraryDb.getTracksByGenre, tracksWhere_ne_nil]
  albums := ⟨nodup_getAllAlbums db group, fun _ => getAlbumById_eq_some.symm⟩
  artistAlbums := fun artist => ⟨nodup_albumsWhere _ _ _, fun album => mem_albumsWhere_iff albumOrder⟩
  genreAlbums := fun genre => ⟨nodup_albumsWhere _ _ _, fun album => mem_albumsWhere_iff _⟩
  albumTracks := by
    intro album halbum
    refine ⟨?_, nodup_tracksWhere _ _ _, fun t => ?_⟩
    · obtain ⟨row, hrow, rfl⟩ := mem_getAllAlbums.1 halbum
      exact h.albums row hrow
    · rw [mem_getTracksByAlbumId h, List.mem_map]
      simp only [← and_assoc, exists_and_right]
  reached := by
    intro t ht hdir
    obtain ⟨row, hrow, rfl⟩ := List.mem_map.1 ht
    obtain ⟨dir, hdir⟩ := Option.ne_none_iff_exists'.1 hdir
    obtain ⟨album, halbum, hin, -⟩ := exists_album h group hrow hdir
    exact ⟨album, halbum, mem_tracksWhere.2 ⟨row, hrow, hin, rfl⟩⟩
  pages := by
    refine ⟨fun offset => ⟨_, rfl⟩, fun offset limit => ?_⟩
    obtain ⟨page, hpage, hsub, hlength⟩ := getTracks_page db offset limit
    refine ⟨page, hpage, hlength, (hsub.map _).nodup (nodup_tracksWhere db albumOrder _), fun t ht => ?_⟩
    obtain ⟨row, hrow, -, rfl⟩ := mem_tracksWhere.1 (hsub.mem ht)
    exact List.mem_map_of_mem hrow
  albumArtist := by
    intro album halbum
    obtain ⟨row, -, hshown⟩ := mem_getAllAlbums.1 halbum
    have hartist : album.artist = db.albumArtist group album.id := by
      rw [← hshown]
      rfl
    rw [hartist]
    rcases albumArtist_cases db group album.id with ⟨artist, hshows, t, ht, hin, hby⟩ | ⟨hshows, hnone⟩
    · rw [hshows]
      exact ⟨mem_getAllArtists.2 ⟨t, ht, hby⟩, mem_albumsWhere.2 ⟨halbum, t, ht, hin, hby⟩⟩
    · rw [hshows]
      intro artist hmem
      obtain ⟨-, t, ht, hin, hby⟩ := mem_albumsWhere.1 hmem
      exact hnone t ht hin artist hby

/-- After any calls from an empty database on, the lists fit together. -/
theorem catalog_browsable (json : KindJson) (idOf : String → String) (group : GroupRow)
    (calls : List (Int × CatalogOp)) :
    (runAll (CatalogOp.step json idOf) calls .empty).Browsable idOf group := by
  refine browsable_of_filed ?_ group
  exact runAll_keeps (fun call db h => CatalogOp.exec_filed call.1 call.2 db h) calls filed_empty

end Browsing

end Kanade

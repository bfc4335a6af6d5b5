import Kanade.Db.PlaylistView
import Kanade.Db.SmartPlaylists
import Kanade.Keyed.Indexed
import Kanade.Sql.Refine

/-!
# Kanade.Db.Search

The full-text index beside `tracks` (`schema.rs`) and the search in it (`repo.rs`).

The index has rows of its own. Triggers write them, and a trigger that fails takes the statement with
it. `SearchDb.Synced`: the index says of each track what its row says now. `onCatalog_refines`: with
that, no trigger ever fails, and what the calls do to the other tables is what they do without an
index. `search_exact`: what `search_tracks` finds after any calls.
-/

namespace Kanade

open Keyed Sql Concur

/-! ## The index -/

/-- The columns of `tracks_fts` that are searched. -/
structure FtsTexts where
  title : Option String
  album : Option String
  artist : Option String
  albumArtist : Option String
  composer : Option String
  genre : Option String
deriving DecidableEq, Repr

/-- The columns of `tracks_fts`; `track_id` is `UNINDEXED`. -/
structure FtsRow where
  trackId : String
  texts : FtsTexts
deriving DecidableEq, Repr

def ftsTexts (track : Track) : FtsTexts where
  title := track.title
  album := track.albumTitle
  artist := track.artist
  albumArtist := track.albumArtist
  composer := track.composer
  genre := track.genre

/-- `VALUES (new.rowid, new.id, new.title, ..)` of the triggers. -/
def ftsRow (track : Track) : FtsRow where
  trackId := track.id
  texts := ftsTexts track

/-- What SQLite's FTS5 does with a query: it parses it to a condition on the texts of a row, or fails,
and puts the rows that meet it in an order that may depend on all rows there are. -/
structure Fts5 where
  parse : String → Except String (FtsTexts → Bool)
  byRank : String → List FtsRow → List FtsRow → List FtsRow
  byRank_perm : ∀ query rows hits, (byRank query rows hits).Perm hits

structure SearchDb where
  library : LibraryDb
  fts : Indexed String FtsRow

/-- What the index is to say of a file. -/
def LibraryDb.ftsContent (db : LibraryDb) (filePath : String) : Option FtsRow :=
  (db.tracks.get filePath).map fun row => ftsRow row.track

namespace SearchDb

def empty : SearchDb := ⟨.empty, .empty _ _⟩

variable (db : SearchDb)

/-! ## Statements -/

/-- The triggers `tracks_fts_insert` and `tracks_fts_update`: an upsert inserts a row or updates the one that
is there. -/
def upsertTrigger (row : TrackRow) : Option (Indexed String FtsRow) :=
  if (db.library.tracks.get row.filePath).isSome then db.fts.updated row.filePath (ftsRow row.track)
  else db.fts.inserted row.filePath (ftsRow row.track)

def upsertTrackRow (row : TrackRow) : Except String SearchDb :=
  match db.library.upsertTrackRow row with
  | .error e => .error e
  | .ok library =>
    match db.upsertTrigger row with
    | some fts => .ok ⟨library, fts⟩
    | none => .error "constraint failed"

/-- The trigger `tracks_fts_delete` runs for each row deleted. -/
def restrictTracks (keep : String → Bool) : SearchDb where
  library := db.library.restrictTracks keep
  fts := db.fts.deleted keep

/-- A statement about other tables fires no trigger. -/
def otherTables {α : Type} (x : Exec LibraryDb α) : Exec SearchDb α :=
  x.within SearchDb.library fun library db => { db with library := library }

def upsertTrackWithMtime (idOf : String → String) (track : Track) (mtime : Option Int) :
    Exec SearchDb Unit := do
  let dir := parentDir track.filePath
  let albumId := dir.map idOf
  match dir with
  | some dir =>
    Exec.ignore <| otherTables <| upsertAlbum
      { id := idOf dir
        dirPath := dir
        title := track.albumTitle
        artworkPath := none }
  | none => pure ()
  Exec.execute fun db => db.upsertTrackRow
    { track := { track with albumId := albumId }
      mtime := mtime }

def deleteTrackRows (keep : String → Bool) : Exec SearchDb Nat := do
  let removed ← Exec.query fun db => .ok (db.library.tracks.rows.filter fun t => !keep t.filePath).length
  Exec.execute fun db => .ok (db.restrictTracks keep)
  pure removed

def deleteTrack (filePath : String) : Exec SearchDb Unit := do
  let _ ← deleteTrackRows fun path => path ≠ filePath

def purgeMissing (knownPaths : List String) : Exec SearchDb Nat :=
  if knownPaths.isEmpty then deleteTrackRows fun _ => false
  else if maxVariableNumber < knownPaths.length then Exec.fail "too many SQL variables"
  else deleteTrackRows fun path => knownPaths.contains path

/-! ## Queries -/

/-- The rows of `tracks_fts`. -/
def ftsRows : List FtsRow := db.fts.index.rows.map Prod.snd

def search (fts5 : Fts5) (query : String) : Except String (List String) := do
  let found ← fts5.parse query
  .ok ((fts5.byRank query db.ftsRows (db.ftsRows.filter fun row => found row.texts)).map FtsRow.trackId)

end SearchDb

/-- `ORDER BY album_title, disc_number, track_number, title`. -/
def albumOrder : List OrderTerm :=
  [.text "album_title" false, .integer "disc_number", .integer "track_number", .text "title" false]

def SearchDb.searchTracks (db : SearchDb) (fts5 : Fts5) (query : String) : Except String (List Track) := do
  let ids ← db.search fts5 query
  if ids.isEmpty then .ok []
  else if maxVariableNumber < ids.length then .error "too many SQL variables"
  else
    let rows := db.library.tracks.rows.filter fun row => ids.contains row.track.id
    .ok ((sortRows trackColumns albumOrder rows).map TrackRow.track)

/-! ## Calls -/

/-- The calls that write to the catalog. -/
inductive CatalogOp where
  | library (op : LibraryOp)
  | updateAlbumArtwork (dirPath : String) (artworkPath : Option String)

section Calls

variable (json : KindJson) (idOf : String → String) (now : Int)

def CatalogOp.exec : CatalogOp → Exec LibraryDb Unit
  | .library op => op.exec json idOf now
  | .updateAlbumArtwork dirPath artworkPath => Kanade.updateAlbumArtwork dirPath artworkPath

def SearchDb.exec : CatalogOp → Exec SearchDb Unit
  | .library (.playlist op) => otherTables (op.exec json now)
  | .library (.upsertTrackWithMtime track mtime) => upsertTrackWithMtime idOf track mtime
  | .library (.deleteTrack filePath) => deleteTrack filePath
  | .library (.purgeMissing knownPaths) => do
    let _ ← purgeMissing knownPaths
  | .updateAlbumArtwork dirPath artworkPath => otherTables (Kanade.updateAlbumArtwork dirPath artworkPath)

/-- The database after a call at a time. -/
def CatalogOp.step (call : Int × CatalogOp) (db : LibraryDb) : LibraryDb :=
  (call.2.exec json idOf call.1 db).2

def SearchDb.step (call : Int × CatalogOp) (db : SearchDb) : SearchDb :=
  (SearchDb.exec json idOf call.1 call.2 db).2

end Calls

/-! ## What fires no trigger -/

/-- The tables of the catalog. -/
def LibraryDb.catalog (db : LibraryDb) : Table AlbumRow.id × Table TrackRow.filePath := (db.albums, db.tracks)

section KeepCatalog

variable (json : KindJson) (now : Int)

theorem checkEditable_keeps_catalog (id : String) :
    Exec.Keeps LibraryDb.catalog (checkEditable json id) := by
  have hexisting : Exec.Keeps LibraryDb.catalog (existingPlaylist json id) := by
    refine .bind (.query _) fun pl => ?_
    cases pl with
    | none => exact .fail _
    | some pl => exact .pure _
  refine .bind hexisting fun pl => ?_
  split
  · exact .pure _
  · exact .fail _

theorem touchPlaylist_keeps_catalog (id : String) : Exec.Keeps LibraryDb.catalog (touchPlaylist now id) :=
  .execute fun _ _ h => by cases h; rfl

theorem deleteTracks_keeps_catalog (id : String) : Exec.Keeps LibraryDb.catalog (deleteTracks id) :=
  .execute fun _ _ h => by cases h; rfl

theorem insertTracks_keeps_catalog (id : String) (position : Nat → Int) (idx : Nat) (tids : List String) :
    Exec.Keeps LibraryDb.catalog (insertTracks id position idx tids) := by
  induction tids generalizing idx with
  | nil => exact .pure _
  | cons tid tids ih =>
    refine .bind (.execute ?_) fun _ => ih (idx + 1)
    intro db db' h
    unfold LibraryDb.insertPlaylistTrack at h
    split_ifs at h
    cases h
    rfl

/-- The entries are written anew, and the playlist is touched. -/
theorem insertAndTouch_keeps (id : String) (position : Nat → Int) (tids : List String) :
    Exec.Keeps LibraryDb.catalog (do
      insertTracks id position 0 tids
      touchPlaylist now id) :=
  .bind (insertTracks_keeps_catalog id position 0 tids) fun _ => touchPlaylist_keeps_catalog now id

theorem PlaylistOp.exec_keeps (op : PlaylistOp) : Exec.Keeps LibraryDb.catalog (op.exec json now) := by
  cases op with
  | createPlaylistWithId id name description kind =>
    refine .bind (.bind (.execute ?_) fun _ => .bind (.query _) fun pl => ?_) fun _ => .pure _
    · intro db db' h
      unfold LibraryDb.insertPlaylist at h
      split at h <;> cases h
      rfl
    · cases pl with
      | none => exact .fail _
      | some pl => exact .pure _
  | updatePlaylist id name description kind =>
    refine .bind (.bind (.query _) fun pl => ?_) fun existing => ?_
    · cases pl with
      | none => exact .fail _
      | some pl => exact .pure _
    · split
      · exact .fail _
      · exact .execute fun db db' h => by
          cases h
          rfl
  | deletePlaylist id =>
    exact .execute fun db db' h => by
      cases h
      rfl
  | setPlaylistTracks id tids =>
    exact .bind (checkEditable_keeps_catalog json id) fun _ => .transaction <|
      .bind (deleteTracks_keeps_catalog id) fun _ => insertAndTouch_keeps now id _ tids
  | appendPlaylistTracks id tids =>
    dsimp only [exec]
    unfold Kanade.appendPlaylistTracks
    split
    · exact .pure _
    · exact .bind (checkEditable_keeps_catalog json id) fun _ => .transaction <|
        .bind (.query _) fun _ => insertAndTouch_keeps now id _ tids
  | removePlaylistTrack id position =>
    refine .bind (checkEditable_keeps_catalog json id) fun _ => .transaction (.bind (.query _) fun removed => ?_)
    refine .bind (.execute fun _ _ h => by cases h; rfl) fun _ => ?_
    split
    · refine .bind (.execute ?_) fun _ => touchPlaylist_keeps_catalog now id
      intro db db' h
      unfold LibraryDb.closeGap at h
      split at h <;> cases h
      rfl
    · exact .pure _
  | movePlaylistTrack id src dst =>
    dsimp only [exec]
    unfold Kanade.movePlaylistTrack
    split
    · exact .pure _
    · refine .bind (checkEditable_keeps_catalog json id) fun _ => .transaction (.bind (.query _) fun ids => ?_)
      cases ids[src.toNat]? with
      | none => exact .fail _
      | some item =>
        exact .bind (deleteTracks_keeps_catalog id) fun _ => insertAndTouch_keeps now id _ _

end KeepCatalog

/-- What leaves the catalog alone leaves the tracks alone. -/
theorem keeps_tracks {α : Type} {x : Exec LibraryDb α} (hx : Exec.Keeps LibraryDb.catalog x) :
    Exec.Keeps LibraryDb.tracks x := fun db => congrArg Prod.snd (hx db)

theorem upsertAlbum_keeps_tracks (album : AlbumRow) : Exec.Keeps LibraryDb.tracks (upsertAlbum album) :=
  .execute fun _ _ h => (LibraryDb.get_upsertAlbumRow h "").2

theorem updateAlbumArtwork_keeps (dirPath : String) (artworkPath : Option String) :
    Exec.Keeps LibraryDb.tracks (updateAlbumArtwork dirPath artworkPath) :=
  .execute fun _ _ h => by
    cases h
    rfl

/-! ## In sync -/

namespace SearchDb

/-- The index says of each track what its row says. -/
def Synced (db : SearchDb) : Prop := InSync db.library.ftsContent db.fts

theorem synced_empty : Synced .empty := InSync.empty

section Refines

variable {db : SearchDb} {α : Type}

theorem otherTables_refines {x : Exec LibraryDb α} (hx : Exec.Keeps LibraryDb.tracks x) :
    Exec.Refines library Synced (otherTables x) x := by
  refine .within (fun _ _ => rfl) ?_ hx
  intro library db hs htracks
  refine InSync.congr hs fun path => ?_
  unfold LibraryDb.ftsContent
  rw [htracks]

/-- The trigger of an upsert succeeds. -/
theorem upsertTrigger_ok (hs : db.Synced) {row : TrackRow} {library : LibraryDb}
    (h : db.library.upsertTrackRow row = .ok library) :
    ∃ fts, db.upsertTrigger row = some fts ∧ Synced ⟨library, fts⟩ := by
  have hcontent : ∀ path, library.ftsContent path =
      Function.update db.library.ftsContent row.filePath (some (ftsRow row.track)) path := by
    intro path
    unfold LibraryDb.ftsContent
    rw [(LibraryDb.get_upsertTrackRow h path).1]
    by_cases hpath : path = row.filePath
    · rw [if_pos hpath, hpath, Function.update_self]
      rfl
    · rw [if_neg hpath, Function.update_of_ne hpath]
  unfold upsertTrigger
  cases hget : db.library.tracks.get row.filePath with
  | none =>
    have hnone : db.library.ftsContent row.filePath = none := by
      unfold LibraryDb.ftsContent
      rw [hget]
      rfl
    obtain ⟨fts, hfts, hsync⟩ := InSync.inserted hs hnone (ftsRow row.track)
    exact ⟨fts, hfts, hsync.congr hcontent⟩
  | some r =>
    have hsome : (db.library.ftsContent row.filePath).isSome := by
      unfold LibraryDb.ftsContent
      rw [hget]
      rfl
    obtain ⟨fts, hfts, hsync⟩ := InSync.updated hs hsome (ftsRow row.track)
    exact ⟨fts, hfts, hsync.congr hcontent⟩

theorem upsertTrackRow_refines (row : TrackRow) :
    Exec.Refines library Synced (Exec.execute fun db => db.upsertTrackRow row)
      (Exec.execute fun db => db.upsertTrackRow row) := by
  refine .execute ?_ ?_
  · intro db e hs h
    unfold upsertTrackRow
    rw [h]
  · intro db library hs h
    obtain ⟨fts, hfts, hsync⟩ := upsertTrigger_ok hs h
    refine ⟨⟨library, fts⟩, ?_, rfl, hsync⟩
    unfold upsertTrackRow
    rw [h]
    dsimp only
    rw [hfts]

theorem upsertTrackWithMtime_refines (idOf : String → String) (track : Track) (mtime : Option Int) :
    Exec.Refines library Synced (upsertTrackWithMtime idOf track mtime)
      (Kanade.upsertTrackWithMtime idOf track mtime) := by
  unfold upsertTrackWithMtime Kanade.upsertTrackWithMtime
  cases parentDir track.filePath with
  | none => exact upsertTrackRow_refines _
  | some dir =>
    exact .bind (.ignore (otherTables_refines (upsertAlbum_keeps_tracks _))) fun _ =>
      upsertTrackRow_refines _

theorem deleteTrackRows_refines (keep : String → Bool) :
    Exec.Refines library Synced (deleteTrackRows keep) (Kanade.deleteTrackRows keep) := by
  refine .bind (.query fun _ _ => rfl) fun _ => .bind (.execute ?_ ?_) fun _ => .pure _
  · intro db e _ h
    cases h
  · intro db library hs h
    cases h
    refine ⟨db.restrictTracks keep, rfl, rfl, (InSync.deleted hs keep).congr fun path => ?_⟩
    unfold LibraryDb.ftsContent restrictTracks LibraryDb.restrictTracks
    dsimp only
    rw [Table.get_restrict]
    split <;> rfl

theorem purgeMissing_refines (knownPaths : List String) :
    Exec.Refines library Synced (purgeMissing knownPaths) (Kanade.purgeMissing knownPaths) := by
  unfold purgeMissing Kanade.purgeMissing
  split
  · exact deleteTrackRows_refines _
  · split
    · exact .fail _
    · exact deleteTrackRows_refines _

/-- With the index in sync the calls do to the other tables what they do without one, and keep it so. -/
theorem onCatalog_refines (json : KindJson) (idOf : String → String) (now : Int) (op : CatalogOp) :
    Exec.Refines library Synced (exec json idOf now op) (op.exec json idOf now) := by
  cases op with
  | library op =>
    cases op with
    | playlist op => exact otherTables_refines (keeps_tracks (op.exec_keeps json now))
    | upsertTrackWithMtime track mtime => exact upsertTrackWithMtime_refines idOf track mtime
    | deleteTrack filePath => exact .bind (deleteTrackRows_refines _) fun _ => .pure _
    | purgeMissing knownPaths => exact .bind (purgeMissing_refines knownPaths) fun _ => .pure _
  | updateAlbumArtwork dirPath artworkPath => exact otherTables_refines (updateAlbumArtwork_keeps _ _)

end Refines

/-- What an index in sync finds. -/
theorem ids_of_search {db : SearchDb} (hs : db.Synced) {fts5 : Fts5} {query : String}
    {found : FtsTexts → Bool} (hfound : fts5.parse query = .ok found) :
    ∃ ids, db.search fts5 query = .ok ids ∧
      ids.Perm ((db.library.tracks.rows.filter fun row => found (ftsTexts row.track)).map
        fun row => row.track.id) := by
  have hrows : db.ftsRows.Perm (db.library.tracks.rows.map fun row => ftsRow row.track) := InSync.perm hs
  refine ⟨_, by rw [search, hfound]; rfl, ?_⟩
  have hhits := (fts5.byRank_perm query db.ftsRows (db.ftsRows.filter fun row => found row.texts)).trans
    (hrows.filter _)
  refine (hhits.map FtsRow.trackId).trans (List.Perm.of_eq ?_)
  rw [List.filter_map, List.map_map]
  rfl

end SearchDb

/-- What a search is to give: its error, or each track whose texts meet its condition, once and in order,
unless they are more than one statement can name. -/
def LibraryDb.Finds (db : LibraryDb) (found : Except String (FtsTexts → Bool))
    (result : Except String (List Track)) : Prop :=
  match found with
  | .error e => result = .error e
  | .ok found =>
    let hits := db.tracks.rows.filter fun row => found (ftsTexts row.track)
    if maxVariableNumber < hits.length then result = .error "too many SQL variables"
    else ∃ rows : List TrackRow, result = .ok (rows.map TrackRow.track) ∧ rows.Perm hits ∧
      rows.Pairwise fun r r' => rowOrder trackColumns albumOrder r r' ≠ .gt

theorem SearchDb.finds_searchTracks {db : SearchDb} (hs : db.Synced) (fts5 : Fts5) (query : String) :
    db.library.Finds (fts5.parse query) (db.searchTracks fts5 query) := by
  cases hparse : fts5.parse query with
  | error e =>
    unfold searchTracks search
    rw [hparse]
    rfl
  | ok found =>
    obtain ⟨ids, hids, hperm⟩ := ids_of_search hs hparse
    have hlength := hperm.length_eq
    rw [List.length_map] at hlength
    -- an id is that of one row only
    have hfilter : db.library.tracks.rows.filter (fun row => ids.contains row.track.id) =
        db.library.tracks.rows.filter fun row => found (ftsTexts row.track) := by
      refine List.filter_congr fun row hrow => ?_
      rw [Bool.eq_iff_iff, List.contains_iff_mem, hperm.mem_iff, List.mem_map]
      constructor
      · rintro ⟨row', hrow', hid⟩
        obtain ⟨hrow', hfound⟩ := List.mem_filter.1 hrow'
        rwa [← List.inj_on_of_nodup_map db.library.trackIds_nodup hrow' hrow hid]
      · intro hfound
        exact ⟨row, List.mem_filter.2 ⟨hrow, hfound⟩, rfl⟩
    have hrun : db.searchTracks fts5 query = if ids.isEmpty then .ok []
        else if maxVariableNumber < ids.length then .error "too many SQL variables"
        else .ok ((sortRows trackColumns albumOrder (db.library.tracks.rows.filter fun row =>
          found (ftsTexts row.track))).map TrackRow.track) := by
      unfold searchTracks
      rw [hids, ← hfilter]
      rfl
    rw [hrun]
    unfold LibraryDb.Finds
    dsimp only
    rw [← hlength]
    cases ids with
    | nil =>
      rw [List.length_nil, if_neg (Nat.not_lt_zero _), List.isEmpty_nil, if_pos rfl]
      have hnone := List.eq_nil_of_length_eq_zero hlength.symm
      exact ⟨[], rfl, hnone ▸ .nil, .nil⟩
    | cons id ids =>
      rw [List.isEmpty_cons, if_neg Bool.false_ne_true]
      by_cases hmany : maxVariableNumber < (id :: ids).length
      · rw [if_pos hmany, if_pos hmany]
      · rw [if_neg hmany, if_neg hmany]
        exact ⟨_, rfl, perm_sortRows _ _ _, pairwise_sortRows _ _ _⟩

/-- After any calls from an empty database on, the other tables are what they would be without an index,
the next call ends as it would, and a search finds the tracks whose texts, as they are now, meet its
condition. -/
theorem search_exact (json : KindJson) (idOf : String → String) (fts5 : Fts5)
    (calls : List (Int × CatalogOp)) (query : String) :
    let db := runAll (SearchDb.step json idOf) calls .empty
    let library := runAll (CatalogOp.step json idOf) calls .empty
    db.library = library ∧
      (∀ now op, (SearchDb.exec json idOf now op db).1 = (op.exec json idOf now library).1) ∧
      library.Finds (fts5.parse query) (db.searchTracks fts5 query) := by
  intro db library
  obtain ⟨hpart, hs⟩ : db.library = library ∧ db.Synced :=
    runAll_simulates (fun call s hs => (SearchDb.onCatalog_refines json idOf call.1 call.2 s hs).2) calls
      SearchDb.synced_empty
  refine ⟨hpart, ?_, ?_⟩
  · intro now op
    rw [← hpart]
    exact (SearchDb.onCatalog_refines json idOf now op db hs).1
  · rw [← hpart]
    exact SearchDb.finds_searchTracks hs fts5 query

end Kanade

import Kanade.Db.PlaylistLists
import Kanade.Db.Tracks
import Kanade.Keyed.Shown
import Kanade.Wire.PlainText

/-!
# Kanade.Db.PlaylistView

Positions in a playlist, as clients take them from `get_playlist_tracks` and as the edits take them.

The view is a join: it shows the entries whose track is in the library. The edits count all entries.
`positions_agree_iff`: the two mean the same exactly in the playlists where no entry without a track
stands before one with a track, in every database that playlist calls, scans and removals of tracks
leave.
-/

namespace Kanade

open Keyed Sql Concur

/-! ## Runs with scans -/

/-- The calls on playlists and tracks. -/
inductive LibraryOp where
  | playlist (op : PlaylistOp)
  | upsertTrackWithMtime (track : Track) (mtime : Option Int)
  | deleteTrack (filePath : String)
  | purgeMissing (knownPaths : List String)

namespace LibraryOp

variable (json : KindJson) (idOf : String → String) (now : Int)

def exec : LibraryOp → Exec LibraryDb Unit
  | .playlist op => op.exec json now
  | .upsertTrackWithMtime track mtime => Kanade.upsertTrackWithMtime idOf track mtime
  | .deleteTrack filePath => Kanade.deleteTrack filePath
  | .purgeMissing knownPaths => do
    let _ ← Kanade.purgeMissing knownPaths

/-- The database after a call at a time. -/
def step (call : Int × LibraryOp) (db : LibraryDb) : LibraryDb :=
  (call.2.exec json idOf call.1 db).2

end LibraryOp

/-- The tables of the playlists. -/
def LibraryDb.playlistTables (db : LibraryDb) : Table PlaylistRow.id × Table PlaylistTrack.key :=
  (db.playlists, db.playlistTracks)

section Keeps

theorem deleteTrackRows_keeps (keep : String → Bool) :
    Exec.Keeps LibraryDb.playlistTables (deleteTrackRows keep) := by
  refine .bind (.query _) fun _ => .bind (.execute ?_) fun _ => .pure _
  intro db db' h
  cases h
  rfl

theorem purgeMissing_keeps (knownPaths : List String) :
    Exec.Keeps LibraryDb.playlistTables (purgeMissing knownPaths) := by
  unfold purgeMissing
  split
  · exact deleteTrackRows_keeps _
  · split
    · exact .fail _
    · exact deleteTrackRows_keeps _

theorem upsertAlbum_keeps (album : AlbumRow) :
    Exec.Keeps LibraryDb.playlistTables (upsertAlbum album) := by
  refine .execute ?_
  intro db db' h
  unfold LibraryDb.upsertAlbumRow at h
  split at h <;> cases h
  rfl

theorem upsertTrackWithMtime_keeps (idOf : String → String) (track : Track) (mtime : Option Int) :
    Exec.Keeps LibraryDb.playlistTables (upsertTrackWithMtime idOf track mtime) := by
  have hrow : ∀ row, Exec.Keeps LibraryDb.playlistTables
      (Exec.execute fun db => db.upsertTrackRow row) := by
    intro row
    refine .execute ?_
    intro db db' h
    unfold LibraryDb.upsertTrackRow at h
    split at h
    · split at h <;> cases h
      rfl
    · cases h
  unfold upsertTrackWithMtime
  cases parentDir track.filePath with
  | none => exact hrow _
  | some dir => exact .bind (.ignore (upsertAlbum_keeps _)) fun _ => hrow _

end Keeps

theorem LibraryDb.Sound.congr {json : KindJson} {db db' : LibraryDb} (hs : db.Sound json)
    (h : db'.playlistTables = db.playlistTables) : db'.Sound json := by
  obtain ⟨hp, ht⟩ := Prod.mk.inj h
  constructor
  · intro id
    rw [LibraryDb.trackIds, ht]
    exact hs.numbered id
  · rw [hp]
    exact hs.readable

theorem LibraryOp.sound_step {json : KindJson} {db : LibraryDb} (idOf : String → String)
    (hs : db.Sound json) (call : Int × LibraryOp) : (step json idOf call db).Sound json := by
  obtain ⟨now, op⟩ := call
  cases op with
  | playlist op => exact PlaylistOp.sound_step hs (now, op)
  | upsertTrackWithMtime track mtime => exact hs.congr (upsertTrackWithMtime_keeps idOf track mtime db)
  | deleteTrack filePath =>
    have hkeeps : Exec.Keeps LibraryDb.playlistTables (Kanade.deleteTrack filePath) :=
      .bind (deleteTrackRows_keeps _) fun _ => .pure _
    exact hs.congr (hkeeps db)
  | purgeMissing knownPaths =>
    have hkeeps : Exec.Keeps LibraryDb.playlistTables
        (do let _ ← Kanade.purgeMissing knownPaths) := .bind (purgeMissing_keeps _) fun _ => .pure _
    exact hs.congr (hkeeps db)

/-! ## The view -/

/-- `get_track_by_id`. -/
def LibraryDb.getTrackById (db : LibraryDb) (trackId : String) : Option Track :=
  (db.tracks.rows.find? fun t => t.track.id = trackId).map TrackRow.track

theorem PlaylistKind.eq_normal_of_text {kind : PlaylistKind} (h : kind.text = "normal") :
    kind = .normal := by
  cases kind with
  | normal => rfl
  | smart => simp [text] at h

section View

variable {json : KindJson} {evaluateSmartFilter : SmartFilter → Option SmartSort → Option UInt32 →
  LibraryDb → Except String (List Track)} {db db' : LibraryDb} {id : String} {tids : List String}

/-- No two rows have the same id. -/
theorem filter_id_eq_find? {rows : List TrackRow} (hnodup : (rows.map fun row => row.track.id).Nodup)
    (trackId : String) :
    rows.filter (fun t => t.track.id = trackId) =
      (rows.find? fun t => t.track.id = trackId).toList := by
  induction rows with
  | nil => rfl
  | cons row rows ih =>
    obtain ⟨hnot, hnodup⟩ := List.nodup_cons.1 hnodup
    by_cases hid : row.track.id = trackId
    · have hrest : rows.filter (fun t => t.track.id = trackId) = [] := by
        rw [List.filter_eq_nil_iff]
        intro row' hrow' heq
        exact hnot (List.mem_map.2 ⟨row', hrow', (of_decide_eq_true heq).trans hid.symm⟩)
      rw [List.filter_cons_of_pos (by simpa using hid), List.find?_cons_of_pos (by simpa using hid),
        hrest]
      rfl
    · rw [List.filter_cons_of_neg (by simpa using hid), List.find?_cons_of_neg (by simpa using hid),
        ih hnodup]

/-- The view shows the entries that have a track. -/
theorem getNormalPlaylistTracks_eq (db : LibraryDb) (id : String) :
    db.getNormalPlaylistTracks id = (db.trackIds id).filterMap db.getTrackById := by
  rw [LibraryDb.getNormalPlaylistTracks, LibraryDb.trackIds, List.filterMap_map,
    List.filterMap_eq_flatMap_toList]
  congr 1
  funext pt
  rw [filter_id_eq_find? db.trackIds_nodup, Function.comp, LibraryDb.getTrackById]
  cases db.tracks.rows.find? fun t => t.track.id = pt.trackId <;> rfl

theorem getPlaylistTracks_normal (hs : db.Sound json) (h : db.lists id = some (.normal tids)) :
    getPlaylistTracks json evaluateSmartFilter id db = .ok (tids.filterMap db.getTrackById) := by
  obtain ⟨row, hrow, hk, rfl⟩ := LibraryDb.lists_eq_normal_iff.1 h
  obtain ⟨pl, hpl, hkind⟩ := getPlaylist_ok hs hrow
  have hnormal : pl.kind = .normal := PlaylistKind.eq_normal_of_text (hkind.symm.trans hk)
  rw [getPlaylistTracks, hpl, ← getNormalPlaylistTracks_eq]
  simp only [bind, Except.bind, hnormal]

/-- The view after an edit that makes the entries `tids'`. -/
theorem getPlaylistTracks_edited {tids' : List String} (hs : db.Sound json)
    (hnormal : db.lists id = some (.normal tids)) (h : db.Edits json id db')
    (ht : db'.tracks = db.tracks)
    (hl : Table.Numbered PlaylistTrack.trackId db'.playlistTracks id tids') :
    getPlaylistTracks json evaluateSmartFilter id db' = .ok (tids'.filterMap db.getTrackById) := by
  have hlists : db'.lists id = some (.normal tids') := by
    rw [h.lists hs hl, Function.update_self, hnormal]
    rfl
  have hshow : db'.getTrackById = db.getTrackById := by
    funext trackId
    rw [LibraryDb.getTrackById, ht, LibraryDb.getTrackById]
  rw [getPlaylistTracks_normal (h.sound hs hl) hlists, hshow]

end View

section EditsKeepTracks

variable (json : KindJson) (now : Int)

theorem existingPlaylist_keeps (id : String) : Exec.Keeps LibraryDb.tracks (existingPlaylist json id) := by
  refine .bind (.query _) fun pl => ?_
  cases pl with
  | none => exact .fail _
  | some pl => exact .pure _

theorem checkEditable_keeps (id : String) : Exec.Keeps LibraryDb.tracks (checkEditable json id) := by
  refine .bind (existingPlaylist_keeps json id) fun pl => ?_
  split
  · exact .pure _
  · exact .fail _

theorem touchPlaylist_keeps (id : String) : Exec.Keeps LibraryDb.tracks (touchPlaylist now id) :=
  .execute fun _ _ h => by cases h; rfl

theorem deleteTracks_keeps (id : String) : Exec.Keeps LibraryDb.tracks (deleteTracks id) :=
  .execute fun _ _ h => by cases h; rfl

theorem insertTracks_keeps (id : String) (position : Nat → Int) (idx : Nat) (tids : List String) :
    Exec.Keeps LibraryDb.tracks (insertTracks id position idx tids) := by
  induction tids generalizing idx with
  | nil => exact .pure _
  | cons tid tids ih =>
    refine .bind (.execute ?_) fun _ => ih (idx + 1)
    intro db db' h
    unfold LibraryDb.insertPlaylistTrack at h
    split_ifs at h
    cases h
    rfl

theorem removePlaylistTrack_keeps (id : String) (position : UInt64) :
    Exec.Keeps LibraryDb.tracks (removePlaylistTrack json now id position) := by
  refine .bind (checkEditable_keeps json id) fun _ => .transaction (.bind (.query _) fun removed => ?_)
  refine .bind (.execute fun _ _ h => by cases h; rfl) fun _ => ?_
  split
  · refine .bind (.execute ?_) fun _ => touchPlaylist_keeps now id
    intro db db' h
    unfold LibraryDb.closeGap at h
    split at h <;> cases h
    rfl
  · exact .pure _

theorem movePlaylistTrack_keeps (id : String) (src dst : UInt64) :
    Exec.Keeps LibraryDb.tracks (movePlaylistTrack json now id src dst) := by
  unfold movePlaylistTrack
  split
  · exact .pure _
  · refine .bind (checkEditable_keeps json id) fun _ => .transaction (.bind (.query _) fun ids => ?_)
    cases ids[src.toNat]? with
    | none => exact .fail _
    | some item =>
      exact .bind (deleteTracks_keeps id) fun _ =>
        .bind (insertTracks_keeps id _ _ _) fun _ => touchPlaylist_keeps now id

end EditsKeepTracks

/-! ## Positions -/

section Positions

variable (json : KindJson) (evaluateSmartFilter : SmartFilter → Option SmartSort → Option UInt32 →
  LibraryDb → Except String (List Track))

/-- What an edit at positions of the view makes of the view. -/
def PositionsAgree (db : LibraryDb) (id : String) : Prop :=
  ∀ (now : Int) (L : List Track), getPlaylistTracks json evaluateSmartFilter id db = .ok L →
    (∀ position : UInt64, position.toNat < L.length →
      getPlaylistTracks json evaluateSmartFilter id
        (removePlaylistTrack json now id position db).2 = .ok (L.eraseIdx position.toNat)) ∧
    ∀ (src dst : UInt64) (item : Track), L[src.toNat]? = some item → dst.toNat < L.length →
      getPlaylistTracks json evaluateSmartFilter id (movePlaylistTrack json now id src dst db).2 =
        .ok ((L.eraseIdx src.toNat).insertIdx dst.toNat item)

variable {json evaluateSmartFilter} {db : LibraryDb} {id : String} {tids : List String}

theorem getPlaylistTracks_remove (hs : db.Sound json) (h : db.lists id = some (.normal tids))
    (now : Int) (position : UInt64) :
    getPlaylistTracks json evaluateSmartFilter id (removePlaylistTrack json now id position db).2 =
      .ok ((tids.eraseIdx position.toNat).filterMap db.getTrackById) := by
  obtain ⟨db', hexec, he, hl⟩ := removePlaylistTrack_ok hs h position
  have hkeeps := removePlaylistTrack_keeps json now id position db
  rw [hexec] at hkeeps ⊢
  exact getPlaylistTracks_edited hs h he hkeeps hl

theorem getPlaylistTracks_move (hs : db.Sound json) (h : db.lists id = some (.normal tids))
    (now : Int) {src dst : UInt64} (hne : src ≠ dst) {item : String}
    (hitem : tids[src.toNat]? = some item) :
    getPlaylistTracks json evaluateSmartFilter id (movePlaylistTrack json now id src dst db).2 =
      .ok (((tids.eraseIdx src.toNat).insertIdx (min dst.toNat (tids.length - 1)) item).filterMap
        db.getTrackById) := by
  obtain ⟨db', hexec, he, hl⟩ := movePlaylistTrack_ok hs h hne hitem
  have hkeeps := movePlaylistTrack_keeps json now id src dst db
  rw [hexec] at hkeeps ⊢
  exact getPlaylistTracks_edited hs h he hkeeps hl

theorem positionsAgree_iff (hs : db.Sound json) (h : db.lists id = some (.normal tids)) :
    PositionsAgree json evaluateSmartFilter db id ↔ ShownFirst db.getTrackById tids := by
  have hview : getPlaylistTracks json evaluateSmartFilter id db =
      .ok (tids.filterMap db.getTrackById) := getPlaylistTracks_normal hs h
  have hsize : tids.length < 2 ^ 64 := by
    have hle := (hs.numbered_of_lists h).length_le
    have hmax := db.playlistTracks_le
    unfold maxRowid at hmax
    omega
  constructor
  · intro hagree
    refine shownFirst_iff_eraseIdx.2 fun i hi => ?_
    have hi' : i < 2 ^ 64 := hi.trans_le ((List.length_filterMap_le _ _).trans hsize.le)
    have hremove := (hagree 0 _ hview).1 (UInt64.ofNat i) (by rwa [UInt64.toNat_ofNat_of_lt' hi'])
    rw [getPlaylistTracks_remove hs h, UInt64.toNat_ofNat_of_lt' hi'] at hremove
    exact Except.ok.inj hremove
  · intro hfirst now L hL
    obtain rfl := Except.ok.inj (hview.symm.trans hL)
    constructor
    · intro position hposition
      rw [getPlaylistTracks_remove hs h, hfirst.filterMap_eraseIdx hposition]
    · intro src dst item hitem hdst
      by_cases hne : src = dst
      · subst hne
        obtain ⟨hlt, rfl⟩ := List.getElem?_eq_some_iff.1 hitem
        rw [List.insertIdx_eraseIdx_getElem hlt, movePlaylistTrack, if_pos rfl]
        exact hview
      · obtain ⟨tid, htid, hmove⟩ := hfirst.filterMap_move hitem hdst
        rw [getPlaylistTracks_move hs h now hne htid, hmove]

end Positions

/-- In every database that calls on playlists, scans and removals of tracks leave, positions of the view
are the positions of the edits exactly if no entry without a track stands before one with a
track. -/
theorem positions_agree_iff (json : KindJson) (idOf : String → String)
    (evaluateSmartFilter : SmartFilter → Option SmartSort → Option UInt32 →
      LibraryDb → Except String (List Track))
    (calls : List (Int × LibraryOp)) (id : String) (tids : List String)
    (h : (runAll (LibraryOp.step json idOf) calls .empty).lists id = some (.normal tids)) :
    PositionsAgree json evaluateSmartFilter (runAll (LibraryOp.step json idOf) calls .empty) id ↔
      tids.Pairwise fun a b =>
        ((runAll (LibraryOp.step json idOf) calls .empty).getTrackById b).isSome →
        ((runAll (LibraryOp.step json idOf) calls .empty).getTrackById a).isSome := by
  have hs : (runAll (LibraryOp.step json idOf) calls .empty).Sound json :=
    runAll_keeps (I := LibraryDb.Sound json)
      (fun call _ hs => LibraryOp.sound_step idOf hs call) calls (LibraryDb.sound_empty json)
  exact positionsAgree_iff hs h

/-- A playlist of two tracks, the first of which leaves the library. -/
def firstRemoved : List (Int × LibraryOp) :=
  [(0, .playlist (.createPlaylistWithId "p" "Mix" none .normal)),
    (0, .upsertTrackWithMtime { id := "a", filePath := "/m/a" } none),
    (0, .upsertTrackWithMtime { id := "b", filePath := "/m/b" } none),
    (0, .playlist (.setPlaylistTracks "p" ["a", "b"])),
    (0, .deleteTrack "/m/a")]

theorem positions_agree_firstRemoved :
    let db := runAll (LibraryOp.step (kindJson plainText) id) firstRemoved .empty
    db.lists "p" = some (.normal ["a", "b"]) ∧
      (PositionsAgree (kindJson plainText) (fun _ _ _ _ => .ok []) db "p" ↔
        ["a", "b"].Pairwise fun a b =>
          (db.getTrackById b).isSome → (db.getTrackById a).isSome) :=
  have h : (runAll (LibraryOp.step (kindJson plainText) id) firstRemoved .empty).lists "p" =
      some (.normal ["a", "b"]) := by decide +kernel
  ⟨h, positions_agree_iff (kindJson plainText) id _ firstRemoved "p" ["a", "b"] h⟩

/-- The view is `b`; the edit at position 0 takes the entry that nobody is shown. -/
theorem not_positionsAgree_firstRemoved :
    let json := kindJson plainText
    let db := runAll (LibraryOp.step json id) firstRemoved .empty
    let b : Track := { id := "b", filePath := "/m/b", albumId := some "/m" }
    getPlaylistTracks json (fun _ _ _ _ => .ok []) "p" db = .ok [b] ∧
      getPlaylistTracks json (fun _ _ _ _ => .ok []) "p" (removePlaylistTrack json 0 "p" 0 db).2 =
        .ok [b] ∧
      ¬ PositionsAgree json (fun _ _ _ _ => .ok []) db "p" := by
  intro json db b
  have hview : getPlaylistTracks json (fun _ _ _ _ => .ok []) "p" db = .ok [b] := by decide +kernel
  have hedit : getPlaylistTracks json (fun _ _ _ _ => .ok []) "p"
      (removePlaylistTrack json 0 "p" 0 db).2 = .ok [b] := by decide +kernel
  refine ⟨hview, hedit, fun h => ?_⟩
  have hshould := (h 0 [b] hview).1 0 (by decide)
  rw [hedit] at hshould
  exact absurd (Except.ok.inj hshould) (by decide)

end Kanade

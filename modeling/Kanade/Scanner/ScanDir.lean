import Kanade.Concur.Runs
import Kanade.Db.Tracks
import Kanade.Keyed.Refresh

/-!
# Kanade.Scanner.ScanDir

`Scanner::scan_dir` (`kanade-scanner`): the table `tracks` over a sequence of scans of a library that
changes between them.

A snapshot is what `walk_audio_files` finds, with the contents of the files and the cover art of the
directories; `mtime` is in whole seconds there as in the database. What is read from a file is a
parameter. Progress messages are left out.

`rows_eq_rebuild_iff`: a scan leaves the rows of a scan into an empty database exactly if every file
that has a row can still be read.
-/

namespace Kanade

open Keyed Sql Concur

/-- A file with one of the audio extensions. -/
structure AudioFile (γ : Type) where
  filePath : String
  dirPath : String
  mtime : Int
  content : γ

structure Snapshot (γ : Type) where
  files : List (AudioFile γ)
  findCoverArt : String → Option String
  paths_nodup : (files.map AudioFile.filePath).Nodup

structure ScanResult where
  added : Nat
  updated : Nat
  removed : Nat

section Scan

variable {γ : Type} (idOf : String → String) (readTags : String → γ → Except String Track)

/-- `extract_track`: the id and the path are not read from the file. -/
def extractTrack (path : String) (content : γ) : Except String Track :=
  (readTags path content).map fun track =>
    { track with id := idOf path, filePath := path, albumId := none }

/-- The body of the loop over the entries. -/
def scanFile (file : AudioFile γ) (result : ScanResult) : Exec LibraryDb ScanResult := do
  let storedMtime ← Exec.query fun db => .ok (db.getTrackMtime file.filePath)
  if storedMtime = some file.mtime then pure result
  else
    match extractTrack idOf readTags file.filePath file.content with
    | .ok track => do
      upsertTrackWithMtime idOf track (some file.mtime)
      if storedMtime.isNone then pure { result with added := result.added + 1 }
      else pure { result with updated := result.updated + 1 }
    | .error _ => pure result

def scanFiles : List (AudioFile γ) → ScanResult → Exec LibraryDb ScanResult
  | [], result => pure result
  | file :: files, result => do
    let result ← scanFile idOf readTags file result
    scanFiles files result

/-- The loop that sets the artwork of every directory once. -/
def setArtworks (findCoverArt : String → Option String) :
    List String → List (AudioFile γ) → Exec LibraryDb Unit
  | _, [] => pure ()
  | seenDirs, file :: files => do
    if file.dirPath ∉ seenDirs then
      match findCoverArt file.dirPath with
      | some art => Exec.ignore (updateAlbumArtwork file.dirPath (some art))
      | none => pure ()
    setArtworks findCoverArt (file.dirPath :: seenDirs) files

def scanDir (snap : Snapshot γ) : Exec LibraryDb ScanResult := do
  let result ← scanFiles idOf readTags snap.files ⟨0, 0, 0⟩
  let removed ← purgeMissing (snap.files.map AudioFile.filePath)
  setArtworks snap.findCoverArt [] snap.files
  pure { result with removed := removed }

/-- The database after one scan, whether or not it returned `Ok`. -/
def afterScan (snap : Snapshot γ) (db : LibraryDb) : LibraryDb := (scanDir idOf readTags snap db).2

/-- The row of a file; `none` if the file cannot be read. -/
def trackRow (file : AudioFile γ) : Option TrackRow :=
  (extractTrack idOf readTags file.filePath file.content).toOption.map fun track =>
    upsertedRow idOf track (some file.mtime)

/-- The files as a source of rows that are stamped with the modification time. -/
def trackSource : Source (AudioFile γ) String Int TrackRow where
  key := AudioFile.filePath
  stamp := AudioFile.mtime
  make := trackRow idOf readTags
  stampOf := TrackRow.mtime
  stampOf_make := fun file row h => by
    obtain ⟨track, -, rfl⟩ := Option.map_eq_some_iff.1 h
    rfl

/-- A change of a file's content changes its modification time. -/
def MtimeTells (snaps : List (Snapshot γ)) : Prop :=
  ∀ snap ∈ snaps, ∀ file ∈ snap.files, ∀ snap' ∈ snaps, ∀ file' ∈ snap'.files,
    file.filePath = file'.filePath → file.mtime = file'.mtime → file.content = file'.content

/-- Every file that has a row can be read. -/
def Readable (snap : Snapshot γ) (db : LibraryDb) : Prop :=
  ∀ file ∈ snap.files, (db.tracks.get file.filePath).isSome →
    (extractTrack idOf readTags file.filePath file.content).toOption.isSome

end Scan

section Pass

variable {γ : Type} {idOf : String → String} {readTags : String → γ → Except String Track}
  {file : AudioFile γ} {files seen : List (AudioFile γ)} {db db' : LibraryDb}

theorem extractTrack_ok {path : String} {content : γ} {track : Track}
    (h : extractTrack idOf readTags path content = .ok track) :
    track.filePath = path ∧ track.id = idOf path := by
  unfold extractTrack at h
  cases hread : readTags path content with
  | error e =>
    rw [hread] at h
    cases h
  | ok tags =>
    rw [hread] at h
    cases h
    exact ⟨rfl, rfl⟩

theorem trackRow_error {e : String}
    (h : extractTrack idOf readTags file.filePath file.content = .error e) :
    trackRow idOf readTags file = none := by
  rw [trackRow, h]
  rfl

theorem trackRow_ok {track : Track}
    (h : extractTrack idOf readTags file.filePath file.content = .ok track) :
    trackRow idOf readTags file = some (upsertedRow idOf track (some file.mtime)) := by
  rw [trackRow, h]
  rfl

/-- The row of a file has its path and the id of its path. -/
theorem trackRow_eq_some {row : TrackRow} (h : trackRow idOf readTags file = some row) :
    row.filePath = file.filePath ∧ row.track.id = idOf file.filePath := by
  cases hextract : extractTrack idOf readTags file.filePath file.content with
  | error e =>
    rw [trackRow_error hextract] at h
    cases h
  | ok track =>
    rw [trackRow_ok hextract] at h
    cases h
    obtain ⟨hpath, hid⟩ := extractTrack_ok hextract
    exact ⟨hpath, hid⟩

/-- The table after the body of the loop: the file's row is renewed, or nothing is done if the code
fails. -/
theorem scanFile_cases (idOf : String → String) (readTags : String → γ → Except String Track)
    (file : AudioFile γ) (result : ScanResult) (db : LibraryDb) :
    (∃ e, (scanFile idOf readTags file result db).1 = .error e ∧
        (scanFile idOf readTags file result db).2.tracks = db.tracks) ∨
      (∃ r, (scanFile idOf readTags file result db).1 = .ok r) ∧
        (scanFile idOf readTags file result db).2.tracks.get =
          Function.update db.tracks.get file.filePath
            ((trackSource idOf readTags).renew file (db.tracks.get file.filePath)) := by
  have hsame : db.tracks.get =
      Function.update db.tracks.get file.filePath (db.tracks.get file.filePath) :=
    (Function.update_eq_self _ _).symm
  unfold scanFile
  rw [Exec.bind_query]
  by_cases hstored : db.getTrackMtime file.filePath = some file.mtime
  · have hrenew : (trackSource idOf readTags).renew file (db.tracks.get file.filePath) =
        db.tracks.get file.filePath := if_pos hstored
    rw [if_pos hstored, hrenew]
    exact .inr ⟨⟨result, rfl⟩, hsame⟩
  rw [if_neg hstored]
  cases hextract : extractTrack idOf readTags file.filePath file.content with
  | error e =>
    have hmake : (trackSource idOf readTags).make file = none := trackRow_error hextract
    rw [Source.renew_of_make_none _ hmake]
    exact .inr ⟨⟨result, rfl⟩, hsame⟩
  | ok track =>
    have hmake : (trackSource idOf readTags).make file =
        some (upsertedRow idOf track (some file.mtime)) := trackRow_ok hextract
    have hrenew : (trackSource idOf readTags).renew file (db.tracks.get file.filePath) =
        some (upsertedRow idOf track (some file.mtime)) := Source.renew_of_make hstored hmake
    rw [hrenew]
    dsimp only
    rcases hup : upsertTrackWithMtime idOf track (some file.mtime) db with ⟨out, db₁⟩
    have hcases := upsertTrackWithMtime_cases idOf track (some file.mtime) db
    rw [hup] at hcases
    rcases hcases with ⟨e, rfl, htracks⟩ | ⟨rfl, hget⟩
    · rw [Exec.bind_error hup]
      exact .inl ⟨e, rfl, htracks⟩
    · rw [Exec.bind_ok hup]
      rw [(extractTrack_ok hextract).1] at hget
      have hupdate : db₁.tracks.get = Function.update db.tracks.get file.filePath
          (some (upsertedRow idOf track (some file.mtime))) := by
        funext path
        rw [hget, Function.update_apply]
      cases (db.getTrackMtime file.filePath).isNone
      · exact .inr ⟨⟨_, rfl⟩, hupdate⟩
      · exact .inr ⟨⟨_, rfl⟩, hupdate⟩

/-- The loop renews the rows of the files. -/
theorem scanFiles_ok {result result' : ScanResult}
    (h : scanFiles idOf readTags files result db = (.ok result', db')) :
    db'.tracks.get = (trackSource idOf readTags).renewAll files db.tracks.get := by
  induction files generalizing db result with
  | nil =>
    cases h
    rfl
  | cons file files ih =>
    obtain ⟨r, db₁, hfile, hfiles⟩ := Exec.of_bind_ok h
    have hcases := scanFile_cases idOf readTags file result db
    rw [hfile] at hcases
    obtain ⟨e, he, -⟩ | ⟨-, hget⟩ := hcases
    · cases he
    · rw [ih hfiles, hget]
      rfl

theorem purgeMissing_cases (knownPaths : List String) (db : LibraryDb) :
    maxVariableNumber < knownPaths.length ∧
        purgeMissing knownPaths db = (.error "too many SQL variables", db) ∨
      knownPaths.length ≤ maxVariableNumber ∧
        ∃ n, purgeMissing knownPaths db =
          (.ok n, db.restrictTracks fun path => knownPaths.contains path) := by
  unfold purgeMissing
  split
  · rename_i hempty
    rw [List.isEmpty_iff.1 hempty]
    exact .inr ⟨Nat.zero_le _, _, rfl⟩
  split
  · rename_i hlong
    exact .inl ⟨hlong, rfl⟩
  · rename_i hshort
    exact .inr ⟨Nat.not_lt.1 hshort, _, rfl⟩

theorem setArtworks_keeps (findCoverArt : String → Option String) (files : List (AudioFile γ)) :
    ∀ (seenDirs : List String) (db : LibraryDb),
      ∃ db', setArtworks findCoverArt seenDirs files db = (.ok (), db') ∧ db'.tracks = db.tracks := by
  induction files with
  | nil =>
    intro seenDirs db
    exact ⟨db, rfl, rfl⟩
  | cons file files ih =>
    intro seenDirs db
    unfold setArtworks
    split
    · cases findCoverArt file.dirPath with
      | some art =>
        obtain ⟨db', hrun, htracks⟩ := ih (file.dirPath :: seenDirs) (db.setArtwork file.dirPath art)
        exact ⟨db', hrun, htracks⟩
      | none => exact ih (file.dirPath :: seenDirs) db
    · exact ih (file.dirPath :: seenDirs) db

/-- A scan that returns `Ok` leaves the rows of one pass over the files. -/
theorem scanDir_ok {snap : Snapshot γ} {result : ScanResult}
    (h : scanDir idOf readTags snap db = (.ok result, db')) :
    db'.tracks.get = (trackSource idOf readTags).refreshed snap.files db.tracks.get ∧
      snap.files.length ≤ maxVariableNumber := by
  obtain ⟨r, db₁, hfiles, h⟩ := Exec.of_bind_ok h
  obtain ⟨removed, db₂, hpurge, h⟩ := Exec.of_bind_ok h
  obtain ⟨_, db₃, hart, h⟩ := Exec.of_bind_ok h
  cases h
  obtain ⟨db₃, hrun, htracks⟩ := setArtworks_keeps snap.findCoverArt snap.files [] db₂
  rw [hrun] at hart
  cases hart
  obtain ⟨-, herror⟩ | ⟨hlen, n, hok⟩ :=
    purgeMissing_cases (snap.files.map AudioFile.filePath) db₁
  · rw [herror] at hpurge
    cases hpurge
  rw [hok] at hpurge
  cases hpurge
  refine ⟨?_, by simpa using hlen⟩
  funext path
  rw [htracks, ← Source.refreshed_eq_renewAll snap.paths_nodup, ← scanFiles_ok hfiles]
  exact (Table.get_restrict _).trans (by simp [trackSource])

/-! ### Every row was read from a file -/

theorem made_scanFile (hfile : file ∈ seen) (result : ScanResult) :
    Exec.Preserves (fun db => (trackSource idOf readTags).Made seen db.tracks.get)
      (scanFile idOf readTags file result) := by
  intro db hmade
  obtain ⟨e, -, htracks⟩ | ⟨-, hget⟩ :=
    scanFile_cases idOf readTags file result db
  · rw [htracks]
    exact hmade
  · rw [hget]
    exact hmade.renew hfile

theorem made_scanFiles (hfiles : files ⊆ seen) (result : ScanResult) :
    Exec.Preserves (fun db => (trackSource idOf readTags).Made seen db.tracks.get)
      (scanFiles idOf readTags files result) := by
  induction files generalizing result with
  | nil => exact .pure result
  | cons file files ih =>
    obtain ⟨hfile, hfiles⟩ := List.cons_subset.1 hfiles
    exact .bind (made_scanFile hfile result) fun result => ih hfiles result

theorem made_scanDir {snap : Snapshot γ} (hfiles : snap.files ⊆ seen) :
    Exec.Preserves (fun db => (trackSource idOf readTags).Made seen db.tracks.get)
      (scanDir idOf readTags snap) := by
  refine .bind (made_scanFiles hfiles _) fun result => .bind ?_ fun removed => .bind ?_ fun _ => .pure _
  · intro db hmade
    obtain ⟨-, herror⟩ | ⟨-, n, hok⟩ :=
      purgeMissing_cases (snap.files.map AudioFile.filePath) db
    · rw [herror]
      exact hmade
    · rw [hok]
      exact fun path row hrow => hmade path row (Table.get_of_restrict hrow)
  · intro db hmade
    obtain ⟨db', hrun, htracks⟩ := setArtworks_keeps snap.findCoverArt snap.files [] db
    rw [hrun, htracks]
    exact hmade

/-! ### The scan into an empty database -/

/-- Files that can be read have different ids. -/
def DistinctIds (idOf : String → String) (readTags : String → γ → Except String Track)
    (files : List (AudioFile γ)) : Prop :=
  ∀ f ∈ files, ∀ g ∈ files, (trackRow idOf readTags f).isSome → (trackRow idOf readTags g).isSome →
    idOf f.filePath = idOf g.filePath → f.filePath = g.filePath

theorem scanFile_succeeds (hids : db.AlbumIds idOf) (hdistinct : DistinctIds idOf readTags seen)
    (hmade : (trackSource idOf readTags).Made seen db.tracks.get) (hfile : file ∈ seen)
    (result : ScanResult) :
    ∃ r db', scanFile idOf readTags file result db = (.ok r, db') ∧ db'.AlbumIds idOf := by
  unfold scanFile
  rw [Exec.bind_query]
  split
  · exact ⟨result, db, rfl, hids⟩
  cases hextract : extractTrack idOf readTags file.filePath file.content with
  | error e => exact ⟨result, db, rfl, hids⟩
  | ok track =>
    obtain ⟨hpath, hid⟩ := extractTrack_ok hextract
    -- another row with the id of the track would be that of another file that can be read
    have hunique : ∀ r ∈ db.tracks.rows, r.track.id = track.id → r.filePath = track.filePath := by
      intro r hr heq
      obtain ⟨f, hf, -, hmake⟩ := hmade r.filePath r (Table.mem_rows_iff.1 hr)
      have hmake : trackRow idOf readTags f = some r := hmake
      obtain ⟨hrpath, hrid⟩ := trackRow_eq_some hmake
      rw [hrpath, hpath]
      refine hdistinct f hf file hfile (Option.isSome_of_eq_some hmake)
        (Option.isSome_of_eq_some (trackRow_ok hextract)) ?_
      rw [← hrid, heq, hid]
    obtain ⟨db', hup, hids'⟩ := upsertTrackWithMtime_ok hids (some file.mtime) hunique
    dsimp only
    rw [Exec.bind_ok hup]
    split
    · exact ⟨_, db', rfl, hids'⟩
    · exact ⟨_, db', rfl, hids'⟩

theorem scanFiles_succeeds (hids : db.AlbumIds idOf) (hdistinct : DistinctIds idOf readTags seen)
    (hmade : (trackSource idOf readTags).Made seen db.tracks.get) (hfiles : files ⊆ seen)
    (result : ScanResult) : ∃ r db', scanFiles idOf readTags files result db = (.ok r, db') := by
  induction files generalizing db result with
  | nil => exact ⟨result, db, rfl⟩
  | cons file files ih =>
    obtain ⟨hfile, hfiles⟩ := List.cons_subset.1 hfiles
    obtain ⟨r, db₁, hrun, hids₁⟩ := scanFile_succeeds hids hdistinct hmade hfile result
    have hmade₁ := made_scanFile hfile result db hmade
    rw [hrun] at hmade₁
    obtain ⟨r', db', hrest⟩ := ih hids₁ hmade₁ hfiles r
    exact ⟨r', db', (Exec.bind_ok hrun).trans hrest⟩

/-- A scan into an empty database returns `Ok` if the ids of the files are different and the files
are not too many for one statement. -/
theorem scanDir_empty_ok {snap : Snapshot γ} (hdistinct : DistinctIds idOf readTags snap.files)
    (hlen : snap.files.length ≤ maxVariableNumber) :
    ∃ result db', scanDir idOf readTags snap .empty = (.ok result, db') := by
  have hids : LibraryDb.empty.AlbumIds idOf := fun _ h => nomatch h
  have hmade : (trackSource idOf readTags).Made snap.files LibraryDb.empty.tracks.get :=
    fun _ _ h => nomatch h
  obtain ⟨r, db₁, hfiles⟩ :=
    scanFiles_succeeds hids hdistinct hmade (List.Subset.refl _) ⟨0, 0, 0⟩
  obtain ⟨hlong, -⟩ | ⟨-, n, hok⟩ := purgeMissing_cases (snap.files.map AudioFile.filePath) db₁
  · rw [List.length_map] at hlong
    omega
  obtain ⟨db', hart, -⟩ := setArtworks_keeps snap.findCoverArt snap.files []
    (db₁.restrictTracks fun path => (snap.files.map AudioFile.filePath).contains path)
  refine ⟨{ r with removed := n }, db', ?_⟩
  unfold scanDir
  rw [Exec.bind_ok hfiles, Exec.bind_ok hok, Exec.bind_ok hart]
  rfl

/-- Where a scan returned `Ok`, the files that can be read have rows, and so different ids. -/
theorem distinctIds_of_ok {snap : Snapshot γ} {result : ScanResult}
    (hmade : (trackSource idOf readTags).Made seen db'.tracks.get)
    (h : scanDir idOf readTags snap db = (.ok result, db')) :
    DistinctIds idOf readTags snap.files := by
  have hrow : ∀ f ∈ snap.files, (trackRow idOf readTags f).isSome →
      ∃ r ∈ db'.tracks.rows, r.filePath = f.filePath ∧ r.track.id = idOf f.filePath := by
    intro f hf hread
    have hsome : ((trackSource idOf readTags).refreshed snap.files db.tracks.get f.filePath).isSome :=
      Source.isSome_refreshed snap.paths_nodup hf hread
    rw [← (scanDir_ok h).1] at hsome
    obtain ⟨r, hget⟩ := Option.isSome_iff_exists.1 hsome
    obtain ⟨f', -, hpath, hmake⟩ := hmade _ r hget
    have hmake : trackRow idOf readTags f' = some r := hmake
    obtain ⟨hrpath, hrid⟩ := trackRow_eq_some hmake
    have hsame : f'.filePath = f.filePath := hpath
    exact ⟨r, Table.mem_of_get hget, hrpath.trans hsame, hsame ▸ hrid⟩
  intro f hf g hg hfread hgread hid
  obtain ⟨rf, hrf, hfpath, hfid⟩ := hrow f hf hfread
  obtain ⟨rg, hrg, hgpath, hgid⟩ := hrow g hg hgread
  have heq : rf = rg := List.inj_on_of_nodup_map db'.trackIds_nodup hrf hrg (by rw [hfid, hgid, hid])
  rw [← hfpath, heq, hgpath]

/-- What a scan into an empty database leaves. -/
theorem rows_of_rebuild {snap : Snapshot γ} {result : ScanResult}
    (hmade : (trackSource idOf readTags).Made seen db'.tracks.get)
    (h : scanDir idOf readTags snap db = (.ok result, db')) :
    (afterScan idOf readTags snap .empty).tracks.get =
      (trackSource idOf readTags).rebuilt snap.files := by
  obtain ⟨fresh, db₀, hfresh⟩ := scanDir_empty_ok (distinctIds_of_ok hmade h) (scanDir_ok h).2
  rw [afterScan, hfresh, ← Source.refreshed_none]
  exact (scanDir_ok hfresh).1

end Pass

/-! ## Sequences of scans -/

section Runs

variable {γ : Type} {idOf : String → String} {readTags : String → γ → Except String Track}

theorem made_runAll (snaps : List (Snapshot γ)) {seen : List (AudioFile γ)}
    (hseen : ∀ snap ∈ snaps, snap.files ⊆ seen) {db : LibraryDb}
    (hmade : (trackSource idOf readTags).Made seen db.tracks.get) :
    (trackSource idOf readTags).Made seen
      (runAll (afterScan idOf readTags) snaps db).tracks.get := by
  induction snaps generalizing db with
  | nil => exact hmade
  | cons snap snaps ih =>
    have hfiles : snap.files ⊆ seen := hseen snap (by simp)
    exact ih (fun snap' h => hseen snap' (List.mem_cons_of_mem _ h)) (made_scanDir hfiles db hmade)

theorem tells_of_mtimeTells {snaps : List (Snapshot γ)} (h : MtimeTells snaps) :
    (trackSource idOf readTags).Tells (snaps.flatMap Snapshot.files) := by
  intro f hf g hg hpath hmtime
  obtain ⟨snap, hsnap, hf⟩ := List.mem_flatMap.1 hf
  obtain ⟨snap', hsnap', hg⟩ := List.mem_flatMap.1 hg
  have hcontent := h snap hsnap f hf snap' hsnap' g hg hpath hmtime
  have hpath : f.filePath = g.filePath := hpath
  have hmtime : f.mtime = g.mtime := hmtime
  simp only [trackSource, trackRow, hpath, hmtime, hcontent]

/-- After a scan that returns `Ok`, whatever snapshots were scanned before it, the table has the rows of a scan
into an empty database exactly if every file that had a row can be read. -/
theorem rows_eq_rebuild_iff {snaps : List (Snapshot γ)} {snap : Snapshot γ}
    (hmtime : MtimeTells (snaps ++ [snap])) {result : ScanResult} {db' : LibraryDb}
    (hok : scanDir idOf readTags snap (runAll (afterScan idOf readTags) snaps .empty) =
      (.ok result, db')) :
    (∀ row, row ∈ db'.tracks.rows ↔ row ∈ (afterScan idOf readTags snap .empty).tracks.rows) ↔
      Readable idOf readTags snap (runAll (afterScan idOf readTags) snaps .empty) := by
  have hmade : (trackSource idOf readTags).Made ((snaps ++ [snap]).flatMap Snapshot.files)
      (runAll (afterScan idOf readTags) snaps .empty).tracks.get := by
    refine made_runAll snaps (fun s hs f hf => ?_) fun _ _ h => nomatch h
    exact List.mem_flatMap.2 ⟨s, List.mem_append_left _ hs, hf⟩
  have hfiles : snap.files ⊆ (snaps ++ [snap]).flatMap Snapshot.files :=
    fun f hf => List.mem_flatMap.2 ⟨snap, by simp, hf⟩
  have hmade' := made_scanDir hfiles _ hmade
  rw [hok] at hmade'
  rw [Table.rows_iff_get, rows_of_rebuild hmade' hok, (scanDir_ok hok).1,
    Source.refreshed_eq_rebuilt_iff (tells_of_mtimeTells hmtime) hmade hfiles snap.paths_nodup]
  simp only [Readable, trackSource, trackRow, Option.isSome_map]

/-- A library of one file, with a title or without readable tags. -/
def oneFile (mtime : Int) (title : Option String) : Snapshot (Option String) where
  files := [⟨"/music/01.flac", "/music", mtime, title⟩]
  findCoverArt := fun _ => none
  paths_nodup := List.nodup_singleton _

def readTitle (_ : String) : Option String → Except String Track
  | some title => .ok { id := "", filePath := "", title := some title }
  | none => .error "no tags found"

theorem mtimeTells_oneFile {m m' : Int} (h : m ≠ m') (title title' : Option String) :
    MtimeTells [oneFile m title, oneFile m' title'] := by
  intro snap hsnap f hf snap' hsnap' g hg _ hmtime
  simp only [List.mem_cons, List.not_mem_nil, or_false] at hsnap hsnap'
  rcases hsnap with rfl | rfl <;> rcases hsnap' with rfl | rfl <;>
    · cases List.mem_singleton.1 hf
      cases List.mem_singleton.1 hg
      first
        | rfl
        | exact absurd hmtime h
        | exact absurd hmtime.symm h

theorem scanDir_eq_ok (snap : Snapshot (Option String)) (db : LibraryDb)
    (h : (scanDir id readTitle snap db).1.toOption.isSome = true) :
    ∃ result, scanDir id readTitle snap db = (.ok result, afterScan id readTitle snap db) := by
  unfold afterScan
  rcases hrun : scanDir id readTitle snap db with ⟨e | result, db'⟩
  · rw [hrun] at h
    cases h
  · exact ⟨result, rfl⟩

/-- A file that was given other tags. -/
theorem rows_eq_rebuild_iff_retagged :
    Readable id readTitle (oneFile 2 (some "b"))
        (afterScan id readTitle (oneFile 1 (some "a")) .empty) ∧
      ∀ row, row ∈ (afterScan id readTitle (oneFile 2 (some "b"))
          (afterScan id readTitle (oneFile 1 (some "a")) .empty)).tracks.rows ↔
        row ∈ (afterScan id readTitle (oneFile 2 (some "b")) .empty).tracks.rows := by
  obtain ⟨result, hok⟩ := scanDir_eq_ok (oneFile 2 (some "b"))
    (afterScan id readTitle (oneFile 1 (some "a")) .empty) (by decide +kernel)
  have hmtime : MtimeTells ([oneFile 1 (some "a")] ++ [oneFile 2 (some "b")]) :=
    mtimeTells_oneFile (by decide) _ _
  have hread : Readable id readTitle (oneFile 2 (some "b"))
      (afterScan id readTitle (oneFile 1 (some "a")) .empty) := by
    intro f hf _
    cases List.mem_singleton.1 hf
    rfl
  exact ⟨hread, (rows_eq_rebuild_iff hmtime hok).2 hread⟩

/-- A file whose tags became unreadable keeps the row of its former content. -/
theorem unreadable_kept :
    ¬ ∀ (snaps : List (Snapshot (Option String))) (snap : Snapshot (Option String)) result db',
      MtimeTells (snaps ++ [snap]) →
      scanDir id readTitle snap (runAll (afterScan id readTitle) snaps .empty) = (.ok result, db') →
      ∀ row, row ∈ db'.tracks.rows ↔
        row ∈ (afterScan id readTitle snap .empty).tracks.rows := by
  intro h
  obtain ⟨result, hok⟩ := scanDir_eq_ok (oneFile 2 none)
    (afterScan id readTitle (oneFile 1 (some "a")) .empty) (by decide +kernel)
  have hrows := h [oneFile 1 (some "a")] (oneFile 2 none) result _
    (mtimeTells_oneFile (by decide) _ _) hok
  have hkept : (afterScan id readTitle (oneFile 2 none)
      (afterScan id readTitle (oneFile 1 (some "a")) .empty)).tracks.rows ≠ [] := by decide +kernel
  have hempty : (afterScan id readTitle (oneFile 2 none) .empty).tracks.rows = [] := by
    decide +kernel
  obtain ⟨row, hrow⟩ := List.exists_mem_of_ne_nil _ hkept
  rw [hrows row, hempty] at hrow
  cases hrow

end Runs

end Kanade

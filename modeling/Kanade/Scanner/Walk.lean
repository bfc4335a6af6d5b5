import Kanade.Db.Browse
import Kanade.Files.Walk
import Kanade.Scanner.ScanDir
import Kanade.Wire.PlainText

/-!
# Kanade.Scanner.Walk

`walker.rs`: the files that a scan finds in a directory tree, and the cover art it finds beside them.

`Scanned`: what a scan that returns `Ok` leaves of a tree in the database. `library_shows_tree`: after any
calls and scans before it, this is what the albums show.
-/

namespace Kanade

open Files Keyed Sql Concur

def skipDirs : List String :=
  [".git", ".svn", ".hg", "node_modules", "@eaDir", "#recycle", ".stversions", ".Trash-0", ".Trash-1000",
    "$RECYCLE.BIN", "System Volume Information"]

def skipPrefixes : List String := [".", "_"]

def coverFilenames : List String :=
  ["cover.jpg", "cover.jpeg", "cover.png", "folder.jpg", "folder.jpeg", "folder.png", "artwork.jpg",
    "artwork.jpeg", "artwork.png", "album.jpg", "album.jpeg", "album.png", "front.jpg", "front.jpeg",
    "front.png"]

def audioExtensions : List String :=
  ["flac", "mp3", "m4a", "aac", "ogg", "opus", "wav", "aiff", "aif", "wma", "ape", "dsf"]

def shouldSkipDir (dirName : String) : Bool :=
  skipDirs.any (fun skip => dirName == skip) ||
    skipPrefixes.any fun start => start.toList.isPrefixOf dirName.toList && dirName != "."

/-- `modified` is missing if the file system cannot tell, or tells a time before 1970. -/
structure FileOnDisk (γ : Type) where
  modified : Option Int
  content : γ

/-- The music directory, with the entries of each directory in the order in which they are read. -/
structure MusicTree (γ : Type) where
  items : List (String × Item (FileOnDisk γ))
  named : (Item.dir items).WellNamed

section Walk

variable {γ : Type} (toLowercase : String → String) (root : String) (tree : MusicTree γ)

/-- The names that lead to a file are below the root, so there is one at least. -/
def hasExtension (extensions : List String) (names : List String) : Bool :=
  ((names.getLast?.bind extension).map toLowercase).any fun ext => extensions.any fun valid => valid == ext

/-- The files that the walk does not pass over. -/
def audioFiles : List (List String × FileOnDisk γ) :=
  ((Item.dir tree.items).walk (fun name => !shouldSkipDir name) []).filter fun q =>
    hasExtension toLowercase audioExtensions q.1

def audioFileEntry (q : List String × FileOnDisk γ) : AudioFile γ where
  filePath := under root q.1
  dirPath := (parentDir (under root q.1)).getD ""
  mtime := q.2.modified.getD 0
  content := q.2.content

def walkAudioFiles : List (AudioFile γ) := (audioFiles toLowercase tree).map (audioFileEntry root)

/-- The first entry of a directory with a name in the list, else the first in any case. -/
def coverIn (dir : String) (names : List String) : Option String :=
  match names.find? fun name => coverFilenames.contains name with
  | some name => some (joinName dir name)
  | none =>
    (names.find? fun name => coverFilenames.any fun c => toLowercase c == toLowercase name).map (joinName dir)

/-- A directory that is asked for is that of a file. -/
def findCoverArt (dir : String) : Option String :=
  ((audioFiles toLowercase tree).find? fun q => (audioFileEntry root q).dirPath = dir).bind fun q =>
    ((Item.dir tree.items).listing q.1.dropLast).bind (coverIn toLowercase dir)

/-- The file is in the tree, in no directory that is skipped, and has an audio extension. -/
structure MusicTree.Finds (names : List String) (file : FileOnDisk γ) : Prop where
  isAt : Item.At (Item.dir tree.items) names (.file file)
  notSkipped : ∀ name ∈ names.dropLast, shouldSkipDir name = false
  audio : hasExtension toLowercase audioExtensions names = true

end Walk

section Found

variable {γ : Type} {toLowercase : String → String} {root : String} {tree : MusicTree γ}
  {names : List String} {file : FileOnDisk γ}

theorem mem_audioFiles : (names, file) ∈ audioFiles toLowercase tree ↔ tree.Finds toLowercase names file := by
  unfold audioFiles
  rw [List.mem_filter, Item.mem_walk]
  constructor
  · intro ⟨⟨names', hnames, hat, hopen⟩, haudio⟩
    rw [List.nil_append] at hnames
    subst hnames
    refine ⟨hat, fun name hname => ?_, haudio⟩
    simpa using hopen name hname
  · intro ⟨hat, hskip, haudio⟩
    refine ⟨⟨names, (List.nil_append names).symm, hat, fun name hname => ?_⟩, haudio⟩
    simpa using hskip name hname

/-- The walk finds each path once. -/
theorem nodup_walkAudioFiles (toLowercase : String → String) (root : String) (tree : MusicTree γ) :
    ((walkAudioFiles toLowercase root tree).map AudioFile.filePath).Nodup := by
  unfold walkAudioFiles
  rw [List.map_map]
  have hnames : ((audioFiles toLowercase tree).map Prod.fst).Nodup :=
    (List.filter_sublist.map _).nodup (Item.nodup_walk _ [] tree.named)
  have hpaths : (audioFiles toLowercase tree).map (AudioFile.filePath ∘ audioFileEntry root) =
      ((audioFiles toLowercase tree).map Prod.fst).map (under root) := by
    rw [List.map_map]
    rfl
  rw [hpaths]
  refine List.Nodup.map_on ?_ hnames
  intro names hmem names' hmem' heq
  obtain ⟨⟨_, file⟩, hq, rfl⟩ := List.mem_map.1 hmem
  obtain ⟨⟨_, file'⟩, hq', rfl⟩ := List.mem_map.1 hmem'
  exact under_injective (Item.isName_of_at (mem_audioFiles.1 hq).isAt tree.named)
    (Item.isName_of_at (mem_audioFiles.1 hq').isAt tree.named) heq

end Found

/-- What a scan finds in a tree. -/
def MusicTree.snapshot {γ : Type} (toLowercase : String → String) (root : String) (tree : MusicTree γ) :
    Snapshot γ where
  files := walkAudioFiles toLowercase root tree
  findCoverArt := findCoverArt toLowercase root tree
  paths_nodup := nodup_walkAudioFiles toLowercase root tree

/-! ## Cover art in the database -/

section Artwork

variable {γ : Type} (findCoverArt : String → Option String) (files : List (AudioFile γ))

/-- An album after the loop over the directories. -/
def AlbumRow.withCover (dirs : List String) (row : AlbumRow) : AlbumRow :=
  if row.dirPath ∈ dirs then
    (findCoverArt row.dirPath).elim row fun art => { row with artworkPath := some art }
  else row

/-- The directories that the loop still comes to. -/
def dirsLeft (seenDirs : List String) : List String :=
  (files.map AudioFile.dirPath).filter fun dir => dir ∉ seenDirs

theorem withCover_cons {seenDirs : List String} (file : AudioFile γ) (hseen : file.dirPath ∉ seenDirs)
    (row : AlbumRow) :
    row.withCover findCoverArt (dirsLeft (file :: files) seenDirs) =
      ((findCoverArt file.dirPath).elim row fun art => row.withArtwork file.dirPath (some art)).withCover
        findCoverArt (dirsLeft files (file.dirPath :: seenDirs)) := by
  generalize hdir : file.dirPath = dir at hseen
  have hleft : ∀ d, d ∈ dirsLeft (file :: files) seenDirs ↔ d = dir ∨ d ∈ dirsLeft files (dir :: seenDirs) := by
    intro d
    simp only [dirsLeft, List.mem_filter, List.map_cons, List.mem_cons, hdir, decide_eq_true_eq, not_or]
    constructor
    · intro h
      by_cases hd : d = dir
      · exact .inl hd
      · exact .inr ⟨h.1.resolve_left hd, hd, h.2⟩
    · intro h
      rcases h with rfl | ⟨hmem, -, hnew⟩
      · exact ⟨.inl rfl, hseen⟩
      · exact ⟨.inr hmem, hnew⟩
  have hgone : dir ∉ dirsLeft files (dir :: seenDirs) := by
    intro h
    simpa using (List.mem_filter.1 h).2
  by_cases hrow : row.dirPath = dir
  · -- the album of the directory: nothing comes to it later
    cases hart : findCoverArt dir with
    | none =>
      rw [Option.elim_none, AlbumRow.withCover, AlbumRow.withCover, hrow, hart, if_pos ((hleft dir).2 (.inl rfl)),
        if_neg hgone]
      rfl
    | some art =>
      have hset : row.withArtwork dir (some art) = { row with artworkPath := some art } := if_pos hrow
      rw [Option.elim_some, hset, AlbumRow.withCover, AlbumRow.withCover, hrow, hart,
        if_pos ((hleft dir).2 (.inl rfl)), if_neg hgone]
      rfl
  · have hsame : ((findCoverArt dir).elim row fun art => row.withArtwork dir (some art)) = row := by
      cases findCoverArt dir with
      | none => rfl
      | some art => exact if_neg hrow
    rw [hsame]
    unfold AlbumRow.withCover
    by_cases hmem : row.dirPath ∈ dirsLeft files (dir :: seenDirs)
    · rw [if_pos hmem, if_pos ((hleft _).2 (.inr hmem))]
    · rw [if_neg hmem, if_neg fun h => ((hleft _).1 h).elim hrow hmem]

theorem dirsLeft_cons_seen {seenDirs : List String} {file : AudioFile γ} (hseen : file.dirPath ∈ seenDirs) :
    dirsLeft (file :: files) seenDirs = dirsLeft files (file.dirPath :: seenDirs) := by
  unfold dirsLeft
  rw [List.map_cons, List.filter_cons_of_neg (by simpa using hseen)]
  refine List.filter_congr fun d _ => ?_
  rw [Bool.eq_iff_iff, decide_eq_true_iff, decide_eq_true_iff, List.mem_cons, not_or]
  constructor
  · intro h
    exact ⟨fun heq => h (heq ▸ hseen), h⟩
  · exact And.right

theorem setArtworks_albums :
    ∀ (seenDirs : List String) (db : LibraryDb),
      (setArtworks findCoverArt seenDirs files db).2.albums.rows =
        db.albums.rows.map (AlbumRow.withCover findCoverArt (dirsLeft files seenDirs)) := by
  induction files with
  | nil =>
    intro seenDirs db
    have hid : AlbumRow.withCover findCoverArt (dirsLeft ([] : List (AudioFile γ)) seenDirs) = id := by
      funext row
      exact if_neg List.not_mem_nil
    rw [hid, List.map_id]
    rfl
  | cons file files ih =>
    intro seenDirs db
    unfold setArtworks
    split
    · rename_i hseen
      have hcons := withCover_cons findCoverArt files file hseen
      cases hart : findCoverArt file.dirPath with
      | some art =>
        simp only [hart, Option.elim_some] at hcons
        have hrest := ih (file.dirPath :: seenDirs) (db.setArtwork file.dirPath (some art))
        have hrows : (db.setArtwork file.dirPath (some art)).albums.rows =
            db.albums.rows.map (AlbumRow.withArtwork file.dirPath (some art)) := rfl
        refine hrest.trans ?_
        rw [hrows, List.map_map]
        exact List.map_congr_left fun row _ => (hcons row).symm
      | none =>
        simp only [hart, Option.elim_none] at hcons
        refine (ih (file.dirPath :: seenDirs) db).trans ?_
        exact List.map_congr_left fun row _ => (hcons row).symm
    · rename_i hseen
      rw [dirsLeft_cons_seen files (not_not.1 hseen)]
      exact ih (file.dirPath :: seenDirs) db

end Artwork

/-! ## Scans -/

section Scans

variable {γ : Type} {idOf : String → String} {readTags : String → γ → Except String Track}
  {toLowercase : String → String} {root : String} {tree : MusicTree γ} {db db' : LibraryDb}

/-- What a scan leaves of a tree in the database. -/
structure Scanned (idOf : String → String) (readTags : String → γ → Except String Track)
    (toLowercase : String → String) (root : String) (tree : MusicTree γ) (db' : LibraryDb) : Prop where
  /-- Every row is that of a file that was found. -/
  rows : ∀ row ∈ db'.tracks.rows, ∃ names file, tree.Finds toLowercase names file ∧
    row.filePath = under root names
  /-- Every file that was found and can be read has a row, as of its modification time. -/
  found : ∀ names file, tree.Finds toLowercase names file →
    (extractTrack idOf readTags (under root names) file.content).toOption.isSome →
    ∃ row ∈ db'.tracks.rows, row.filePath = under root names ∧ row.mtime = some (file.modified.getD 0)
  /-- The album of each directory with a file and cover art has it. -/
  artwork : ∀ names file, tree.Finds toLowercase names file → ∀ album ∈ db'.albums.rows,
    album.dirPath = (audioFileEntry root (names, file)).dirPath →
    ∀ art ∈ findCoverArt toLowercase root tree album.dirPath, album.artworkPath = some art

theorem mem_walkAudioFiles {entry : AudioFile γ} : entry ∈ walkAudioFiles toLowercase root tree ↔
    ∃ names file, tree.Finds toLowercase names file ∧ audioFileEntry root (names, file) = entry := by
  unfold walkAudioFiles
  rw [List.mem_map]
  constructor
  · intro ⟨⟨names, file⟩, hmem, hentry⟩
    exact ⟨names, file, mem_audioFiles.1 hmem, hentry⟩
  · intro ⟨names, file, hfinds, hentry⟩
    exact ⟨(names, file), mem_audioFiles.2 hfinds, hentry⟩

theorem dirPath_withCover (cover : String → Option String) (dirs : List String) (row : AlbumRow) :
    (row.withCover cover dirs).dirPath = row.dirPath := by
  unfold AlbumRow.withCover
  split
  · cases cover row.dirPath <;> rfl
  · rfl

/-- The albums after a scan that returns `Ok`. -/
theorem scanDir_albums {snap : Snapshot γ} {result : ScanResult}
    (h : scanDir idOf readTags snap db = (.ok result, db')) :
    ∃ db₂ : LibraryDb, db'.albums.rows =
      db₂.albums.rows.map (AlbumRow.withCover snap.findCoverArt (dirsLeft snap.files [])) := by
  obtain ⟨r, db₁, hfiles, h⟩ := Exec.of_bind_ok h
  obtain ⟨removed, db₂, hpurge, h⟩ := Exec.of_bind_ok h
  obtain ⟨_, db₃, hart, h⟩ := Exec.of_bind_ok h
  cases h
  refine ⟨db₂, ?_⟩
  rw [← setArtworks_albums, hart]

theorem scanned_of_ok {result : ScanResult}
    (h : scanDir idOf readTags (tree.snapshot toLowercase root) db = (.ok result, db')) :
    Scanned idOf readTags toLowercase root tree db' := by
  have hrows := (scanDir_ok h).1
  have hnodup := nodup_walkAudioFiles toLowercase root tree
  refine ⟨?_, ?_, ?_⟩
  · intro row hrow
    have hget := Table.mem_rows_iff.1 hrow
    rw [hrows] at hget
    obtain ⟨entry, hfind, -⟩ := Option.bind_eq_some_iff.1 hget
    obtain ⟨hmem, hkey⟩ := Source.find_eq_some hfind
    obtain ⟨names, file, hfinds, rfl⟩ := mem_walkAudioFiles.1 hmem
    exact ⟨names, file, hfinds, hkey.symm⟩
  · intro names file hfinds hread
    have hmem : audioFileEntry root (names, file) ∈ walkAudioFiles toLowercase root tree :=
      mem_walkAudioFiles.2 ⟨names, file, hfinds, rfl⟩
    have hfind : (trackSource idOf readTags).find (walkAudioFiles toLowercase root tree) (under root names) =
        some (audioFileEntry root (names, file)) := Source.find_of_mem hnodup hmem
    have hget : db'.tracks.get (under root names) =
        (trackSource idOf readTags).renew (audioFileEntry root (names, file))
          (db.tracks.get (under root names)) := by
      rw [hrows]
      exact congrArg (Option.bind · _) hfind
    have hmake : ((trackSource idOf readTags).make (audioFileEntry root (names, file))).isSome := by
      unfold trackSource trackRow
      dsimp only
      rw [Option.isSome_map]
      exact hread
    obtain ⟨row, hrow⟩ := Option.isSome_iff_exists.1 (Source.isSome_renew (db.tracks.get (under root names)) hmake)
    rw [hrow] at hget
    refine ⟨row, Table.mem_of_get hget, Table.key_of_get hget, ?_⟩
    exact Source.stampOf_renew hrow hmake
  · intro names file hfinds album halbum hdir art hart
    obtain ⟨db₂, halbums⟩ := scanDir_albums h
    rw [halbums] at halbum
    obtain ⟨row, -, rfl⟩ := List.mem_map.1 halbum
    rw [dirPath_withCover] at hdir hart
    have hleft : row.dirPath ∈ dirsLeft (walkAudioFiles toLowercase root tree) [] := by
      rw [dirsLeft, List.mem_filter, hdir]
      refine ⟨List.mem_map_of_mem (mem_walkAudioFiles.2 ⟨names, file, hfinds, rfl⟩), ?_⟩
      exact decide_eq_true List.not_mem_nil
    have hcover : (tree.snapshot toLowercase root).findCoverArt row.dirPath = some art := hart
    unfold AlbumRow.withCover
    rw [hcover]
    exact congrArg AlbumRow.artworkPath (if_pos hleft)

end Scans

/-! ## The library over calls and scans -/

/-- What happens to the database; a scan finds the music directory as it is then. -/
inductive LibraryEvent (γ : Type) where
  | call (now : Int) (op : CatalogOp)
  | scan (tree : MusicTree γ)

section Library

variable {γ : Type} (json : KindJson) (idOf : String → String) (readTags : String → γ → Except String Track)
  (toLowercase : String → String) (root : String)

def LibraryEvent.step (event : LibraryEvent γ) (db : LibraryDb) : LibraryDb :=
  match event with
  | .call now op => CatalogOp.step json idOf (now, op) db
  | .scan tree => afterScan idOf readTags (tree.snapshot toLowercase root) db

variable {idOf readTags toLowercase root}

theorem scanFiles_filed (files : List (AudioFile γ)) (result : ScanResult) :
    Exec.Preserves (LibraryDb.Filed idOf) (scanFiles idOf readTags files result) := by
  induction files generalizing result with
  | nil => exact .pure result
  | cons file files ih =>
    refine .bind ?_ ih
    refine .bind (.query _) fun storedMtime => ?_
    split
    · exact .pure result
    · split
      · refine .bind (upsertTrackWithMtime_filed _ _) fun _ => ?_
        split
        · exact .pure _
        · exact .pure _
      · exact .pure result

theorem setArtworks_filed (findCoverArt : String → Option String) (files : List (AudioFile γ))
    (seenDirs : List String) :
    Exec.Preserves (LibraryDb.Filed idOf) (setArtworks findCoverArt seenDirs files) := by
  induction files generalizing seenDirs with
  | nil => exact .pure ()
  | cons file files ih =>
    have hrest := ih (file.dirPath :: seenDirs)
    unfold setArtworks
    split
    · split
      · exact .bind (.ignore (updateAlbumArtwork_filed _ _)) fun _ => hrest
      · exact .bind (.pure ()) fun _ => hrest
    · exact .bind (.pure ()) fun _ => hrest

theorem scanDir_filed (snap : Snapshot γ) :
    Exec.Preserves (LibraryDb.Filed idOf) (scanDir idOf readTags snap) :=
  .bind (scanFiles_filed _ _) fun _ => .bind (purgeMissing_filed _) fun _ =>
    .bind (setArtworks_filed _ _ _) fun _ => .pure _

theorem filed_library (events : List (LibraryEvent γ)) :
    (runAll (LibraryEvent.step json idOf readTags toLowercase root) events .empty).Filed idOf := by
  refine runAll_keeps (I := LibraryDb.Filed idOf) ?_ events filed_empty
  intro event db h
  cases event with
  | call now op => exact CatalogOp.exec_filed now op db h
  | scan tree => exact scanDir_filed _ db h

/-- What the albums show of a tree. -/
structure ShowsTree (idOf : String → String) (readTags : String → γ → Except String Track)
    (toLowercase : String → String) (root : String) (tree : MusicTree γ) (group : GroupRow) (db : LibraryDb) :
    Prop where
  /-- Every track that an album lists is that of a file that was found, which is in the album's directory. -/
  listed : ∀ album ∈ db.getAllAlbums group, ∀ t ∈ db.getTracksByAlbumId album.id, ∃ names file,
    tree.Finds toLowercase names file ∧ t.filePath = under root names ∧
    (parentDir t.filePath).map idOf = some (idOf album.dirPath)
  /-- Every file that was found, can be read and has a directory is listed in the album of the directory. -/
  shown : ∀ names file, tree.Finds toLowercase names file →
    (extractTrack idOf readTags (under root names) file.content).toOption.isSome →
    ∀ dir ∈ parentDir (under root names), ∃ album ∈ db.getAllAlbums group, idOf album.dirPath = idOf dir ∧
      ∃ t ∈ db.getTracksByAlbumId album.id, t.filePath = under root names
  /-- The album of a directory with a file that was found shows the cover art that is in the directory. -/
  covers : ∀ names file, tree.Finds toLowercase names file → ∀ album ∈ db.getAllAlbums group,
    parentDir (under root names) = some album.dirPath →
    ∀ art ∈ findCoverArt toLowercase root tree album.dirPath, album.artworkPath = some art

/-- Whatever calls and scans there were before, what the albums show after a scan is the tree. -/
theorem library_shows_tree (group : GroupRow) (events : List (LibraryEvent γ)) (tree : MusicTree γ)
    {result : ScanResult} {db : LibraryDb}
    (hok : scanDir idOf readTags (tree.snapshot toLowercase root)
      (runAll (LibraryEvent.step json idOf readTags toLowercase root) events .empty) = (.ok result, db)) :
    Scanned idOf readTags toLowercase root tree db ∧
      ShowsTree idOf readTags toLowercase root tree group db := by
  have hscanned := scanned_of_ok hok
  have hfiled : db.Filed idOf := by
    have h : (scanDir idOf readTags (tree.snapshot toLowercase root)
        (runAll (LibraryEvent.step json idOf readTags toLowercase root) events .empty)).2.Filed idOf :=
      scanDir_filed _ _ (filed_library json events)
    rwa [hok] at h
  refine ⟨hscanned, ?_, ?_, ?_⟩
  · intro album halbum t ht
    obtain ⟨row, hrow, rfl, hdir⟩ := (mem_getTracksByAlbumId hfiled).1 ht
    obtain ⟨names, file, hfinds, hpath⟩ := hscanned.rows row hrow
    obtain ⟨a, ha, rfl⟩ := mem_getAllAlbums.1 halbum
    exact ⟨names, file, hfinds, hpath, hdir.trans (congrArg some (hfiled.albums a ha))⟩
  · intro names file hfinds hread dir hdir
    obtain ⟨row, hrow, hpath, -⟩ := hscanned.found names file hfinds hread
    obtain ⟨album, halbum, hin, hid⟩ := exists_album hfiled group hrow ((congrArg parentDir hpath).trans hdir)
    exact ⟨album, halbum, hid, row.track, mem_tracksWhere.2 ⟨row, hrow, hin, rfl⟩, hpath⟩
  · intro names file hfinds album halbum hdir art hart
    obtain ⟨a, ha, rfl⟩ := mem_getAllAlbums.1 halbum
    refine hscanned.artwork names file hfinds a ha ?_ art hart
    exact (congrArg (Option.getD · "") hdir).symm

/-- An album with its cover, and a directory that is skipped. -/
def albumTree (modified : Int) (title : String) : MusicTree (Option String) where
  items := [("album", .dir [("01.FLAC", .file ⟨some modified, some title⟩), ("cover.jpg", .file ⟨none, none⟩)]),
    (".trash", .dir [("02.flac", .file ⟨some 1, some "c"⟩)])]
  named := by simp [Item.WellNamed, Item.WellNamedItems, IsName]

def firstRow : GroupRow where
  pick := List.head?
  pick_mem := fun _ _ h => List.mem_of_mem_head? h
  pick_isSome := fun _ h => List.isSome_head?.2 h

/-- The database after a track was retagged, a file was deleted and both were scanned. -/
def retagged : LibraryDb :=
  (scanDir id readTitle ((albumTree 2 "b").snapshot String.toLower "/music")
    (runAll (LibraryEvent.step (kindJson plainText) id readTitle String.toLower "/music")
      [.scan (albumTree 1 "a"), .call 5 (.library (.upsertTrackWithMtime { id := "x", filePath := "/music/x" } none))]
      .empty)).2

theorem library_shows_tree_retagged :
    Scanned id readTitle String.toLower "/music" (albumTree 2 "b") retagged ∧
      ShowsTree id readTitle String.toLower "/music" (albumTree 2 "b") firstRow retagged := by
  obtain ⟨result, hok⟩ := scanDir_eq_ok ((albumTree 2 "b").snapshot String.toLower "/music")
    (runAll (LibraryEvent.step (kindJson plainText) id readTitle String.toLower "/music")
      [.scan (albumTree 1 "a"), .call 5 (.library (.upsertTrackWithMtime { id := "x", filePath := "/music/x" } none))]
      .empty) (by decide +kernel)
  exact library_shows_tree (kindJson plainText) firstRow _ _ hok

end Library

end Kanade

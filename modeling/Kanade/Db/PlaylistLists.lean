import Mathlib.Logic.Function.Basic
import Kanade.Concur.Runs
import Kanade.Db.Playlists

/-!
# Kanade.Db.PlaylistLists

Playlists as lists of track ids. `LibraryDb.lists` reads them off the tables, `PlaylistOp.onListing`
is what an operation means for the playlist it names, and `playlists_refine_lists` says that the
statements do that and nothing else, in every database a run of operations can leave.

The proofs keep to lookups: an operation is a sequence of statements each of which `Edits` one
playlist, and the entries are `Numbered` again when the last one is done.
-/

namespace Kanade

open Keyed Sql Concur

/-- A playlist, as far as its entries go. -/
inductive Listing where
  | normal (tracks : List String)
  | smart
deriving DecidableEq, Repr

/-- The entries are now `tracks`. -/
def Listing.withTracks (tracks : List String) : Listing → Listing
  | .normal _ => .normal tracks
  | .smart => .smart

/-- The playlists of the database. -/
def LibraryDb.lists (db : LibraryDb) (id : String) : Option Listing :=
  (db.playlists.get id).map fun row =>
    if row.kind = "normal" then .normal (db.trackIds id) else .smart

/-- The calls on playlists. -/
inductive PlaylistOp where
  | createPlaylistWithId (id name : String) (description : Option String) (kind : PlaylistKind)
  | updatePlaylist (id : String) (name : Option String) (description : Option (Option String))
      (kind : Option PlaylistKind)
  | deletePlaylist (id : String)
  | setPlaylistTracks (playlistId : String) (trackIds : List String)
  | appendPlaylistTracks (playlistId : String) (trackIds : List String)
  | removePlaylistTrack (playlistId : String) (position : UInt64)
  | movePlaylistTrack (playlistId : String) (src dst : UInt64)

namespace PlaylistOp

/-- The call, made at `now`. -/
def exec (json : KindJson) (now : Int) : PlaylistOp → Exec LibraryDb Unit
  | .createPlaylistWithId id name description kind => do
    let _ ← Kanade.createPlaylistWithId json now id name description kind
  | .updatePlaylist id name description kind =>
    Kanade.updatePlaylist json now id name description kind
  | .deletePlaylist id => Kanade.deletePlaylist id
  | .setPlaylistTracks id trackIds => Kanade.setPlaylistTracks json now id trackIds
  | .appendPlaylistTracks id trackIds => Kanade.appendPlaylistTracks json now id trackIds
  | .removePlaylistTrack id position => Kanade.removePlaylistTrack json now id position
  | .movePlaylistTrack id src dst => Kanade.movePlaylistTrack json now id src dst

/-- The playlist that is named. -/
def target : PlaylistOp → String
  | .createPlaylistWithId id .. | .updatePlaylist id .. | .deletePlaylist id => id
  | .setPlaylistTracks id _ | .appendPlaylistTracks id _ | .removePlaylistTrack id _
  | .movePlaylistTrack id .. => id

/-- What becomes of the playlist that is named; `none` if the call is an error. -/
def onListing : PlaylistOp → Option Listing → Option (Option Listing)
  | .createPlaylistWithId _ _ _ kind, none =>
    some (some (if kind.isNormal then .normal [] else .smart))
  | .createPlaylistWithId .., some _ => none
  | .updatePlaylist .., none => none
  | .updatePlaylist _ _ _ kind, some (.normal l) =>
    if kind.all PlaylistKind.isNormal then some (some (.normal l)) else none
  | .updatePlaylist _ _ _ kind, some .smart =>
    if kind.any PlaylistKind.isNormal then none else some (some .smart)
  | .deletePlaylist _, _ => some none
  | .setPlaylistTracks _ trackIds, some (.normal _) => some (some (.normal trackIds))
  | .setPlaylistTracks .., _ => none
  | .appendPlaylistTracks _ trackIds, some (.normal l) => some (some (.normal (l ++ trackIds)))
  | .appendPlaylistTracks _ trackIds, e => if trackIds.isEmpty then some e else none
  | .removePlaylistTrack _ position, some (.normal l) =>
    some (some (.normal (l.eraseIdx position.toNat)))
  | .removePlaylistTrack .., _ => none
  | .movePlaylistTrack _ src dst, e =>
    if src = dst then some e
    else
      match e with
      | some (.normal l) => (l[src.toNat]?).map fun item =>
          some (.normal ((l.eraseIdx src.toNat).insertIdx (min dst.toNat (l.length - 1)) item))
      | _ => none

/-- The table of entries has room for those that are added. -/
def Fits (db : LibraryDb) : PlaylistOp → Prop
  | .setPlaylistTracks id trackIds =>
    (db.playlistTracks.restrict fun k => k.1 ≠ id).rows.length + trackIds.length ≤ maxRowid
  | .appendPlaylistTracks _ trackIds =>
    db.playlistTracks.rows.length + trackIds.length ≤ maxRowid
  | _ => True

end PlaylistOp

/-- The columns of a kind. -/
def PlaylistRow.Readable (json : KindJson) (row : PlaylistRow) : Prop :=
  ∃ kind : PlaylistKind, row.kind = kind.text ∧ row.smartFilter = smartFilterJson json kind

/-- What the operations keep: the entries of every playlist are numbered without gaps, and the kind of a
playlist can be read back. -/
structure LibraryDb.Sound (json : KindJson) (db : LibraryDb) : Prop where
  numbered : ∀ id, Table.Numbered PlaylistTrack.trackId db.playlistTracks id (db.trackIds id)
  readable : ∀ id, ∀ row ∈ db.playlists.get id, row.Readable json

/-- A change to the entries of one playlist and to its row, which stays of its kind. -/
structure LibraryDb.Edits (json : KindJson) (id : String) (db db' : LibraryDb) : Prop where
  kinds : ∀ id', (db'.playlists.get id').map PlaylistRow.kind =
    (db.playlists.get id').map PlaylistRow.kind
  readable : ∀ id', (∀ row ∈ db.playlists.get id', row.Readable json) →
    ∀ row ∈ db'.playlists.get id', row.Readable json
  playlists : ∀ id', id' ≠ id → db'.playlists.get id' = db.playlists.get id'
  playlistTracks : ∀ id', id' ≠ id → ∀ i, db'.playlistTracks.get (id', i) = db.playlistTracks.get (id', i)

section Edits

variable {json : KindJson} {db db' db'' : LibraryDb} {id : String} {l l' : List String}

theorem LibraryDb.Edits.refl (id : String) (db : LibraryDb) : db.Edits json id db where
  kinds _ := rfl
  readable _ h := h
  playlists _ _ := rfl
  playlistTracks _ _ _ := rfl

theorem LibraryDb.Edits.trans (h : db.Edits json id db') (h' : db'.Edits json id db'') : db.Edits json id db'' where
  kinds id' := (h'.kinds id').trans (h.kinds id')
  readable id' hread := h'.readable id' (h.readable id' hread)
  playlists id' hne := (h'.playlists id' hne).trans (h.playlists id' hne)
  playlistTracks id' hne i := (h'.playlistTracks id' hne i).trans (h.playlistTracks id' hne i)

theorem trackIds_of_numbered (h : Table.Numbered PlaylistTrack.trackId db.playlistTracks id l) :
    db.trackIds id = l := h.ordered_map

/-- The other playlists of an edited database. -/
theorem LibraryDb.Edits.trackIds (h : db.Edits json id db') (hs : db.Sound json) {id' : String}
    (hne : id' ≠ id) : db'.trackIds id' = db.trackIds id' :=
  trackIds_of_numbered ((hs.numbered id').congr (h.playlistTracks id' hne))

theorem LibraryDb.Edits.sound (h : db.Edits json id db') (hs : db.Sound json)
    (hl : Table.Numbered PlaylistTrack.trackId db'.playlistTracks id l) : db'.Sound json where
  numbered id' := by
    by_cases hne : id' = id
    · subst hne
      rw [trackIds_of_numbered hl]
      exact hl
    · rw [h.trackIds hs hne]
      exact (hs.numbered id').congr (h.playlistTracks id' hne)
  readable id' := h.readable id' (hs.readable id')

/-- The playlists after an edit. -/
theorem LibraryDb.Edits.lists (h : db.Edits json id db') (hs : db.Sound json)
    (hl : Table.Numbered PlaylistTrack.trackId db'.playlistTracks id l) :
    db'.lists = Function.update db.lists id ((db.lists id).map (Listing.withTracks l)) := by
  funext id'
  by_cases hne : id' = id
  · subst hne
    have hkinds := h.kinds id'
    rw [Function.update_self, LibraryDb.lists, LibraryDb.lists, Option.map_map]
    cases hrow : db.playlists.get id' with
    | none =>
      rw [hrow] at hkinds
      rw [Option.map_eq_none_iff.1 hkinds]
      rfl
    | some row =>
      rw [hrow] at hkinds
      obtain ⟨row', hrow', hkind⟩ := Option.map_eq_some_iff.1 hkinds
      rw [hrow', Option.map_some, Option.map_some, hkind, trackIds_of_numbered hl, Function.comp]
      split <;> rfl
  · rw [Function.update_of_ne hne, LibraryDb.lists, LibraryDb.lists, h.playlists id' hne,
      h.trackIds hs hne]

end Edits

/-! ## The statements -/

section Statements

variable {json : KindJson} {db : LibraryDb} {id : String} {l tids : List String}

/-- A change to the rows of `playlist_tracks` of one playlist. -/
structure LibraryDb.EditsTracks (id : String) (db db' : LibraryDb) : Prop where
  playlists : db'.playlists = db.playlists
  playlistTracks : ∀ id', id' ≠ id → ∀ i, db'.playlistTracks.get (id', i) = db.playlistTracks.get (id', i)

theorem LibraryDb.EditsTracks.refl (id : String) (db : LibraryDb) : db.EditsTracks id db where
  playlists := rfl
  playlistTracks _ _ _ := rfl

theorem LibraryDb.EditsTracks.trans {db' db'' : LibraryDb} (h : db.EditsTracks id db')
    (h' : db'.EditsTracks id db'') : db.EditsTracks id db'' where
  playlists := h'.playlists.trans h.playlists
  playlistTracks id' hne i := (h'.playlistTracks id' hne i).trans (h.playlistTracks id' hne i)

theorem LibraryDb.EditsTracks.edits {db' : LibraryDb} (h : db.EditsTracks id db') :
    db.Edits json id db' where
  kinds _ := by rw [h.playlists]
  readable _ := by rw [h.playlists]; exact fun h => h
  playlists _ _ := by rw [h.playlists]
  playlistTracks := h.playlistTracks

theorem deleteTracks_edits (db : LibraryDb) (id : String) :
    db.EditsTracks id (db.restrictPlaylistTracks fun k => k.1 ≠ id) ∧
      Table.Numbered PlaylistTrack.trackId
        (db.restrictPlaylistTracks fun k => k.1 ≠ id).playlistTracks id [] := by
  constructor
  · refine ⟨rfl, fun id' hne i => ?_⟩
    show (db.playlistTracks.restrict _).get _ = _
    rw [Table.get_restrict, if_pos (by simpa using hne)]
  · refine Table.Numbered.nil_of_get fun i => ?_
    show (db.playlistTracks.restrict _).get _ = _
    rw [Table.get_restrict, if_neg (by simp)]

/-- A change to a row of `playlists` that keeps its kind. -/
theorem updatePlaylistRow_edits {change : PlaylistRow → PlaylistRow}
    {hid : ∀ row, (change row).id = row.id}
    (hkind : ∀ row ∈ db.playlists.get id,
      (change row).kind = row.kind ∧ (row.Readable json → (change row).Readable json)) :
    db.Edits json id (db.updatePlaylistRow id change hid) where
  kinds id' := by
    show ((db.playlists.modify id change hid).get id').map _ = _
    rw [Table.get_modify]
    split
    · rename_i heq
      subst heq
      cases hrow : db.playlists.get id' with
      | none => rfl
      | some row => exact congrArg some (hkind row hrow).1
    · rfl
  readable id' hread := by
    show ∀ row ∈ (db.playlists.modify id change hid).get id', _
    rw [Table.get_modify]
    split
    · rename_i heq
      subst heq
      intro row' hrow'
      obtain ⟨row, hrow, rfl⟩ := Option.map_eq_some_iff.1 hrow'
      exact (hkind row hrow).2 (hread row hrow)
    · exact hread
  playlists id' hne := by
    show (db.playlists.modify id change hid).get id' = _
    rw [Table.get_modify, if_neg hne]
  playlistTracks _ _ _ := rfl

theorem touchPlaylist_edits (json : KindJson) (now : Int) (db : LibraryDb) (id : String) :
    ∃ db', touchPlaylist now id db = (.ok (), db') ∧ db.Edits json id db' ∧
      db'.playlistTracks = db.playlistTracks :=
  ⟨_, rfl, updatePlaylistRow_edits fun _ _ => ⟨rfl, fun h => h⟩, rfl⟩

theorem asI64_natCast {n : Nat} (h : n ≤ maxRowid) : asI64 n = n := by
  unfold maxRowid at h
  exact Database.asI64_of_lt (by omega)

/-- A position from 2^63 on is a negative number in the statements. -/
theorem asI64_of_nonneg {n : Nat} (hn : n < 2 ^ 64) (h : 0 ≤ asI64 n) : asI64 n = n := by
  unfold asI64 at h ⊢
  rw [Int.bmod_def] at h ⊢
  omega

/-- One entry more, if there is room. -/
theorem insertPlaylistTrack_ok (hid : db.playlists.get id ≠ none)
    (hl : Table.Numbered PlaylistTrack.trackId db.playlistTracks id l)
    (hroom : db.playlistTracks.rows.length < maxRowid) (tid : String) :
    ∃ db', db.insertPlaylistTrack ⟨id, l.length, tid⟩ = .ok db' ∧ db.EditsTracks id db' ∧
      db'.playlistTracks.rows.length = db.playlistTracks.rows.length + 1 ∧
      Table.Numbered PlaylistTrack.trackId db'.playlistTracks id (l ++ [tid]) := by
  have hnew : (⟨id, l.length, tid⟩ : PlaylistTrack).key ∉
      db.playlistTracks.rows.map PlaylistTrack.key := by
    rw [← Table.get_eq_none_iff, ← Option.map_eq_none_iff (f := PlaylistTrack.trackId)]
    exact (hl l.length).trans (by simp)
  have hthere : ¬ id ∉ db.playlists.rows.map PlaylistRow.id := fun h => hid (Table.get_eq_none_iff.2 h)
  unfold LibraryDb.insertPlaylistTrack
  rw [dif_neg (not_le.2 hroom), dif_neg hnew, dif_neg hthere]
  refine ⟨_, rfl, ⟨rfl, fun id' hne i => ?_⟩, by simp [Table.insert],
    hl.concat hnew rfl⟩
  show (db.playlistTracks.insert _ hnew).get _ = _
  rw [Table.get_insert, if_neg]
  intro heq
  exact hne (congrArg Prod.fst heq)

theorem insertPlaylistTrack_full (hfull : maxRowid ≤ db.playlistTracks.rows.length)
    (row : PlaylistTrack) : db.insertPlaylistTrack row = .error "database or disk is full" := by
  rw [LibraryDb.insertPlaylistTrack, dif_pos hfull]

/-- The positions that a loop writes: those after the entries that are there. -/
def Continues (position : Nat → Int) (idx len : Nat) : Prop :=
  ∀ k, len + k ≤ maxRowid → position (idx + k) = (len : Int) + k

theorem Continues.succ {position : Nat → Int} {idx len : Nat} (h : Continues position idx len) :
    Continues position (idx + 1) (len + 1) := by
  intro k hk
  have := h (k + 1) (by omega)
  rw [show idx + 1 + k = idx + (k + 1) by omega, this]
  push_cast
  omega

theorem insertTracks_ok {position : Nat → Int} :
    ∀ {idx : Nat} {l : List String} {db : LibraryDb},
      db.playlists.get id ≠ none → Continues position idx l.length →
      Table.Numbered PlaylistTrack.trackId db.playlistTracks id l →
      db.playlistTracks.rows.length + tids.length ≤ maxRowid →
      ∃ db', insertTracks id position idx tids db = (.ok (), db') ∧ db.EditsTracks id db' ∧
        Table.Numbered PlaylistTrack.trackId db'.playlistTracks id (l ++ tids) := by
  induction tids with
  | nil =>
    intro idx l db _ _ hl _
    exact ⟨db, rfl, .refl id db, by simpa using hl⟩
  | cons tid tids ih =>
    intro idx l db hid hpos hl hfits
    rw [List.length_cons] at hfits
    have hposition : position idx = l.length := by
      have := hl.length_le
      simpa using hpos 0 (by omega)
    obtain ⟨db₁, hins, he, hlen, hl₁⟩ := insertPlaylistTrack_ok hid hl (by omega) tid
    obtain ⟨db', hrest, he', hl'⟩ := ih (he.playlists ▸ hid) (by simpa using hpos.succ) hl₁ (by omega)
    refine ⟨db', ?_, he.trans he', by simpa using hl'⟩
    show ((Exec.execute fun db => db.insertPlaylistTrack
      { playlistId := id, position := position idx, trackId := tid }) >>= fun _ =>
        insertTracks id position (idx + 1) tids) db = _
    rw [hposition, Exec.bind_ok (Exec.execute_ok hins)]
    exact hrest

theorem insertTracks_error {position : Nat → Int} :
    ∀ {idx : Nat} {l : List String} {db : LibraryDb},
      db.playlists.get id ≠ none → Continues position idx l.length →
      Table.Numbered PlaylistTrack.trackId db.playlistTracks id l →
      ¬ db.playlistTracks.rows.length + tids.length ≤ maxRowid →
      ∃ e db', insertTracks id position idx tids db = (.error e, db') := by
  induction tids with
  | nil =>
    intro idx l db _ _ _ hfull
    exact absurd db.playlistTracks_le hfull
  | cons tid tids ih =>
    intro idx l db hid hpos hl hfull
    rw [List.length_cons] at hfull
    by_cases hroom : db.playlistTracks.rows.length < maxRowid
    · have hposition : position idx = l.length := by
        have := hl.length_le
        simpa using hpos 0 (by omega)
      obtain ⟨db₁, hins, he, hlen, hl₁⟩ := insertPlaylistTrack_ok hid hl hroom tid
      obtain ⟨e, db', hrest⟩ := ih (he.playlists ▸ hid) (by simpa using hpos.succ) hl₁ (by omega)
      refine ⟨e, db', ?_⟩
      rw [insertTracks, hposition, Exec.bind_ok (Exec.execute_ok hins)]
      exact hrest
    · refine ⟨"database or disk is full", db, ?_⟩
      exact Exec.bind_error (Exec.execute_error (insertPlaylistTrack_full (not_lt.1 hroom) _))

/-- The loop behind a transaction's other statements. -/
theorem insertTracks_touch (json : KindJson) (now : Int) {position : Nat → Int} (hid : db.playlists.get id ≠ none)
    (hpos : Continues position 0 l.length)
    (hl : Table.Numbered PlaylistTrack.trackId db.playlistTracks id l)
    (hfits : db.playlistTracks.rows.length + tids.length ≤ maxRowid) :
    ∃ db', (do insertTracks id position 0 tids; touchPlaylist now id) db = (.ok (), db') ∧
      db.Edits json id db' ∧ Table.Numbered PlaylistTrack.trackId db'.playlistTracks id (l ++ tids) := by
  obtain ⟨db₁, hins, he, hl₁⟩ := insertTracks_ok hid hpos hl hfits
  obtain ⟨db', htouch, he', hrows⟩ := touchPlaylist_edits json now db₁ id
  refine ⟨db', ?_, he.edits.trans he', hrows ▸ hl₁⟩
  rw [Exec.bind_ok hins, htouch]

theorem nextPosition_of_numbered
    (hl : Table.Numbered PlaylistTrack.trackId db.playlistTracks id l) :
    db.nextPosition id = l.length := by
  have hpositions : (db.playlistTracks.ordered id).map PlaylistTrack.position =
      (List.range l.length).map Int.ofNat := hl.positions
  rw [LibraryDb.nextPosition, hpositions]
  cases l with
  | nil => rfl
  | cons tid l =>
    have hmax : ((List.range (l.length + 1)).map Int.ofNat).max? = some (l.length : Int) := by
      rw [List.max?_eq_some_iff]
      constructor
      · exact List.mem_map.2 ⟨l.length, by simp, rfl⟩
      · intro x hx
        obtain ⟨n, hn, rfl⟩ := List.mem_map.1 hx
        rw [List.mem_range] at hn
        exact Int.ofNat_le.2 (by omega)
    rw [List.length_cons, hmax]
    rfl

/-- The two statements of a removal, when the entry is there. -/
theorem closeGap_ok (hl : Table.Numbered PlaylistTrack.trackId db.playlistTracks id l) (n : Nat) :
    ∃ db', (db.restrictPlaylistTracks fun k => k ≠ (id, (n : Int))).closeGap id n = .ok db' ∧
      db.EditsTracks id db' ∧
      Table.Numbered PlaylistTrack.trackId db'.playlistTracks id (l.eraseIdx n) := by
  have hkey : ∀ row, (PlaylistTrack.closeGap id n row).key = downAfter id n row.key := by
    intro row
    by_cases hbehind : row.playlistId = id ∧ (n : Int) < row.position
    · rw [PlaylistTrack.closeGap, if_pos hbehind]
      exact (if_pos hbehind).symm
    · rw [PlaylistTrack.closeGap, if_neg hbehind]
      exact (if_neg hbehind).symm
  have hval : ∀ row, (PlaylistTrack.closeGap id n row).trackId = row.trackId := by
    intro row
    unfold PlaylistTrack.closeGap
    split <;> rfl
  have hfree : (db.restrictPlaylistTracks fun k => k ≠ (id, (n : Int))).playlistTracks.get (id, n) =
      none := by
    simp [LibraryDb.restrictPlaylistTracks, Table.get_restrict]
  have hnodup := Table.nodup_closed hkey hfree
  unfold LibraryDb.closeGap
  rw [dif_pos hnodup]
  refine ⟨_, rfl, ⟨rfl, fun id' hne i => ?_⟩, hl.erase hkey hval⟩
  show (Table.update _ _ hnodup).get _ = _
  have hsame : upFrom id (n : Int) (id', i) = (id', i) := if_neg fun h => hne h.1
  have hkeep : decide ((id', i) ≠ (id, (n : Int))) = true := by simp [hne]
  have hrow : ∀ row, db.playlistTracks.get (id', i) = some row →
      PlaylistTrack.closeGap id n row = row := by
    intro row hrow
    have hid' : row.playlistId = id' := congrArg Prod.fst (Table.key_of_get hrow)
    exact if_neg fun h => hne (hid'.symm.trans h.1)
  rw [Table.get_closed hkey hfree, hsame, LibraryDb.restrictPlaylistTracks, Table.get_restrict,
    if_pos hkeep]
  cases hget : db.playlistTracks.get (id', i) with
  | none => rfl
  | some row => rw [Option.map_some, hrow row hget]

end Statements

/-! ## The check of the playlist -/

section Check

variable {json : KindJson} {db : LibraryDb} {id : String} {l : List String}

theorem rowToPlaylist_ok {row : PlaylistRow} {kind : PlaylistKind} (hk : row.kind = kind.text)
    (hf : row.smartFilter = smartFilterJson json kind) :
    ∃ pl, LibraryDb.rowToPlaylist json row = .ok pl ∧ pl.kind = kind := by
  unfold LibraryDb.rowToPlaylist
  cases kind with
  | normal =>
    rw [hk]
    exact ⟨_, rfl, rfl⟩
  | smart filter limit sortBy =>
    rw [hk, hf]
    simp only [PlaylistKind.text, smartFilterJson, json.decode_encode]
    exact ⟨_, rfl, rfl⟩

theorem PlaylistKind.isNormal_iff (kind : PlaylistKind) : kind.isNormal = true ↔ kind.text = "normal" := by
  cases kind with
  | normal => decide
  | smart => simp [PlaylistKind.isNormal, PlaylistKind.text]

theorem PlaylistKind.isNormal_eq_iff (kind kind' : PlaylistKind) :
    kind.isNormal = kind'.isNormal ↔ kind.text = kind'.text := by
  cases kind <;> cases kind' <;> simp [isNormal, text]

theorem changesKind_iff {kind : Option PlaylistKind} {existing : PlaylistKind} :
    (kind.any fun newKind => newKind.isNormal ≠ existing.isNormal) = true ↔
      ∃ newKind ∈ kind, newKind.text ≠ existing.text := by
  cases kind with
  | none => simp
  | some newKind => simp [PlaylistKind.isNormal_eq_iff]

/-- What is read of a playlist that is there. -/
theorem getPlaylist_ok (hs : db.Sound json) {row : PlaylistRow} (hrow : db.playlists.get id = some row) :
    ∃ pl, db.getPlaylist json id = .ok (some pl) ∧ row.kind = pl.kind.text := by
  obtain ⟨kind, hk, hf⟩ := hs.readable id row hrow
  obtain ⟨pl, hpl, rfl⟩ := rowToPlaylist_ok hk hf
  refine ⟨pl, ?_, hk⟩
  rw [LibraryDb.getPlaylist, hrow]
  show (LibraryDb.rowToPlaylist json row).map some = _
  rw [hpl]
  rfl

theorem existingPlaylist_ok (hs : db.Sound json) {row : PlaylistRow}
    (hrow : db.playlists.get id = some row) :
    ∃ pl, existingPlaylist json id db = (.ok pl, db) ∧ row.kind = pl.kind.text := by
  obtain ⟨pl, hpl, hk⟩ := getPlaylist_ok hs hrow
  refine ⟨pl, ?_, hk⟩
  have hquery : Exec.query (fun db => db.getPlaylist json id) db = (.ok (some pl), db) := by
    rw [Exec.query_apply, hpl]
  exact Exec.bind_ok hquery

theorem existingPlaylist_error (json : KindJson) (hrow : db.playlists.get id = none) :
    ∃ e, existingPlaylist json id db = (.error e, db) := by
  have hquery : Exec.query (fun db => db.getPlaylist json id) db = (.ok none, db) := by
    rw [Exec.query_apply, LibraryDb.getPlaylist, hrow]
  exact ⟨_, Exec.bind_ok hquery⟩

theorem LibraryDb.lists_eq_normal_iff :
    db.lists id = some (.normal l) ↔
      ∃ row, db.playlists.get id = some row ∧ row.kind = "normal" ∧ db.trackIds id = l := by
  rw [LibraryDb.lists, Option.map_eq_some_iff]
  constructor
  · rintro ⟨row, hrow, hif⟩
    by_cases hk : row.kind = "normal"
    · rw [if_pos hk] at hif
      exact ⟨row, hrow, hk, Listing.normal.inj hif⟩
    · rw [if_neg hk] at hif
      cases hif
  · rintro ⟨row, hrow, hk, rfl⟩
    exact ⟨row, hrow, if_pos hk⟩

theorem checkEditable_ok (hs : db.Sound json) (h : db.lists id = some (.normal l)) :
    checkEditable json id db = (.ok (), db) := by
  obtain ⟨row, hrow, hk, -⟩ := LibraryDb.lists_eq_normal_iff.1 h
  obtain ⟨pl, hpl, hkind⟩ := existingPlaylist_ok hs hrow
  have hnormal : pl.kind.isNormal = true := (PlaylistKind.isNormal_iff _).2 (hkind ▸ hk)
  rw [checkEditable, Exec.bind_ok hpl, if_pos hnormal, Exec.pure_apply]

theorem checkEditable_error (hs : db.Sound json) (h : ∀ l, db.lists id ≠ some (.normal l)) :
    ∃ e, checkEditable json id db = (.error e, db) := by
  cases hrow : db.playlists.get id with
  | none =>
    obtain ⟨e, he⟩ := existingPlaylist_error json hrow
    exact ⟨e, Exec.bind_error he⟩
  | some row =>
    obtain ⟨pl, hpl, hkind⟩ := existingPlaylist_ok hs hrow
    have hsmart : ¬ pl.kind.isNormal = true := fun hn =>
      h _ (LibraryDb.lists_eq_normal_iff.2 ⟨row, hrow, hkind.trans ((PlaylistKind.isNormal_iff _).1 hn), rfl⟩)
    exact ⟨_, by rw [checkEditable, Exec.bind_ok hpl, if_neg hsmart, Exec.fail_apply]⟩

end Check

/-! ## The operations -/

section Operations

variable {json : KindJson} {now : Int} {db : LibraryDb} {id : String} {l tids : List String}

theorem LibraryDb.Sound.numbered_of_lists (hs : db.Sound json) (h : db.lists id = some (.normal l)) :
    Table.Numbered PlaylistTrack.trackId db.playlistTracks id l := by
  obtain ⟨row, hrow, hk, rfl⟩ := LibraryDb.lists_eq_normal_iff.1 h
  exact hs.numbered id

theorem LibraryDb.get_of_lists (h : db.lists id = some (.normal l)) : db.playlists.get id ≠ none := by
  obtain ⟨row, hrow, -⟩ := LibraryDb.lists_eq_normal_iff.1 h
  rw [hrow]
  exact Option.some_ne_none row

theorem continues_asI64 : Continues asI64 0 0 := by
  intro k hk
  rw [asI64_natCast (by omega)]
  simp

/-- The statements that write all entries of a playlist anew. -/
theorem rewriteTracks_ok (json : KindJson) (now : Int) (tids : List String)
    (hid : db.playlists.get id ≠ none)
    (hfits : (db.playlistTracks.restrict fun k => k.1 ≠ id).rows.length + tids.length ≤ maxRowid) :
    ∃ db', (do deleteTracks id; insertTracks id asI64 0 tids; touchPlaylist now id) db =
        (.ok (), db') ∧
      db.Edits json id db' ∧ Table.Numbered PlaylistTrack.trackId db'.playlistTracks id tids := by
  obtain ⟨hedits, hnil⟩ := deleteTracks_edits db id
  obtain ⟨db', hrest, he', hl'⟩ :=
    insertTracks_touch json now (hedits.playlists ▸ hid) continues_asI64 hnil hfits
  exact ⟨db', hrest, hedits.edits.trans he', hl'⟩

theorem rewriteTracks_error (now : Int) (hid : db.playlists.get id ≠ none)
    (hfull : ¬ (db.playlistTracks.restrict fun k => k.1 ≠ id).rows.length + tids.length ≤ maxRowid) :
    ∃ e db', (do deleteTracks id; insertTracks id asI64 0 tids; touchPlaylist now id) db =
      (.error e, db') := by
  obtain ⟨hedits, hnil⟩ := deleteTracks_edits db id
  obtain ⟨e, db', hins⟩ := insertTracks_error (hedits.playlists ▸ hid) continues_asI64 hnil hfull
  exact ⟨e, db', Exec.bind_error (x := insertTracks id asI64 0 tids) hins⟩

theorem setPlaylistTracks_ok (hs : db.Sound json) (h : db.lists id = some (.normal l))
    (hfits : (PlaylistOp.setPlaylistTracks id tids).Fits db) :
    ∃ db', setPlaylistTracks json now id tids db = (.ok (), db') ∧ db.Edits json id db' ∧
      Table.Numbered PlaylistTrack.trackId db'.playlistTracks id tids := by
  obtain ⟨db', hrun, he, hl⟩ := rewriteTracks_ok json now tids (LibraryDb.get_of_lists h) hfits
  refine ⟨db', ?_, he, hl⟩
  rw [setPlaylistTracks, Exec.bind_ok (checkEditable_ok hs h)]
  exact Exec.transaction_ok hrun

theorem setPlaylistTracks_full (hs : db.Sound json) (h : db.lists id = some (.normal l))
    (hfull : ¬ (PlaylistOp.setPlaylistTracks id tids).Fits db) :
    ∃ e, setPlaylistTracks json now id tids db = (.error e, db) := by
  obtain ⟨e, db', hrun⟩ := rewriteTracks_error now (LibraryDb.get_of_lists h) hfull
  refine ⟨e, ?_⟩
  rw [setPlaylistTracks, Exec.bind_ok (checkEditable_ok hs h)]
  exact Exec.transaction_error hrun

theorem continues_append (l : List String) :
    Continues (fun offset => (l.length : Int) + asI64 offset) 0 l.length := by
  intro k hk
  show (l.length : Int) + asI64 (0 + k) = _
  rw [Nat.zero_add, asI64_natCast (by omega)]

theorem appendPlaylistTracks_ok (hs : db.Sound json) (h : db.lists id = some (.normal l))
    (hne : tids ≠ []) (hfits : (PlaylistOp.appendPlaylistTracks id tids).Fits db) :
    ∃ db', appendPlaylistTracks json now id tids db = (.ok (), db') ∧ db.Edits json id db' ∧
      Table.Numbered PlaylistTrack.trackId db'.playlistTracks id (l ++ tids) := by
  have hl := hs.numbered_of_lists h
  obtain ⟨db', hrun, he, hl'⟩ := insertTracks_touch json now (LibraryDb.get_of_lists h)
    (continues_append l) hl hfits
  refine ⟨db', ?_, he, hl'⟩
  rw [appendPlaylistTracks, if_neg (by simpa using hne), Exec.bind_ok (checkEditable_ok hs h)]
  refine Exec.transaction_ok ?_
  rw [Exec.bind_query, nextPosition_of_numbered hl]
  exact hrun

theorem appendPlaylistTracks_full (hs : db.Sound json) (h : db.lists id = some (.normal l))
    (hne : tids ≠ []) (hfull : ¬ (PlaylistOp.appendPlaylistTracks id tids).Fits db) :
    ∃ e, appendPlaylistTracks json now id tids db = (.error e, db) := by
  have hl := hs.numbered_of_lists h
  obtain ⟨e, db', hins⟩ :=
    insertTracks_error (LibraryDb.get_of_lists h) (continues_append l) hl hfull
  refine ⟨e, ?_⟩
  rw [appendPlaylistTracks, if_neg (by simpa using hne), Exec.bind_ok (checkEditable_ok hs h)]
  refine Exec.transaction_error (?_ : _ = (Except.error e, db'))
  rw [Exec.bind_query, nextPosition_of_numbered hl]
  exact Exec.bind_error hins

theorem removePlaylistTrack_ok (hs : db.Sound json) (h : db.lists id = some (.normal l))
    (position : UInt64) :
    ∃ db', removePlaylistTrack json now id position db = (.ok (), db') ∧ db.Edits json id db' ∧
      Table.Numbered PlaylistTrack.trackId db'.playlistTracks id (l.eraseIdx position.toNat) := by
  have hl := hs.numbered_of_lists h
  rw [removePlaylistTrack, Exec.bind_ok (checkEditable_ok hs h)]
  cases hrow : db.playlistTracks.get (id, asI64 position.toNat) with
  | none =>
    have hpast : l.length ≤ position.toNat := by
      by_contra hlt
      have hle := hl.length_le
      have hmax := db.playlistTracks_le
      obtain ⟨row, hget, -⟩ := hl.get_lt (not_le.1 hlt)
      rw [asI64_natCast (by omega), hget] at hrow
      cases hrow
    have hsame : ∀ k, (db.restrictPlaylistTracks fun k =>
        k ≠ (id, asI64 position.toNat)).playlistTracks.get k = db.playlistTracks.get k := by
      intro k
      rw [LibraryDb.restrictPlaylistTracks, Table.get_restrict]
      split
      · rfl
      · rename_i hdeleted
        have hk : k = (id, asI64 position.toNat) := by simpa using hdeleted
        rw [hk, hrow]
    refine ⟨db.restrictPlaylistTracks fun k => k ≠ (id, asI64 position.toNat),
      Exec.transaction_ok ?_, LibraryDb.EditsTracks.edits ⟨rfl, fun id' _ i => hsame _⟩, ?_⟩
    · rw [Exec.bind_query, hrow, Exec.bind_execute]
      rfl
    · rw [List.eraseIdx_of_length_le hpast]
      exact hl.congr fun i => hsame _
  | some row =>
    have hasI64 : asI64 position.toNat = position.toNat :=
      asI64_of_nonneg position.toNat_lt (hl.of_get hrow).1
    rw [hasI64] at hrow ⊢
    obtain ⟨db₁, hclose, he, hl₁⟩ := closeGap_ok hl position.toNat
    obtain ⟨db', htouch, he', hrows⟩ := touchPlaylist_edits json now db₁ id
    refine ⟨db', Exec.transaction_ok ?_, he.edits.trans he', hrows ▸ hl₁⟩
    rw [Exec.bind_query, hrow, Exec.bind_execute]
    exact (Exec.bind_ok (Exec.execute_ok hclose)).trans htouch

theorem movePlaylistTrack_ok (hs : db.Sound json) (h : db.lists id = some (.normal l))
    {src dst : UInt64} (hne : src ≠ dst) {item : String} (hitem : l[src.toNat]? = some item) :
    ∃ db', movePlaylistTrack json now id src dst db = (.ok (), db') ∧ db.Edits json id db' ∧
      Table.Numbered PlaylistTrack.trackId db'.playlistTracks id
        ((l.eraseIdx src.toNat).insertIdx (min dst.toNat (l.length - 1)) item) := by
  have hl := hs.numbered_of_lists h
  obtain ⟨hlt, -⟩ := List.getElem?_eq_some_iff.1 hitem
  have hlen : ((l.eraseIdx src.toNat).insertIdx (min dst.toNat (l.length - 1)) item).length =
      l.length := by
    rw [List.length_insertIdx, List.length_eraseIdx_of_lt hlt]
    split <;> omega
  obtain ⟨db', hrun, he, hl'⟩ := rewriteTracks_ok json now
    ((l.eraseIdx src.toNat).insertIdx (min dst.toNat (l.length - 1)) item)
    (LibraryDb.get_of_lists h) (by rw [hlen, hl.length_restrict]; exact db.playlistTracks_le)
  refine ⟨db', ?_, he, hl'⟩
  rw [movePlaylistTrack, if_neg hne, Exec.bind_ok (checkEditable_ok hs h)]
  refine Exec.transaction_ok ?_
  rw [Exec.bind_query, trackIds_of_numbered hl, hitem]
  exact hrun

theorem movePlaylistTrack_error (hs : db.Sound json) (h : db.lists id = some (.normal l))
    {src dst : UInt64} (hne : src ≠ dst) (hitem : l[src.toNat]? = none) :
    ∃ e, movePlaylistTrack json now id src dst db = (.error e, db) := by
  refine ⟨"from index " ++ toString src ++ " out of range", ?_⟩
  rw [movePlaylistTrack, if_neg hne, Exec.bind_ok (checkEditable_ok hs h)]
  refine Exec.transaction_error (?_ : _ = (Except.error _, db))
  rw [Exec.bind_query, trackIds_of_numbered (hs.numbered_of_lists h), hitem]
  rfl

theorem setPlaylistTracks_error (hs : db.Sound json) (h : ∀ l, db.lists id ≠ some (.normal l)) :
    ∃ e, setPlaylistTracks json now id tids db = (.error e, db) := by
  obtain ⟨e, he⟩ := checkEditable_error hs h
  exact ⟨e, Exec.bind_error he⟩

theorem appendPlaylistTracks_error (hs : db.Sound json) (h : ∀ l, db.lists id ≠ some (.normal l))
    (hne : tids ≠ []) : ∃ e, appendPlaylistTracks json now id tids db = (.error e, db) := by
  obtain ⟨e, he⟩ := checkEditable_error hs h
  refine ⟨e, ?_⟩
  rw [appendPlaylistTracks, if_neg (by simpa using hne)]
  exact Exec.bind_error he

theorem removePlaylistTrack_error (hs : db.Sound json) (h : ∀ l, db.lists id ≠ some (.normal l))
    (position : UInt64) : ∃ e, removePlaylistTrack json now id position db = (.error e, db) := by
  obtain ⟨e, he⟩ := checkEditable_error hs h
  exact ⟨e, Exec.bind_error he⟩

theorem movePlaylistTrack_smart (hs : db.Sound json) (h : ∀ l, db.lists id ≠ some (.normal l))
    {src dst : UInt64} (hne : src ≠ dst) :
    ∃ e, movePlaylistTrack json now id src dst db = (.error e, db) := by
  obtain ⟨e, he⟩ := checkEditable_error hs h
  refine ⟨e, ?_⟩
  rw [movePlaylistTrack, if_neg hne]
  exact Exec.bind_error he

end Operations

/-! ## Refinement -/

namespace PlaylistOp

/-- What a call does that succeeds. -/
structure Done (json : KindJson) (op : PlaylistOp) (db db' : LibraryDb) (entry : Option Listing) :
    Prop where
  sound : db'.Sound json
  lists : db'.lists = Function.update db.lists op.target entry
  playlists : ∀ id, id ≠ op.target → db'.playlists.get id = db.playlists.get id
  playlistTracks : ∀ id, id ≠ op.target → ∀ i,
    db'.playlistTracks.get (id, i) = db.playlistTracks.get (id, i)

variable {json : KindJson} {now : Int} {db db' : LibraryDb} {op : PlaylistOp} {l : List String}

theorem Done.of_edits (hs : db.Sound json) (h : db.Edits json op.target db')
    (hl : Table.Numbered PlaylistTrack.trackId db'.playlistTracks op.target l) :
    op.Done json db db' ((db.lists op.target).map (Listing.withTracks l)) where
  sound := h.sound hs hl
  lists := h.lists hs hl
  playlists := h.playlists
  playlistTracks := h.playlistTracks

theorem Done.refl (hs : db.Sound json) : op.Done json db db (db.lists op.target) where
  sound := hs
  lists := (Function.update_eq_self _ _).symm
  playlists _ _ := rfl
  playlistTracks _ _ _ := rfl

/-- A playlist that is not there has no entries. -/
theorem numbered_of_get_none {id : String} (h : db.playlists.get id = none) :
    Table.Numbered PlaylistTrack.trackId db.playlistTracks id [] := by
  refine Table.Numbered.nil_of_get fun i => ?_
  cases hrow : db.playlistTracks.get (id, i) with
  | none => rfl
  | some row =>
    obtain ⟨hmem, hkey⟩ := Table.get_eq_some_iff.1 hrow
    have hid : row.playlistId = id := congrArg Prod.fst hkey
    exact absurd (hid ▸ db.playlists_of_tracks row hmem) (Table.get_eq_none_iff.1 h)

theorem create_ok (hs : db.Sound json) {id : String} (h : db.playlists.get id = none) (name : String)
    (description : Option String) (kind : PlaylistKind) :
    ∃ db', exec json now (.createPlaylistWithId id name description kind) db = (.ok (), db') ∧
      Done json (.createPlaylistWithId id name description kind) db db'
        (some (if kind.isNormal then .normal [] else .smart)) := by
  let row : PlaylistRow :=
    { id := id
      name := name
      description := description
      kind := kind.text
      smartFilter := smartFilterJson json kind
      createdAt := now
      updatedAt := now }
  have hnew : row.id ∉ db.playlists.rows.map PlaylistRow.id := Table.get_eq_none_iff.1 h
  obtain ⟨db', hins, hplaylists, htracks⟩ : ∃ db', db.insertPlaylist row = .ok db' ∧
      db'.playlists = db.playlists.insert row hnew ∧ db'.playlistTracks = db.playlistTracks := by
    rw [LibraryDb.insertPlaylist, dif_neg hnew]
    exact ⟨_, rfl, rfl, rfl⟩
  have hget : ∀ id', db'.playlists.get id' = if id' = id then some row else db.playlists.get id' := by
    intro id'
    rw [hplaylists, Table.get_insert]
  have hids : ∀ id', db'.trackIds id' = db.trackIds id' := by
    intro id'
    rw [LibraryDb.trackIds, htracks, LibraryDb.trackIds]
  have hs' : db'.Sound json := by
    constructor
    · intro id'
      rw [hids, htracks]
      exact hs.numbered id'
    · intro id' row' hrow'
      rw [hget] at hrow'
      split at hrow'
      · obtain rfl := Option.some.inj hrow'
        exact ⟨kind, rfl, rfl⟩
      · exact hs.readable id' row' hrow'
  obtain ⟨pl, hpl, -⟩ := getPlaylist_ok hs' ((hget id).trans (if_pos rfl))
  have hcreate : Kanade.createPlaylistWithId json now id name description kind db = (.ok pl, db') := by
    refine (Exec.bind_ok (Exec.execute_ok hins)).trans ?_
    have hquery : Exec.query (fun db => db.getPlaylist json id) db' = (.ok (some pl), db') := by
      rw [Exec.query_apply, hpl]
    exact Exec.bind_ok hquery
  refine ⟨db', Exec.bind_ok hcreate, hs', ?_, ?_, ?_⟩
  · funext id'
    rw [LibraryDb.lists, hget, hids]
    show _ = Function.update db.lists id _ id'
    by_cases hid : id' = id
    · subst hid
      rw [if_pos rfl, Function.update_self, trackIds_of_numbered (numbered_of_get_none h),
        Option.map_some]
      simp only [PlaylistKind.isNormal_iff, row]
    · rw [if_neg hid, Function.update_of_ne hid, LibraryDb.lists]
  · intro id' (hne : id' ≠ id)
    rw [hget, if_neg hne]
  · intro id' _ i
    rw [htracks]

theorem create_error {id : String} (h : db.playlists.get id ≠ none) (name : String)
    (description : Option String) (kind : PlaylistKind) :
    ∃ e, exec json now (.createPlaylistWithId id name description kind) db = (.error e, db) := by
  have hthere : id ∈ db.playlists.rows.map PlaylistRow.id := by
    by_contra hnot
    exact h (Table.get_eq_none_iff.2 hnot)
  have hins : ∀ row : PlaylistRow, row.id = id →
      db.insertPlaylist row = .error "UNIQUE constraint failed: playlists.id" := by
    intro row hid
    rw [LibraryDb.insertPlaylist, dif_pos (hid ▸ hthere)]
  exact ⟨_, Exec.bind_error (Exec.bind_error (Exec.execute_error (hins _ rfl)))⟩

theorem delete_ok (hs : db.Sound json) (id : String) :
    ∃ db', exec json now (.deletePlaylist id) db = (.ok (), db') ∧
      Done json (.deletePlaylist id) db db' none := by
  have hget : ∀ id', (db.deletePlaylistRow id).playlists.get id' =
      if id' = id then none else db.playlists.get id' := by
    intro id'
    rw [LibraryDb.deletePlaylistRow, Table.get_restrict]
    by_cases hid : id' = id <;> simp [hid]
  have hkept : ∀ id', id' ≠ id → ∀ i, (db.deletePlaylistRow id).playlistTracks.get (id', i) =
      db.playlistTracks.get (id', i) := by
    intro id' hne i
    rw [LibraryDb.deletePlaylistRow, Table.get_restrict, if_pos (by simpa using hne)]
  have hids : ∀ id', id' ≠ id → (db.deletePlaylistRow id).trackIds id' = db.trackIds id' := by
    intro id' hne
    exact trackIds_of_numbered ((hs.numbered id').congr (hkept id' hne))
  have hnone : (db.deletePlaylistRow id).playlists.get id = none := (hget id).trans (if_pos rfl)
  refine ⟨_, rfl, ?_, ?_, ?_, hkept⟩
  · constructor
    · intro id'
      by_cases hid : id' = id
      · subst hid
        rw [trackIds_of_numbered (numbered_of_get_none hnone)]
        exact numbered_of_get_none hnone
      · rw [hids id' hid]
        exact (hs.numbered id').congr (hkept id' hid)
    · intro id' row hrow
      rw [hget] at hrow
      split at hrow
      · cases hrow
      · exact hs.readable id' row hrow
  · funext id'
    show _ = Function.update db.lists id none id'
    rw [LibraryDb.lists, hget]
    by_cases hid : id' = id
    · subst hid
      rw [if_pos rfl, Function.update_self, Option.map_none]
    · rw [if_neg hid, hids id' hid, Function.update_of_ne hid, LibraryDb.lists]
  · intro id' (hne : id' ≠ id)
    rw [hget, if_neg hne]

theorem update_ok (hs : db.Sound json) {id : String} (name : Option String)
    (description : Option (Option String)) (kind : Option PlaylistKind) {row : PlaylistRow}
    (hrow : db.playlists.get id = some row)
    (hkind : ∀ newKind ∈ kind, newKind.text = row.kind) :
    ∃ db', exec json now (.updatePlaylist id name description kind) db = (.ok (), db') ∧
      Done json (.updatePlaylist id name description kind) db db' (db.lists id) := by
  obtain ⟨pl, hpl, hk⟩ := existingPlaylist_ok hs hrow
  have hsame : ¬ (kind.any fun newKind => newKind.isNormal ≠ pl.kind.isNormal) = true := by
    intro hany
    obtain ⟨newKind, hnew, hne⟩ := changesKind_iff.1 hany
    exact hne ((hkind newKind hnew).trans hk)
  let change : PlaylistRow → PlaylistRow := fun row =>
    { row with
      name := name.getD pl.name
      description := description.getD pl.description
      smartFilter := smartFilterJson json (kind.getD pl.kind)
      updatedAt := now }
  have hedits : db.Edits json id (db.updatePlaylistRow id change fun _ => rfl) := by
    refine updatePlaylistRow_edits fun row' hrow' => ⟨rfl, fun _ => ⟨kind.getD pl.kind, ?_, rfl⟩⟩
    obtain rfl := Option.some.inj (hrow.symm.trans hrow')
    cases kind with
    | none => exact hk
    | some newKind => exact (hkind newKind rfl).symm
  refine ⟨db.updatePlaylistRow id change fun _ => rfl, ?_, ?_⟩
  · refine (Exec.bind_ok hpl).trans ?_
    rw [if_neg hsame]
    rfl
  · have hdone : Done json (.updatePlaylist id name description kind) db
        (db.updatePlaylistRow id change fun _ => rfl)
        ((db.lists id).map (Listing.withTracks (db.trackIds id))) :=
      Done.of_edits hs hedits (hs.numbered id)
    have hself : (db.lists id).map (Listing.withTracks (db.trackIds id)) = db.lists id := by
      rw [LibraryDb.lists, hrow, Option.map_some, Option.map_some]
      split <;> rfl
    exact hself ▸ hdone

theorem update_error (hs : db.Sound json) {id : String} (name : Option String)
    (description : Option (Option String)) (kind : Option PlaylistKind)
    (h : ∀ row ∈ db.playlists.get id, ∃ newKind ∈ kind, newKind.text ≠ row.kind) :
    ∃ e, exec json now (.updatePlaylist id name description kind) db = (.error e, db) := by
  cases hrow : db.playlists.get id with
  | none =>
    obtain ⟨e, he⟩ := existingPlaylist_error json hrow
    exact ⟨e, Exec.bind_error he⟩
  | some row =>
    obtain ⟨pl, hpl, hk⟩ := existingPlaylist_ok hs hrow
    have hother : (kind.any fun newKind => newKind.isNormal ≠ pl.kind.isNormal) = true := by
      obtain ⟨newKind, hnew, hne⟩ := h row hrow
      exact changesKind_iff.2 ⟨newKind, hnew, hk ▸ hne⟩
    refine ⟨"cannot change playlist kind between normal and smart", ?_⟩
    refine (Exec.bind_ok hpl).trans ?_
    rw [if_pos hother]
    rfl

/-- A call that succeeds. -/
def Succeeds (json : KindJson) (now : Int) (op : PlaylistOp) (db : LibraryDb) : Prop :=
  ∃ entry db', op.onListing (db.lists op.target) = some entry ∧ op.Fits db ∧
    op.exec json now db = (.ok (), db') ∧ op.Done json db db' entry

/-- A call that fails. -/
def Fails (json : KindJson) (now : Int) (op : PlaylistOp) (db : LibraryDb) : Prop :=
  (op.onListing (db.lists op.target) = none ∨ ¬ op.Fits db) ∧
    ∃ e, op.exec json now db = (.error e, db)

theorem update_spec (hs : db.Sound json) (id : String) (name : Option String)
    (description : Option (Option String)) (kind : Option PlaylistKind) :
    Succeeds json now (.updatePlaylist id name description kind) db ∨
      Fails json now (.updatePlaylist id name description kind) db := by
  cases hrow : db.playlists.get id with
  | none =>
    have hlists : db.lists id = none := by rw [LibraryDb.lists, hrow, Option.map_none]
    refine .inr ⟨.inl ?_, update_error hs name description kind fun row h => ?_⟩
    · simp [target, hlists, onListing]
    · rw [hrow] at h
      cases h
  | some row =>
    obtain ⟨existing, hexisting, -⟩ := hs.readable id row hrow
    have hon : onListing (.updatePlaylist id name description kind) (db.lists id) =
        if ∀ newKind ∈ kind, newKind.text = row.kind then some (db.lists id) else none := by
      rw [LibraryDb.lists, hrow, Option.map_some, hexisting]
      cases existing with
      | normal =>
        cases kind with
        | none => simp [onListing, PlaylistKind.text]
        | some newKind => simp [onListing, PlaylistKind.isNormal_iff, PlaylistKind.text]
      | smart filter limit sortBy =>
        cases kind with
        | none => simp [onListing, PlaylistKind.text]
        | some newKind => cases newKind <;> simp [onListing, PlaylistKind.isNormal, PlaylistKind.text]
    by_cases hkind : ∀ newKind ∈ kind, newKind.text = row.kind
    · obtain ⟨db', hexec, hdone⟩ := update_ok hs name description kind hrow hkind
      exact .inl ⟨_, db', hon.trans (if_pos hkind), trivial, hexec, hdone⟩
    · refine .inr ⟨.inl (hon.trans (if_neg hkind)), update_error hs name description kind ?_⟩
      intro row' hrow'
      obtain rfl := Option.some.inj (hrow.symm.trans hrow')
      simpa using hkind

theorem normal_or_not (entry : Option Listing) :
    (∃ l, entry = some (.normal l)) ∨ ∀ l, entry ≠ some (.normal l) := by
  by_cases h : ∃ l, entry = some (.normal l)
  · exact .inl h
  · exact .inr fun l hl => h ⟨l, hl⟩

theorem of_not_normal {p : Option Listing → Prop} {entry : Option Listing}
    (h : ∀ l, entry ≠ some (.normal l)) (hnone : p none) (hsmart : p (some .smart)) : p entry := by
  cases entry with
  | none => exact hnone
  | some entry =>
    cases entry with
    | normal l => exact absurd rfl (h l)
    | smart => exact hsmart

/-- What one call does to the lists. -/
theorem exec_spec (hs : db.Sound json) (now : Int) (op : PlaylistOp) :
    Succeeds json now op db ∨ Fails json now op db := by
  cases op with
  | createPlaylistWithId id name description kind =>
    cases hrow : db.playlists.get id with
    | none =>
      have hlists : db.lists id = none := by rw [LibraryDb.lists, hrow, Option.map_none]
      obtain ⟨db', hexec, hdone⟩ := create_ok hs hrow name description kind
      exact .inl ⟨_, db', by rw [target, hlists]; rfl, trivial, hexec, hdone⟩
    | some row =>
      have hlists : (db.lists id) ≠ none := by simp [LibraryDb.lists, hrow]
      obtain ⟨entry, hentry⟩ := Option.ne_none_iff_exists'.1 hlists
      refine .inr ⟨.inl (by rw [target, hentry]; rfl), create_error ?_ name description kind⟩
      rw [hrow]
      exact Option.some_ne_none row
  | updatePlaylist id name description kind => exact update_spec hs id name description kind
  | deletePlaylist id =>
    obtain ⟨db', hexec, hdone⟩ := delete_ok hs id
    exact .inl ⟨_, db', rfl, trivial, hexec, hdone⟩
  | setPlaylistTracks id tids =>
    obtain ⟨l, h⟩ | h := normal_or_not (db.lists id)
    · by_cases hfits : Fits db (.setPlaylistTracks id tids)
      · obtain ⟨db', hexec, he, hl⟩ := setPlaylistTracks_ok hs h hfits
        exact .inl ⟨_, db', by rw [target, h]; rfl, hfits, hexec, .of_edits hs he hl⟩
      · exact .inr ⟨.inr hfits, setPlaylistTracks_full hs h hfits⟩
    · exact .inr ⟨.inl (of_not_normal (p := fun entry =>
        onListing (.setPlaylistTracks id tids) entry = none) h rfl rfl), setPlaylistTracks_error hs h⟩
  | appendPlaylistTracks id tids =>
    by_cases hne : tids = []
    · subst hne
      have hon : onListing (.appendPlaylistTracks id []) (db.lists id) = some (db.lists id) := by
        obtain ⟨l, h⟩ | h := normal_or_not (db.lists id)
        · rw [h, onListing, List.append_nil]
        · exact of_not_normal (p := fun entry =>
            onListing (.appendPlaylistTracks id []) entry = some entry) h rfl rfl
      exact .inl ⟨_, db, hon, db.playlistTracks_le, rfl, .refl hs⟩
    · obtain ⟨l, h⟩ | h := normal_or_not (db.lists id)
      · by_cases hfits : Fits db (.appendPlaylistTracks id tids)
        · obtain ⟨db', hexec, he, hl⟩ := appendPlaylistTracks_ok hs h hne hfits
          exact .inl ⟨_, db', by rw [target, h]; rfl, hfits, hexec, .of_edits hs he hl⟩
        · exact .inr ⟨.inr hfits, appendPlaylistTracks_full hs h hne hfits⟩
      · have hempty : tids.isEmpty = false := by simpa using hne
        exact .inr ⟨.inl (of_not_normal (p := fun entry =>
          onListing (.appendPlaylistTracks id tids) entry = none) h (by simp [onListing, hempty])
            (by simp [onListing, hempty])), appendPlaylistTracks_error hs h hne⟩
  | removePlaylistTrack id position =>
    obtain ⟨l, h⟩ | h := normal_or_not (db.lists id)
    · obtain ⟨db', hexec, he, hl⟩ := removePlaylistTrack_ok hs h position
      exact .inl ⟨_, db', by rw [target, h]; rfl, trivial, hexec, .of_edits hs he hl⟩
    · exact .inr ⟨.inl (of_not_normal (p := fun entry =>
        onListing (.removePlaylistTrack id position) entry = none) h rfl rfl),
          removePlaylistTrack_error hs h position⟩
  | movePlaylistTrack id src dst =>
    by_cases hne : src = dst
    · exact .inl ⟨_, db, if_pos hne, trivial, by rw [exec, Kanade.movePlaylistTrack, if_pos hne]; rfl,
        .refl hs⟩
    · obtain ⟨l, h⟩ | h := normal_or_not (db.lists id)
      · cases hitem : l[src.toNat]? with
        | none =>
          refine .inr ⟨.inl ?_, movePlaylistTrack_error hs h hne hitem⟩
          rw [target, h, onListing, if_neg hne]
          show Option.map _ l[src.toNat]? = none
          rw [hitem, Option.map_none]
        | some item =>
          obtain ⟨db', hexec, he, hl⟩ := movePlaylistTrack_ok hs h hne hitem
          refine .inl ⟨_, db', ?_, trivial, hexec, .of_edits hs he hl⟩
          rw [target, h, onListing, if_neg hne]
          show Option.map _ l[src.toNat]? = _
          rw [hitem, Option.map_some]
          rfl
      · exact .inr ⟨.inl (of_not_normal (p := fun entry =>
          onListing (.movePlaylistTrack id src dst) entry = none) h (by simp [onListing, hne])
            (by simp [onListing, hne])), movePlaylistTrack_smart hs h hne⟩

/-- The database after a call at a time. -/
def step (json : KindJson) (call : Int × PlaylistOp) (db : LibraryDb) : LibraryDb :=
  (call.2.exec json call.1 db).2

theorem sound_step (hs : db.Sound json) (call : Int × PlaylistOp) : (step json call db).Sound json := by
  rw [step]
  obtain ⟨entry, db', -, -, hexec, hdone⟩ | ⟨-, e, hexec⟩ := exec_spec hs call.1 call.2
  · rw [hexec]
    exact hdone.sound
  · rw [hexec]
    exact hs

end PlaylistOp

theorem LibraryDb.sound_empty (json : KindJson) : LibraryDb.empty.Sound json where
  numbered id := by
    have hnil : Table.Numbered PlaylistTrack.trackId LibraryDb.empty.playlistTracks id [] :=
      Table.Numbered.nil_of_get fun _ => rfl
    rw [trackIds_of_numbered hnil]
    exact hnil
  readable _ _ h := nomatch h

theorem LibraryDb.Sound.run {json : KindJson} {db : LibraryDb} (hs : db.Sound json)
    (calls : List (Int × PlaylistOp)) : (runAll (PlaylistOp.step json) calls db).Sound json :=
  runAll_keeps (I := LibraryDb.Sound json) (fun call _ hs => PlaylistOp.sound_step hs call) calls hs

/-- In every database that calls leave, the positions of a playlist are the numbers from 0 on, and
the next call is what it is on lists: it fails, and changes nothing, where that is an error or the
table has no room; and if it succeeds, the playlist it names becomes the list it should, and what is
stored of the others is the same. -/
theorem playlists_refine_lists (json : KindJson) (calls : List (Int × PlaylistOp)) :
    let db := runAll (PlaylistOp.step json) calls .empty
    (∀ id l, db.lists id = some (.normal l) →
      (db.playlistTracks.ordered id).map PlaylistTrack.position =
        (List.range l.length).map Int.ofNat) ∧
    ∀ (now : Int) (op : PlaylistOp),
      ((∃ e, (op.exec json now db).1 = .error e) ↔
        op.onListing (db.lists op.target) = none ∨ ¬ op.Fits db) ∧
      (∀ e db', op.exec json now db = (.error e, db') → db' = db) ∧
      ∀ db', op.exec json now db = (.ok (), db') →
        op.onListing (db.lists op.target) = some (db'.lists op.target) ∧
        ∀ id, id ≠ op.target → db'.lists id = db.lists id ∧
          db'.playlists.get id = db.playlists.get id ∧
          ∀ i, db'.playlistTracks.get (id, i) = db.playlistTracks.get (id, i) := by
  intro db
  have hs : db.Sound json := (LibraryDb.sound_empty json).run calls
  refine ⟨fun id l h => (hs.numbered_of_lists h).positions, fun now op => ?_⟩
  obtain ⟨entry, db', hon, hfits, hexec, hdone⟩ | ⟨hfails, e, hexec⟩ := op.exec_spec hs now
  · refine ⟨?_, ?_, ?_⟩
    · rw [hexec, hon]
      simp [hfits]
    · intro e db'' h
      rw [hexec] at h
      cases h
    · intro db'' h
      rw [hexec] at h
      cases h
      rw [hdone.lists, Function.update_self]
      refine ⟨hon, fun id hne => ⟨?_, hdone.playlists id hne, hdone.playlistTracks id hne⟩⟩
      rw [Function.update_of_ne hne]
  · refine ⟨?_, ?_, ?_⟩
    · rw [hexec]
      exact iff_of_true ⟨e, rfl⟩ hfails
    · intro e' db'' h
      rw [hexec] at h
      cases h
      rfl
    · intro db'' h
      rw [hexec] at h
      cases h

end Kanade

import Mathlib.Data.List.Sort
import Kanade.Core.State
import Kanade.Db.Json
import Kanade.Keyed.Table

/-!
# Kanade.Db.Repo

What `repo.rs` stores of the playback state: the table `playback_state`, with a row for every node
and one under the reserved id `__global__`, and the tracks by path.

Statements are functions of the database. An index is written as it is cast to `i64` and read back
with `usize::try_from`, a volume with `u8::try_from`; a row that does not convert fails the load.
-/

namespace Kanade

open Keyed

/-- The columns of `playback_state` that are read. -/
structure Row where
  nodeId : String
  queue : String
  currentIndex : Option Int := none
  volume : Int := 50
  shuffle : Int := 0
  repeatMode : String := "off"
  activeOutputId : Option String := none
  nodeType : String := "remote"
  deviceId : Option String := none
  disconnectedAt : Option Int := none
deriving DecidableEq, Repr

/-- The table `tracks`, by path: what `row_to_track` makes of the row, if there is one. -/
structure Tracks where
  row : String → Except String (Option Track)
  filePath_of_row : ∀ path track, row path = .ok (some track) → track.filePath = path

structure Database where
  playbackState : Table Row.nodeId
  tracks : Tracks

structure SavedNodeState where
  nodeId : String
  queueFilePaths : List String
  currentIndex : Option Nat
  activeOutputId : Option String
  volume : UInt8
  shuffle : Bool
  repeatMode : String
  nodeType : NodeType
  deviceId : Option String
  disconnectedAt : Option Int
deriving DecidableEq, Repr

/-- `SQLITE_MAX_VARIABLE_NUMBER` of the bundled SQLite. -/
def maxVariableNumber : Nat := 32766

/-- The id of the row for the state as a whole. -/
def globalId : String := "__global__"

/-- `as i64`, from `usize`. -/
def asI64 (i : Nat) : Int := Int.bmod i (2 ^ 64)

/-- The column `node_type`. -/
def NodeType.text : NodeType → String
  | .remote => "remote"
  | .localNode => "local"

namespace Database

variable (json : Json) (db : Database)

def getTrackByPath (path : String) : Except String (Option Track) := db.tracks.row path

/-! ## Writing -/

def saveNodeState (nodeId : String) (queueFilePaths : List String) (currentIndex : Option Nat)
    (volume : UInt8) (shuffle : Bool) (repeatMode : String) (nodeType : NodeType)
    (deviceId : Option String) (disconnectedAt : Option Int) : Database :=
  let excluded : Row :=
    { nodeId := nodeId
      queue := json.encode queueFilePaths
      currentIndex := currentIndex.map asI64
      volume := volume.toNat
      shuffle := if shuffle then 1 else 0
      repeatMode := repeatMode
      nodeType := nodeType.text
      deviceId := deviceId
      disconnectedAt := disconnectedAt }
  let update (row : Row) : Row :=
    { excluded with nodeId := row.nodeId, activeOutputId := row.activeOutputId }
  { db with playbackState := db.playbackState.upsert excluded update fun _ => rfl }

def savePlaybackState (queueFilePaths : List String) (currentIndex : Option Nat)
    (activeOutputId : Option String) (shuffle : Bool) (repeatMode : String) : Database :=
  let excluded : Row :=
    { nodeId := globalId
      queue := json.encode queueFilePaths
      currentIndex := currentIndex.map asI64
      activeOutputId := activeOutputId
      volume := 50
      shuffle := if shuffle then 1 else 0
      repeatMode := repeatMode }
  let update (row : Row) : Row :=
    { row with
      queue := excluded.queue
      currentIndex := excluded.currentIndex
      activeOutputId := excluded.activeOutputId
      shuffle := excluded.shuffle
      repeatMode := excluded.repeatMode }
  { db with playbackState := db.playbackState.upsert excluded update fun _ => rfl }

def pruneNodeStatesExcept (keepNodeIds : List String) : Except String Unit × Database :=
  if keepNodeIds.isEmpty then
    (.ok (), { db with playbackState := db.playbackState.restrict fun id => id = globalId })
  else if maxVariableNumber < keepNodeIds.length then (.error "too many SQL variables", db)
  else
    (.ok (), { db with playbackState :=
      db.playbackState.restrict fun id => id = globalId ∨ id ∈ keepNodeIds })

/-! ## Reading -/

/-- `usize::try_from`, for the column `current_index`. -/
def loadIndex : Option Int → Except String (Option Nat)
  | none => .ok none
  | some i => if 0 ≤ i then .ok (some i.toNat) else .error ("invalid current_index: " ++ toString i)

/-- `u8::try_from`, for the column `volume`. -/
def loadVolume (volume : Int) : Except String UInt8 :=
  if 0 ≤ volume ∧ volume ≤ 255 then .ok (UInt8.ofNat volume.toNat)
  else .error ("invalid volume: " ++ toString volume)

def loadRow (row : Row) : Except String SavedNodeState := do
  let queueFilePaths ← json.decode row.queue
  let currentIndex ← loadIndex row.currentIndex
  let volume ← loadVolume row.volume
  .ok
    { nodeId := row.nodeId
      queueFilePaths := queueFilePaths
      currentIndex := currentIndex
      activeOutputId := row.activeOutputId
      volume := volume
      shuffle := row.shuffle ≠ 0
      repeatMode := row.repeatMode
      nodeType := if row.nodeType = "local" then .localNode else .remote
      deviceId := row.deviceId
      disconnectedAt := row.disconnectedAt }

/-- The loop of `load_all_node_states`. -/
def loadRows : List Row → Except String (List SavedNodeState)
  | [] => .ok []
  | row :: rows => do
    let saved ← loadRow json row
    let out ← loadRows rows
    .ok (saved :: out)

def loadAllNodeStates : Except String (List SavedNodeState) :=
  loadRows json (db.playbackState.rows.insertionSort fun r r' => r.nodeId ≤ r'.nodeId)

def loadPlaybackState : Except String (Option SavedNodeState) :=
  match db.playbackState.get globalId with
  | none => .ok none
  | some row => do
    let queueFilePaths ← json.decode row.queue
    let currentIndex ← loadIndex row.currentIndex
    .ok (some
      { nodeId := globalId
        queueFilePaths := queueFilePaths
        currentIndex := currentIndex
        activeOutputId := row.activeOutputId
        volume := 50
        shuffle := row.shuffle ≠ 0
        repeatMode := row.repeatMode
        nodeType := .remote
        deviceId := none
        disconnectedAt := none })

/-! ## Reading back what was written -/

theorem asI64_of_lt {i : Nat} (h : i < 2 ^ 63) : asI64 i = i := by
  unfold asI64
  rw [Int.bmod_eq_of_le] <;> omega

theorem loadIndex_asI64 {currentIndex : Option Nat} (h : ∀ i ∈ currentIndex, i < 2 ^ 63) :
    loadIndex (currentIndex.map asI64) = .ok currentIndex := by
  cases currentIndex with
  | none => rfl
  | some i =>
    have hi := asI64_of_lt (h i rfl)
    simp [loadIndex, hi]

theorem loadVolume_toNat (volume : UInt8) : loadVolume volume.toNat = .ok volume := by
  have hlt : volume.toNat < 256 := volume.toNat_lt
  unfold loadVolume
  rw [if_pos (by omega), Int.toNat_natCast, UInt8.ofNat_toNat]

theorem loadRow_ok {row : Row} {queueFilePaths : List String} {currentIndex : Option Nat}
    {volume : UInt8} (hqueue : json.decode row.queue = .ok queueFilePaths)
    (hindex : loadIndex row.currentIndex = .ok currentIndex)
    (hvolume : loadVolume row.volume = .ok volume) :
    loadRow json row = .ok
      { nodeId := row.nodeId
        queueFilePaths := queueFilePaths
        currentIndex := currentIndex
        activeOutputId := row.activeOutputId
        volume := volume
        shuffle := row.shuffle ≠ 0
        repeatMode := row.repeatMode
        nodeType := if row.nodeType = "local" then .localNode else .remote
        deviceId := row.deviceId
        disconnectedAt := row.disconnectedAt } := by
  rw [loadRow, hqueue, hindex, hvolume]
  rfl

/-- A row that loads converts in every column. -/
theorem loadRow_inv {row : Row} {s : SavedNodeState} (h : loadRow json row = .ok s) :
    ∃ paths index volume, json.decode row.queue = .ok paths ∧
      loadIndex row.currentIndex = .ok index ∧ loadVolume row.volume = .ok volume := by
  unfold loadRow at h
  cases hqueue : json.decode row.queue with
  | error e => rw [hqueue] at h; cases h
  | ok paths =>
    cases hindex : loadIndex row.currentIndex with
    | error e => rw [hqueue, hindex] at h; cases h
    | ok index =>
      cases hvolume : loadVolume row.volume with
      | error e => rw [hqueue, hindex, hvolume] at h; cases h
      | ok volume => exact ⟨paths, index, volume, rfl, rfl, rfl⟩

/-- A load that succeeds has read every row. -/
theorem loadRows_eq {rows : List Row} {saved : List SavedNodeState}
    (h : loadRows json rows = .ok saved) :
    saved = rows.filterMap fun row => (loadRow json row).toOption := by
  induction rows generalizing saved with
  | nil =>
    cases h
    rfl
  | cons row rows ih =>
    rw [loadRows] at h
    cases hrow : loadRow json row with
    | error e =>
      rw [hrow] at h
      cases h
    | ok s =>
      cases hrows : loadRows json rows with
      | error e =>
        rw [hrow, hrows] at h
        cases h
      | ok out =>
        rw [hrow, hrows] at h
        cases h
        rw [List.filterMap_cons, hrow, ih hrows]
        rfl

theorem loadRows_ok {rows : List Row} (h : ∀ row ∈ rows, ∃ s, loadRow json row = .ok s) :
    ∃ saved, loadRows json rows = .ok saved := by
  induction rows with
  | nil => exact ⟨[], rfl⟩
  | cons row rows ih =>
    obtain ⟨⟨s, hs⟩, hrows⟩ := List.forall_mem_cons.1 h
    obtain ⟨saved, hsaved⟩ := ih hrows
    exact ⟨s :: saved, by rw [loadRows, hs, hsaved]; rfl⟩

variable {db}

theorem loadAllNodeStates_perm {saved : List SavedNodeState}
    (h : db.loadAllNodeStates json = .ok saved) :
    saved.Perm (db.playbackState.rows.filterMap fun row => (loadRow json row).toOption) := by
  rw [loadRows_eq json h]
  exact (List.perm_insertionSort _ _).filterMap _

theorem loadAllNodeStates_ok (h : ∀ row ∈ db.playbackState.rows, ∃ s, loadRow json row = .ok s) :
    ∃ saved, db.loadAllNodeStates json = .ok saved :=
  loadRows_ok json fun row hrow => h row ((List.mem_insertionSort _).1 hrow)

/-- What a load that succeeds has is what the rows are read as. -/
theorem mem_loadAllNodeStates {saved : List SavedNodeState} {s : SavedNodeState}
    (h : db.loadAllNodeStates json = .ok saved) :
    s ∈ saved ↔ ∃ row ∈ db.playbackState.rows, loadRow json row = .ok s := by
  rw [(loadAllNodeStates_perm json h).mem_iff, List.mem_filterMap]
  refine exists_congr fun row => and_congr_right fun _ => ?_
  cases loadRow json row with
  | error e => simp [Except.toOption]
  | ok s' => simp [Except.toOption]

end Database

end Kanade

import Kanade.Db.Repo

/-!
# Kanade.Db.Persist

`DatabaseStatePersister::persist` and the restore at the start of `main`.

`persist` writes the row of the state as a whole, then a row for every node, and deletes the other
rows. `get_persist` is the table it leaves, row by row: where several nodes have one id, the row is
that of the last.
-/

namespace Kanade

open Keyed

/-- The column `repeat`. -/
def RepeatMode.text : RepeatMode → String
  | .off => "off"
  | .one => "one"
  | .all => "all"

def restoreRepeat (text : String) : RepeatMode :=
  if text = "one" then .one else if text = "all" then .all else .off

variable (json : Json)

def saveNode (db : Database) (node : Node) : Database :=
  db.saveNodeState json node.id (node.queue.map Track.filePath) node.currentIndex node.volume
    node.shuffle node.repeatMode.text node.nodeType node.deviceId node.disconnectedAt

/-- `persist`, with what it logs as its result. A statement that fails leaves the earlier ones
done. -/
def persist (state : PlaybackState) (db : Database) : Except String Unit × Database :=
  let db := db.savePlaybackState json (state.queue.map Track.filePath) state.currentIndex
    state.selectedNodeId state.shuffle state.repeatMode.text
  let db := state.nodes.foldl (saveNode json) db
  db.pruneNodeStatesExcept (state.nodes.map Node.id)

/-- `strip_prefix("local-")`. -/
def stripLocal (id : String) : Option String :=
  ("local-".toList.isPrefixOf? id.toList).map String.ofList

/-- The tracks that are still there. -/
def restoreQueue (db : Database) (paths : List String) : List Track :=
  paths.filterMap fun path => (db.getTrackByPath path).toOption.join

def restoreNode (db : Database) (s : SavedNodeState) : Node :=
  let inferredDeviceId := stripLocal s.nodeId
  let queue := restoreQueue db s.queueFilePaths
  { id := s.nodeId
    name := ""
    connected := false
    status := .stopped
    positionSecs := 0
    volume := s.volume
    nodeType := if s.nodeType = .localNode ∨ inferredDeviceId.isSome then .localNode else .remote
    queue := queue
    currentIndex := s.currentIndex.filter (· < queue.length)
    repeatMode := restoreRepeat s.repeatMode
    shuffle := s.shuffle
    deviceId := s.deviceId.or inferredDeviceId
    disconnectedAt := s.disconnectedAt }

/-- The restored nodes: those of all rows but the one for the state as a whole, and none when the
rows do not load. -/
def restoreNodes (db : Database) : List Node :=
  (((db.loadAllNodeStates json).toOption.getD []).filter fun s => s.nodeId ≠ globalId).map
    (restoreNode db)

/-- The restore of `main`; an error ends the server. -/
def restore (db : Database) : Except String PlaybackState := do
  let saved ← db.loadPlaybackState json
  match saved with
  | some s =>
    let queue := restoreQueue db s.queueFilePaths
    .ok
      { nodes := restoreNodes json db
        selectedNodeId := s.activeOutputId
        queue := queue
        currentIndex := s.currentIndex.filter (· < queue.length)
        shuffle := s.shuffle
        repeatMode := restoreRepeat s.repeatMode }
  | none => .ok { PlaybackState.empty with nodes := restoreNodes json db }

theorem restoreRepeat_text (mode : RepeatMode) : restoreRepeat mode.text = mode := by
  cases mode <;> rfl

/-! ## The rows after a persist -/

/-- The row of a node. -/
def Node.row (node : Node) (activeOutputId : Option String) : Row where
  nodeId := node.id
  queue := json.encode (node.queue.map Track.filePath)
  currentIndex := node.currentIndex.map asI64
  volume := node.volume.toNat
  shuffle := if node.shuffle then 1 else 0
  repeatMode := node.repeatMode.text
  activeOutputId := activeOutputId
  nodeType := node.nodeType.text
  deviceId := node.deviceId
  disconnectedAt := node.disconnectedAt

/-- The row of the state as a whole, over the row that was there. -/
def PlaybackState.row (state : PlaybackState) (old : Option Row) : Row where
  nodeId := globalId
  queue := json.encode (state.queue.map Track.filePath)
  currentIndex := state.currentIndex.map asI64
  volume := old.elim 50 Row.volume
  shuffle := if state.shuffle then 1 else 0
  repeatMode := state.repeatMode.text
  activeOutputId := state.selectedNodeId
  nodeType := old.elim "remote" Row.nodeType
  deviceId := old.bind Row.deviceId
  disconnectedAt := old.bind Row.disconnectedAt

/-- The last of the nodes with an id. -/
def lastNode (id : String) (ns : List Node) : Option Node := ns.reverse.find? fun n => n.id = id

section Rows

variable {json} {db : Database} {node n : Node} {ns : List Node} {state : PlaybackState} {id : String}

theorem lastNode_mem (h : lastNode id ns = some n) : n ∈ ns ∧ n.id = id :=
  ⟨List.mem_reverse.1 (List.mem_of_find?_eq_some h), by simpa using List.find?_some h⟩

theorem lastNode_eq_none_iff : lastNode id ns = none ↔ id ∉ ns.map Node.id := by
  simp [lastNode, List.find?_eq_none]

theorem lastNode_cons :
    lastNode id (n :: ns) = (lastNode id ns).or (if n.id = id then some n else none) := by
  simp [lastNode, List.find?_append, List.find?_cons]
  split <;> simp_all

/-- Where the ids are different, the last one is the only one. -/
theorem lastNode_of_nodup (h : (ns.map Node.id).Nodup) (hn : n ∈ ns) :
    lastNode n.id ns = some n := by
  have hrev : (ns.reverse.map Node.id).Nodup := by
    rw [List.map_reverse]
    exact List.nodup_reverse.2 h
  exact Table.find?_of_mem hrev (List.mem_reverse.2 hn)

theorem get_saveNode :
    (saveNode json db node).playbackState.get id =
      if id = node.id then
        some (node.row json ((db.playbackState.get id).bind Row.activeOutputId))
      else db.playbackState.get id := by
  simp only [saveNode, Database.saveNodeState, Table.get_upsert]
  by_cases hid : id = node.id
  · rw [if_pos hid, if_pos hid]
    cases hold : db.playbackState.get id with
    | none => rfl
    | some old =>
      have hkey : old.nodeId = node.id := (Table.key_of_get hold).trans hid
      simp [Node.row, hkey]
  · rw [if_neg hid, if_neg hid]

theorem get_saveNodes (ns : List Node) (db : Database) :
    (ns.foldl (saveNode json) db).playbackState.get id =
      match lastNode id ns with
      | some n => some (n.row json ((db.playbackState.get id).bind Row.activeOutputId))
      | none => db.playbackState.get id := by
  induction ns generalizing db with
  | nil => rfl
  | cons n ns ih =>
    rw [List.foldl_cons, ih, lastNode_cons, get_saveNode]
    cases lastNode id ns with
    | some m => by_cases hid : id = n.id <;> simp [hid, Node.row]
    | none =>
      by_cases hid : n.id = id
      · simp [hid]
      · have hid' : id ≠ n.id := fun h => hid h.symm
        simp [hid, hid']

theorem get_savePlaybackState :
    (db.savePlaybackState json (state.queue.map Track.filePath) state.currentIndex
      state.selectedNodeId state.shuffle state.repeatMode.text).playbackState.get id =
      if id = globalId then some (state.row json (db.playbackState.get id))
      else db.playbackState.get id := by
  simp only [Database.savePlaybackState, Table.get_upsert]
  by_cases hid : id = globalId
  · rw [if_pos hid, if_pos hid]
    cases hold : db.playbackState.get id with
    | none => rfl
    | some old =>
      have hkey : old.nodeId = globalId := (Table.key_of_get hold).trans hid
      simp [PlaybackState.row, hkey]
  · rw [if_neg hid, if_neg hid]

theorem get_pruneNodeStatesExcept {keep : List String}
    (h : (db.pruneNodeStatesExcept keep).1 = .ok ()) :
    (db.pruneNodeStatesExcept keep).2.playbackState.get id =
      if id = globalId ∨ id ∈ keep then db.playbackState.get id else none := by
  unfold Database.pruneNodeStatesExcept at h ⊢
  cases keep with
  | nil => simpa using Table.get_restrict (t := db.playbackState) (k := id) fun id => id = globalId
  | cons k keep =>
    rw [if_neg (by simp)] at h ⊢
    split at h
    · cases h
    · rename_i hfew
      rw [if_neg hfew]
      simpa using Table.get_restrict (t := db.playbackState) (k := id)
        fun id => id = globalId ∨ id ∈ k :: keep

/-- The column that a row of a node takes over. -/
def keptOutputId (state : PlaybackState) (db : Database) (id : String) : Option String :=
  if id = globalId then state.selectedNodeId
  else (db.playbackState.get id).bind Row.activeOutputId

/-- The table after a persist that succeeds. -/
theorem get_persist (h : (persist json state db).1 = .ok ()) :
    (persist json state db).2.playbackState.get id =
      match lastNode id state.nodes with
      | some n => some (n.row json (keptOutputId state db id))
      | none =>
        if id = globalId then some (state.row json (db.playbackState.get id)) else none := by
  unfold persist at h ⊢
  rw [get_pruneNodeStatesExcept h, get_saveNodes, get_savePlaybackState]
  have hactive : ((if id = globalId then some (state.row json (db.playbackState.get id))
      else db.playbackState.get id).bind Row.activeOutputId) = keptOutputId state db id := by
    unfold keptOutputId
    split
    · rfl
    · rfl
  cases hlast : lastNode id state.nodes with
  | some n =>
    have hin : id ∈ state.nodes.map Node.id :=
      List.mem_map.2 ⟨n, lastNode_mem hlast⟩
    rw [if_pos (.inr hin), hactive]
  | none =>
    have hout := lastNode_eq_none_iff.1 hlast
    by_cases hid : id = globalId
    · rw [if_pos (.inl hid), if_pos hid]
      dsimp only
      rw [if_pos hid]
    · rw [if_neg (not_or.2 ⟨hid, hout⟩), if_neg hid]

/-! ## Loading them -/

/-- What is loaded for a node. -/
def Node.saved (node : Node) (activeOutputId : Option String) : SavedNodeState where
  nodeId := node.id
  queueFilePaths := node.queue.map Track.filePath
  currentIndex := node.currentIndex
  activeOutputId := activeOutputId
  volume := node.volume
  shuffle := node.shuffle
  repeatMode := node.repeatMode.text
  nodeType := node.nodeType
  deviceId := node.deviceId
  disconnectedAt := node.disconnectedAt

theorem loadRow_node (h : ∀ i ∈ node.currentIndex, i < 2 ^ 63) (activeOutputId : Option String) :
    Database.loadRow json (node.row json activeOutputId) = .ok (node.saved activeOutputId) := by
  have htype : (if node.nodeType.text = "local" then NodeType.localNode else .remote) =
      node.nodeType := by cases node.nodeType <;> rfl
  have hshuffle : decide ((if node.shuffle then 1 else 0 : Int) ≠ 0) = node.shuffle := by
    cases node.shuffle <;> rfl
  refine (Database.loadRow_ok json (json.decode_encode _) (Database.loadIndex_asI64 h)
    (Database.loadVolume_toNat _)).trans (congrArg Except.ok ?_)
  simp only [Node.row, Node.saved, SavedNodeState.mk.injEq, true_and, and_true]
  exact ⟨hshuffle, htype⟩

/-- The row of the state as a whole loads if its volume does. -/
theorem loadRow_state {old : Option Row} (h : ∀ i ∈ state.currentIndex, i < 2 ^ 63)
    (hvolume : ∀ row ∈ old, 0 ≤ row.volume ∧ row.volume ≤ 255) :
    ∃ s, Database.loadRow json (state.row json old) = .ok s ∧ s.nodeId = globalId := by
  have hload : ∃ v, Database.loadVolume (old.elim 50 Row.volume) = .ok v := by
    cases old with
    | none => exact ⟨50, rfl⟩
    | some row => exact ⟨_, if_pos (hvolume row rfl)⟩
  obtain ⟨v, hv⟩ := hload
  exact ⟨_, Database.loadRow_ok json (json.decode_encode _) (Database.loadIndex_asI64 h) hv, rfl⟩

end Rows

end Kanade

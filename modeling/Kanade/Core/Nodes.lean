import Kanade.Core.Queue

/-!
# Kanade.Core.Nodes

The life of nodes in `controller.rs`: outputs, connection and disconnection, local sessions,
selection and handoff.
-/

namespace Kanade

open Concur

/-! ## Outputs -/

def registerOutput (id connectionId : String) (output : Nat) : Op Unit :=
  writeOutputs fun m => Function.update m id (some ⟨connectionId, output⟩)

def unregisterOutput (id connectionId : String) : Op Unit :=
  writeOutputs fun m =>
    match m id with
    | some slot => if slot.connectionId = connectionId then Function.update m id none else m
    | none => m

def isSameOutput (id connectionId : String) : Op Bool :=
  Fallible.sect (fun _ _ => .readOutputs) fun w =>
    (.ok ((w.outputs id).any fun slot => slot.connectionId = connectionId), w)

/-- `retain` on the keys of a map. -/
def retainKeys {α : Type} (keep : String → Bool) (m : String → Option α) : String → Option α :=
  fun id => if keep id then m id else none

/-! ## Bringing an output to the logical state -/

/-- `play`, and a seek when there is a position to go to. -/
def OutputHandle.playAt (o : OutputHandle) (positionSecs : ℚ) : Op Unit := do
  o.send .play
  if positionSecs > 0 then o.send (.seek positionSecs) else pure ()

def applyOutputRuntimeState (nodeId : String) (status : PlaybackStatus) (positionSecs : ℚ) :
    Op Unit := do
  let o ← eachOutput nodeId
  match status with
  | .playing | .loading => o.playAt positionSecs
  | .paused => do
    o.playAt positionSecs
    o.send .pause
  | .stopped => o.send .stop

def syncConnectedNodeToLogicalState (nodeId : String) : Op Unit := do
  let (isSelected, resumeStatus, resumePositionSecs) ← readState fun s =>
    match s.node nodeId with
    | none => .error .nodeNotFound
    | some node => .ok (s.selectedNodeId == some nodeId, node.status, node.positionSecs)
  syncOutputToGlobal nodeId
  if isSelected then applyOutputRuntimeState nodeId resumeStatus resumePositionSecs
  else stopNode nodeId

/-! ## Connection and disconnection -/

/-- The queue that the top level still holds goes to the first selected node. -/
def migrateQueue (nodeId : String) (s : PlaybackState) : PlaybackState :=
  if (s.node nodeId).any (fun n => n.queue.isEmpty) ∧ s.queue ≠ [] then
    { s with queue := [], currentIndex := none }.modifyNode nodeId fun n =>
      { n with queue := s.queue, currentIndex := s.currentIndex, shuffle := s.shuffle,
               repeatMode := s.repeatMode }
  else s

/-- The state section of `add_node`. -/
def addNodeSection (node : Node) (s : PlaybackState) : PlaybackState :=
  let isFirst := s.nodes.isEmpty
  let s :=
    match s.node node.id with
    | some _ =>
      s.modifyNode node.id fun e => { e with name := node.name, connected := node.connected }
    | none => { s with nodes := s.nodes ++ [node] }
  let s :=
    if (isFirst ∨ s.selectedNodeId = none) ∧ node.connected then
      migrateQueue node.id { s with selectedNodeId := some node.id }
    else s
  s.syncTopLevelFromSelectedNode

def addNode (node : Node) : Op Unit := do
  writeState .mirror (addNodeSection node)
  broadcast

def markNodeConnected (nodeId : String) (connected : Bool) : Op Unit := do
  writeState .writeState fun s => s.modifyNode nodeId fun node =>
    let node := { node with connected := connected }
    if connected then node else { node with status := .stopped, positionSecs := 0 }
  broadcast

/-- The connected node that takes over when the selected `nodeId` disconnects. -/
def fallbackNodeId (nodeId : String) (s : PlaybackState) : Option String :=
  if s.selectedNodeId = some nodeId then
    (s.nodes.find? fun n => n.id ≠ nodeId ∧ n.connected).map Node.id
  else none

/-- The state section of `handle_node_disconnected`; its result is the fallback node. -/
def disconnectSection (nodeId : String) (s : PlaybackState) : Option String × PlaybackState :=
  let wasSelected := s.selectedNodeId = some nodeId
  let (resumeStatus, resumePositionSecs) :=
    match s.node nodeId with
    | some node => (node.status, node.positionSecs)
    | none => (.stopped, 0)
  let fallback := fallbackNodeId nodeId s
  let s := s.modifyNode nodeId fun node =>
    if wasSelected ∧ fallback = none then { node with connected := false }
    else { node with connected := false, status := .stopped, positionSecs := 0 }
  match fallback with
  | some fallbackId =>
    (some fallbackId, { s with selectedNodeId := some fallbackId }.modifyNodes fun node =>
      if node.id = fallbackId then
        { node with status := resumeStatus, positionSecs := resumePositionSecs }
      else if node.id ≠ nodeId then { node with status := .stopped, positionSecs := 0 }
      else node)
  | none => (none, if wasSelected then { s with selectedNodeId := some nodeId } else s)

def handleNodeDisconnected (nodeId : String) : Op Unit := do
  let fallback ← lockState (fun _ _ => .writeState) fun s =>
    (.ok (disconnectSection nodeId s).1, (disconnectSection nodeId s).2)
  match fallback with
  | some fallbackId => do
    -- a failure to restore the fallback's output is only logged
    let _ ← (syncConnectedNodeToLogicalState fallbackId).attempt
    pure ()
  | none => pure ()
  broadcast

def removeNode (nodeId : String) : Op Unit := do
  writeState .writeState fun s =>
    let s := { s with nodes := s.nodes.filter fun n => n.id ≠ nodeId }
    if s.selectedNodeId = some nodeId then { s with selectedNodeId := s.nodes.head?.map Node.id }
    else s
  lockTransport .writeTransport fun m => ((), retainKeys (fun id => id ≠ nodeId) m)
  writeOutputs (retainKeys fun id => id ≠ nodeId)
  broadcast

/-! ## Local sessions -/

/-- The ids of the local nodes of a device. -/
def matchingIds (deviceId : String) (s : PlaybackState) : List String :=
  (s.nodes.filter fun n => n.nodeType = .localNode ∧ n.deviceId = some deviceId).map Node.id

/-- The node a returning device goes on with: a connected one first. -/
def canonicalId (ids : List String) (s : PlaybackState) : Option String :=
  (ids.find? fun id => (s.node id).any Node.connected).or ids.head?

/-- One round of the loop that removes the duplicates of `canonical`. -/
def dropDuplicate (canonical : String) (s : PlaybackState) (duplicate : String) :
    PlaybackState :=
  { s with
    nodes := s.nodes.filter fun n => n.id ≠ duplicate
    selectedNodeId :=
      if s.selectedNodeId = some duplicate then some canonical else s.selectedNodeId }

/-- The node of a new local session. -/
def newLocalNode (nodeId deviceName : String) (deviceId : Option String) : Node where
  id := nodeId
  name := deviceName
  connected := true
  nodeType := .localNode
  deviceId := deviceId

/-- The state section of `local_session_start`: the session's node and the ids it was chosen
from, none for a new node. `uuid` is the fresh id for a device without one. -/
def sessionStartSection (deviceName : String) (deviceId : Option String) (uuid : String)
    (s : PlaybackState) : (String × List String) × PlaybackState :=
  let new : (String × List String) × PlaybackState :=
    let nodeId := "local-" ++ deviceId.getD uuid
    ((nodeId, []), { s with nodes := s.nodes ++ [newLocalNode nodeId deviceName deviceId] })
  match deviceId with
  | none => new
  | some did =>
    let ids := matchingIds did s
    match canonicalId ids s with
    | none => new
    | some canonical =>
      let s := (ids.filter fun id => id ≠ canonical).foldl (dropDuplicate canonical) s
      ((canonical, ids), s.modifyNode canonical fun node =>
        { node with connected := true, name := deviceName, deviceId := some did,
                    disconnectedAt := none })

def localSessionStart (deviceName : String) (deviceId : Option String) (uuid : String) :
    Op String := do
  let (nodeId, ids) ← lockState (fun _ _ => .writeState) fun s =>
    (.ok (sessionStartSection deviceName deviceId uuid s).1,
      (sessionStartSection deviceName deviceId uuid s).2)
  if ids ≠ [] then
    lockTransport .writeTransport fun m => ((), retainKeys (fun id => id = nodeId ∨ id ∉ ids) m)
    writeOutputs (retainKeys fun id => id = nodeId ∨ id ∉ ids)
  broadcast
  pure nodeId

/-- A state section on a local node; any other node, or none, is `LocalSessionNotFound`. -/
def lockLocalNode (nodeId : String) (f : PlaybackState → PlaybackState) : Op Unit :=
  lockState
    (fun _ r => match r with
      | .ok _ => .writeState
      | .error _ => .readState)
    fun s =>
      match s.node nodeId with
      | none => (.error .localSessionNotFound, s)
      | some node =>
        if node.nodeType ≠ .localNode then (.error .localSessionNotFound, s) else (.ok (), f s)

/-- The first connected node. -/
def firstConnectedId (s : PlaybackState) : Option String :=
  (s.nodes.find? Node.connected).map Node.id

def localSessionStop (nodeId : String) : Op Unit := do
  lockLocalNode nodeId fun s =>
    let s := { s with nodes := s.nodes.filter fun n => n.id ≠ nodeId }
    if s.selectedNodeId = some nodeId then { s with selectedNodeId := firstConnectedId s } else s
  broadcast

/-- `now` is the clock. -/
def localSessionDisconnect (nodeId : String) (now : Int) : Op Unit := do
  lockLocalNode nodeId fun s => s.modifyNode nodeId fun node =>
    { node with connected := false, disconnectedAt := some now }
  broadcast

/-- The fields of a `LocalSessionUpdate`. -/
structure SessionUpdate where
  queue : Option (List Track) := none
  currentIndex : Option Nat := none
  positionSecs : ℚ := 0
  status : PlaybackStatus := .stopped
  volume : UInt8 := 50
  repeatMode : RepeatMode := .off
  shuffle : Bool := false
deriving DecidableEq, Repr

def SessionUpdate.apply (u : SessionUpdate) (node : Node) : Node :=
  { node with
    connected := true
    queue := u.queue.getD node.queue
    currentIndex := u.currentIndex
    positionSecs := u.positionSecs
    status := u.status
    volume := u.volume
    repeatMode := u.repeatMode
    shuffle := u.shuffle
    disconnectedAt := none }

def localSessionUpdate (nodeId : String) (u : SessionUpdate) : Op Unit := do
  lockLocalNode nodeId fun s => s.modifyNode nodeId u.apply
  broadcast

/-- `now` is the clock, in seconds like `maxAge`; the subtraction saturates at `i64::MIN`. -/
def removedIds (now maxAge : Int) (s : PlaybackState) : List String :=
  let cutoff := max (now - maxAge) (-2 ^ 63)
  (s.nodes.filter fun node => node.nodeType = .localNode ∧ ¬ node.connected ∧
    node.disconnectedAt.any (· ≤ cutoff)).map Node.id

/-- The state section of `cleanup_disconnected_nodes`. -/
def cleanupSection (now maxAge : Int) (s : PlaybackState) : List String × PlaybackState :=
  let ids := removedIds now maxAge s
  if ids = [] then (ids, s)
  else
    let s := { s with nodes := s.nodes.filter fun n => n.id ∉ ids }
    (ids, if s.selectedNodeId.any (· ∈ ids) then { s with selectedNodeId := firstConnectedId s }
      else s)

def cleanupDisconnectedNodes (now maxAge : Int) : Op Unit := do
  let ids ← lockState (fun _ _ => .writeState) fun s =>
    (.ok (cleanupSection now maxAge s).1, (cleanupSection now maxAge s).2)
  if ids = [] then pure ()
  else do
    lockTransport .writeTransport fun m => ((), retainKeys (fun id => id ∉ ids) m)
    writeOutputs (retainKeys fun id => id ∉ ids)
    broadcast

/-! ## Selection and handoff -/

/-- The first state section of `select_node`: nothing when the node is already selected, else the
previous node and what to resume. -/
def selectSection (nodeId : String) (s : PlaybackState) :
    Except CoreError (Option (Option String × PlaybackStatus × ℚ)) × PlaybackState :=
  match s.node nodeId with
  | none => (.error .nodeNotFound, s)
  | some _ =>
    if s.selectedNodeId = some nodeId then (.ok none, s)
    else
      let (resumeStatus, resumePositionSecs) :=
        match s.selectedNode with
        | some n => (n.status, n.positionSecs)
        | none => (.stopped, 0)
      (.ok (some (s.selectedNodeId, resumeStatus, resumePositionSecs)),
        { s with selectedNodeId := some nodeId }.modifyNodes fun node =>
          if node.id ≠ nodeId then { node with status := .stopped, positionSecs := 0 }
          else { node with status := .stopped })

/-- `select_node` stops the output of the previously selected node. -/
def stopPrevious : Option String → Op Unit
  | some previousId => do (← eachOutput previousId).send .stop
  | none => pure ()

/-- `select_node` brings the new node to what the previous one was doing. -/
def resumeSelected (nodeId : String) (resumeStatus : PlaybackStatus) (resumePositionSecs : ℚ) :
    Op Unit :=
  match resumeStatus with
  | .playing => do
    (← eachOutput nodeId).playAt resumePositionSecs
    writeState .writeState fun s => s.modifyNode nodeId fun active =>
      { active with status := .playing, positionSecs := resumePositionSecs }
  | .paused => do
    let o ← eachOutput nodeId
    o.playAt resumePositionSecs
    o.send .pause
    writeState .writeState fun s => s.modifyNode nodeId fun active =>
      { active with status := .paused, positionSecs := resumePositionSecs }
  | _ =>
    writeState .writeState fun s => s.modifyNode nodeId fun active =>
      { active with positionSecs := resumePositionSecs }

def selectNode (nodeId : String) : Op Unit := do
  match ← lockState (fun _ _ => .writeState) (selectSection nodeId) with
  | none => pure ()
  | some (previous, resumeStatus, resumePositionSecs) => do
    stopPrevious previous
    syncOutputToGlobal nodeId
    resumeSelected nodeId resumeStatus resumePositionSecs
    broadcast

/-- Queue, index and position copied by a handoff. -/
def Node.takeOver (queue : List Track) (currentIndex : Option Nat) (positionSecs : ℚ)
    (node : Node) : Node :=
  { node with queue := queue, currentIndex := currentIndex, positionSecs := positionSecs }

def handoff (fromNodeId toNodeId : String) : Op Unit := do
  readState fun s =>
    match s.node fromNodeId, s.node toNodeId with
    | some _, some target =>
      if target.connected then .ok () else .error (.handoffFailed "target node not connected")
    | _, _ => .error .nodeNotFound
  let (queue, currentIndex, positionSecs) ← readState fun s =>
    match s.node fromNodeId with
    | none => .error .nodeNotFound
    | some node => .ok (node.queue, node.currentIndex, node.positionSecs)
  writeState (.edit toNodeId) fun s =>
    s.modifyNode toNodeId (Node.takeOver queue currentIndex positionSecs)
  let targetType ← readState fun s => .ok ((s.node toNodeId).map Node.nodeType)
  if targetType = some .remote then
    syncOutputToGlobal toNodeId
    (← eachOutput toNodeId).playAt positionSecs
    writeState .writeState fun s => s.modifyNode toNodeId fun node =>
      { node with status := .playing }
  broadcast

end Kanade

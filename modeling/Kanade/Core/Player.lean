import Kanade.Core.Runs

/-!
# Kanade.Core.Player

One node and its output, with the operations that load the output.

* `Device`: an output as a list of paths and the position it plays; `devices` is the environment
  in which every call succeeds and the outputs do what they are told.
* `Player`: the node, its projection and its output; `PlayerStep.effect` is what a step does to the
  three, as a pure function.
* `Shows`: the core and the devices show a player. `shows_step`: the operations of the core are
  simulated by their effects.
-/

namespace Kanade

open Concur Fallible

/-! ## Outputs that play lists -/

structure Device where
  list : List String := []
  pos : Nat := 0
deriving DecidableEq, Repr

/-- The commands that load paths; the other ones of the runs below do not touch the list. -/
def Device.exec (d : Device) : OutputCmd → Device
  | .setQueue filePaths _ => ⟨filePaths, 0⟩
  | .add filePaths => { d with list := d.list ++ filePaths }
  | _ => d

/-- On to the next entry, and past the last one. -/
def Device.advance (d : Device) : Device :=
  if d.pos < d.list.length then { d with pos := d.pos + 1 } else d

/-- The path being played, if the position is on the list. -/
def Device.playing (d : Device) : Option String := d.list[d.pos]?

/-- All calls succeed; an output does what it is told. -/
def devices : Outputs (String → Device) := fun x call =>
  match call with
  | .output node _ cmd => (.ok (), Function.update x node ((x node).exec cmd))
  | .onStateChanged _ _ | .persist _ _ => (.ok (), x)

/-! ## Steps -/

/-- A step of a run: one of the operations that load or move the output of node `id`, the output
going on to its next entry, or its report of what it plays. -/
inductive PlayerStep where
  | setQueue (tracks : List Track) (startIndex : Option Nat)
  | play
  | playIndex (index : Nat)
  | next
  | previous
  | clearQueue
  | addToQueue (track : Track)
  | addTracksToQueue (tracks : List Track)
  | sync
  | advance
  | report (status : PlaybackStatus) (positionSecs : ℚ) (volume : UInt8)
deriving DecidableEq, Repr

/-- The operation that a step is. A report is about the entry that is played and carries the
current generation; an output that has come to the end of its list reports no song. -/
def PlayerStep.coreOp (id : String) (c : Core × (String → Device)) : PlayerStep → Option CoreOp
  | .setQueue tracks startIndex => some (.setQueue tracks startIndex)
  | .play => some .play
  | .playIndex index => some (.playIndex index)
  | .next => some .next
  | .previous => some .previous
  | .clearQueue => some .clearQueue
  | .addToQueue track => some (.addToQueue track)
  | .addTracksToQueue tracks => some (.addTracksToQueue tracks)
  | .sync => some (.syncConnectedNode id)
  | .advance => none
  | .report status positionSecs volume =>
    some (.syncNodeState id status positionSecs volume
      ((c.2 id).playing.map fun _ => (c.2 id).pos)
      ((c.1.transportState id).getD {}).projectionGeneration)

def PlayerStep.take (id : String) (step : PlayerStep) (c : Core × (String → Device)) :
    Core × (String → Device) :=
  match step.coreOp id c with
  | some op => op.after devices c
  | none => (c.1, Function.update c.2 id (c.2 id).advance)

/-! ## The player -/

/-- A node, its projection and its output. -/
structure Player where
  node : Node
  projection : Option NodeTransportState
  device : Device
deriving DecidableEq, Repr

namespace Player

/-- A new projection and a new list. -/
def load (start : Option Nat) (loadedLen : Nat) (paths : List String) (p : Player) : Player :=
  { p with
    projection := some (nextProjection p.projection start loadedLen)
    device := ⟨paths, 0⟩ }

def jump (target : Node → Except CoreError Nat) (p : Player) : Player :=
  match target p.node with
  | .error _ => p
  | .ok i =>
    let paths := buildQueueFilePaths p.node.queue (some i)
    { p.load (some i) paths.length paths with
      node := { p.node with currentIndex := some i, positionSecs := 0, status := .playing } }

def append (tracks : List Track) (p : Player) : Player :=
  { node := { p.node with queue := p.node.queue ++ tracks }
    projection := p.projection.map (.extend tracks.length)
    device := { p.device with list := p.device.list ++ tracks.map Track.filePath } }

def clear (p : Player) : Player :=
  { p.load none 0 [] with
    node := { p.node with queue := [], currentIndex := none, positionSecs := 0,
                          status := .stopped } }

def setQueue (tracks : List Track) (startIndex : Option Nat) (p : Player) : Player :=
  let paths := rotatedPaths tracks startIndex
  { p.load (if paths = [] then none else startIndex) paths.length paths with
    node :=
      { p.node with queue := tracks, currentIndex := startIndex, positionSecs := 0,
                    status := if startIndex.isSome then .playing else .stopped } }

def sync (p : Player) : Player :=
  p.load p.node.currentIndex p.node.queue.length
    (buildQueueFilePaths p.node.queue p.node.currentIndex)

def report (status : PlaybackStatus) (positionSecs : ℚ) (volume : UInt8) (p : Player) : Player :=
  let projected := projectedCurrentIndex p.projection (p.device.playing.map fun _ => p.device.pos)
    (p.projection.getD {}).projectionGeneration
  { p with node := (applyReport status positionSecs volume projected p.node).1 }

end Player

def PlayerStep.effect : PlayerStep → Player → Player
  | .setQueue tracks startIndex, p => p.setQueue tracks startIndex
  | .play, p => { p with node := p.node.play }
  | .playIndex index, p => p.jump (indexTarget index)
  | .next, p => p.jump nextIndex
  | .previous, p => p.jump previousIndex
  | .clearQueue, p => p.clear
  | .addToQueue track, p => p.append [track]
  | .addTracksToQueue tracks, p => if tracks.isEmpty then p else p.append tracks
  | .sync, p => p.sync
  | .advance, p => { p with device := p.device.advance }
  | .report status positionSecs volume, p => p.report status positionSecs volume

/-- Node `id` is selected, connected and has an output, and the three parts of `p` are what the
core and the devices hold for it. -/
structure Shows (id : String) (c : Core × (String → Device)) (p : Player) : Prop where
  selected : c.1.state.selectedNodeId = some id
  node : c.1.state.node id = some p.node
  connected : p.node.connected
  output : (c.1.outputs id).isSome
  projection : c.1.transportState id = p.projection
  device : c.2 id = p.device

/-! ## The simulation -/

/-- Node `id` is selected and connected, and has an output. -/
structure Serves (id : String) (w : Core) (node : Node) : Prop where
  selected : w.state.selectedNodeId = some id
  found : w.state.node id = some node
  connected : node.connected
  output : (w.outputs id).isSome

theorem Serves.activeId {id : String} {w : Core} {node : Node} (h : Serves id w node) :
    w.state.activeId = .ok id := by
  simp [PlaybackState.activeId, h.selected, h.found, h.connected]

theorem Serves.activeOutput {id : String} {w : Core} {node : Node} (h : Serves id w node) :
    ∃ slot, w.outputs id = some slot ∧ w.activeOutput = .ok ⟨id, slot⟩ := by
  obtain ⟨slot, hslot⟩ := Option.isSome_iff_exists.1 h.output
  exact ⟨slot, hslot, by simp [Core.activeOutput, h.activeId, hslot]⟩

@[simp] theorem devices_output (x : String → Device) (id : String) (slot : OutputSlot)
    (cmd : OutputCmd) :
    devices x (.output id slot cmd) = (.ok (), Function.update x id ((x id).exec cmd)) := rfl

@[simp] theorem run_broadcast_devices (w : Core) (x : String → Device) :
    broadcast.run devices w x =
      (.ok (), { w with state := w.state.syncTopLevelFromSelectedNode }, x) :=
  run_broadcast_quiet devices w (fun _ _ => rfl) fun _ _ => rfl

section Shows

variable {id : String} {c : Core × (String → Device)} {p : Player}

theorem Shows.serves (h : Shows id c p) : Serves id c.1 p.node :=
  ⟨h.selected, h.node, h.connected, h.output⟩

theorem Shows.activeId (h : Shows id c p) : c.1.state.activeId = .ok id := h.serves.activeId

theorem Shows.activeOutput (h : Shows id c p) : ∃ slot, c.1.outputs id = some slot ∧
    c.1.activeOutput = .ok ⟨id, slot⟩ := h.serves.activeOutput

/-- What is left to check of a step that leaves the selection, the outputs and the connection as
they are. -/
theorem Shows.step (h : Shows id c p) {c' : Core × (String → Device)} {p' : Player}
    (hsel : c'.1.state.selectedNodeId = c.1.state.selectedNodeId)
    (hout : c'.1.outputs = c.1.outputs) (hnode : c'.1.state.node id = some p'.node)
    (hconn : p'.node.connected = p.node.connected)
    (hproj : c'.1.transportState id = p'.projection) (hdev : c'.2 id = p'.device) :
    Shows id c' p' :=
  ⟨hsel.trans h.selected, hnode, hconn.trans h.connected, by rw [hout]; exact h.output, hproj, hdev⟩

theorem shows_jump {target : Node → Except CoreError Nat} (h : Shows id c p) :
    Shows id (((Kanade.jump target).run devices c.1 c.2).2) (p.jump target) := by
  obtain ⟨slot, hslot, -⟩ := h.activeOutput
  unfold Kanade.jump
  simp only [run_bind, run_activeNodeId, h.activeId, run_lockState, jumpSection_eq h.node,
    Player.jump]
  cases ht : target p.node with
  | error e => exact h
  | ok i =>
    simp only [run_rebuildProjectionState, run_activeOutputs, Core.activeOutput, activeId_moveTo,
      h.activeId, hslot, run_send, devices_output, run_writeState, run_broadcast_devices]
    refine h.step syncTopLevel_selectedNodeId rfl ?_ rfl ?_ ?_
    · rw [node_syncTopLevel, node_modifyNode_self fun _ => by rfl, node_moveTo, h.node]
      rfl
    · simp [rebuilt, Player.load, h.projection]
    · simp [Device.exec, Player.load]

theorem shows_play (h : Shows id c p) :
    Shows id (CoreOp.play.after devices c) { p with node := p.node.play } := by
  obtain ⟨slot, hslot, -⟩ := h.activeOutput
  simp only [CoreOp.after, CoreOp.task, Kanade.play, playNode, commandNode, run_bind,
    run_activeNodeId, h.activeId, run_eachOutput, hslot, run_send, devices_output, run_writeState,
    run_broadcast_devices]
  refine h.step syncTopLevel_selectedNodeId rfl ?_ ?_ h.projection ?_
  · rw [node_syncTopLevel, node_modifyNode_self fun n => (play_frame n).1, h.node]
    rfl
  · exact (play_frame p.node).2
  · simp [Device.exec, h.device]

theorem shows_append {tracks : List Track} (h : Shows id c p) (hne : tracks ≠ []) :
    Shows id ((appendToQueue tracks).run devices c.1 c.2).2 (p.append tracks) := by
  obtain ⟨slot, hslot, hout⟩ := h.activeOutput
  have hlen : (tracks.map Track.filePath).length ≠ 0 := by simpa using hne
  unfold appendToQueue
  simp only [run_bind, run_readState, h.selected, run_lockState, h.node, run_maybeActiveOutputs]
  rw [activeOutput_modifyNode (fun _ => by rfl) fun _ => by rfl, hout]
  simp only [Except.toOption, run_bind, run_send, devices_output, extendProjectionLoadedLenActive, hlen, if_false,
    adjustProjectionActive, run_attempt, run_activeNodeId]
  rw [activeId_modifyNode (fun _ => by rfl) fun _ => by rfl, h.activeId]
  simp only [run_lockTransport, run_broadcast_devices]
  refine h.step syncTopLevel_selectedNodeId rfl ?_ rfl ?_ ?_
  · rw [node_syncTopLevel, node_modifyNode_self fun _ => by rfl, h.node]
    rfl
  · simp [Player.append, h.projection]
  · simp [Device.exec, Player.append, h.device]

theorem shows_clear (h : Shows id c p) : Shows id (CoreOp.clearQueue.after devices c) p.clear := by
  obtain ⟨slot, hslot, -⟩ := h.activeOutput
  simp only [CoreOp.after, CoreOp.task, Kanade.clearQueue, run_bind, run_attempt, run_activeNodeId,
    h.activeId, run_rebuildProjectionState, run_eachOutput, hslot, run_send, devices_output,
    lockSelected, run_lockState, PlaybackState.selectedNode, h.selected, Option.bind_some, h.node,
    run_broadcast_devices]
  rw [node_id h.node]
  refine h.step syncTopLevel_selectedNodeId rfl ?_ rfl ?_ ?_
  · rw [node_syncTopLevel, node_modifyNode_self fun _ => by rfl, h.node]
    rfl
  · simp [rebuilt, Player.clear, Player.load, h.projection]
  · simp [Device.exec, Player.clear, Player.load]

/-- The state section of `set_queue` on the active node. -/
theorem shows_setQueue {tracks : List Track} {startIndex : Option Nat} (h : Shows id c p) :
    Shows id ((CoreOp.setQueue tracks startIndex).after devices c) (p.setQueue tracks startIndex) := by
  obtain ⟨slot, hslot, hout⟩ := h.activeOutput
  simp only [CoreOp.after, CoreOp.task, Kanade.setQueue, setQueueRest, run_bind, run_readState, h.selected,
    run_attempt, run_activeNodeId, h.activeId, Except.toOption, run_rebuildProjectionState,
    run_eachOutput, hslot, run_send, devices_output, run_lockState]
  cases startIndex with
  | none =>
    simp only [setQueueSection, h.node, Option.isSome_none, Bool.false_eq_true, if_false,
      run_broadcast_devices]
    refine h.step syncTopLevel_selectedNodeId rfl ?_ rfl ?_ ?_
    · rw [node_syncTopLevel, node_modifyNode_self fun _ => by rfl, h.node]
      rfl
    · simp [rebuilt, Player.setQueue, Player.load, h.projection]
    · simp [Device.exec, Player.setQueue, Player.load]
  | some i =>
    simp only [setQueueSection_eq h.node, Option.isSome_some, if_true, run_bind,
      run_maybeActiveOutputs]
    rw [activeOutput_modifyNode (fun _ => by rfl) fun _ => by rfl, hout]
    simp only [Except.toOption, run_bind, run_send, devices_output, run_broadcast_devices]
    refine h.step syncTopLevel_selectedNodeId rfl ?_ rfl ?_ ?_
    · rw [node_syncTopLevel, node_modifyNode_self fun _ => by rfl, h.node]
      rfl
    · simp [rebuilt, Player.setQueue, Player.load, h.projection]
    · simp [Device.exec, Player.setQueue, Player.load]

/-- Playing, seeking, pausing and stopping leave the lists alone. -/
theorem run_send_idle {o : OutputHandle} {cmd : OutputCmd} (hcmd : ∀ d : Device, d.exec cmd = d)
    (w : Core) (x : String → Device) : (o.send cmd).run devices w x = (.ok (), w, x) := by
  rw [run_send, devices_output, hcmd, Function.update_eq_self]

theorem run_playAt_devices (o : OutputHandle) (pos : ℚ) (w : Core) (x : String → Device) :
    (o.playAt pos).run devices w x = (.ok (), w, x) := by
  rw [OutputHandle.playAt, run_bind, run_send_idle fun _ => rfl]
  dsimp only
  split
  · exact run_send_idle (fun _ => rfl) w x
  · rfl

theorem run_applyOutputRuntimeState_devices {slot : OutputSlot} {w : Core}
    (hslot : w.outputs id = some slot) (status : PlaybackStatus) (pos : ℚ) (x : String → Device) :
    (applyOutputRuntimeState id status pos).run devices w x = (.ok (), w, x) := by
  rw [applyOutputRuntimeState, run_bind, run_eachOutput_some _ _ _ hslot]
  cases status with
  | stopped => exact run_send_idle (fun _ => rfl) w x
  | playing => exact run_playAt_devices _ pos w x
  | loading => exact run_playAt_devices _ pos w x
  | paused =>
    dsimp only
    rw [run_bind, run_playAt_devices]
    exact run_send_idle (fun _ => rfl) w x

theorem shows_sync (h : Shows id c p) :
    Shows id ((CoreOp.syncConnectedNode id).after devices c) p.sync := by
  obtain ⟨slot, hslot, -⟩ := h.activeOutput
  simp only [CoreOp.after, CoreOp.task, syncConnectedNodeToLogicalState, syncOutputToGlobal,
    run_bind, run_readState, h.node, h.selected, beq_self_eq_true, if_true,
    run_rebuildProjectionState, run_eachOutput, hslot, run_send, devices_output]
  rw [run_applyOutputRuntimeState_devices (by exact hslot)]
  refine h.step rfl rfl h.node rfl ?_ ?_
  · simp [rebuilt, Player.sync, Player.load, h.projection]
  · simp [Device.exec, Player.sync, Player.load]

theorem shows_report {status : PlaybackStatus} {pos : ℚ} {volume : UInt8} (h : Shows id c p) :
    Shows id ((PlayerStep.report status pos volume).take id c) (p.report status pos volume) := by
  have hframe := applyReport_frame status pos volume
    (projectedCurrentIndex p.projection (p.device.playing.map fun _ => p.device.pos)
      (p.projection.getD {}).projectionGeneration)
  simp only [PlayerStep.take, PlayerStep.coreOp, CoreOp.after, CoreOp.task, syncNodeState, run_bind,
    run_lockTransport, run_lockState, h.node, h.projection, h.device]
  have hend : ∀ s : PlaybackState,
      s.node id = some (p.report status pos volume).node →
      s.selectedNodeId = c.1.state.selectedNodeId →
      Shows id ({ c.1 with state := s }, c.2) (p.report status pos volume) := fun s hn hs =>
    h.step hs rfl hn (hframe p.node).2.1 h.projection h.device
  have hn : (c.1.state.modifyNode id fun n =>
      (applyReport status pos volume (projectedCurrentIndex p.projection
        (p.device.playing.map fun _ => p.device.pos)
        (p.projection.getD {}).projectionGeneration) n).1).node id =
      some (p.report status pos volume).node := by
    rw [node_modifyNode_self fun n => (hframe n).1, h.node]
    rfl
  split
  · rw [run_broadcast_devices]
    exact hend _ (by rw [node_syncTopLevel]; exact hn) syncTopLevel_selectedNodeId
  · exact hend _ hn rfl

/-- Every step of a run does to what is shown exactly its effect. -/
theorem shows_step (step : PlayerStep) (h : Shows id c p) :
    Shows id (step.take id c) (step.effect p) := by
  cases step with
  | setQueue tracks startIndex => exact shows_setQueue h
  | play => exact shows_play h
  | playIndex index => exact shows_jump h
  | next => exact shows_jump h
  | previous => exact shows_jump h
  | clearQueue => exact shows_clear h
  | addToQueue track => exact shows_append h (by simp)
  | addTracksToQueue tracks =>
    cases tracks with
    | nil => exact h
    | cons t ts => exact shows_append h (by simp)
  | sync => exact shows_sync h
  | advance =>
    refine h.step rfl rfl h.node rfl h.projection ?_
    simp [PlayerStep.take, PlayerStep.coreOp, PlayerStep.effect, h.device]
  | report status pos volume => exact shows_report h

end Shows

end Kanade

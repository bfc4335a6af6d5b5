import Kanade.Core.World
import Mathlib.Algebra.Order.Group.Unbundled.Abs
import Mathlib.Algebra.Order.Ring.Rat

/-!
# Kanade.Core.Projection

The projection: the part of a node's queue that its output has loaded, under a generation number.
`rebuild_projection_state` installs a new one, `sync_output_to_global` sends a node's queue to its
output, the two `.._projection_loaded_len_active` patch its length, and `sync_node_state` maps an
output's report back to the queue through it.
-/

namespace Kanade

open Concur

/-- The file paths from the current track on (from the first when there is no current track). -/
def buildQueueFilePaths (queue : List Track) (currentIndex : Option Nat) : List String :=
  let start := currentIndex.getD 0
  let tail :=
    if currentIndex.isSome then (queue.drop (usizeSucc start)).map Track.filePath
    else (queue.drop 1).map Track.filePath
  let head :=
    match queue[start]? with
    | some t => [t.filePath]
    | none => []
  head ++ tail

/-- The new projection of a node, with the next generation. -/
def nextProjection (old : Option NodeTransportState) (projectionStartIndex : Option Nat)
    (loadedLen : Nat) : NodeTransportState :=
  { projectionGeneration := (old.getD {}).projectionGeneration + 1
    projectionStartIndex := projectionStartIndex
    loadedLen := loadedLen }

def rebuildProjectionState (nodeId : String) (projectionStartIndex : Option Nat)
    (loadedLen : Nat) : Op UInt64 :=
  lockTransport (.rebuild nodeId) fun m =>
    let entry := nextProjection (m nodeId) projectionStartIndex loadedLen
    (entry.projectionGeneration, Function.update m nodeId (some entry))

/-- What `rebuild_projection_state` leaves in the map. -/
def rebuilt (m : String → Option NodeTransportState) (nodeId : String)
    (projectionStartIndex : Option Nat) (loadedLen : Nat) : String → Option NodeTransportState :=
  Function.update m nodeId (some (nextProjection (m nodeId) projectionStartIndex loadedLen))

/-- The generation the next projection of the node will have. -/
def nextGeneration (m : String → Option NodeTransportState) (nodeId : String) : UInt64 :=
  ((m nodeId).getD {}).projectionGeneration + 1

@[simp] theorem run_rebuildProjectionState {η : Type}
    (env : Env η CoreCall (Except CoreError Unit)) (w : Core) (x : η) (id : String)
    (start : Option Nat) (len : Nat) :
    (rebuildProjectionState id start len).run env w x =
      (.ok (nextGeneration w.transportState id),
        { w with transportState := rebuilt w.transportState id start len }, x) := rfl

def syncOutputToGlobal (nodeId : String) : Op Unit := do
  let (queue, projectionStart, loadedLen, volume) ← readState fun s =>
    match s.node nodeId with
    | none => .error .nodeNotFound
    | some node =>
      .ok (buildQueueFilePaths node.queue node.currentIndex, node.currentIndex, node.queue.length,
        node.volume)
  let projectionGeneration ← rebuildProjectionState nodeId projectionStart loadedLen
  let o ← eachOutput nodeId
  o.send (.setVolume volume)
  o.send (.setQueue queue projectionGeneration)

/-- The loaded length of a projection after tracks were added to its output. -/
def NodeTransportState.extend (added : Nat) (p : NodeTransportState) : NodeTransportState :=
  { p with loadedLen := min (p.loadedLen + added) usizeMax }

/-- The loaded length of a projection after tracks were removed from its output. -/
def NodeTransportState.decrement (removed : Nat) (p : NodeTransportState) : NodeTransportState :=
  { p with
    loadedLen := p.loadedLen - removed
    projectionStartIndex :=
      if p.loadedLen - removed = 0 then none else p.projectionStartIndex }

/-- The common body of the two length patches: of the node that is active *now*, if any. -/
def adjustProjectionActive (f : NodeTransportState → NodeTransportState) : Op Unit := do
  match ← activeNodeId.attempt with
  | .error _ => pure ()
  | .ok nodeId =>
    lockTransport (.adjust nodeId) fun m => ((), Function.update m nodeId ((m nodeId).map f))

def extendProjectionLoadedLenActive (addedLen : Nat) : Op Unit :=
  if addedLen = 0 then pure () else adjustProjectionActive (.extend addedLen)

def decrementProjectionLoadedLenActive (removedLen : Nat) : Op Unit :=
  if removedLen = 0 then pure () else adjustProjectionActive (.decrement removedLen)

/-! ## Reports from an output -/

/-- `f64::EPSILON`. -/
def f64Epsilon : ℚ := 1 / 2 ^ 52

/-- The queue index a report stands for: none when it is about another generation, about no song,
or about a song beyond the loaded length. -/
def projectedCurrentIndex (projection : Option NodeTransportState) (mpdSongIndex : Option Nat)
    (projectionGeneration : UInt64) : Option Nat := do
  let projection ← projection
  if projection.projectionGeneration ≠ projectionGeneration then none
  else
    let mpdSongIndex ← mpdSongIndex
    if mpdSongIndex ≥ projection.loadedLen then none
    else
      let start ← projection.projectionStartIndex
      if start + mpdSongIndex ≤ usizeMax then some (start + mpdSongIndex) else none

/-- What a report makes of the node: its status, position, volume and index, and whether anything
changed. -/
def applyReport (status : PlaybackStatus) (positionSecs : ℚ) (volume : UInt8)
    (projected : Option Nat) (node : Node) : Node × Bool :=
  let (node, changed) :=
    if node.status ≠ status then ({ node with status := status }, true) else (node, false)
  let (node, changed) :=
    if |node.positionSecs - positionSecs| > f64Epsilon then
      ({ node with positionSecs := positionSecs }, true)
    else (node, changed)
  let (node, changed) :=
    if node.volume ≠ volume then ({ node with volume := volume }, true) else (node, changed)
  match projected with
  | none => (node, changed)
  | some nextIndex =>
    if nextIndex < node.queue.length ∧ node.currentIndex ≠ some nextIndex then
      ({ node with currentIndex := some nextIndex }, true)
    else (node, changed)

theorem applyReport_unchanged {status : PlaybackStatus} {pos : ℚ} {volume : UInt8}
    {projected : Option Nat} {n : Node} (h : (applyReport status pos volume projected n).2 = false) :
    (applyReport status pos volume projected n).1 = n := by
  unfold applyReport at h ⊢
  cases projected with
  | none =>
    dsimp only at h ⊢
    split_ifs at h ⊢
    rfl
  | some i =>
    dsimp only at h ⊢
    split_ifs at h ⊢
    rfl

theorem applyReport_frame (status : PlaybackStatus) (pos : ℚ) (volume : UInt8)
    (projected : Option Nat) (n : Node) :
    (applyReport status pos volume projected n).1.id = n.id ∧
      (applyReport status pos volume projected n).1.connected = n.connected ∧
        (applyReport status pos volume projected n).1.queue = n.queue := by
  unfold applyReport
  cases projected with
  | none => dsimp only; split <;> split <;> split <;> exact ⟨rfl, rfl, rfl⟩
  | some i => dsimp only; split <;> split <;> split <;> split <;> exact ⟨rfl, rfl, rfl⟩

theorem applyReport_none_currentIndex (status : PlaybackStatus) (pos : ℚ) (volume : UInt8)
    (n : Node) : (applyReport status pos volume none n).1.currentIndex = n.currentIndex := by
  unfold applyReport
  dsimp only
  split <;> split <;> split <;> rfl

def syncNodeState (nodeId : String) (status : PlaybackStatus) (positionSecs : ℚ) (volume : UInt8)
    (mpdSongIndex : Option Nat) (projectionGeneration : UInt64) : Op Unit := do
  let projected ← lockTransport (.project nodeId) fun m =>
    (projectedCurrentIndex (m nodeId) mpdSongIndex projectionGeneration, m)
  let changed ← lockState (fun _ _ => .report nodeId) fun s =>
    match s.node nodeId with
    | none => (.ok false, s)
    | some node =>
      (.ok (applyReport status positionSecs volume projected node).2,
        s.modifyNode nodeId fun n => (applyReport status positionSecs volume projected n).1)
  if changed then broadcast else pure ()

end Kanade

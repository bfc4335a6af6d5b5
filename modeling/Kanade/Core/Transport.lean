import Kanade.Core.Projection

/-!
# Kanade.Core.Transport

Playing, pausing, stopping, seeking, volume, shuffle and repeat, and the three operations that
move to another track and reload the output there: `next`, `previous`, `play_index`.
-/

namespace Kanade

open Concur

/-- `self.{play,pause,stop,seek}_node`: the command to the node's output, then the write. -/
def commandNode (nodeId : String) (cmd : OutputCmd) (f : Node → Node) : Op Unit := do
  let o ← eachOutput nodeId
  o.send cmd
  writeState .writeState fun s => s.modifyNode nodeId f
  broadcast

def pauseNode (nodeId : String) : Op Unit :=
  commandNode nodeId .pause fun node => { node with status := .paused }

def stopNode (nodeId : String) : Op Unit :=
  commandNode nodeId .stop fun node => { node with status := .stopped, positionSecs := 0 }

def seekNode (nodeId : String) (positionSecs : ℚ) : Op Unit :=
  commandNode nodeId (.seek positionSecs) fun node => { node with positionSecs := positionSecs }

/-- What `play_node` makes of the node: a first index for a queue without one, and playing when
there is an index. -/
def Node.play (node : Node) : Node :=
  let node :=
    if node.queue ≠ [] ∧ node.currentIndex = none then { node with currentIndex := some 0 }
    else node
  if node.currentIndex.isSome then { node with status := .playing } else node

theorem play_frame (n : Node) : n.play.id = n.id ∧ n.play.connected = n.connected := by
  unfold Node.play
  constructor
  · split <;> dsimp only <;> split <;> rfl
  · split <;> dsimp only <;> split <;> rfl

def playNode (nodeId : String) : Op Unit := commandNode nodeId .play Node.play

def setNodeVolume (nodeId : String) (volume : UInt8) : Op Unit :=
  if volume > 100 then Fallible.throw .invalidVolume
  else commandNode nodeId (.setVolume volume) fun node => { node with volume := volume }

def play : Op Unit := do playNode (← activeNodeId)

def pause : Op Unit := do pauseNode (← activeNodeId)

def stop : Op Unit := do stopNode (← activeNodeId)

def seek (positionSecs : ℚ) : Op Unit := do seekNode (← activeNodeId) positionSecs

def setVolume (volume : UInt8) : Op Unit := do setNodeVolume (← activeNodeId) volume

/-- A write through `selected_node_mut`, labelled as an edit of that node. -/
def lockSelected {α : Type} (f : Node → Except CoreError (α × (Node → Node))) : Op α :=
  lockState
    (fun s r => match s.selectedNodeId with
      | some id => editLabel id r
      | none => .readState)
    fun s =>
      match s.selectedNode with
      | none => (.error .noActiveOutput, s)
      | some node =>
        match f node with
        | .error e => (.error e, s)
        | .ok (a, g) => (.ok a, s.modifyNode node.id g)

def setShuffle (shuffle : Bool) : Op Unit := do
  lockSelected fun _ => .ok ((), fun node => { node with shuffle := shuffle })
  broadcast

def setRepeat (repeatMode : RepeatMode) : Op Unit := do
  lockSelected fun _ => .ok ((), fun node => { node with repeatMode := repeatMode })
  broadcast

/-! ## Moving to another track -/

/-- The index `next` goes to. -/
def nextIndex (node : Node) : Except CoreError Nat :=
  if node.queue.length = 0 then .error .queueEmpty
  else
    match node.currentIndex with
    | some i =>
      match node.repeatMode with
      | .off =>
        if usizeSucc i < node.queue.length then .ok (usizeSucc i) else .error .queueEmpty
      | .one => .ok i
      | .all => .ok (usizeSucc i % node.queue.length)
    | none => .ok 0

/-- The index `previous` goes to. -/
def previousIndex (node : Node) : Except CoreError Nat :=
  if node.queue.length = 0 then .error .queueEmpty
  else
    match node.currentIndex with
    | some (i + 1) => .ok i
    | some 0 | none =>
      match node.repeatMode with
      | .off => .error .queueEmpty
      | .one => .ok 0
      | .all => .ok (node.queue.length - 1)

/-- The index `play_index` goes to. -/
def indexTarget (index : Nat) (node : Node) : Except CoreError Nat :=
  if index ≥ node.queue.length then .error .queueIndexOutOfBounds else .ok index

/-- The state after the move: the node's index is set and every node's position is reset. -/
def moveTo (nodeId : String) (i : Nat) (s : PlaybackState) : PlaybackState :=
  (s.modifyNode nodeId fun node => { node with currentIndex := some i }).modifyNodes
    fun node => { node with positionSecs := 0 }

/-- The state section of the three: the index, the positions, and the queue to send. -/
def jumpSection (nodeId : String) (target : Node → Except CoreError Nat) (s : PlaybackState) :
    Except CoreError (List String × Option Nat × Nat) × PlaybackState :=
  match s.node nodeId with
  | none => (.error .nodeNotFound, s)
  | some node =>
    match target node with
    | .error e => (.error e, s)
    | .ok i =>
      let s' := moveTo nodeId i s
      match s'.node nodeId with
      | none => (.error .nodeNotFound, s')
      | some node =>
        let queue := buildQueueFilePaths node.queue node.currentIndex
        (.ok (queue, node.currentIndex, queue.length), s')

theorem activeId_moveTo (id : String) (i : Nat) (s : PlaybackState) :
    (moveTo id i s).activeId = s.activeId := by
  unfold moveTo
  rw [activeId_modifyNodes, activeId_modifyNode]
  all_goals exact fun _ => rfl

theorem node_moveTo (id : String) (i : Nat) (s : PlaybackState) :
    (moveTo id i s).node id =
      (s.node id).map fun n => { n with currentIndex := some i, positionSecs := 0 } := by
  unfold moveTo
  rw [node_modifyNodes, node_modifyNode_self, Option.map_map]
  · rfl
  all_goals exact fun _ => rfl

/-- The section of the three jumps: it fails before it writes, or writes and succeeds. -/
theorem jumpSection_eq {id : String} {target : Node → Except CoreError Nat} {s : PlaybackState}
    {node : Node} (hn : s.node id = some node) :
    jumpSection id target s =
      match target node with
      | .error e => (.error e, s)
      | .ok i =>
        (.ok (buildQueueFilePaths node.queue (some i), some i,
          (buildQueueFilePaths node.queue (some i)).length), moveTo id i s) := by
  unfold jumpSection
  rw [hn]
  dsimp only
  cases target node with
  | error e => rfl
  | ok i =>
    dsimp only
    rw [node_moveTo, hn]
    rfl

/-- The common body of `next`, `previous` and `play_index`. The outputs are looked up again for
each of the two commands. -/
def jump (target : Node → Except CoreError Nat) : Op Unit := do
  let activeId ← activeNodeId
  let (queuePaths, projectionStart, loadedLen) ←
    lockState (fun _ => editLabel activeId) (jumpSection activeId target)
  let projectionGeneration ← rebuildProjectionState activeId projectionStart loadedLen
  let o ← activeOutputs
  o.send (.setQueue queuePaths projectionGeneration)
  let o ← activeOutputs
  o.send .play
  writeState .writeState fun s => s.modifyNode activeId fun node => { node with status := .playing }
  broadcast

def next : Op Unit := jump nextIndex

def previous : Op Unit := jump previousIndex

def playIndex (index : Nat) : Op Unit := jump (indexTarget index)

end Kanade

import Kanade.Core.Nodes

/-!
# Kanade.Core.Ops

The operations of `Core` as one type, and what each of them can do to the playback state.

`CoreOp.Writes` lists, for each operation, the rewrites of `state` that its sections consist of;
`CoreOp.within` is the one place where the bodies of the operations are taken apart for it: a
relation between playback states that is a preorder, allows the mirror to be recomputed and holds
of every listed rewrite holds across every section of the operation. Invariants and frame
conditions follow by cases on `Writes`.
-/

namespace Kanade

open Concur

/-- An operation of `Core` with its arguments. -/
inductive CoreOp where
  | registerOutput (id connectionId : String) (output : Nat)
  | unregisterOutput (id connectionId : String)
  | syncNodeState (nodeId : String) (status : PlaybackStatus) (positionSecs : ℚ) (volume : UInt8)
      (mpdSongIndex : Option Nat) (projectionGeneration : UInt64)
  | addNode (node : Node)
  | markNodeConnected (nodeId : String) (connected : Bool)
  | handleNodeDisconnected (nodeId : String)
  | syncConnectedNode (nodeId : String)
  | removeNode (nodeId : String)
  | localSessionStart (deviceName : String) (deviceId : Option String) (uuid : String)
  | localSessionStop (nodeId : String)
  | localSessionDisconnect (nodeId : String) (now : Int)
  | localSessionUpdate (nodeId : String) (update : SessionUpdate)
  | handoff (fromNodeId toNodeId : String)
  | cleanupDisconnectedNodes (now maxAge : Int)
  | selectNode (nodeId : String)
  | play
  | pause
  | stop
  | seek (positionSecs : ℚ)
  | setVolume (volume : UInt8)
  | next
  | previous
  | setShuffle (shuffle : Bool)
  | setRepeat (repeatMode : RepeatMode)
  | addToQueue (track : Track)
  | addTracksToQueue (tracks : List Track)
  | clearQueue
  | removeFromQueue (index : Nat)
  | moveInQueue (src dst : Nat)
  | playIndex (index : Nat)
  | setQueue (tracks : List Track) (startIndex : Option Nat)
deriving DecidableEq, Repr

/-- The operation as a task. -/
def CoreOp.task : CoreOp → Op Unit
  | .registerOutput id connectionId output => Kanade.registerOutput id connectionId output
  | .unregisterOutput id connectionId => Kanade.unregisterOutput id connectionId
  | .syncNodeState id status pos volume song gen =>
    Kanade.syncNodeState id status pos volume song gen
  | .addNode node => Kanade.addNode node
  | .markNodeConnected id connected => Kanade.markNodeConnected id connected
  | .handleNodeDisconnected id => Kanade.handleNodeDisconnected id
  | .syncConnectedNode id => syncConnectedNodeToLogicalState id
  | .removeNode id => Kanade.removeNode id
  | .localSessionStart name deviceId uuid => do
    let _ ← Kanade.localSessionStart name deviceId uuid
    pure ()
  | .localSessionStop id => Kanade.localSessionStop id
  | .localSessionDisconnect id now => Kanade.localSessionDisconnect id now
  | .localSessionUpdate id u => Kanade.localSessionUpdate id u
  | .handoff fromId toId => Kanade.handoff fromId toId
  | .cleanupDisconnectedNodes now maxAge => Kanade.cleanupDisconnectedNodes now maxAge
  | .selectNode id => Kanade.selectNode id
  | .play => Kanade.play
  | .pause => Kanade.pause
  | .stop => Kanade.stop
  | .seek pos => Kanade.seek pos
  | .setVolume volume => Kanade.setVolume volume
  | .next => Kanade.next
  | .previous => Kanade.previous
  | .setShuffle shuffle => Kanade.setShuffle shuffle
  | .setRepeat mode => Kanade.setRepeat mode
  | .addToQueue track => Kanade.addToQueue track
  | .addTracksToQueue tracks => Kanade.addTracksToQueue tracks
  | .clearQueue => Kanade.clearQueue
  | .removeFromQueue index => Kanade.removeFromQueue index
  | .moveInQueue src dst => Kanade.moveInQueue src dst
  | .playIndex index => Kanade.playIndex index
  | .setQueue tracks startIndex => Kanade.setQueue tracks startIndex

/-- The rewrites of `state` that an operation's sections consist of, the recomputation of the
mirror apart. What a rewrite carries over from an earlier section was read in a state with `I`. -/
inductive CoreOp.Writes (I : PlaybackState → Prop) :
    CoreOp → (PlaybackState → PlaybackState) → Prop where
  | report (id : String) (status : PlaybackStatus) (pos : ℚ) (volume : UInt8) (song : Option Nat)
      (gen : UInt64) (projected : Option Nat) :
    Writes I (.syncNodeState id status pos volume song gen)
      (·.modifyNode id fun n => (applyReport status pos volume projected n).1)
  | addNode (node : Node) : Writes I (.addNode node) (addNodeSection node)
  | mark (id : String) (connected : Bool) :
    Writes I (.markNodeConnected id connected) (·.modifyNode id fun node =>
      let node := { node with connected := connected }
      if connected then node else { node with status := .stopped, positionSecs := 0 })
  | disconnect (id : String) :
    Writes I (.handleNodeDisconnected id) fun s => (disconnectSection id s).2
  | disconnectStop (id fallback : String) :
    Writes I (.handleNodeDisconnected id)
      (·.modifyNode fallback fun node => { node with status := .stopped, positionSecs := 0 })
  | syncStop (id : String) :
    Writes I (.syncConnectedNode id)
      (·.modifyNode id fun node => { node with status := .stopped, positionSecs := 0 })
  | remove (id : String) :
    Writes I (.removeNode id) fun s =>
      let s := { s with nodes := s.nodes.filter fun n => n.id ≠ id }
      if s.selectedNodeId = some id then { s with selectedNodeId := s.nodes.head?.map Node.id }
      else s
  | sessionStart (name : String) (deviceId : Option String) (uuid : String) :
    Writes I (.localSessionStart name deviceId uuid)
      fun s => (sessionStartSection name deviceId uuid s).2
  | sessionStop (id : String) :
    Writes I (.localSessionStop id) fun s =>
      let s := { s with nodes := s.nodes.filter fun n => n.id ≠ id }
      if s.selectedNodeId = some id then { s with selectedNodeId := firstConnectedId s } else s
  | sessionDisconnect (id : String) (now : Int) :
    Writes I (.localSessionDisconnect id now) (·.modifyNode id fun node =>
      { node with connected := false, disconnectedAt := some now })
  | sessionUpdate (id : String) (u : SessionUpdate) :
    Writes I (.localSessionUpdate id u) (·.modifyNode id u.apply)
  | takeOver (fromId toId : String) (s₀ : PlaybackState) (node : Node) (hs₀ : I s₀)
      (hnode : s₀.node fromId = some node) :
    Writes I (.handoff fromId toId)
      (·.modifyNode toId (Node.takeOver node.queue node.currentIndex node.positionSecs))
  | handoffPlaying (fromId toId : String) :
    Writes I (.handoff fromId toId) (·.modifyNode toId fun node => { node with status := .playing })
  | cleanup (now maxAge : Int) :
    Writes I (.cleanupDisconnectedNodes now maxAge) fun s => (cleanupSection now maxAge s).2
  | select (id : String) : Writes I (.selectNode id) fun s => (selectSection id s).2
  | resume (id : String) (status : PlaybackStatus) (pos : ℚ) :
    Writes I (.selectNode id) (·.modifyNode id fun node =>
      { node with status := status, positionSecs := pos })
  | resumePosition (id : String) (pos : ℚ) :
    Writes I (.selectNode id) (·.modifyNode id fun node => { node with positionSecs := pos })
  | play (id : String) : Writes I .play (·.modifyNode id Node.play)
  | pause (id : String) : Writes I .pause (·.modifyNode id fun n => { n with status := .paused })
  | stop (id : String) :
    Writes I .stop (·.modifyNode id fun n => { n with status := .stopped, positionSecs := 0 })
  | seek (id : String) (pos : ℚ) :
    Writes I (.seek pos) (·.modifyNode id fun n => { n with positionSecs := pos })
  | setVolume (id : String) (volume : UInt8) :
    Writes I (.setVolume volume) (·.modifyNode id fun n => { n with volume := volume })
  | next (id : String) : Writes I .next fun s => (jumpSection id nextIndex s).2
  | nextPlaying (id : String) :
    Writes I .next (·.modifyNode id fun n => { n with status := .playing })
  | previous (id : String) : Writes I .previous fun s => (jumpSection id previousIndex s).2
  | previousPlaying (id : String) :
    Writes I .previous (·.modifyNode id fun n => { n with status := .playing })
  | playIndex (id : String) (index : Nat) :
    Writes I (.playIndex index) fun s => (jumpSection id (indexTarget index) s).2
  | playIndexPlaying (id : String) (index : Nat) :
    Writes I (.playIndex index) (·.modifyNode id fun n => { n with status := .playing })
  | setShuffle (id : String) (shuffle : Bool) :
    Writes I (.setShuffle shuffle) (·.modifyNode id fun n => { n with shuffle := shuffle })
  | setRepeat (id : String) (mode : RepeatMode) :
    Writes I (.setRepeat mode) (·.modifyNode id fun n => { n with repeatMode := mode })
  | add (id : String) (track : Track) :
    Writes I (.addToQueue track) (·.modifyNode id fun n => { n with queue := n.queue ++ [track] })
  | addTracks (id : String) (tracks : List Track) :
    Writes I (.addTracksToQueue tracks)
      (·.modifyNode id fun n => { n with queue := n.queue ++ tracks })
  | clear (id : String) :
    Writes I .clearQueue (·.modifyNode id fun n =>
      { n with queue := [], currentIndex := none, positionSecs := 0, status := .stopped })
  | removeTrack (index : Nat) :
    Writes I (.removeFromQueue index) fun s =>
      match s.selectedNode with
      | some node =>
        if index < node.queue.length then s.modifyNode node.id (Node.removeTrack index) else s
      | none => s
  | moveTrack (src dst : Nat) :
    Writes I (.moveInQueue src dst) fun s =>
      match s.selectedNode with
      | some node =>
        if src < node.queue.length ∧ dst < node.queue.length then
          s.modifyNode node.id (Node.moveTrack src dst)
        else s
      | none => s
  | setQueue (id : String) (activeId : Option String) (tracks : List Track)
      (startIndex : Option Nat) :
    Writes I (.setQueue tracks startIndex)
      fun s => (setQueueSection id activeId tracks startIndex s).2

end Kanade

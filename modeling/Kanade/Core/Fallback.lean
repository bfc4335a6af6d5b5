import Kanade.Core.Runs

/-!
# Kanade.Core.Fallback

`handle_node_disconnected` on the selected node, with outputs that do what they are told.

The fallback is chosen from the list of nodes alone, and whether it has an output is a matter of the
other map: a local session is connected and has none. `fallsBack_iff`: when the fallback can play.
-/

namespace Kanade

open Concur Fallible

/-! ## Outputs that play -/

/-- What an output was told: a list under a generation, and what to do with it. -/
structure Station where
  queue : List String := []
  projectionGeneration : UInt64 := 0
  status : PlaybackStatus := .stopped
  positionSecs : ℚ := 0
deriving DecidableEq, Repr

namespace Station

/-- A new list starts from its beginning. The commands that edit one do not occur below. -/
def exec (s : Station) : OutputCmd → Station
  | .play => { s with status := .playing }
  | .pause => { s with status := .paused }
  | .stop => { s with status := .stopped, positionSecs := 0 }
  | .seek positionSecs => { s with positionSecs := positionSecs }
  | .setQueue filePaths generation => ⟨filePaths, generation, .stopped, 0⟩
  | .setVolume _ | .add _ | .remove _ | .moveTrack _ _ => s

def playAt (positionSecs : ℚ) (s : Station) : Station :=
  if positionSecs > 0 then (s.exec .play).exec (.seek positionSecs) else s.exec .play

/-- What `apply_output_runtime_state` makes of it. -/
def resume (status : PlaybackStatus) (positionSecs : ℚ) (s : Station) : Station :=
  match status with
  | .playing | .loading => s.playAt positionSecs
  | .paused => (s.playAt positionSecs).exec .pause
  | .stopped => s.exec .stop

end Station

/-- All calls succeed. -/
def stations : Outputs (String → Station) := fun x call =>
  match call with
  | .output node _ cmd => (.ok (), Function.update x node ((x node).exec cmd))
  | .onStateChanged _ _ | .persist _ _ => (.ok (), x)

@[simp] theorem run_send_stations (o : OutputHandle) (cmd : OutputCmd) (w : Core)
    (x : String → Station) :
    (o.send cmd).run stations w x = (.ok (), w, Function.update x o.node ((x o.node).exec cmd)) :=
  rfl

@[simp] theorem run_broadcast_stations (w : Core) (x : String → Station) :
    broadcast.run stations w x =
      (.ok (), { w with state := w.state.syncTopLevelFromSelectedNode }, x) :=
  run_broadcast_quiet stations w (fun _ _ => rfl) fun _ _ => rfl

theorem run_playAt_stations (o : OutputHandle) (pos : ℚ) (w : Core) (x : String → Station) :
    (o.playAt pos).run stations w x =
      (.ok (), w, Function.update x o.node ((x o.node).playAt pos)) := by
  unfold OutputHandle.playAt Station.playAt
  rw [run_bind, run_send_stations]
  dsimp only
  split
  · rw [run_send_stations, Function.update_self, Function.update_idem]
  · rfl

section Run

variable {id nodeId : String} {w : Core} {slot : OutputSlot} {node : Node}

theorem run_applyOutputRuntimeState_stations (hslot : w.outputs id = some slot)
    (status : PlaybackStatus) (pos : ℚ) (x : String → Station) :
    (applyOutputRuntimeState id status pos).run stations w x =
      (.ok (), w, Function.update x id ((x id).resume status pos)) := by
  rw [applyOutputRuntimeState, run_bind, run_eachOutput_some _ _ _ hslot]
  cases status with
  | stopped => exact run_send_stations _ _ w x
  | playing => exact run_playAt_stations _ pos w x
  | loading => exact run_playAt_stations _ pos w x
  | paused =>
    dsimp only
    rw [run_bind, run_playAt_stations]
    dsimp only
    rw [run_send_stations, Function.update_self, Function.update_idem]
    rfl

/-- A selected node with an output is brought to its state. -/
theorem run_syncConnectedNode_stations (hsel : w.state.selectedNodeId = some id)
    (hnode : w.state.node id = some node) (hslot : w.outputs id = some slot)
    (x : String → Station) :
    (syncConnectedNodeToLogicalState id).run stations w x =
      (.ok (),
        { w with
          transportState := rebuilt w.transportState id node.currentIndex node.queue.length },
        Function.update x id
          (.resume node.status node.positionSecs
            ⟨buildQueueFilePaths node.queue node.currentIndex,
              nextGeneration w.transportState id, .stopped, 0⟩)) := by
  simp only [syncConnectedNodeToLogicalState, syncOutputToGlobal, run_bind, run_readState, hnode,
    hsel, beq_self_eq_true, if_true, run_rebuildProjectionState, run_eachOutput, hslot,
    run_send_stations, Function.update_self, Function.update_idem]
  rw [run_applyOutputRuntimeState_stations (by exact hslot), Function.update_self,
    Function.update_idem]
  rfl

/-- Without an output it is not, and nothing is called. -/
theorem run_syncConnectedNode_refused (hnode : w.state.node id = some node)
    (hslot : w.outputs id = none) (x : String → Station) :
    (syncConnectedNodeToLogicalState id).run stations w x =
      (.error .noActiveOutput,
        { w with
          transportState := rebuilt w.transportState id node.currentIndex node.queue.length }, x) := by
  simp only [syncConnectedNodeToLogicalState, syncOutputToGlobal, run_bind, run_readState, hnode,
    run_rebuildProjectionState, run_eachOutput, hslot]

end Run

/-! ## The fallback -/

/-- The connected nodes besides `nodeId`. -/
def Node.isCandidate (nodeId : String) (n : Node) : Bool := n.id ≠ nodeId ∧ n.connected

/-- The first element with one property is the first with another if each has both. -/
theorem find?_eq_find? {α : Type} {p q : α → Bool} {l : List α} {a b : α} (ha : l.find? p = some a)
    (hb : l.find? q = some b) (hqa : q a) (hpb : p b) : a = b := by
  induction l with
  | nil => cases ha
  | cons c l ih =>
    rw [List.find?_cons] at ha hb
    cases hp : p c with
    | true =>
      rw [hp] at ha
      cases ha
      rw [hqa] at hb
      exact Option.some.inj hb
    | false =>
      have hq : q c = false := by
        by_contra hq
        rw [Bool.not_eq_false] at hq
        rw [hq] at hb
        cases hb
        rw [hp] at hpb
        cases hpb
      rw [hp] at ha
      rw [hq] at hb
      exact ih ha hb

section Disconnect

variable {nodeId : String} {s : PlaybackState} {node n : Node}

/-- The candidate that is taken: it is selected, and is to go on with what the other one did. -/
theorem disconnectSection_candidate (hsel : s.selectedNodeId = some nodeId)
    (hnode : s.node nodeId = some node) (hfind : s.nodes.find? (Node.isCandidate nodeId) = some n) :
    (disconnectSection nodeId s).1 = some n.id ∧
      (disconnectSection nodeId s).2.selectedNodeId = some n.id ∧
      (disconnectSection nodeId s).2.node n.id = (s.node n.id).map fun m =>
        { m with status := node.status, positionSecs := node.positionSecs } := by
  have hfallback : fallbackNodeId nodeId s = some n.id := by
    rw [fallbackNodeId, if_pos hsel]
    exact congrArg (Option.map Node.id) hfind
  have hne : n.id ≠ nodeId := by
    have hcandidate := List.find?_some hfind
    simp only [Node.isCandidate, decide_eq_true_eq] at hcandidate
    exact hcandidate.1
  unfold disconnectSection
  rw [hnode, hfallback]
  refine ⟨rfl, rfl, ?_⟩
  dsimp only
  rw [node_modifyNodes fun m => by split_ifs <;> rfl]
  have hother : (s.modifyNode nodeId fun node =>
      if s.selectedNodeId = some nodeId ∧ some n.id = none then { node with connected := false }
      else { node with connected := false, status := .stopped, positionSecs := 0 }).node n.id =
      s.node n.id := node_modifyNode_of_ne (fun m => by split_ifs <;> rfl) hne
  refine (congrArg (Option.map _) hother).trans ?_
  cases hm : s.node n.id with
  | none => rfl
  | some m => simp [node_id hm]

end Disconnect

/-- Node `id` is selected now, and can play; its output has the queue of the node under the generation
that the core knows, and goes on where `node` was. -/
structure TakesOver (node : Node) (w w' : Core) (x' : String → Station) (id : String)
    (before after : Node) : Prop where
  found : w.state.node id = some before
  selected : w'.state.selectedNodeId = some id
  found' : w'.state.node id = some after
  connected : after.connected
  output : (w'.outputs id).isSome
  queue : (x' id).queue = buildQueueFilePaths before.queue before.currentIndex
  generation : (w'.transportState id).map NodeTransportState.projectionGeneration =
    some (x' id).projectionGeneration
  resumed : node.status = .playing ∨ node.status = .paused →
    (after.status = node.status ∧ after.positionSecs = node.positionSecs) ∧
      (x' id).status = node.status ∧ (x' id).positionSecs = node.positionSecs

/-- The first candidate has an output, and no disconnected node stands before it under its id. A
position below zero, which nothing rules out in a report, is not sought. -/
def CanTakeOver (nodeId : String) (node : Node) (w : Core) : Prop :=
  ∃ n, w.state.nodes.find? (Node.isCandidate nodeId) = some n ∧ w.state.node n.id = some n ∧
    (w.outputs n.id).isSome ∧
    (node.status = .playing ∨ node.status = .paused → 0 ≤ node.positionSecs)

theorem Station.resume_list (status : PlaybackStatus) (pos : ℚ) (st : Station) :
    (st.resume status pos).queue = st.queue ∧
      (st.resume status pos).projectionGeneration = st.projectionGeneration := by
  cases status with
  | stopped => exact ⟨rfl, rfl⟩
  | playing | loading =>
    unfold resume playAt
    split_ifs <;> exact ⟨rfl, rfl⟩
  | paused =>
    unfold resume playAt
    split_ifs <;> exact ⟨rfl, rfl⟩

theorem Station.resume_status {status : PlaybackStatus} (pos : ℚ) (st : Station)
    (h : status = .playing ∨ status = .paused) : (st.resume status pos).status = status := by
  unfold resume playAt
  rcases h with rfl | rfl
  · split_ifs <;> rfl
  · rfl

/-- A new list is sought to a position past its beginning. -/
theorem Station.resume_position {status : PlaybackStatus} {pos : ℚ} (queue : List String)
    (generation : UInt64) (h : status = .playing ∨ status = .paused) :
    ((⟨queue, generation, .stopped, 0⟩ : Station).resume status pos).positionSecs = pos ↔
      0 ≤ pos := by
  have hposition :
      ((⟨queue, generation, .stopped, 0⟩ : Station).resume status pos).positionSecs =
        if pos > 0 then pos else 0 := by
    unfold resume playAt
    rcases h with rfl | rfl
    · split_ifs <;> rfl
    · split_ifs <;> rfl
  rw [hposition]
  split_ifs with hpos
  · exact iff_of_true rfl hpos.le
  · constructor
    · intro hzero
      exact hzero.le
    · intro hle
      exact le_antisymm hle (not_lt.1 hpos)

section Disconnect

variable {nodeId : String} {w : Core} {x : String → Station} {node n m : Node}

/-- What the disconnection leaves if the candidate has an output, and if it has none. -/
theorem run_handleNodeDisconnected (hsel : w.state.selectedNodeId = some nodeId)
    (hnode : w.state.node nodeId = some node)
    (hfind : w.state.nodes.find? (Node.isCandidate nodeId) = some n)
    (hm : w.state.node n.id = some m) :
    ∃ w' x', (handleNodeDisconnected nodeId).run stations w x = (.ok (), w', x') ∧
      w'.state.selectedNodeId = some n.id ∧
      w'.state.node n.id =
        some { m with status := node.status, positionSecs := node.positionSecs } ∧
      w'.outputs = w.outputs ∧
      w'.transportState = rebuilt w.transportState n.id m.currentIndex m.queue.length ∧
      (∀ slot, w.outputs n.id = some slot → x' n.id =
        .resume node.status node.positionSecs ⟨buildQueueFilePaths m.queue m.currentIndex,
          nextGeneration w.transportState n.id, .stopped, 0⟩) := by
  obtain ⟨hresult, hselected, hfound⟩ := disconnectSection_candidate hsel hnode hfind
  rw [hm, Option.map_some] at hfound
  unfold handleNodeDisconnected
  rw [run_bind, run_lockState]
  dsimp only
  rw [hresult]
  dsimp only
  simp only [run_bind, run_attempt]
  cases hslot : w.outputs n.id with
  | none =>
    rw [run_syncConnectedNode_refused (by exact hfound) (by exact hslot)]
    simp only [run_broadcast_stations]
    exact ⟨_, _, rfl, syncTopLevel_selectedNodeId.trans hselected, node_syncTopLevel.trans hfound,
      rfl, rfl, fun _ h => nomatch h⟩
  | some slot =>
    rw [run_syncConnectedNode_stations (by exact hselected) (by exact hfound) (by exact hslot)]
    simp only [run_broadcast_stations]
    exact ⟨_, _, rfl, syncTopLevel_selectedNodeId.trans hselected, node_syncTopLevel.trans hfound,
      rfl, rfl, fun _ _ => Function.update_self ..⟩

/-- With another node that could play: the one that is selected can, and does, exactly if the first of
the other connected nodes can. -/
theorem fallsBack_iff (hsel : w.state.selectedNodeId = some nodeId)
    (hnode : w.state.node nodeId = some node)
    (hother : ∃ other ∈ w.state.nodes, other.id ≠ nodeId ∧ other.connected ∧
      (w.outputs other.id).isSome) :
    ∃ w' x', (handleNodeDisconnected nodeId).run stations w x = (.ok (), w', x') ∧
      ((∃ id before after, TakesOver node w w' x' id before after) ↔ CanTakeOver nodeId node w) := by
  obtain ⟨n, hfind⟩ : ∃ n, w.state.nodes.find? (Node.isCandidate nodeId) = some n := by
    obtain ⟨other, hmem, hne, hconnected, -⟩ := hother
    rw [← Option.isSome_iff_exists, List.find?_isSome]
    exact ⟨other, hmem, by simp [Node.isCandidate, hne, hconnected]⟩
  obtain ⟨m, hm⟩ : ∃ m, w.state.node n.id = some m := by
    rw [← Option.isSome_iff_exists, PlaybackState.node, findNode, List.find?_isSome]
    exact ⟨n, List.mem_of_find?_eq_some hfind, by simp⟩
  have hcandidate : n.id ≠ nodeId ∧ n.connected := by
    simpa [Node.isCandidate] using List.find?_some hfind
  obtain ⟨w', x', hrun, hselected, hfound, houtputs, htransport, hstation⟩ :=
    run_handleNodeDisconnected (x := x) hsel hnode hfind hm
  refine ⟨w', x', hrun, ?_⟩
  constructor
  · rintro ⟨id, before, after, htakes⟩
    obtain rfl := Option.some.inj (htakes.selected.symm.trans hselected)
    have hafter := Option.some.inj (htakes.found'.symm.trans hfound)
    have hconnected := htakes.connected
    have houtput := htakes.output
    rw [hafter] at hconnected
    rw [houtputs] at houtput
    have hmid : m.id = n.id := node_id hm
    have hsame : n = m := find?_eq_find? hfind hm (by simp)
      (by simpa [Node.isCandidate, hmid] using ⟨hcandidate.1, hconnected⟩)
    subst hsame
    refine ⟨n, hfind, hm, houtput, fun hstatus => ?_⟩
    obtain ⟨slot, hslot⟩ := Option.isSome_iff_exists.1 houtput
    have hposition := (htakes.resumed hstatus).2.2
    rw [hstation slot hslot] at hposition
    exact (Station.resume_position _ _ hstatus).1 hposition
  · rintro ⟨n', hfind', hm', houtput, hpos⟩
    obtain rfl := Option.some.inj (hfind'.symm.trans hfind)
    obtain rfl := Option.some.inj (hm'.symm.trans hm)
    obtain ⟨slot, hslot⟩ := Option.isSome_iff_exists.1 houtput
    have hlist := Station.resume_list node.status node.positionSecs
      ⟨buildQueueFilePaths n'.queue n'.currentIndex, nextGeneration w.transportState n'.id,
        .stopped, 0⟩
    rw [← hstation slot hslot] at hlist
    refine ⟨n'.id, n', _, hm, hselected, hfound, hcandidate.2, by rw [houtputs]; exact houtput,
      hlist.1, ?_, fun hstatus => ⟨⟨rfl, rfl⟩, ?_, ?_⟩⟩
    · rw [hlist.2, htransport, rebuilt, Function.update_self]
      rfl
    · rw [hstation slot hslot]
      exact Station.resume_status _ _ hstatus
    · rw [hstation slot hslot]
      exact (Station.resume_position _ _ hstatus).2 (hpos hstatus)

end Disconnect

/-- Node `a` plays, and its connection is gone; `b` has an output. In between a local session may have
started. -/
def lostOutput (session : Bool) : Core × (String → Station) :=
  runOps stations
    ([.registerOutput "a" "c1" 0, .addNode { id := "a" }] ++
      (if session then [.localSessionStart "laptop" (some "d") ""] else []) ++
      [.registerOutput "b" "c2" 1, .addNode { id := "b" },
        .syncNodeState "a" .playing 5 50 none 0, .unregisterOutput "a" "c1"])
    (Core.new (fun _ => none) [] [], fun _ => {})

def lostNode : Node := { id := "a", status := .playing, positionSecs := 5 }

theorem node_lostOutput (session : Bool) :
    (lostOutput session).1.state.selectedNodeId = some "a" ∧
      (lostOutput session).1.state.node "a" = some lostNode ∧
      ∃ other ∈ (lostOutput session).1.state.nodes, other.id ≠ "a" ∧ other.connected ∧
        ((lostOutput session).1.outputs other.id).isSome := by
  cases session with
  | false => exact ⟨by decide +kernel, by decide +kernel, by decide +kernel⟩
  | true => exact ⟨by decide +kernel, by decide +kernel, by decide +kernel⟩

/-- Without a local session `b` goes on. -/
theorem fallsBack_iff_next :
    ∃ w' y, (handleNodeDisconnected "a").run stations (lostOutput false).1 (lostOutput false).2 =
        (.ok (), w', y) ∧
      ∃ id before after, TakesOver lostNode (lostOutput false).1 w' y id before after := by
  obtain ⟨hsel, hnode, hother⟩ := node_lostOutput false
  obtain ⟨w', y, hrun, hiff⟩ := fallsBack_iff (x := (lostOutput false).2) hsel hnode hother
  refine ⟨w', y, hrun, hiff.2 ⟨{ id := "b" }, by decide +kernel, by decide +kernel,
    by decide +kernel, fun _ => by decide⟩⟩

/-- With one it is selected, and has no output. -/
theorem fallback_to_session :
    (∃ other ∈ (lostOutput true).1.state.nodes, other.id ≠ "a" ∧ other.connected ∧
        ((lostOutput true).1.outputs other.id).isSome) ∧
      ((CoreOp.handleNodeDisconnected "a").after stations (lostOutput true)).1.state.selectedNodeId =
        some "local-d" ∧
      ((CoreOp.handleNodeDisconnected "a").after stations (lostOutput true)).1.outputs "local-d" =
        none ∧
      ¬ ∃ id before after, TakesOver lostNode (lostOutput true).1
        ((CoreOp.handleNodeDisconnected "a").after stations (lostOutput true)).1
        ((CoreOp.handleNodeDisconnected "a").after stations (lostOutput true)).2 id before after := by
  have hselected : ((CoreOp.handleNodeDisconnected "a").after stations
      (lostOutput true)).1.state.selectedNodeId = some "local-d" := by
    decide +kernel
  have hnone : ((CoreOp.handleNodeDisconnected "a").after stations (lostOutput true)).1.outputs
      "local-d" = none := by
    decide +kernel
  refine ⟨(node_lostOutput true).2.2, hselected, hnone, ?_⟩
  rintro ⟨id, before, after, htakes⟩
  obtain rfl := Option.some.inj (htakes.selected.symm.trans hselected)
  have houtput := htakes.output
  rw [hnone] at houtput
  cases houtput

end Kanade

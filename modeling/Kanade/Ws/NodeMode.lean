import Kanade.Concur.Lift
import Kanade.Concur.Pool
import Kanade.Core.Alone

/-!
# Kanade.Ws.NodeMode

Node connections: the registration and the teardown of `run_node_mode` in `server.rs`.

The teardown of an old connection may still be running while a new connection registers the same
node. `registered_iff`: in every interleaving of the two, lock section by lock section, the node ends
connected with the output of the new connection exactly if the teardown does not get to
`handle_node_disconnected` after the registration's `add_node`.
-/

namespace Kanade

open Concur Fallible

/-- Which step of a node connection a section is; `core` is any but the first of an operation. -/
inductive NodeSect where
  | register
  | addNode
  | check
  | unregister
  | disconnect
  | core (l : Sect)
deriving DecidableEq, Repr

abbrev NodeOp (α : Type) : Type := Fallible Core NodeSect CoreCall CoreError α

/-- An operation of `Core`. -/
def inCore {α : Type} (t : Op α) : NodeOp α := t.lift (Lens.whole Core) .core

/-- An operation of `Core` whose first section is the step `l`. -/
def nodeStep {α : Type} (l : NodeSect) (t : Op α) : NodeOp α := (inCore t).headed l

/-- What `run_node_mode` does between the acknowledgement and its loop. Failures to bring the output
to the logical state are only logged. -/
def nodeRegistration (nodeId displayName connectionId : String) (output : Nat) : NodeOp Unit := do
  nodeStep .register (registerOutput nodeId connectionId output)
  nodeStep .addNode (addNode { id := nodeId, name := displayName })
  let _ ← (inCore (syncConnectedNodeToLogicalState nodeId)).attempt
  let selectedNodeId ← inCore (readState fun s => .ok s.selectedNodeId)
  match selectedNodeId with
  | some selectedNode =>
    if selectedNode ≠ nodeId then do
      let _ ← (inCore (stopNode nodeId)).attempt
      pure ()
    else pure ()
  | none => pure ()

/-- What `run_node_mode` does when its connection has been closed for the grace period. -/
def nodeTeardown (nodeId connectionId : String) : NodeOp Unit := do
  if ← nodeStep .check (isSameOutput nodeId connectionId) then do
    nodeStep .unregister (unregisterOutput nodeId connectionId)
    nodeStep .disconnect (handleNodeDisconnected nodeId)
  else pure ()

abbrev NodePool : Type :=
  Pool Bool Core NodeSect CoreCall (Except CoreError Unit) (Except CoreError Unit)

abbrev NodeEntry : Type := Entry Bool Core NodeSect CoreCall (Except CoreError Unit)

/-- The teardown of connection `old` (`false`) and the registration of connection `new` (`true`). -/
def nodePool (w : Core) (nodeId displayName old new : String) (output : Nat) : NodePool :=
  ⟨w, fun
    | false => nodeTeardown nodeId old
    | true => nodeRegistration nodeId displayName new output⟩

/-- A history in which `handle_node_disconnected` came after `add_node`. -/
def LateDisconnect : List NodeEntry → Prop
  | [] => False
  | e :: h => e.act = .sect .disconnect ∧ (∃ a ∈ h, a.act = .sect .addNode) ∨ LateDisconnect h

instance : ∀ h, Decidable (LateDisconnect h)
  | [] => isFalse id
  | e :: h =>
    have := instDecidableLateDisconnect h
    inferInstanceAs (Decidable
      (e.act = .sect .disconnect ∧ (∃ a ∈ h, a.act = .sect .addNode) ∨ LateDisconnect h))

/-! ## What the sections do -/

/-- Outputs, and who is connected, are as they were. -/
def KeepsConnected (w w' : Core) : Prop :=
  w'.outputs = w.outputs ∧
    ∀ id, (w'.state.node id).map Node.connected = (w.state.node id).map Node.connected

theorem KeepsConnected.of_state {w w' : Core} (h : w'.outputs = w.outputs)
    (hs : w'.state = w.state) : KeepsConnected w w' := ⟨h, fun id => by rw [hs]⟩

theorem keepsConnected_modifyNode {w : Core} (id : String) {f : Node → Node}
    (hid : ∀ n, (f n).id = n.id) (hc : ∀ n, (f n).connected = n.connected) :
    KeepsConnected w { w with state := w.state.modifyNode id f } := by
  refine ⟨rfl, fun id' => ?_⟩
  by_cases h : id' = id
  · rw [h, node_modifyNode_self hid, Option.map_map]
    exact congrArg (Option.map · _) (funext hc)
  · rw [node_modifyNode_of_ne hid h]

abbrev Settles {α : Type} (t : Op α) : Prop := Within (fun _ => True) KeepsConnected t

theorem settles_sect {α : Type} {lab : Core → Except CoreError α → Sect}
    {f : Core → Except CoreError α × Core} (ho : ∀ w, (f w).2.outputs = w.outputs)
    (hs : ∀ w, (f w).2.state = w.state) : Settles (sect lab f : Op α) :=
  within_sect fun w _ => .of_state (ho w) (hs w)

theorem settles_readState {α : Type} (f : PlaybackState → Except CoreError α) :
    Settles (readState f) := settles_sect (fun _ => rfl) fun _ => rfl

theorem settles_rebuildProjectionState (id : String) (start : Option Nat) (len : Nat) :
    Settles (rebuildProjectionState id start len) := fun _ _ =>
  ⟨.of_state rfl rfl, trivial⟩

theorem settles_eachOutput (id : String) : Settles (eachOutput id) :=
  settles_sect (fun w => by cases w.outputs id <;> rfl) fun w => by cases w.outputs id <;> rfl

theorem settles_send (o : OutputHandle) (cmd : OutputCmd) : Settles (o.send cmd) := within_call _

theorem settles_playAt (o : OutputHandle) (pos : ℚ) : Settles (o.playAt pos) := by
  refine (settles_send o .play).bind fun _ => ?_
  split
  · exact settles_send o _
  · exact within_pure ()

theorem settles_broadcast : Settles broadcast :=
  Within.bind (within_sect fun w _ => ⟨rfl, fun id => by rw [node_syncTopLevel]⟩) fun _ =>
    Within.bind (settles_sect (fun _ => rfl) fun _ => rfl) fun _ =>
      (within_deliverAll _ _).bind fun _ => within_deliverAll _ _

theorem settles_stopNode (id : String) : Settles (stopNode id) :=
  (settles_eachOutput id).bind fun o => (settles_send o .stop).bind fun _ =>
    Within.bind (within_sect fun _ _ => keepsConnected_modifyNode id (fun _ => rfl) fun _ => rfl)
      fun _ => settles_broadcast

theorem settles_syncOutputToGlobal (id : String) : Settles (syncOutputToGlobal id) :=
  (settles_readState _).bind fun _ =>
    (settles_rebuildProjectionState id _ _).bind fun _ =>
      (settles_eachOutput id).bind fun o => (settles_send o _).bind fun _ => settles_send o _

theorem settles_applyOutputRuntimeState (id : String) (status : PlaybackStatus) (pos : ℚ) :
    Settles (applyOutputRuntimeState id status pos) := by
  refine (settles_eachOutput id).bind fun o => ?_
  cases status with
  | playing | loading => exact settles_playAt o pos
  | paused => exact (settles_playAt o pos).bind fun _ => settles_send o _
  | stopped => exact settles_send o _

theorem settles_syncConnectedNode (id : String) : Settles (syncConnectedNodeToLogicalState id) := by
  refine (settles_readState _).bind fun r => (settles_syncOutputToGlobal id).bind fun _ => ?_
  split
  · exact settles_applyOutputRuntimeState id _ _
  · exact settles_stopNode id

/-- `add_node` leaves the node connected, whether it was there or not. -/
theorem node_addNodeSection_self (node : Node) (s : PlaybackState) :
    ((addNodeSection node s).node node.id).map Node.connected = some node.connected := by
  have hpick : ∀ (c : Prop) [Decidable c] (s' : PlaybackState),
      (s'.node node.id).map Node.connected = some node.connected →
      ((if c then migrateQueue node.id { s' with selectedNodeId := some node.id }
        else s').node node.id).map Node.connected = some node.connected := by
    intro c _ s' hs'
    split
    · unfold migrateQueue
      split
      · rw [node_modifyNode_self fun _ => by rfl, Option.map_map]
        exact hs'
      · exact hs'
    · exact hs'
  unfold addNodeSection
  rw [node_syncTopLevel]
  refine hpick _ _ ?_
  cases hn : s.node node.id with
  | some n =>
    dsimp only
    rw [node_modifyNode_self fun _ => by rfl, hn]
    rfl
  | none =>
    simp only [PlaybackState.node, findNode, List.find?_append] at hn ⊢
    simp [hn]

/-- `handle_node_disconnected` leaves the node, when there is one, not connected. -/
theorem node_disconnectSection_self (id : String) (s : PlaybackState) :
    ((disconnectSection id s).2.node id).map Node.connected = (s.node id).map fun _ => false := by
  unfold disconnectSection
  cases hfb : fallbackNodeId id s with
  | none =>
    dsimp only
    have hmod : ((s.modifyNode id fun node =>
        if s.selectedNodeId = some id ∧ (none : Option String) = none then
          { node with connected := false }
        else { node with connected := false, status := .stopped, positionSecs := 0 }).node id).map
          Node.connected = (s.node id).map fun _ => false := by
      rw [node_modifyNode_self fun n => by split <;> rfl, Option.map_map]
      refine congrArg (Option.map · _) (funext fun n => ?_)
      simp only [Function.comp_apply]
      split <;> rfl
    split <;> exact hmod
  | some fb =>
    dsimp only
    refine Eq.trans (congrArg _ (node_modifyNodes fun n => ?_)) ?_
    · split
      · rfl
      · split <;> rfl
    · rw [Option.map_map]
      show Option.map _ ((s.modifyNode id _).node id) = _
      rw [node_modifyNode_self fun n => by split <;> rfl, Option.map_map]
      refine congrArg (Option.map · _) (funext fun n => ?_)
      simp only [Function.comp_apply]
      split <;> split <;> first | rfl | (split <;> rfl)

/-! ## The protocol of the two tasks -/

/-- How far the registration has got. -/
inductive NodeStage where
  | start
  | registered
  | added
deriving DecidableEq

section Protocol

variable (nodeId displayName old new : String) (output : Nat)

/-- What each step does; `isNew` tells the registration from the teardown. -/
def nodeEffect (isNew : Bool) (p : NodeStage) (l : NodeSect) (w w' : Core) : Prop :=
  match l with
  | .register => isNew = true ∧ p = .start ∧ w'.state = w.state ∧
      w'.outputs = Function.update w.outputs nodeId (some ⟨new, output⟩)
  | .addNode => isNew = true ∧ p = .registered ∧ w'.outputs = w.outputs ∧
      w'.state = addNodeSection { id := nodeId, name := displayName } w.state
  | .unregister => w'.state = w.state ∧
      ∀ slot, w.outputs nodeId = some slot → slot.connectionId ≠ old → w'.outputs = w.outputs
  | .disconnect => w'.outputs = w.outputs ∧ w'.state = (disconnectSection nodeId w.state).2
  | .check | .core _ => KeepsConnected w w'

def nodeProtocol (isNew : Bool) :
    Protocol Core NodeSect CoreCall (Except CoreError Unit) NodeStage where
  onSect p l _ _ :=
    match l with
    | .register => .registered
    | .addNode => .added
    | _ => p
  onCall p _ _ := p
  rely _ _ _ := True
  sectOk := nodeEffect nodeId displayName old new output isNew
  callOk _ _ := True

end Protocol

section Follows

variable {nodeId displayName old new : String} {output : Nat} {isNew : Bool} {p : NodeStage}
  {α β : Type}

theorem follows_inCore {t : Op α} (h : Settles t) :
    Follows (nodeProtocol nodeId displayName old new output isNew) (fun p' _ => p' = p) p
      (inCore t) :=
  (Task.Follows.lift (T := fun _ p' => p' = p) (fun _ _ _ _ _ _ => trivial)
    (fun _ _ _ _ _ hrel _ hok => ⟨hok, hrel⟩) (fun _ _ _ hrel _ => ⟨trivial, fun _ => hrel⟩) rfl
    h).mono fun _ _ ⟨_, hrel, _⟩ => hrel

/-- An operation whose first section is a step and whose rest settles. -/
theorem follows_nodeStep {l : NodeSect} {lab : Core → Except CoreError α → Sect}
    {f : Core → Except CoreError α × Core} {k : α → Op β} {q : NodeStage}
    (hstep : ∀ w, nodeEffect nodeId displayName old new output isNew p l w (f w).2)
    (hq : ∀ w w', (nodeProtocol nodeId displayName old new output isNew).onSect p l w w' = q)
    (hk : ∀ a, Settles (k a)) :
    Follows (nodeProtocol nodeId displayName old new output isNew) (fun p' _ => p' = q) p
      (nodeStep l (sect lab f >>= k)) := by
  rw [nodeStep, inCore, lift_bind]
  refine (follows_bind (sect (fun _ _ => l) f) _).2 (follows_sect.2 fun w _ => ⟨hstep w, ?_⟩)
  rw [hq]
  cases (f w).1 with
  | error e => rfl
  | ok a => exact follows_inCore (hk a)

theorem follows_register :
    Follows (nodeProtocol nodeId displayName old new output true)
      (fun p' r => p' = .registered ∧ r = .ok ()) .start
      (nodeStep .register (registerOutput nodeId new output)) :=
  fun _ _ => ⟨⟨rfl, rfl, rfl, rfl⟩, rfl, rfl⟩

theorem follows_addNode :
    Follows (nodeProtocol nodeId displayName old new output true) (fun p' _ => p' = .added)
      .registered (nodeStep .addNode (addNode { id := nodeId, name := displayName })) :=
  follows_nodeStep (f := fun w => (.ok (), { w with state := addNodeSection _ w.state }))
    (fun _ => ⟨rfl, rfl, rfl, rfl⟩) (fun _ _ => rfl) fun _ => settles_broadcast

theorem follows_check :
    Follows (nodeProtocol nodeId displayName old new output isNew) (fun p' _ => p' = p) p
      (nodeStep .check (isSameOutput nodeId old)) :=
  fun _ _ => ⟨.of_state rfl rfl, rfl⟩

/-- An output that another connection has registered stays. -/
theorem unregister_of_ne {m : String → Option OutputSlot} {id connectionId : String}
    {slot : OutputSlot} (hslot : m id = some slot) (hne : slot.connectionId ≠ connectionId) :
    (match m id with
    | some slot => if slot.connectionId = connectionId then Function.update m id none else m
    | none => m) = m := by
  rw [hslot]
  exact if_neg hne

theorem follows_unregister :
    Follows (nodeProtocol nodeId displayName old new output isNew) (fun p' _ => p' = p) p
      (nodeStep .unregister (unregisterOutput nodeId old)) := by
  exact fun w _ => ⟨⟨rfl, fun slot hslot hne => unregister_of_ne hslot hne⟩, rfl⟩

theorem follows_disconnect :
    Follows (nodeProtocol nodeId displayName old new output isNew) (fun p' _ => p' = p) p
      (nodeStep .disconnect (handleNodeDisconnected nodeId)) := by
  refine follows_nodeStep (f := fun w => (.ok (disconnectSection nodeId w.state).1,
    { w with state := (disconnectSection nodeId w.state).2 })) (fun _ => ⟨rfl, rfl⟩)
    (fun _ _ => rfl) fun fallback => ?_
  cases fallback with
  | none => exact settles_broadcast
  | some fb => exact (settles_syncConnectedNode fb).attempt.bind fun _ => settles_broadcast

theorem follows_nodeTeardown :
    Follows (nodeProtocol nodeId displayName old new output false) (fun _ _ => True) .start
      (nodeTeardown nodeId old) := by
  refine (follows_bind _ _).2 (follows_check.mono ?_)
  rintro p (e | passed) rfl
  · trivial
  · cases passed with
    | false => trivial
    | true =>
      refine (follows_bind _ _).2 (follows_unregister.mono ?_)
      rintro p (e | _) rfl
      · trivial
      · exact follows_disconnect.mono fun _ _ _ => trivial

/-- The registration does not end before it has added the node. -/
theorem follows_nodeRegistration :
    Follows (nodeProtocol nodeId displayName old new output true) (fun p _ => p = .added) .start
      (nodeRegistration nodeId displayName new output) := by
  have hread : Settles (readState fun s => .ok s.selectedNodeId) := settles_readState _
  refine (follows_bind _ _).2 (follows_register.mono ?_)
  rintro p (e | _) ⟨rfl, hr⟩
  · cases hr
  refine (follows_bind _ _).2 (follows_addNode.mono ?_)
  rintro p (e | _) rfl
  · rfl
  refine (follows_bind _ _).2 ((follows_attempt _).2
    ((follows_inCore (settles_syncConnectedNode nodeId)).mono ?_))
  rintro p _ rfl
  refine (follows_bind _ _).2 ((follows_inCore hread).mono ?_)
  rintro p (e | selected) rfl
  · rfl
  cases selected with
  | none => rfl
  | some selectedNode =>
    dsimp only
    split
    · exact (follows_bind _ _).2 ((follows_attempt _).2
        ((follows_inCore (settles_stopNode nodeId)).mono fun p _ hp => hp))
    · rfl

end Follows

/-! ## Every interleaving -/

/-- The step has been taken. -/
def Taken (l : NodeSect) (h : List NodeEntry) : Prop := ∃ e ∈ h, e.act = .sect l

theorem taken_cons {l : NodeSect} {e : NodeEntry} {h : List NodeEntry} :
    Taken l (e :: h) ↔ e.act = .sect l ∨ Taken l h := by
  simp [Taken]

theorem lateDisconnect_cons {e : NodeEntry} {h : List NodeEntry} :
    LateDisconnect (e :: h) ↔
      e.act = .sect .disconnect ∧ Taken .addNode h ∨ LateDisconnect h := Iff.rfl

section Interleaving

variable (nodeId displayName old new : String) (output : Nat)

/-- How far the registration has got after a history. -/
abbrev stageAfter (h : List NodeEntry) : NodeStage :=
  Pool.phases (nodeProtocol nodeId displayName old new output) (fun _ => .start) h true

/-- What holds after the history `h` in the state `w`. -/
structure NodeInv (h : List NodeEntry) (w : Core) : Prop where
  stage : stageAfter nodeId displayName old new output h = .added ↔ Taken .addNode h
  registered : stageAfter nodeId displayName old new output h ≠ .start →
    w.outputs nodeId = some ⟨new, output⟩
  node : Taken .addNode h → ∃ connected,
    (w.state.node nodeId).map Node.connected = some connected ∧
      (connected = true ↔ ¬ LateDisconnect h)

variable {nodeId displayName old new output}

/-- A section that is neither a step of the registration nor the disconnection. -/
theorem NodeInv.keep {h : List NodeEntry} {w w' : Core} {e : NodeEntry}
    (hinv : NodeInv nodeId displayName old new output h w)
    (hstage : stageAfter nodeId displayName old new output (e :: h) =
      stageAfter nodeId displayName old new output h)
    (hadd : e.act ≠ .sect .addNode) (hdisc : e.act ≠ .sect .disconnect)
    (hout : w.outputs nodeId = some ⟨new, output⟩ → w'.outputs nodeId = some ⟨new, output⟩)
    (hnode : (w'.state.node nodeId).map Node.connected =
      (w.state.node nodeId).map Node.connected) :
    NodeInv nodeId displayName old new output (e :: h) w' := by
  have hlate : LateDisconnect (e :: h) ↔ LateDisconnect h := by simp [lateDisconnect_cons, hdisc]
  have htaken : Taken .addNode (e :: h) ↔ Taken .addNode h := by simp [taken_cons, hadd]
  refine ⟨?_, ?_, ?_⟩
  · rw [hstage, htaken]
    exact hinv.stage
  · rw [hstage]
    exact fun hs => hout (hinv.registered hs)
  · rw [hlate, htaken, hnode]
    exact hinv.node

theorem nodeInv_step (hne : old ≠ new) {h : List NodeEntry} {i : Bool} {l : NodeSect} {w w' : Core}
    (hinv : NodeInv nodeId displayName old new output h w)
    (hok : nodeEffect nodeId displayName old new output i
      (Pool.phases (nodeProtocol nodeId displayName old new output) (fun _ => .start) h i) l w w') :
    NodeInv nodeId displayName old new output (⟨i, .sect l, w, w'⟩ :: h) w' := by
  have hphase := Pool.phases_sect (P := nodeProtocol nodeId displayName old new output)
    (fun _ => .start) h i l w w'
  -- the steps that are not the registration's leave its stage alone
  have hsame : (∀ p w w', (nodeProtocol nodeId displayName old new output i).onSect p l w w' = p) →
      stageAfter nodeId displayName old new output (⟨i, .sect l, w, w'⟩ :: h) =
        stageAfter nodeId displayName old new output h := by
    intro hon
    rw [stageAfter, hphase, hon, Function.update_eq_self]
  cases l with
  | register =>
    obtain ⟨rfl, hstart, hstate, hout⟩ := hok
    have hnow : stageAfter nodeId displayName old new output
        (⟨true, .sect .register, w, w'⟩ :: h) = .registered := by
      rw [stageAfter, hphase, Function.update_self]
      rfl
    have hnot : ¬ Taken .addNode h := fun ht => by
      have := hinv.stage.2 ht
      rw [stageAfter, hstart] at this
      cases this
    have htaken : ¬ Taken .addNode (⟨true, .sect .register, w, w'⟩ :: h) := by
      simp [taken_cons, hnot]
    refine ⟨by simp [hnow, htaken], fun _ => ?_, fun ht => absurd ht htaken⟩
    rw [hout, Function.update_self]
  | addNode =>
    obtain ⟨rfl, hreg, hout, hstate⟩ := hok
    have hnow : stageAfter nodeId displayName old new output
        (⟨true, .sect .addNode, w, w'⟩ :: h) = .added := by
      rw [stageAfter, hphase, Function.update_self]
      rfl
    have hnot : ¬ Taken .addNode h := fun ht => by
      have := hinv.stage.2 ht
      rw [stageAfter, hreg] at this
      cases this
    have hlate : ∀ {h : List NodeEntry}, ¬ Taken .addNode h → ¬ LateDisconnect h := by
      intro h
      induction h with
      | nil => exact fun _ hl => hl
      | cons e h ih =>
        intro hn hl
        rw [taken_cons, not_or] at hn
        obtain ⟨-, ht⟩ | hl := lateDisconnect_cons.1 hl
        · exact hn.2 ht
        · exact ih hn.2 hl
    refine ⟨by simp [hnow, taken_cons], fun _ => ?_, fun _ => ⟨true, ?_, ?_⟩⟩
    · rw [hout]
      exact hinv.registered (by rw [stageAfter, hreg]; decide)
    · rw [hstate]
      exact node_addNodeSection_self { id := nodeId, name := displayName } w.state
    · simp [lateDisconnect_cons, hlate hnot]
  | disconnect =>
    obtain ⟨hout, hstate⟩ := hok
    have hstage := hsame fun _ _ _ => rfl
    have htaken : Taken .addNode (⟨i, .sect .disconnect, w, w'⟩ :: h) ↔ Taken .addNode h := by
      simp [taken_cons]
    refine ⟨by rw [hstage, htaken]; exact hinv.stage, fun hs => ?_, fun ht => ⟨false, ?_, ?_⟩⟩
    · rw [hout]
      exact hinv.registered (by rwa [hstage] at hs)
    · obtain ⟨connected, hnode, -⟩ := hinv.node (htaken.1 ht)
      rw [hstate, node_disconnectSection_self]
      cases hn : w.state.node nodeId with
      | none => simp [hn] at hnode
      | some n => rfl
    · simp [lateDisconnect_cons, htaken.1 ht]
  | unregister =>
    obtain ⟨hstate, hout⟩ := hok
    refine hinv.keep (hsame fun _ _ _ => rfl) (by simp) (by simp) (fun hnew => ?_) (by rw [hstate])
    rw [hout _ hnew fun heq => hne heq.symm]
    exact hnew
  | check | core _ =>
    obtain ⟨hout, hnode⟩ := hok
    exact hinv.keep (hsame fun _ _ _ => rfl) (by simp) (by simp) (fun hnew => by rw [hout, hnew])
      (hnode nodeId)

/-- A node that re-registers while its old connection is torn down ends connected, with the output
of the new connection, exactly if the old connection does not mark it disconnected after the new one
has added it. -/
theorem registered_iff (w : Core) (nodeId displayName old new : String) (output : Nat)
    (hne : old ≠ new) (h : List NodeEntry) (p : NodePool)
    (hr : Pool.Interleaving (nodePool w nodeId displayName old new output) h p)
    (hdone : ∀ i, (p.task i).result?.isSome) :
    (p.shared.outputs nodeId = some ⟨new, output⟩ ∧
        (p.shared.state.node nodeId).any Node.connected = true) ↔ ¬ LateDisconnect h := by
  have hinit : NodeInv nodeId displayName old new output [] w :=
    ⟨by simp [stageAfter, Pool.phases, Pool.phase, Taken], fun hs => absurd rfl hs,
      fun ⟨_, ha, _⟩ => by cases ha⟩
  obtain ⟨hinv, hf, -⟩ : NodeInv nodeId displayName old new output h p.shared ∧
      (∀ i, (p.task i).Follows (nodeProtocol nodeId displayName old new output i)
        (fun q _ => i = true → q = .added)
        (Pool.phases (nodeProtocol nodeId displayName old new output) (fun _ => .start) h i)) ∧ _ :=
    Pool.Run.invariant (J := NodeInv nodeId displayName old new output) hinit
    (fun i => by
      cases i with
      | false => exact follows_nodeTeardown.mono fun _ _ _ hi => by cases hi
      | true => exact follows_nodeRegistration.mono fun _ _ hp _ => hp)
    (fun _ _ _ _ _ => trivial) (fun _ _ _ _ _ hinv hok _ => nodeInv_step hne hinv hok)
    (fun h i c r w hinv _ _ => by
      refine hinv.keep ?_ (by simp) (by simp) id rfl
      rw [stageAfter, Pool.phases_call]
      exact congrFun (Function.update_eq_self i _) true)
    hr
  have hadded : stageAfter nodeId displayName old new output h = .added := by
    have htrue := hf true
    have hfin := hdone true
    cases ht : p.task true with
    | done r =>
      rw [ht] at htrue
      exact htrue rfl
    | sect lab upd next => simp [ht, Task.result?] at hfin
    | call e next => simp [ht, Task.result?] at hfin
  obtain ⟨connected, hnode, hiff⟩ := hinv.node (hinv.stage.1 hadded)
  rw [← hiff, and_iff_right (hinv.registered (by rw [hadded]; decide))]
  cases hn : p.shared.state.node nodeId with
  | none => simp [hn] at hnode
  | some n => simpa [hn] using hnode

end Interleaving

/-- `amp` is connected through `old`; `old` is torn down while `new` registers. -/
def reconnecting : NodePool :=
  nodePool (runOps allSucceed [.registerOutput "amp" "old" 0, .addNode { id := "amp" }]
    (Core.new (fun _ => none) [] [], ())).1 "amp" "Amp" "old" "new" 1

/-- The teardown is through when the registration starts. -/
def teardownFirst : List (Bool × Except CoreError Unit) :=
  List.replicate 5 (false, .ok ()) ++ List.replicate 14 (true, .ok ())

/-- The registration runs between the check and the rest of the teardown. -/
def registerInTeardown : List (Bool × Except CoreError Unit) :=
  [(false, .ok ())] ++ List.replicate 14 (true, .ok ()) ++ List.replicate 4 (false, .ok ())

theorem registered_iff_teardownFirst :
    ((Pool.exec teardownFirst ([], reconnecting)).2.shared.outputs "amp" = some ⟨"new", 1⟩ ∧
        ((Pool.exec teardownFirst ([], reconnecting)).2.shared.state.node "amp").any
          Node.connected = true) ↔
      ¬ LateDisconnect (Pool.exec teardownFirst ([], reconnecting)).1 :=
  registered_iff _ "amp" "Amp" "old" "new" 1 (by decide) _ _ (Pool.exec_run teardownFirst .init)
    fun i => by cases i <;> decide

/-- The node is left disconnected, although its new connection is open. -/
theorem registerInTeardown_disconnected :
    (∀ i, ((Pool.exec registerInTeardown ([], reconnecting)).2.task i).result?.isSome) ∧
      ((Pool.exec registerInTeardown ([], reconnecting)).2.shared.state.node "amp").any
        Node.connected = false := by
  refine ⟨fun i => by cases i <;> decide, by decide⟩

end Kanade

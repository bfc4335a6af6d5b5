import Kanade.Concur.Fallible
import Kanade.Core.State

/-!
# Kanade.Core.World

The `Core` of `controller.rs` as a shared state of tasks, the calls it makes, and the pieces every
operation is made of: a critical section under one of the three locks (`state`, `outputs`,
`transport_state`), a command to an output, and `broadcast`.

An operation is an `Op`: a fallible task over `Core`. `?` is its `bind`.
-/

namespace Kanade

open Concur

structure NodeTransportState where
  projectionGeneration : UInt64 := 0
  projectionStartIndex : Option Nat := none
  loadedLen : Nat := 0
deriving DecidableEq, Repr

/-- A registered output: the connection that registered it, and which `AudioOutput` it is. -/
structure OutputSlot where
  connectionId : String
  output : Nat
deriving DecidableEq, Repr

/-- The methods of `AudioOutput`. -/
inductive OutputCmd where
  | play
  | pause
  | stop
  | seek (positionSecs : ℚ)
  | setVolume (volume : UInt8)
  | setQueue (filePaths : List String) (projectionGeneration : UInt64)
  | add (filePaths : List String)
  | remove (index : Nat)
  | moveTrack (src dst : Nat)
deriving DecidableEq, Repr

/-- What an operation does outside the locks: a command to the output it found registered for
`node`, or a snapshot handed to a broadcaster or a persister. -/
inductive CoreCall where
  | output (node : String) (slot : OutputSlot) (cmd : OutputCmd)
  | onStateChanged (broadcaster : Nat) (snapshot : PlaybackState)
  | persist (persister : Nat) (snapshot : PlaybackState)
deriving DecidableEq, Repr

/-- Which critical section a step is. `edit n` is a section of `state` in which a queue operation
has rewritten node `n`, `mirror` one that ends by recomputing the top-level mirror, `report n` the
one that applies an output's report to `n`; `rebuild`, `adjust` and `project` name the node whose
projection they set, lengthen or shorten, and read. -/
inductive Sect where
  | readState
  | writeState
  | edit (node : String)
  | mirror
  | snapshot
  | report (node : String)
  | readOutputs
  | writeOutputs
  | rebuild (node : String)
  | adjust (node : String)
  | project (node : String)
  | writeTransport
deriving DecidableEq, Repr

/-- `Core`. The two hash maps are functions; broadcasters and persisters are named by numbers. -/
structure Core where
  state : PlaybackState
  outputs : String → Option OutputSlot
  broadcasters : List Nat
  persisters : List Nat
  transportState : String → Option NodeTransportState

/-- `Core::new` with the given sinks: no node, no projection. -/
def Core.new (outputs : String → Option OutputSlot) (broadcasters persisters : List Nat) : Core :=
  ⟨.empty, outputs, broadcasters, persisters, fun _ => none⟩

/-- An operation of `Core`. -/
abbrev Op (α : Type) : Type := Fallible Core Sect CoreCall CoreError α

/-! ## Sections -/

/-- A section under `state`. -/
def lockState {α : Type} (lab : PlaybackState → Except CoreError α → Sect)
    (f : PlaybackState → Except CoreError α × PlaybackState) : Op α :=
  Fallible.sect (fun w => lab w.state) fun w => ((f w.state).1, { w with state := (f w.state).2 })

def readState {α : Type} (f : PlaybackState → Except CoreError α) : Op α :=
  lockState (fun _ _ => .readState) fun s => (f s, s)

/-- A section under `state` that only writes. -/
def writeState (lab : Sect) (f : PlaybackState → PlaybackState) : Op Unit :=
  lockState (fun _ _ => lab) fun s => (.ok (), f s)

/-- A section that edits node `id` when it succeeds, and changes nothing when it fails. -/
def editLabel {α : Type} (id : String) : Except CoreError α → Sect
  | .ok _ => .edit id
  | .error _ => .readState

/-- A section under `transport_state`. -/
def lockTransport {α : Type} (lab : Sect)
    (f : (String → Option NodeTransportState) → α × (String → Option NodeTransportState)) : Op α :=
  Fallible.sect (fun _ _ => lab) fun w =>
    (.ok (f w.transportState).1, { w with transportState := (f w.transportState).2 })

/-- A section under `outputs` that only writes. -/
def writeOutputs (f : (String → Option OutputSlot) → String → Option OutputSlot) : Op Unit :=
  Fallible.sect (fun _ _ => .writeOutputs) fun w => (.ok (), { w with outputs := f w.outputs })

/-! ## Outputs -/

/-- An `Arc<dyn AudioOutput>` in hand, with the node it was looked up for. -/
structure OutputHandle where
  node : String
  slot : OutputSlot
deriving DecidableEq, Repr

def OutputHandle.send (o : OutputHandle) (cmd : OutputCmd) : Op Unit :=
  Fallible.call (.output o.node o.slot cmd)

/-- The source returns a vector that holds exactly this output, so each `for o in ..` over it
runs its body once. -/
def eachOutput (nodeId : String) : Op OutputHandle :=
  Fallible.sect (fun _ _ => .readOutputs) fun w =>
    match w.outputs nodeId with
    | some slot => (.ok ⟨nodeId, slot⟩, w)
    | none => (.error .noActiveOutput, w)

/-- What `active_node_id` finds in the state: the selected node, when it is connected. -/
def PlaybackState.activeId (s : PlaybackState) : Except CoreError String :=
  match s.selectedNodeId with
  | none => .error .noActiveOutput
  | some nodeId =>
    match s.node nodeId with
    | none => .error .nodeNotFound
    | some node => if node.connected then .ok nodeId else .error .noActiveOutput

theorem activeId_congr {s s' : PlaybackState} (hsel : s'.selectedNodeId = s.selectedNodeId)
    (hnode : ∀ id, (s'.node id).map Node.connected = (s.node id).map Node.connected) :
    s'.activeId = s.activeId := by
  unfold PlaybackState.activeId
  rw [hsel]
  cases s.selectedNodeId with
  | none => rfl
  | some id =>
    have h := hnode id
    cases hn : s.node id <;> cases hn' : s'.node id <;> simp_all

theorem activeId_modifyNode {s : PlaybackState} {id : String} {f : Node → Node}
    (hid : ∀ n, (f n).id = n.id) (hc : ∀ n, (f n).connected = n.connected) :
    (s.modifyNode id f).activeId = s.activeId := by
  refine activeId_congr rfl fun id' => ?_
  by_cases h : id' = id
  · rw [h, node_modifyNode_self hid, Option.map_map]
    exact congrArg (Option.map · _) (funext hc)
  · rw [node_modifyNode_of_ne hid h]

theorem activeId_modifyNodes {s : PlaybackState} {f : Node → Node}
    (hid : ∀ n, (f n).id = n.id) (hc : ∀ n, (f n).connected = n.connected) :
    (s.modifyNodes f).activeId = s.activeId := by
  refine activeId_congr rfl fun id => ?_
  rw [node_modifyNodes hid, Option.map_map]
  exact congrArg (Option.map · _) (funext hc)

/-- The active node is the selected one, and is there. -/
theorem activeId_eq_ok {s : PlaybackState} {id : String} (h : s.activeId = .ok id) :
    s.selectedNodeId = some id ∧ ∃ node, s.node id = some node ∧ node.connected := by
  unfold PlaybackState.activeId at h
  split at h
  · cases h
  · split at h
    · cases h
    · rename_i id' _ hsel _ node hn
      split at h
      · rename_i hc
        cases h
        exact ⟨hsel, node, hn, hc⟩
      · cases h

def activeNodeId : Op String := readState PlaybackState.activeId

def activeOutputs : Op OutputHandle := do
  let nodeId ← activeNodeId
  eachOutput nodeId

/-- The output of the active node, as `active_outputs` finds it. -/
def Core.activeOutput (w : Core) : Except CoreError OutputHandle :=
  match w.state.activeId with
  | .error e => .error e
  | .ok id =>
    match w.outputs id with
    | some slot => .ok ⟨id, slot⟩
    | none => .error .noActiveOutput

theorem activeOutput_modifyNode {w : Core} {id : String} {f : Node → Node}
    {m : String → Option NodeTransportState} (hid : ∀ n, (f n).id = n.id)
    (hc : ∀ n, (f n).connected = n.connected) :
    Core.activeOutput { w with state := w.state.modifyNode id f, transportState := m } =
      w.activeOutput := by
  unfold Core.activeOutput
  rw [activeId_modifyNode hid hc]

theorem activeOutput_eq_ok {w : Core} {o : OutputHandle} (h : w.activeOutput = .ok o) :
    w.state.activeId = .ok o.node ∧ w.outputs o.node = some o.slot := by
  unfold Core.activeOutput at h
  split at h
  · cases h
  · rename_i id hact
    split at h
    · rename_i slot hout
      cases h
      exact ⟨hact, hout⟩
    · cases h

theorem selected_of_activeOutput {w : Core} {o : OutputHandle} (h : w.activeOutput = .ok o) :
    w.state.selectedNodeId = some o.node ∧ ∃ node, w.state.node o.node = some node := by
  obtain ⟨hsel, node, hn, -⟩ := activeId_eq_ok (activeOutput_eq_ok h).1
  exact ⟨hsel, node, hn⟩

def maybeActiveOutputs : Op (Option OutputHandle) := do
  let r ← activeOutputs.attempt
  pure r.toOption

/-! ## Broadcast -/

def deliverAll (call : Nat → CoreCall) : List Nat → Op Unit
  | [] => pure ()
  | k :: ks => do
    Fallible.tell (call k)
    deliverAll call ks

/-- The mirror is recomputed in one section and the snapshot is cloned in the next; the
deliveries follow outside the lock. -/
def broadcast : Op Unit := do
  writeState .mirror fun s => s.syncTopLevelFromSelectedNode
  let (snapshot, broadcasters, persisters) ←
    (Fallible.sect (fun _ _ => .snapshot)
      fun w => (.ok (w.state, w.broadcasters, w.persisters), w) :
        Op (PlaybackState × List Nat × List Nat))
  deliverAll (.onStateChanged · snapshot) broadcasters
  deliverAll (.persist · snapshot) persisters

/-! ## The pieces in the program logic -/

section Keeps

open Fallible

variable {φ : Type} {P : Protocol Core Sect CoreCall (Except CoreError Unit) φ} {I : φ → Prop}

theorem keeps_deliverAll {call : Nat → CoreCall}
    (hcall : ∀ k p, I p → P.callOk p (call k) ∧ ∀ r, I (P.onCall p (call k) r)) (ks : List Nat) :
    Keeps P I (fun _ => True) (deliverAll call ks) := by
  induction ks with
  | nil => exact keeps_pure trivial
  | cons k ks ih =>
    intro p hp
    obtain ⟨hok, hnext⟩ := hcall k p hp
    exact (follows_bind _ _).2 (follows_tell.2 ⟨hok, fun r => ih _ (hnext r)⟩)

theorem keeps_broadcast
    (hmirror : ∀ p w, I p → P.rely p .mirror w →
      P.sectOk p .mirror w { w with state := w.state.syncTopLevelFromSelectedNode } ∧
        I (P.onSect p .mirror w { w with state := w.state.syncTopLevelFromSelectedNode }))
    (hsnapshot : ∀ p w, I p → P.rely p .snapshot w →
      P.sectOk p .snapshot w w ∧ I (P.onSect p .snapshot w w))
    (hstate : ∀ k s p, I p → P.callOk p (.onStateChanged k s) ∧
      ∀ r, I (P.onCall p (.onStateChanged k s) r))
    (hpersist : ∀ k s p, I p → P.callOk p (.persist k s) ∧ ∀ r, I (P.onCall p (.persist k s) r)) :
    Keeps P I (fun _ => True) broadcast := by
  refine Keeps.bind (R := fun _ => True) (fun p hp => follows_sect.2 fun w hw => ?_) fun _ _ => ?_
  · obtain ⟨hok, hnext⟩ := hmirror p w hp hw
    exact ⟨hok, hnext, fun _ _ => trivial⟩
  refine Keeps.bind (R := fun _ => True) (fun p hp => follows_sect.2 fun w hw => ?_) fun r _ => ?_
  · obtain ⟨hok, hnext⟩ := hsnapshot p w hp hw
    exact ⟨hok, hnext, fun _ _ => trivial⟩
  exact (keeps_deliverAll (fun k => hstate k r.1) _).bind fun _ _ =>
    keeps_deliverAll (fun k => hpersist k r.1) _

theorem keeps_maybeActiveOutputs {R : OutputHandle → Prop} (h : Keeps P I R activeOutputs) :
    Keeps P I (fun r => ∀ o ∈ r, R o) maybeActiveOutputs :=
  h.attempt.bind fun r hr => keeps_pure fun o ho => by
    cases r with
    | error e => cases ho
    | ok o' => cases ho; exact hr o rfl

end Keeps

/-! ## Running the pieces alone -/

section Run

variable {η α : Type} (env : Env η CoreCall (Except CoreError Unit)) (w : Core) (x : η)

@[simp] theorem run_lockState {lab : PlaybackState → Except CoreError α → Sect}
    {f : PlaybackState → Except CoreError α × PlaybackState} :
    (lockState lab f).run env w x =
      ((f w.state).1, { w with state := (f w.state).2 }, x) := rfl

@[simp] theorem run_readState {f : PlaybackState → Except CoreError α} :
    (readState f).run env w x = (f w.state, w, x) := rfl

@[simp] theorem run_writeState {lab : Sect} {f : PlaybackState → PlaybackState} :
    (writeState lab f).run env w x = (.ok (), { w with state := f w.state }, x) := rfl

@[simp] theorem run_lockTransport {lab : Sect}
    {f : (String → Option NodeTransportState) → α × (String → Option NodeTransportState)} :
    (lockTransport lab f).run env w x =
      (.ok (f w.transportState).1, { w with transportState := (f w.transportState).2 }, x) := rfl

@[simp] theorem run_send (o : OutputHandle) (cmd : OutputCmd) :
    (o.send cmd).run env w x =
      ((env x (.output o.node o.slot cmd)).1, w, (env x (.output o.node o.slot cmd)).2) := rfl

@[simp] theorem run_activeNodeId : activeNodeId.run env w x = (w.state.activeId, w, x) := rfl

theorem run_eachOutput {id : String} :
    (eachOutput id).run env w x =
      (match w.outputs id with
        | some slot => .ok ⟨id, slot⟩
        | none => .error .noActiveOutput, w, x) := by
  unfold eachOutput
  rw [Fallible.run_sect]
  split <;> rfl

@[simp] theorem run_activeOutputs :
    activeOutputs.run env w x = (w.activeOutput, w, x) := by
  unfold activeOutputs Core.activeOutput
  rw [Fallible.run_bind, run_activeNodeId]
  cases w.state.activeId with
  | error e => rfl
  | ok id =>
    dsimp only
    rw [run_eachOutput]

@[simp] theorem run_maybeActiveOutputs :
    maybeActiveOutputs.run env w x = (.ok w.activeOutput.toOption, w, x) := by
  rw [maybeActiveOutputs, Fallible.run_bind, Fallible.run_attempt, run_activeOutputs]
  rfl

@[simp] theorem run_eachOutput_some {id : String} {slot : OutputSlot}
    (h : w.outputs id = some slot) : (eachOutput id).run env w x = (.ok ⟨id, slot⟩, w, x) := by
  rw [run_eachOutput, h]

@[simp] theorem run_eachOutput_none {id : String} (h : w.outputs id = none) :
    (eachOutput id).run env w x = (.error .noActiveOutput, w, x) := by
  rw [run_eachOutput, h]

/-- Deliveries fail never and leave the state alone. -/
theorem run_deliverAll (call : Nat → CoreCall) (ks : List Nat) :
    ∀ x : η, ∃ x', (deliverAll call ks).run env w x = (.ok (), w, x') := by
  induction ks with
  | nil => intro x; exact ⟨x, rfl⟩
  | cons k ks ih =>
    intro x
    obtain ⟨x', hx'⟩ := ih (env x (call k)).2
    exact ⟨x', by rw [deliverAll, Fallible.run_bind, Fallible.run_tell]; exact hx'⟩

/-- Run alone, `broadcast` never fails and recomputes the mirror. -/
theorem run_broadcast :
    ∃ x', broadcast.run env w x =
      (.ok (), { w with state := w.state.syncTopLevelFromSelectedNode }, x') := by
  let w' : Core := { w with state := w.state.syncTopLevelFromSelectedNode }
  obtain ⟨x₁, h₁⟩ := run_deliverAll env w' (.onStateChanged · w'.state) w.broadcasters x
  obtain ⟨x₂, h₂⟩ := run_deliverAll env w' (.persist · w'.state) w.persisters x₁
  refine ⟨x₂, ?_⟩
  rw [broadcast, Fallible.run_bind, run_writeState]
  simp only [Fallible.run_bind, Fallible.run_sect]
  rw [h₁]
  exact h₂

/-- Deliveries that leave the memory of the environment alone. -/
theorem run_deliverAll_quiet {call : Nat → CoreCall} {x : η} (hcall : ∀ k, env x (call k) = (.ok (), x))
    (ks : List Nat) : (deliverAll call ks).run env w x = (.ok (), w, x) := by
  induction ks with
  | nil => rfl
  | cons k ks ih =>
    rw [deliverAll, Fallible.run_bind, Fallible.run_tell, hcall]
    exact ih

theorem run_broadcast_quiet {x : η} (hstate : ∀ k s, env x (.onStateChanged k s) = (.ok (), x))
    (hpersist : ∀ k s, env x (.persist k s) = (.ok (), x)) :
    broadcast.run env w x = (.ok (), { w with state := w.state.syncTopLevelFromSelectedNode }, x) := by
  unfold broadcast
  simp only [Fallible.run_bind, run_writeState, Fallible.run_sect]
  rw [run_deliverAll_quiet env _ fun k => hstate k _]
  exact run_deliverAll_quiet env _ (fun k => hpersist k _) _

theorem broadcast_state :
    (broadcast.run env w x).2.1.state = w.state.syncTopLevelFromSelectedNode := by
  obtain ⟨x', h⟩ := run_broadcast env w x
  rw [h]

end Run

end Kanade

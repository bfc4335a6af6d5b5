import Kanade.Core.Runs

/-!
# Kanade.Core.Alone

What the lifecycle operations leave behind when they run alone: one equation for each, which says
what has become of the nodes and of the selection. Of these operations only `select_node` depends on
how the outputs behave.
-/

namespace Kanade

open Concur Fallible

variable {η α : Type}

theorem after_addNode (env : Outputs η) (node : Node) (c : Core × η) :
    ((CoreOp.addNode node).after env c).1.state =
      (addNodeSection node c.1.state).syncTopLevelFromSelectedNode := by
  simp only [CoreOp.after, CoreOp.task, Kanade.addNode, Fallible.run_bind, run_writeState,
    broadcast_state]

theorem after_markNodeConnected (env : Outputs η) (id : String) (connected : Bool) (c : Core × η) :
    ((CoreOp.markNodeConnected id connected).after env c).1.state =
      (c.1.state.modifyNode id fun node =>
        let node := { node with connected := connected }
        if connected then node
        else { node with status := .stopped, positionSecs := 0 }).syncTopLevelFromSelectedNode := by
  simp only [CoreOp.after, CoreOp.task, Kanade.markNodeConnected, Fallible.run_bind,
    run_writeState, broadcast_state]

theorem after_removeNode (env : Outputs η) (id : String) (c : Core × η) :
    ((CoreOp.removeNode id).after env c).1.state =
      (let s := { c.1.state with nodes := c.1.state.nodes.filter fun n => n.id ≠ id }
       if s.selectedNodeId = some id then { s with selectedNodeId := s.nodes.head?.map Node.id }
       else s).syncTopLevelFromSelectedNode := by
  obtain ⟨w, x⟩ := c
  simp only [CoreOp.after, CoreOp.task, Kanade.removeNode, writeOutputs, Fallible.run_bind,
    run_writeState, run_lockTransport, Fallible.run_sect]
  rw [broadcast_state]

/-! ## Local sessions -/

/-- The operations on a local node, with their result: a node of another type, or none, is left
alone. -/
theorem run_localNode (env : Outputs η) (id : String) (f : PlaybackState → PlaybackState)
    (w : Core) (x : η) :
    ∃ x', (do lockLocalNode id f; broadcast : Op Unit).run env w x =
      match w.state.node id with
      | some node =>
        if node.nodeType = .localNode then
          (.ok (), { w with state := (f w.state).syncTopLevelFromSelectedNode }, x')
        else (.error .localSessionNotFound, w, x)
      | none => (.error .localSessionNotFound, w, x) := by
  obtain ⟨x', hb⟩ := run_broadcast env { w with state := f w.state } x
  refine ⟨x', ?_⟩
  simp only [lockLocalNode, Fallible.run_bind, run_lockState]
  cases hn : w.state.node id with
  | none => rfl
  | some node =>
    by_cases hl : node.nodeType = .localNode
    · simp [hl, hb]
    · simp [hl]

theorem run_lockLocalNode_broadcast (env : Outputs η) (id : String)
    (f : PlaybackState → PlaybackState) (w : Core) (x : η) :
    ((do lockLocalNode id f; broadcast : Op Unit).run env w x).2.1.state =
      match w.state.node id with
      | some node =>
        if node.nodeType = .localNode then (f w.state).syncTopLevelFromSelectedNode else w.state
      | none => w.state := by
  obtain ⟨x', h⟩ := run_localNode env id f w x
  rw [h]
  cases w.state.node id with
  | none => rfl
  | some node => dsimp only; split <;> rfl

theorem after_localSessionUpdate (env : Outputs η) (id : String) (u : SessionUpdate)
    (c : Core × η) :
    ((CoreOp.localSessionUpdate id u).after env c).1.state =
      match c.1.state.node id with
      | some node =>
        if node.nodeType = .localNode then
          (c.1.state.modifyNode id u.apply).syncTopLevelFromSelectedNode
        else c.1.state
      | none => c.1.state :=
  run_lockLocalNode_broadcast env id _ c.1 c.2

theorem after_localSessionDisconnect (env : Outputs η) (id : String) (now : Int)
    (c : Core × η) :
    ((CoreOp.localSessionDisconnect id now).after env c).1.state =
      match c.1.state.node id with
      | some node =>
        if node.nodeType = .localNode then
          (c.1.state.modifyNode id fun node =>
            { node with connected := false,
                        disconnectedAt := some now }).syncTopLevelFromSelectedNode
        else c.1.state
      | none => c.1.state :=
  run_lockLocalNode_broadcast env id _ c.1 c.2

theorem after_localSessionStop (env : Outputs η) (id : String) (c : Core × η) :
    ((CoreOp.localSessionStop id).after env c).1.state =
      match c.1.state.node id with
      | some node =>
        if node.nodeType = .localNode then
          (let s := { c.1.state with nodes := c.1.state.nodes.filter fun n => n.id ≠ id }
           if s.selectedNodeId = some id then { s with selectedNodeId := firstConnectedId s }
           else s).syncTopLevelFromSelectedNode
        else c.1.state
      | none => c.1.state :=
  run_lockLocalNode_broadcast env id _ c.1 c.2

/-- A session start does not fail; its result is the session's node. -/
theorem run_localSessionStart (env : Outputs η) (name : String) (deviceId : Option String)
    (uuid : String) (w : Core) (x : η) :
    ∃ w' x', (Kanade.localSessionStart name deviceId uuid).run env w x =
      (.ok (sessionStartSection name deviceId uuid w.state).1.1, w', x') ∧
        w'.state =
          (sessionStartSection name deviceId uuid w.state).2.syncTopLevelFromSelectedNode := by
  have hend : ∀ (w : Core) (x : η) (id : String),
      ∃ w' x', (do broadcast; pure id : Op String).run env w x = (.ok id, w', x') ∧
        w'.state = w.state.syncTopLevelFromSelectedNode := fun w x id => by
    obtain ⟨x', hb⟩ := run_broadcast env w x
    rw [Fallible.run_bind, hb]
    exact ⟨_, _, rfl, rfl⟩
  rw [Kanade.localSessionStart, Fallible.run_bind, run_lockState]
  dsimp only
  split
  · rw [Fallible.run_bind, run_lockTransport]
    dsimp only
    rw [Fallible.run_bind, writeOutputs, Fallible.run_sect]
    exact hend _ _ _
  · exact hend _ _ _

theorem after_localSessionStart (env : Outputs η) (name : String)
    (deviceId : Option String) (uuid : String) (c : Core × η) :
    ((CoreOp.localSessionStart name deviceId uuid).after env c).1.state =
      (sessionStartSection name deviceId uuid c.1.state).2.syncTopLevelFromSelectedNode := by
  obtain ⟨w', x', hrun, hstate⟩ := run_localSessionStart env name deviceId uuid c.1 c.2
  simp only [CoreOp.after, CoreOp.task]
  rw [Fallible.run_bind, hrun]
  exact hstate

theorem after_cleanupDisconnectedNodes (env : Outputs η) (now maxAge : Int) (c : Core × η) :
    ((CoreOp.cleanupDisconnectedNodes now maxAge).after env c).1.state =
      if removedIds now maxAge c.1.state = [] then c.1.state
      else (cleanupSection now maxAge c.1.state).2.syncTopLevelFromSelectedNode := by
  obtain ⟨w, x⟩ := c
  have hids : (cleanupSection now maxAge w.state).1 = removedIds now maxAge w.state := by
    unfold cleanupSection
    dsimp only
    split <;> rfl
  simp only [CoreOp.after, CoreOp.task, Kanade.cleanupDisconnectedNodes, Fallible.run_bind,
    run_lockState, hids]
  split
  · rename_i hnone
    simp [cleanupSection, hnone]
  · simp only [Fallible.run_bind, run_lockTransport, writeOutputs, Fallible.run_sect]
    rw [broadcast_state]

/-! ## Disconnection and selection

Here outputs are called between the sections. What is done to them leaves the nodes alone. -/

/-- The same nodes, and the same one selected. -/
def SameNodes (s s' : PlaybackState) : Prop :=
  s'.nodes = s.nodes ∧ s'.selectedNodeId = s.selectedNodeId

theorem SameNodes.refl (s : PlaybackState) : SameNodes s s := ⟨rfl, rfl⟩

theorem SameNodes.trans {s s' s'' : PlaybackState} (h : SameNodes s s') (h' : SameNodes s' s'') :
    SameNodes s s'' := ⟨h'.1.trans h.1, h'.2.trans h.2⟩

theorem sameNodes_sync (s : PlaybackState) : SameNodes s s.syncTopLevelFromSelectedNode :=
  ⟨syncTopLevel_nodes, syncTopLevel_selectedNodeId⟩

abbrev sameNodesProtocol : Protocol Core Sect CoreCall (Except CoreError Unit) Unit :=
  Protocol.within (fun _ => True) fun w w' => SameNodes w.state w'.state

/-- Looking, calling outputs and broadcasting. -/
theorem sameNodesDiscipline :
    Discipline sameNodesProtocol (fun _ _ => True) (fun _ => True) (.registerOutput "" "" 0) where
  weaken _ := trivial
  reads _ _ := trivial
  quiet _ _ _ _ hs _ _ :=
    ⟨⟨congrArg PlaybackState.nodes hs, congrArg PlaybackState.selectedNodeId hs⟩, trivial⟩
  write _ _ hf := nomatch hf
  output _ := ⟨trivial, fun _ => trivial⟩
  broadcasts _ :=
    (keeps_broadcast (I := fun _ => True) (fun _ w _ _ => ⟨sameNodes_sync w.state, trivial⟩)
      (fun _ w _ _ => ⟨SameNodes.refl w.state, trivial⟩) (fun _ _ _ _ => ⟨trivial, fun _ => trivial⟩)
      (fun _ _ _ _ => ⟨trivial, fun _ => trivial⟩) () trivial).mono fun _ _ _ => trivial

theorem run_sameNodes {t : Op α} (h : Within (fun _ => True)
      (fun w w' => SameNodes w.state w'.state) t) (env : Outputs η) (w : Core) (x : η) :
    SameNodes w.state (t.run env w x).2.1.state :=
  h.run (fun w _ => SameNodes.refl w.state) (fun _ _ _ => SameNodes.trans) (fun _ _ _ _ => trivial)
    env x trivial

theorem within_of_quiet {t : Op α} (h : Discipline.Quiet sameNodesProtocol (fun _ _ => True) t) :
    Within (fun _ => True) (fun w w' => SameNodes w.state w'.state) t :=
  (h true () trivial).mono fun _ _ _ => trivial

theorem within_broadcast :
    Within (fun _ => True) (fun w w' => SameNodes w.state w'.state) broadcast :=
  (sameNodesDiscipline.broadcasts trivial).mono fun _ _ _ => trivial

/-- A selected node's output is brought to its state without a write. -/
theorem run_syncConnectedNode_selected (env : Outputs η) {id : String} {w : Core}
    (hsel : w.state.selectedNodeId = some id) (x : η) :
    SameNodes w.state ((syncConnectedNodeToLogicalState id).run env w x).2.1.state := by
  unfold syncConnectedNodeToLogicalState
  rw [Fallible.run_bind, run_readState]
  cases w.state.node id with
  | none => exact SameNodes.refl _
  | some node =>
    simp only [hsel, beq_self_eq_true, if_true]
    exact run_sameNodes ((within_of_quiet (sameNodesDiscipline.quiet_syncOutputToGlobal id)).bind
      fun _ => within_of_quiet (sameNodesDiscipline.quiet_applyOutputRuntimeState _ _ _)) env w x

theorem after_handleNodeDisconnected (env : Outputs η) (id : String) (c : Core × η) :
    SameNodes (disconnectSection id c.1.state).2
      ((CoreOp.handleNodeDisconnected id).after env c).1.state := by
  obtain ⟨w, x⟩ := c
  simp only [CoreOp.after, CoreOp.task, Kanade.handleNodeDisconnected]
  rw [Fallible.run_bind, run_lockState]
  dsimp only
  cases hfb : (disconnectSection id w.state).1 with
  | none =>
    exact run_sameNodes within_broadcast env { w with state := (disconnectSection id w.state).2 } x
  | some fb =>
    have hsel : (disconnectSection id w.state).2.selectedNodeId = some fb := by
      unfold disconnectSection at hfb ⊢
      cases h : fallbackNodeId id w.state with
      | none => simp [h] at hfb
      | some fb' => simpa [h] using hfb
    dsimp only
    simp only [Fallible.run_bind, Fallible.run_attempt]
    exact (run_syncConnectedNode_selected env
      (w := { w with state := (disconnectSection id w.state).2 }) hsel x).trans
      (run_sameNodes within_broadcast env _ _)

/-- What `select_node` makes of the new node when its outputs have done as they were told. -/
def Node.resume (status : PlaybackStatus) (positionSecs : ℚ) (node : Node) : Node :=
  match status with
  | .playing => { node with status := .playing, positionSecs := positionSecs }
  | .paused => { node with status := .paused, positionSecs := positionSecs }
  | _ => { node with positionSecs := positionSecs }

theorem run_stopPrevious (env : Outputs η) (previous : Option String) (w : Core) (x : η) :
    ∃ r x', (stopPrevious previous).run env w x = (r, w, x') ∧
      (r = .ok () → ∀ id ∈ previous, (w.outputs id).isSome) := by
  cases previous with
  | none => exact ⟨.ok (), x, rfl, fun _ _ h => nomatch h⟩
  | some id =>
    unfold stopPrevious
    rw [Fallible.run_bind, run_eachOutput]
    cases hout : w.outputs id with
    | none => exact ⟨_, _, rfl, fun h => nomatch h⟩
    | some slot => exact ⟨_, _, rfl, fun _ id' hid' => by cases hid'; simp [hout]⟩

theorem run_syncOutputToGlobal (env : Outputs η) (id : String) (w : Core) (x : η) :
    ∃ r m x', (syncOutputToGlobal id).run env w x = (r, { w with transportState := m }, x') ∧
      (r = .ok () → (w.outputs id).isSome) := by
  unfold syncOutputToGlobal
  rw [Fallible.run_bind, run_readState]
  cases w.state.node id with
  | none => exact ⟨_, _, _, rfl, fun h => nomatch h⟩
  | some node =>
    simp only [Fallible.run_bind, run_rebuildProjectionState, run_eachOutput]
    cases hout : w.outputs id with
    | none => exact ⟨_, _, _, rfl, fun h => nomatch h⟩
    | some slot =>
      simp only [run_send]
      cases (env x (.output id slot (.setVolume node.volume))).1 with
      | error e => exact ⟨_, _, _, rfl, fun _ => rfl⟩
      | ok _ => exact ⟨_, _, _, rfl, fun _ => rfl⟩

/-- Sequencing after a task that leaves the nodes alone. -/
theorem run_bind_sameNodes {β : Type} {t : Op α} {f : α → Op β} {C : PlaybackState → Prop}
    (ht : Discipline.Quiet sameNodesProtocol (fun _ _ => True) t) (env : Outputs η) {w : Core}
    {s : PlaybackState} (hs : SameNodes s w.state) (x : η) (herr : ∀ s', SameNodes s s' → C s')
    (hf : ∀ a w' x', SameNodes s w'.state → C ((f a).run env w' x').2.1.state) :
    C ((t >>= f).run env w x).2.1.state := by
  have hsame := hs.trans (run_sameNodes (within_of_quiet ht) env w x)
  rw [Fallible.run_bind]
  generalize t.run env w x = r at hsame ⊢
  obtain ⟨_ | a, w', x'⟩ := r
  · exact herr _ hsame
  · exact hf a w' x' hsame

/-- The nodes as they were, or with the resume written to node `id`. -/
def Resumed (id : String) (status : PlaybackStatus) (pos : ℚ) (s s' : PlaybackState) : Prop :=
  SameNodes s s' ∨ SameNodes (s.modifyNode id (Node.resume status pos)) s'

theorem run_resumeSelected (env : Outputs η) (id : String) (status : PlaybackStatus) (pos : ℚ)
    {s : PlaybackState} {w : Core} (hs : SameNodes s w.state) (x : η) :
    Resumed id status pos s ((resumeSelected id status pos).run env w x).2.1.state := by
  have d := sameNodesDiscipline
  have hwrite : ∀ (w' : Core) (x' : η) (f : Node → Node), SameNodes s w'.state →
      SameNodes (s.modifyNode id f)
        ((writeState .writeState (·.modifyNode id f)).run env w' x').2.1.state := by
    intro w' x' f hs'
    exact ⟨congrArg (modifyNode id f) hs'.1, hs'.2⟩
  cases status with
  | stopped => exact .inr (hwrite w x _ hs)
  | loading => exact .inr (hwrite w x _ hs)
  | playing =>
    refine run_bind_sameNodes (C := Resumed id .playing pos s) (d.quiet_eachOutput id) env hs x
      (fun _ => .inl) fun o w₁ x₁ h₁ => ?_
    refine run_bind_sameNodes (C := Resumed id .playing pos s) (d.quiet_playAt o pos) env h₁ x₁
      (fun _ => .inl) fun _ w₂ x₂ h₂ => ?_
    exact .inr (hwrite w₂ x₂ _ h₂)
  | paused =>
    refine run_bind_sameNodes (C := Resumed id .paused pos s) (d.quiet_eachOutput id) env hs x
      (fun _ => .inl) fun o w₁ x₁ h₁ => ?_
    refine run_bind_sameNodes (C := Resumed id .paused pos s) (d.quiet_playAt o pos) env h₁ x₁
      (fun _ => .inl) fun _ w₂ x₂ h₂ => ?_
    refine run_bind_sameNodes (C := Resumed id .paused pos s) (d.quiet_send o .pause) env h₂ x₂
      (fun _ => .inl) fun _ w₃ x₃ h₃ => ?_
    exact .inr (hwrite w₃ x₃ _ h₃)

/-- The outputs that `select_node` needs on its way to the last write are registered. -/
def SelectReaches (id : String) (w : Core) : Prop :=
  (∀ previous ∈ w.state.selectedNodeId, (w.outputs previous).isSome) ∧ (w.outputs id).isSome

/-- What `select_node` has to do after its first section, which found `previous` selected. -/
theorem run_selectRest (env : Outputs η) (id : String) (previous : Option String)
    (status : PlaybackStatus) (pos : ℚ) (w : Core) (x : η) :
    SameNodes w.state ((do
        stopPrevious previous
        syncOutputToGlobal id
        resumeSelected id status pos
        broadcast : Op Unit).run env w x).2.1.state ∨
      ((∀ p ∈ previous, (w.outputs p).isSome) ∧ (w.outputs id).isSome) ∧
        SameNodes (w.state.modifyNode id (Node.resume status pos)) ((do
          stopPrevious previous
          syncOutputToGlobal id
          resumeSelected id status pos
          broadcast : Op Unit).run env w x).2.1.state := by
  obtain ⟨r₁, x₁, hstop, hprev⟩ := run_stopPrevious env previous w x
  obtain ⟨r₂, m, x₂, hsync, hout⟩ := run_syncOutputToGlobal env id w x₁
  rw [Fallible.run_bind, hstop]
  cases r₁ with
  | error e => exact .inl (SameNodes.refl _)
  | ok _ =>
    dsimp only
    rw [Fallible.run_bind, hsync]
    cases r₂ with
    | error e => exact .inl (SameNodes.refl _)
    | ok _ =>
      dsimp only
      have hresumed := run_resumeSelected env id status pos (s := w.state)
        (w := { w with transportState := m }) (SameNodes.refl _) x₂
      rw [Fallible.run_bind]
      generalize (resumeSelected id status pos).run env { w with transportState := m } x₂ = r
        at hresumed ⊢
      obtain ⟨_ | a, w', x'⟩ := r
      · exact hresumed.imp_right fun h => ⟨⟨hprev rfl, hout rfl⟩, h⟩
      · have hend := run_sameNodes within_broadcast env w' x'
        exact hresumed.imp (fun h => h.trans hend) fun h => ⟨⟨hprev rfl, hout rfl⟩, h.trans hend⟩

/-- `select_node` leaves the nodes as its first section has made them, or has reached the outputs it
needs and resumes on the new node. -/
theorem after_selectNode (env : Outputs η) (id : String) (c : Core × η) :
    SameNodes (selectSection id c.1.state).2 ((CoreOp.selectNode id).after env c).1.state ∨
      ∃ status pos,
        (selectSection id c.1.state).1 = .ok (some (c.1.state.selectedNodeId, status, pos)) ∧
        SelectReaches id c.1 ∧
        SameNodes ((selectSection id c.1.state).2.modifyNode id (Node.resume status pos))
          ((CoreOp.selectNode id).after env c).1.state := by
  obtain ⟨w, x⟩ := c
  simp only [CoreOp.after, CoreOp.task, Kanade.selectNode]
  rw [Fallible.run_bind, run_lockState]
  have hresult : ∀ previous status pos,
      (selectSection id w.state).1 = .ok (some (previous, status, pos)) →
        previous = w.state.selectedNodeId := by
    intro previous status pos h
    unfold selectSection at h
    split at h
    · cases h
    · split at h
      · cases h
      · cases h
        rfl
  cases hsection : (selectSection id w.state).1 with
  | error e => exact .inl (SameNodes.refl _)
  | ok r =>
    cases r with
    | none => exact .inl (SameNodes.refl _)
    | some r =>
      obtain ⟨previous, status, pos⟩ := r
      obtain rfl := hresult previous status pos hsection
      obtain h | ⟨hreach, h⟩ := run_selectRest env id w.state.selectedNodeId status pos
        { w with state := (selectSection id w.state).2 } x
      · exact .inl h
      · exact .inr ⟨status, pos, rfl, hreach, h⟩

end Kanade

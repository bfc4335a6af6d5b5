import Kanade.Core.Runs

/-!
# Kanade.Core.Errors

What a failed operation leaves behind.

Most operations send their commands before they touch the state, or cannot fail afterwards.
`next`, `previous`, `play_index`, the queue operations, `select_node` and `handoff` write first and
may then fail at an output. `ErrsClean` says when this does not show: there is no output to fail,
or the write changes nothing. `errs_clean_iff` is exact, over all behaviours of the outputs.
-/

namespace Kanade

open Concur Fallible

instance : Nonempty CoreError := ⟨.nodeNotFound⟩

section Always

variable {α : Type} {w : Core}

@[simp] theorem always_lockState {lab : PlaybackState → Except CoreError α → Sect}
    {f : PlaybackState → Except CoreError α × PlaybackState} {Q : Except CoreError α → Core → Prop} :
    Always Q (lockState lab f) w ↔ Q (f w.state).1 { w with state := (f w.state).2 } := Iff.rfl

@[simp] theorem always_readState {f : PlaybackState → Except CoreError α}
    {Q : Except CoreError α → Core → Prop} : Always Q (readState f) w ↔ Q (f w.state) w := Iff.rfl

@[simp] theorem always_writeState {lab : Sect} {f : PlaybackState → PlaybackState}
    {Q : Except CoreError Unit → Core → Prop} :
    Always Q (writeState lab f) w ↔ Q (.ok ()) { w with state := f w.state } := Iff.rfl

@[simp] theorem always_rebuildProjectionState {id : String} {start : Option Nat} {len : Nat}
    {Q : Except CoreError UInt64 → Core → Prop} :
    Always Q (rebuildProjectionState id start len) w ↔
      Q (.ok (nextGeneration w.transportState id))
        { w with transportState := rebuilt w.transportState id start len } := Iff.rfl

@[simp] theorem always_send {o : OutputHandle} {cmd : OutputCmd}
    {Q : Except CoreError Unit → Core → Prop} :
    Always Q (o.send cmd) w ↔ Q (.ok ()) w ∧ ∀ e, Q (.error e) w := by
  refine always_call.trans ⟨fun h => ⟨h _, fun e => h _⟩, fun h r => ?_⟩
  cases r with
  | error e => exact h.2 e
  | ok u => exact h.1

@[simp] theorem always_activeNodeId {Q : Except CoreError String → Core → Prop} :
    Always Q activeNodeId w ↔ Q w.state.activeId w := Iff.rfl

theorem always_eachOutput {id : String} {Q : Except CoreError OutputHandle → Core → Prop} :
    Always Q (eachOutput id) w ↔
      match w.outputs id with
      | some slot => Q (.ok ⟨id, slot⟩) w
      | none => Q (.error .noActiveOutput) w := by
  unfold eachOutput
  rw [always_sect]
  cases w.outputs id <;> rfl

@[simp] theorem always_activeOutputs {Q : Except CoreError OutputHandle → Core → Prop} :
    Always Q activeOutputs w ↔ Q w.activeOutput w := by
  unfold activeOutputs Core.activeOutput
  rw [always_bind, always_activeNodeId]
  cases w.state.activeId with
  | error e => rfl
  | ok id =>
    simp only [always_eachOutput]
    cases w.outputs id <;> rfl

@[simp] theorem always_maybeActiveOutputs
    {Q : Except CoreError (Option OutputHandle) → Core → Prop} :
    Always Q maybeActiveOutputs w ↔ Q (.ok w.activeOutput.toOption) w := by
  unfold maybeActiveOutputs
  rw [always_bind, always_attempt, always_activeOutputs]
  rfl

theorem always_deliverAll {call : Nat → CoreCall} {ks : List Nat}
    {Q : Except CoreError Unit → Core → Prop} :
    Always Q (deliverAll call ks) w ↔ Q (.ok ()) w := by
  induction ks with
  | nil => rfl
  | cons k ks ih => rw [deliverAll, always_bind, always_tell]; exact ih

@[simp] theorem always_broadcast {Q : Except CoreError Unit → Core → Prop} :
    Always Q broadcast w ↔
      Q (.ok ()) { w with state := w.state.syncTopLevelFromSelectedNode } := by
  simp only [broadcast, always_bind, always_writeState, always_sect, always_deliverAll]

end Always

/-- An error finds the state `s` in place. -/
def Clean {α : Type} (s : PlaybackState) : Except CoreError α → Core → Prop
  | .ok _, _ => True
  | .error _, w => w.state = s

section Clean

variable {α β : Type} {s : PlaybackState} {w : Core}

@[simp] theorem clean_ok {a : α} : Clean s (.ok a) w ↔ True := Iff.rfl

@[simp] theorem clean_error {e : CoreError} :
    Clean s (.error e : Except CoreError α) w ↔ w.state = s := Iff.rfl

/-- What cannot fail is clean. -/
theorem always_clean_adjust {f : NodeTransportState → NodeTransportState} {t : Op Unit}
    (ht : ∀ w, Always (Clean s) t w) : Always (Clean s) (adjustProjectionActive f >>= fun _ => t) w := by
  unfold adjustProjectionActive
  simp only [always_bind, always_attempt, always_activeNodeId]
  cases w.state.activeId with
  | error e => exact ht w
  | ok id => exact ht _

end Clean

/-- The track that a jump goes to is the current one, at position zero like all nodes. -/
def JumpIdle (w : Core) (target : Node → Except CoreError Nat) : Prop :=
  ∀ id node i, w.state.activeId = .ok id → w.state.node id = some node → target node = .ok i →
    node.currentIndex = some i ∧ ∀ n ∈ w.state.nodes, n.positionSecs = 0

theorem moveTo_eq_self_iff {id : String} {i : Nat} {s : PlaybackState} {node : Node}
    (hn : s.node id = some node) :
    moveTo id i s = s ↔ node.currentIndex = some i ∧ ∀ n ∈ s.nodes, n.positionSecs = 0 := by
  constructor
  · intro h
    have hnode := node_moveTo id i s
    rw [h, hn, Option.map_some, Option.some.injEq] at hnode
    refine ⟨by rw [hnode], fun n hmem => ?_⟩
    rw [← h] at hmem
    obtain ⟨m, -, rfl⟩ := List.mem_map.1 hmem
    rfl
  · rintro ⟨hi, hpos⟩
    unfold moveTo
    rw [modifyNode_state_eq_self_iff.2 fun n hn' => by
      rw [hn] at hn'
      cases hn'
      rw [← hi]]
    refine congrArg (fun ns => { s with nodes := ns })
      ((List.map_congr_left fun n hn => ?_).trans (List.map_id s.nodes))
    rw [← hpos n hn]
    rfl

theorem always_clean_jump {target : Node → Except CoreError Nat} {w : Core} :
    Always (Clean w.state) (jump target) w ↔ JumpIdle w target := by
  unfold JumpIdle
  unfold jump
  rw [always_bind, always_activeNodeId]
  cases hact : w.state.activeId with
  | error e => simp
  | ok id =>
    obtain ⟨-, node, hn, -⟩ := activeId_eq_ok hact
    simp only [always_bind, always_lockState, jumpSection_eq hn]
    have hone : (∀ id' node' i', .ok id = (.ok id' : Except CoreError String) →
        w.state.node id' = some node' → target node' = .ok i' →
        node'.currentIndex = some i' ∧ ∀ n ∈ w.state.nodes, n.positionSecs = 0) ↔
        ∀ i, target node = .ok i → moveTo id i w.state = w.state := by
      refine ⟨fun h i hi => (moveTo_eq_self_iff hn).2 (h id node i rfl hn hi), ?_⟩
      rintro h id' node' i ⟨⟩ hn' hi
      rw [hn] at hn'
      cases hn'
      exact (moveTo_eq_self_iff hn).1 (h i hi)
    rw [hone]
    cases ht : target node with
    | error e => simp
    | ok i =>
      have hact' : (moveTo id i w.state).activeId = .ok id := (activeId_moveTo id i _).trans hact
      cases hout : w.outputs id with
      | none => simp [Core.activeOutput, hact', hout]
      | some slot => simp [Core.activeOutput, hact', hout]

theorem always_clean_commandNode {id : String} {cmd : OutputCmd} {f : Node → Node} {w : Core} :
    Always (Clean w.state) (commandNode id cmd f) w := by
  simp only [commandNode, always_bind, always_eachOutput]
  cases w.outputs id <;> simp

/-- The end of the queue operations: once `s` has been left, telling the active output, if there is
one, is where they fail. -/
theorem always_clean_tellActive {s : PlaybackState} {w : Core} {cmd : OutputCmd} {rest : Op Unit}
    (hrest : ∀ w, Always (Clean s) rest w) :
    Always (Clean s) (do
        match ← maybeActiveOutputs with
        | some o => do
          o.send cmd
          rest
        | none => broadcast) w ↔
      ((∃ o, w.activeOutput = .ok o) → w.state = s) := by
  rw [always_bind, always_maybeActiveOutputs]
  cases w.activeOutput with
  | error e => simp [Except.toOption]
  | ok o => simp [Except.toOption, always_bind, hrest]

theorem always_clean_extend {s : PlaybackState} {n : Nat} (w : Core) :
    Always (Clean s) (do extendProjectionLoadedLenActive n; broadcast) w := by
  unfold extendProjectionLoadedLenActive
  split
  · simp [always_bind]
  · exact always_clean_adjust fun w => by simp

theorem always_clean_decrement {s : PlaybackState} {n : Nat} (w : Core) :
    Always (Clean s) (do decrementProjectionLoadedLenActive n; broadcast) w := by
  unfold decrementProjectionLoadedLenActive
  split
  · simp [always_bind]
  · exact always_clean_adjust fun w => by simp

theorem always_clean_appendToQueue {tracks : List Track} {w : Core} (hne : tracks ≠ []) :
    Always (Clean w.state) (appendToQueue tracks) w ↔ ∀ o, w.activeOutput ≠ .ok o := by
  unfold appendToQueue
  rw [always_bind, always_readState]
  cases hsel : w.state.selectedNodeId with
  | none =>
    refine iff_of_true rfl fun o ho => ?_
    rw [(selected_of_activeOutput ho).1] at hsel
    cases hsel
  | some id =>
    dsimp only
    rw [always_bind, always_lockState]
    cases hn : w.state.node id with
    | none =>
      refine iff_of_true rfl fun o ho => ?_
      obtain ⟨hsel', node, hn'⟩ := selected_of_activeOutput ho
      rw [hsel] at hsel'
      cases hsel'
      rw [hn] at hn'
      cases hn'
    | some node =>
      dsimp only
      refine (always_clean_tellActive always_clean_extend).trans ?_
      rw [activeOutput_modifyNode (fun _ => by rfl) fun _ => by rfl]
      have hchanges : w.state.modifyNode id (fun n => { n with queue := n.queue ++ tracks }) ≠
          w.state := fun h => by
        have := congrArg Node.queue (modifyNode_state_eq_self_iff.1 h node hn)
        exact hne (by simpa using this)
      simp [hchanges]

/-- The operations on the selected node's queue that look at it first: they fail cleanly unless
there is an output to fail and the write shows. -/
theorem always_clean_editSelected {α : Type} {f : Node → Except CoreError (α × (Node → Node))}
    (cmd : α → OutputCmd) (rest : Op Unit) {w : Core}
    (hid : ∀ node a g, f node = .ok (a, g) → ∀ n, (g n).id = n.id ∧ (g n).connected = n.connected)
    (hrest : ∀ w', Always (Clean w.state) rest w') :
    Always (Clean w.state) (do
        let a ← lockSelected f
        match ← maybeActiveOutputs with
        | some o => do
          o.send (cmd a)
          rest
        | none => broadcast) w ↔
      ∀ o node, w.activeOutput = .ok o → w.state.node o.node = some node →
        ∀ p, f node = .ok p → p.2 node = node := by
  rw [always_bind, lockSelected, always_lockState]
  cases hsel : w.state.selectedNode with
  | none =>
    refine iff_of_true rfl fun o node ho hn _ _ => ?_
    rw [PlaybackState.selectedNode, (selected_of_activeOutput ho).1, Option.bind_some, hn] at hsel
    cases hsel
  | some node =>
    obtain ⟨id, hid', hn⟩ := Option.bind_eq_some_iff.1 hsel
    have hactive : ∀ o, w.activeOutput = .ok o → o.node = id := fun o ho => by
      have := (selected_of_activeOutput ho).1
      rw [hid'] at this
      exact (Option.some.inj this).symm
    dsimp only
    cases hf : f node with
    | error e =>
      refine iff_of_true rfl fun o node' ho hn' p hf' => ?_
      rw [hactive o ho, hn] at hn'
      cases hn'
      rw [hf] at hf'
      cases hf'
    | ok ag =>
      obtain ⟨a, g⟩ := ag
      have hg := hid node a g hf
      dsimp only
      refine (always_clean_tellActive hrest).trans ?_
      rw [activeOutput_modifyNode (fun n => (hg n).1) fun n => (hg n).2, node_id hn,
        modifyNode_state_eq_self_iff]
      constructor
      · intro h o node' ho hn' p hf'
        rw [hactive o ho, hn] at hn'
        cases hn'
        rw [hf] at hf'
        cases hf'
        exact h ⟨o, ho⟩ node hn
      · rintro h ⟨o, ho⟩ node' hn'
        rw [hn] at hn'
        cases hn'
        exact h o node ho (by rw [hactive o ho, hn]) (a, g) hf

theorem always_clean_lockSelected {f : Node → Except CoreError (Unit × (Node → Node))}
    {s : PlaybackState} {w : Core} (hw : w.state = s) :
    Always (Clean s) (do lockSelected f; broadcast) w := by
  rw [always_bind, lockSelected, always_lockState]
  cases w.state.selectedNode with
  | none => exact hw
  | some node =>
    dsimp only
    cases f node with
    | error e => exact hw
    | ok ag => simp

theorem always_clean_clearQueue {w : Core} : Always (Clean w.state) clearQueue w := by
  unfold clearQueue
  rw [always_bind, always_attempt, always_activeNodeId]
  cases w.state.activeId with
  | error e => exact always_clean_lockSelected rfl
  | ok id =>
    simp only [always_bind, always_rebuildProjectionState, always_eachOutput]
    cases w.outputs id with
    | none => rfl
    | some slot => exact always_send.2 ⟨(always_bind _ _).1 (always_clean_lockSelected rfl), fun e => rfl⟩

/-- The end of `set_queue`: playing what has been sent. -/
theorem always_clean_playActive {s : PlaybackState} {w : Core} {startIndex : Option Nat} :
    Always (Clean s) (
        if startIndex.isSome then do
          match ← maybeActiveOutputs with
          | some o => do
            o.send .play
            broadcast
          | none => broadcast
        else broadcast) w ↔
      startIndex = none ∨ ((∃ o, w.activeOutput = .ok o) → w.state = s) := by
  cases startIndex with
  | none => simp
  | some i => simpa using always_clean_tellActive fun w => by simp

theorem always_clean_setQueue {tracks : List Track} {startIndex : Option Nat} {w : Core} :
    Always (Clean w.state) (setQueue tracks startIndex) w ↔
      startIndex = none ∨ ∀ o node, w.activeOutput = .ok o → w.state.node o.node = some node →
        node.queue = tracks ∧ node.currentIndex = startIndex ∧ node.positionSecs = 0 ∧
          node.status = .playing := by
  unfold setQueue
  rw [always_bind, always_readState]
  cases hsel : w.state.selectedNodeId with
  | none =>
    refine iff_of_true rfl (.inr fun o node ho _ => ?_)
    rw [(selected_of_activeOutput ho).1] at hsel
    cases hsel
  | some id =>
    dsimp only
    rw [always_bind, always_attempt, always_activeNodeId]
    cases hact : w.state.activeId with
    | error e =>
      have hout : ∀ o, w.activeOutput ≠ .ok o := fun o ho => by
        rw [(activeOutput_eq_ok ho).1] at hact
        cases hact
      refine iff_of_true ?_ (.inr fun o node ho _ => absurd ho (hout o))
      simp only [Except.toOption, setQueueRest, always_bind, always_lockState]
      cases hn : w.state.node id with
      | none => simp [setQueueSection, hn]
      | some node =>
        have hsect : setQueueSection id none tracks startIndex w.state =
            (.ok (), w.state.modifyNode id fun n =>
              { n with queue := tracks, currentIndex := startIndex, positionSecs := 0,
                       status := .stopped }) := by
          simp [setQueueSection, hn]
        rw [hsect]
        refine always_clean_playActive.2 (.inr ?_)
        rw [activeOutput_modifyNode (fun _ => by rfl) fun _ => by rfl]
        rintro ⟨o, ho⟩
        exact absurd ho (hout o)
    | ok active =>
      obtain ⟨hsel', node, hn, -⟩ := activeId_eq_ok hact
      rw [hsel] at hsel'
      cases hsel'
      simp only [Except.toOption, setQueueRest, always_bind, always_rebuildProjectionState, always_eachOutput]
      cases hslot : w.outputs id with
      | none =>
        refine iff_of_true rfl (.inr fun o node ho _ => ?_)
        have ho' := activeOutput_eq_ok ho
        rw [hact] at ho'
        rw [← Except.ok.inj ho'.1, hslot] at ho'
        cases ho'.2
      | some slot =>
        have hout : w.activeOutput = .ok ⟨id, slot⟩ := by simp [Core.activeOutput, hact, hslot]
        simp only [always_send, clean_error, implies_true, and_true, always_lockState, hout]
        cases startIndex with
        | none => simp [setQueueSection, hn]
        | some i =>
          rw [setQueueSection_eq hn]
          refine always_clean_playActive.trans ?_
          dsimp only
          rw [activeOutput_modifyNode (fun _ => by rfl) fun _ => by rfl,
            modifyNode_state_eq_self_iff]
          refine or_congr Iff.rfl ⟨fun h o node' ho hn' => ?_, fun h _ node' hn' => ?_⟩
          · cases ho
            have := h ⟨_, hout⟩ node' hn'
            rw [← this]
            exact ⟨rfl, rfl, rfl, rfl⟩
          · obtain ⟨hq, hi, hp, hst⟩ := h _ node' rfl hn'
            rw [← hq, ← hi, ← hp, ← hst]

section Outputs

variable {α : Type} {s : PlaybackState} {id : String} {w : Core}

/-- A command can fail at once: nothing may have been written before. -/
theorem state_eq_of_always_command {f : Unit → Op α} {cmd : OutputCmd}
    (h : Always (Clean s) ((do (← eachOutput id).send cmd) >>= f) w) : w.state = s := by
  rw [always_bind, always_bind, always_eachOutput] at h
  cases hout : w.outputs id with
  | none => simpa [hout] using h
  | some slot =>
    simp only [hout, always_send, clean_error, forall_const] at h
    exact h.2

theorem state_eq_of_always_sync {f : Unit → Op α}
    (h : Always (Clean s) (syncOutputToGlobal id >>= f) w) : w.state = s := by
  simp only [syncOutputToGlobal, always_bind, always_readState] at h
  cases hn : w.state.node id with
  | none => simpa [hn] using h
  | some node =>
    simp only [hn, always_rebuildProjectionState, always_eachOutput] at h
    cases hout : w.outputs id with
    | none => simpa [hout] using h
    | some slot =>
      simp only [hout, always_send, clean_error, forall_const] at h
      exact h.2

theorem always_clean_sync {f : Unit → Op α} (hw : w.state = s)
    (hf : ∀ w', w'.state = s → Always (Clean s) (f ()) w') :
    Always (Clean s) (syncOutputToGlobal id >>= f) w := by
  simp only [syncOutputToGlobal, always_bind, always_readState]
  cases hn : w.state.node id with
  | none => simpa [hn] using hw
  | some node =>
    simp only [always_rebuildProjectionState, always_eachOutput]
    cases hout : w.outputs id with
    | none => simpa [hout] using hw
    | some slot =>
      simp only [always_send, clean_error]
      exact ⟨⟨hf _ hw, fun _ => hw⟩, fun _ => hw⟩

theorem always_clean_playAt {o : OutputHandle} {pos : ℚ} {f : Unit → Op α} (hw : w.state = s)
    (hf : Always (Clean s) (f ()) w) : Always (Clean s) (o.playAt pos >>= f) w := by
  rw [always_bind, OutputHandle.playAt, always_bind]
  split <;> simp [hw, hf]

end Outputs

theorem always_clean_selectNode {id : String} {w : Core} :
    Always (Clean w.state) (selectNode id) w ↔
      w.state.node id = none ∨ w.state.selectedNodeId = some id := by
  unfold selectNode
  rw [always_bind, always_lockState]
  cases hn : w.state.node id with
  | none => simp [selectSection, hn]
  | some node =>
    by_cases hsel : w.state.selectedNodeId = some id
    · simp [selectSection, hn, hsel]
    · simp only [selectSection, hn, hsel, if_false, reduceCtorEq, or_self, iff_false]
      intro h
      -- the selection has moved, and the first output that it goes to may fail
      have hmoved : ∀ w' : Core, w'.state.selectedNodeId = some id → w'.state ≠ w.state :=
        fun w' hw' heq => hsel (by rw [← heq, hw'])
      cases hprev : w.state.selectedNodeId with
      | none =>
        rw [hprev] at h
        exact absurd (state_eq_of_always_sync h) (hmoved _ rfl)
      | some previous =>
        rw [hprev] at h
        exact absurd (state_eq_of_always_command h) (hmoved _ rfl)

theorem always_clean_handoff {fromId toId : String} {w : Core} :
    Always (Clean w.state) (handoff fromId toId) w ↔
      ∀ src target, w.state.node fromId = some src → w.state.node toId = some target →
        target.connected → target.nodeType = .remote →
          target.queue = src.queue ∧ target.currentIndex = src.currentIndex ∧
            target.positionSecs = src.positionSecs := by
  unfold handoff
  rw [always_bind, always_readState]
  cases hsrc : w.state.node fromId with
  | none => simp
  | some src =>
    cases htgt : w.state.node toId with
    | none => simp
    | some target =>
      dsimp only
      by_cases hc : target.connected
      · have hcopied : (w.state.modifyNode toId
            (Node.takeOver src.queue src.currentIndex src.positionSecs)).node toId =
            (w.state.node toId).map (Node.takeOver src.queue src.currentIndex src.positionSecs) :=
          node_modifyNode_self fun _ => rfl
        simp only [hc, if_true, always_bind, always_readState, hsrc, always_writeState, hcopied,
          htgt]
        by_cases hr : target.nodeType = .remote
        · simp only [Option.map_some, Node.takeOver, hr, if_true]
          constructor
          · intro h src' target' hs ht _ _
            cases hs
            cases ht
            have := modifyNode_state_eq_self_iff.1 (state_eq_of_always_sync h) target htgt
            rw [← this]
            exact ⟨rfl, rfl, rfl⟩
          · intro h
            obtain ⟨hq, hi, hp⟩ := h src target rfl rfl hc hr
            have hsame : w.state.modifyNode toId (fun n =>
                { n with queue := src.queue, currentIndex := src.currentIndex,
                         positionSecs := src.positionSecs }) = w.state :=
              modifyNode_state_eq_self_iff.2 fun n hn => by
                rw [htgt] at hn
                cases hn
                rw [← hq, ← hi, ← hp]
            refine always_clean_sync hsame fun w' hw' => ?_
            rw [always_bind, always_eachOutput]
            cases w'.outputs toId with
            | none => exact hw'
            | some slot => exact always_clean_playAt hw' (by simp [always_bind])
        · simp only [Option.map_some, Node.takeOver, Option.some.injEq, hr, if_false,
            always_broadcast, clean_ok, true_iff]
          rintro src' target' - ⟨⟩ - hr'
          exact absurd hr' hr
      · simp [hc]

theorem always_clean_applyOutputRuntimeState {s : PlaybackState} {id : String}
    {status : PlaybackStatus} {pos : ℚ} {w : Core} (hw : w.state = s) :
    Always (Clean s) (applyOutputRuntimeState id status pos) w := by
  rw [applyOutputRuntimeState, always_bind, always_eachOutput]
  have hplay : ∀ o : OutputHandle, Always (Clean s) (o.playAt pos) w := fun o => by
    rw [OutputHandle.playAt, always_bind]
    split <;> simp [hw]
  cases w.outputs id with
  | none => exact hw
  | some slot =>
    cases status with
    | stopped => simp [hw]
    | playing => exact hplay _
    | paused => exact always_clean_playAt hw (by simp [hw])
    | loading => exact hplay _

theorem always_clean_lockLocalNode {id : String} {f : PlaybackState → PlaybackState} {w : Core} :
    Always (Clean w.state) (do lockLocalNode id f; broadcast) w := by
  rw [always_bind, lockLocalNode, always_lockState]
  cases w.state.node id with
  | none => rfl
  | some node => by_cases hl : node.nodeType = .localNode <;> simp [hl]

/-- A failure of the operation leaves the state alone: what it writes before the outputs can fail
is written nowhere, or is there already. -/
def CoreOp.ErrsClean (w : Core) : CoreOp → Prop
  | .next => JumpIdle w nextIndex
  | .previous => JumpIdle w previousIndex
  | .playIndex index => JumpIdle w (indexTarget index)
  | .setQueue tracks startIndex =>
    startIndex = none ∨ ∀ o node, w.activeOutput = .ok o → w.state.node o.node = some node →
      node.queue = tracks ∧ node.currentIndex = startIndex ∧ node.positionSecs = 0 ∧
        node.status = .playing
  | .addToQueue _ => ∀ o, w.activeOutput ≠ .ok o
  | .addTracksToQueue tracks => tracks = [] ∨ ∀ o, w.activeOutput ≠ .ok o
  | .removeFromQueue index =>
    ∀ o node, w.activeOutput = .ok o → w.state.node o.node = some node →
      node.queue.length ≤ index
  | .moveInQueue src dst =>
    ∀ o node, w.activeOutput = .ok o → w.state.node o.node = some node →
      src < node.queue.length → dst < node.queue.length → node.moveTrack src dst = node
  | .selectNode id => w.state.node id = none ∨ w.state.selectedNodeId = some id
  | .handoff fromId toId =>
    ∀ src target, w.state.node fromId = some src → w.state.node toId = some target →
      target.connected → target.nodeType = .remote →
        target.queue = src.queue ∧ target.currentIndex = src.currentIndex ∧
          target.positionSecs = src.positionSecs
  | _ => True

/-- In whatever way the outputs behave, an operation that fails leaves the state as it was:
exactly under `ErrsClean`. -/
theorem errs_clean_iff (op : CoreOp) (w : Core) :
    (∀ (η : Type) (env : Outputs η) (x : η) (e : CoreError),
      (op.task.run env w x).1 = .error e → (op.task.run env w x).2.1.state = w.state) ↔
      op.ErrsClean w := by
  have halways : (∀ (η : Type) (env : Outputs η) (x : η)
      (e : CoreError), (op.task.run env w x).1 = .error e →
        (op.task.run env w x).2.1.state = w.state) ↔ Always (Clean w.state) op.task w := by
    rw [always_iff_run]
    refine forall_congr' fun η => forall_congr' fun env => forall_congr' fun x => ?_
    cases (op.task.run env w x).1 <;> simp
  rw [halways]
  cases op with
  | next => exact always_clean_jump
  | previous => exact always_clean_jump
  | playIndex index => exact always_clean_jump
  | setQueue tracks startIndex => exact always_clean_setQueue
  | selectNode id => exact always_clean_selectNode
  | handoff fromId toId => exact always_clean_handoff
  | addToQueue track => exact always_clean_appendToQueue (by simp)
  | addTracksToQueue tracks =>
    cases tracks with
    | nil => simp [CoreOp.task, addTracksToQueue, CoreOp.ErrsClean]
    | cons t ts =>
      refine (always_clean_appendToQueue (by simp)).trans ?_
      simp [CoreOp.ErrsClean]
  | removeFromQueue index =>
    refine (always_clean_editSelected OutputCmd.remove _ (fun node a g hg n => ?_)
      always_clean_decrement).trans ?_
    · split at hg
      · cases hg
      · cases hg
        exact removeTrack_frame index n
    · refine forall₂_congr fun o node => imp_congr_right fun _ => imp_congr_right fun _ => ?_
      by_cases hlt : node.queue.length ≤ index
      · simp [hlt]
      · simp [hlt, removeTrack_ne (not_le.1 hlt)]
  | moveInQueue src dst =>
    refine (always_clean_editSelected (fun a : Nat × Nat => OutputCmd.moveTrack a.1 a.2) broadcast
      (fun node a g hg n => ?_) fun w => by simp).trans ?_
    · split at hg
      · cases hg
      · cases hg
        exact ⟨rfl, rfl⟩
    · refine forall₂_congr fun o node => imp_congr_right fun _ => imp_congr_right fun _ => ?_
      by_cases hlt : src < node.queue.length ∧ dst < node.queue.length
      · simp [hlt.1, hlt.2, not_le.2 hlt.1, not_le.2 hlt.2]
      · have hge : node.queue.length ≤ src ∨ node.queue.length ≤ dst := by omega
        simp only [hge, ge_iff_le, if_true, reduceCtorEq, false_imp_iff, implies_true, true_iff]
        exact fun hs hd => absurd ⟨hs, hd⟩ hlt
  | clearQueue => exact iff_of_true always_clean_clearQueue trivial
  | play | pause | stop | seek =>
    refine iff_of_true ?_ trivial
    refine (always_bind _ _).2 (always_activeNodeId.2 ?_)
    cases w.state.activeId with
    | error e => rfl
    | ok id => exact always_clean_commandNode
  | setVolume volume =>
    refine iff_of_true ?_ trivial
    refine (always_bind _ _).2 (always_activeNodeId.2 ?_)
    cases w.state.activeId with
    | error e => rfl
    | ok id =>
      by_cases hv : volume > 100
      · simp [setNodeVolume, hv]
      · simpa [setNodeVolume, hv] using always_clean_commandNode
  | setShuffle | setRepeat => exact iff_of_true (always_clean_lockSelected rfl) trivial
  | localSessionStop | localSessionDisconnect | localSessionUpdate =>
    exact iff_of_true always_clean_lockLocalNode trivial
  | registerOutput | unregisterOutput => exact iff_of_true trivial trivial
  | addNode | markNodeConnected | removeNode =>
    refine iff_of_true ?_ trivial
    simp only [CoreOp.task, Kanade.addNode, Kanade.markNodeConnected, Kanade.removeNode,
      lockTransport, writeOutputs, always_bind, always_writeState, always_sect, always_broadcast,
      clean_ok]
  | syncNodeState id =>
    refine iff_of_true ?_ trivial
    simp only [CoreOp.task, Kanade.syncNodeState, lockTransport, always_bind, always_sect,
      always_lockState]
    cases w.state.node id with
    | none => simp
    | some node =>
      dsimp only
      split <;> simp
  | handleNodeDisconnected id =>
    refine iff_of_true ?_ trivial
    simp only [CoreOp.task, Kanade.handleNodeDisconnected, always_bind, always_lockState]
    cases (disconnectSection id w.state).1 with
    | none => simp
    | some fallback =>
      simp only [always_bind, always_attempt]
      exact always_of_forall (fun r w' => by simp) _
  | syncConnectedNode id =>
    refine iff_of_true ?_ trivial
    simp only [CoreOp.task, syncConnectedNodeToLogicalState]
    rw [always_bind, always_readState]
    cases w.state.node id with
    | none => rfl
    | some node =>
      refine always_clean_sync rfl fun w' hw' => ?_
      split
      · exact always_clean_applyOutputRuntimeState hw'
      · rw [← hw']
        exact always_clean_commandNode
  | localSessionStart name deviceId uuid =>
    refine iff_of_true ?_ trivial
    simp only [CoreOp.task, Kanade.localSessionStart, lockTransport, writeOutputs, always_bind,
      always_lockState]
    split <;> simp [always_bind]
  | cleanupDisconnectedNodes now maxAge =>
    refine iff_of_true ?_ trivial
    simp only [CoreOp.task, Kanade.cleanupDisconnectedNodes, lockTransport, writeOutputs,
      always_bind, always_lockState]
    split <;> simp [always_bind]

/-- A queue of two tracks whose first is playing. -/
def twoTracks : Core :=
  (runOps allSucceed [.registerOutput "a" "c" 0, .addNode { id := "a" },
    .setQueue [{ id := "1", filePath := "/1" }, { id := "2", filePath := "/2" }] (some 0)]
    (Core.new (fun _ => none) [] [], ())).1

/-- `next` against an output that refuses everything fails and leaves the index moved. -/
theorem next_fails_moved :
    (CoreOp.next.task.run refuse twoTracks ()).1 = .error (.output "refused") ∧
      (CoreOp.next.task.run refuse twoTracks ()).2.1.state ≠ twoTracks.state := by
  decide

end Kanade

import Kanade.Core.Alone

/-!
# Kanade.Core.Bounds

The current index of a node and the length of its queue.

`Bounded k`: every index, the mirrored one included, is below `k` or points into its queue. All
rewrites of the state keep it but three, which take an index from outside without looking at the
queue: `set_queue`, `local_session_update` and `add_node` of a new node. `KeepsIndex k` says when
these do no harm, `bounded_of_run` is the invariant of the runs that meet it, and
`index_in_queue_of_run` the case where every index points into its queue.
-/

namespace Kanade

open Concur

/-- The index, if there is one, is below `k` or points into the queue. -/
def IndexIn (k : Nat) (currentIndex : Option Nat) (queue : List Track) : Prop :=
  ∀ i ∈ currentIndex, i < k ∨ i < queue.length

instance (k : Nat) (i : Option Nat) (q : List Track) : Decidable (IndexIn k i q) :=
  inferInstanceAs (Decidable (∀ j ∈ i, j < k ∨ j < q.length))

def Node.IndexWithin (k : Nat) (n : Node) : Prop := IndexIn k n.currentIndex n.queue

instance (k : Nat) (n : Node) : Decidable (n.IndexWithin k) :=
  inferInstanceAs (Decidable (IndexIn k n.currentIndex n.queue))

/-- A node whose index points into its queue. -/
def Node.IndexInQueue (n : Node) : Prop := ∀ i ∈ n.currentIndex, i < n.queue.length

instance (n : Node) : Decidable n.IndexInQueue :=
  inferInstanceAs (Decidable (∀ i ∈ n.currentIndex, i < n.queue.length))

/-- Every index of the state is below `k` or points into its queue. -/
structure Bounded (k : Nat) (s : PlaybackState) : Prop where
  nodes : ∀ n ∈ s.nodes, n.IndexWithin k
  top : IndexIn k s.currentIndex s.queue

variable {k : Nat}

@[simp] theorem indexIn_none (q : List Track) : IndexIn k none q := by simp [IndexIn]

@[simp] theorem indexIn_some (i : Nat) (q : List Track) :
    IndexIn k (some i) q ↔ i < k ∨ i < q.length := by
  simp [IndexIn]

theorem Bounded.node {s : PlaybackState} (h : Bounded k s) {id : String} {n : Node}
    (hn : s.node id = some n) : n.IndexWithin k := h.nodes n (node_mem hn)

theorem Bounded.modifyNode {s : PlaybackState} (h : Bounded k s) {id : String} {f : Node → Node}
    (hf : ∀ n, s.node id = some n → n.IndexWithin k → (f n).IndexWithin k) :
    Bounded k (s.modifyNode id f) :=
  ⟨forall_modifyNode h.nodes hf, h.top⟩

/-- A write that leaves queue and index alone. -/
theorem Bounded.modifyNode_frame {s : PlaybackState} (h : Bounded k s) (id : String)
    {f : Node → Node} (hq : ∀ n, (f n).queue = n.queue)
    (hi : ∀ n, (f n).currentIndex = n.currentIndex) : Bounded k (s.modifyNode id f) :=
  h.modifyNode fun n _ hn => by simpa only [Node.IndexWithin, hq, hi] using hn

theorem Bounded.modifyNodes {s : PlaybackState} (h : Bounded k s) {f : Node → Node}
    (hf : ∀ n, n.IndexWithin k → (f n).IndexWithin k) : Bounded k (s.modifyNodes f) := by
  refine ⟨fun n hn => ?_, h.top⟩
  obtain ⟨m, hm, rfl⟩ := List.mem_map.1 hn
  exact hf m (h.nodes m hm)

theorem Bounded.of_subset {s s' : PlaybackState} (h : Bounded k s)
    (hn : ∀ n ∈ s'.nodes, n ∈ s.nodes) (hq : s'.queue = s.queue)
    (hi : s'.currentIndex = s.currentIndex) : Bounded k s' :=
  ⟨fun n hm => h.nodes n (hn n hm), by rw [hi, hq]; exact h.top⟩

theorem Bounded.sync {s : PlaybackState} (h : Bounded k s) :
    Bounded k s.syncTopLevelFromSelectedNode := by
  refine ⟨fun n hn => h.nodes n (by simpa using hn), ?_⟩
  unfold PlaybackState.syncTopLevelFromSelectedNode
  split
  · rename_i n hn
    obtain ⟨id, -, hid⟩ := Option.bind_eq_some_iff.1 hn
    exact h.node hid
  · simp

theorem bounded_empty : Bounded k .empty := ⟨by simp [PlaybackState.empty], by simp [PlaybackState.empty]⟩

/-! ## The rewrites -/

theorem indexWithin_applyReport {status : PlaybackStatus} {pos : ℚ} {volume : UInt8}
    {projected : Option Nat} {n : Node} (h : n.IndexWithin k) :
    (applyReport status pos volume projected n).1.IndexWithin k := by
  unfold applyReport
  cases projected with
  | none => dsimp only; split <;> split <;> split <;> exact h
  | some i => dsimp only; split <;> split <;> split <;> split <;> simp_all [Node.IndexWithin]

theorem indexWithin_play {n : Node} (h : n.IndexWithin k) : n.play.IndexWithin k := by
  unfold Node.play
  by_cases hq : n.queue ≠ [] ∧ n.currentIndex = none
  · have : 0 < n.queue.length := List.length_pos_iff.2 hq.1
    simp [hq, Node.IndexWithin, this]
  · simp only [hq, if_false]
    split <;> exact h

theorem indexWithin_removeTrack {index : Nat} {n : Node} (h : n.IndexWithin k)
    (hlt : index < n.queue.length) : (n.removeTrack index).IndexWithin k := by
  have hlen := List.length_eraseIdx_of_lt hlt
  cases hc : n.currentIndex with
  | none => simp [Node.removeTrack, Node.IndexWithin, hc]
  | some ci =>
    have hci : ci < k ∨ ci < n.queue.length := by simpa [Node.IndexWithin, hc] using h
    simp only [Node.removeTrack, hc]
    split
    · simp [Node.IndexWithin]
    · rename_i hne
      split
      · rename_i heq
        subst heq
        have : n.queue.eraseIdx ci ≠ [] := fun h => hne ⟨rfl, h⟩
        have := List.length_pos_iff.2 this
        simp only [Node.IndexWithin, indexIn_some]
        omega
      · split
        · simp only [Node.IndexWithin, indexIn_some]
          omega
        · simp only [Node.IndexWithin, indexIn_some]
          omega

theorem movedIndex_within {src dst ci len : Nat} (hs : src < len) (hd : dst < len)
    (hc : ci < k ∨ ci < len) : movedIndex src dst ci < k ∨ movedIndex src dst ci < len := by
  rcases Nat.lt_or_ge ci len with hlt | hge
  · exact .inr (movedIndex_lt hs hd hlt)
  · rw [movedIndex_of_lt (by omega) (by omega)]
    exact hc

theorem indexWithin_moveTrack {src dst : Nat} {n : Node} (h : n.IndexWithin k)
    (hs : src < n.queue.length) (hd : dst < n.queue.length) :
    (n.moveTrack src dst).IndexWithin k := by
  cases hc : n.currentIndex with
  | none => simp [Node.moveTrack, Node.IndexWithin, hc]
  | some ci =>
    have hci : ci < k ∨ ci < n.queue.length := by simpa [Node.IndexWithin, hc] using h
    simpa [Node.moveTrack, Node.IndexWithin, hc, length_moveEntry hs hd] using
      movedIndex_within hs hd hci

theorem nextIndex_lt {n : Node} (h : n.IndexWithin k) {i : Nat} (hi : nextIndex n = .ok i) :
    i < k ∨ i < n.queue.length := by
  unfold nextIndex at hi
  split at hi
  · cases hi
  · rename_i hne
    split at hi
    · rename_i ci hc
      have hci : ci < k ∨ ci < n.queue.length := by simpa [Node.IndexWithin, hc] using h
      split at hi
      · split at hi
        · rename_i hlt; cases hi; exact .inr hlt
        · cases hi
      · cases hi; exact hci
      · cases hi; exact .inr (Nat.mod_lt _ (by omega))
    · cases hi; omega

theorem previousIndex_lt {n : Node} (h : n.IndexWithin k) {i : Nat}
    (hi : previousIndex n = .ok i) : i < k ∨ i < n.queue.length := by
  unfold previousIndex at hi
  split at hi
  · cases hi
  · rename_i hne
    split at hi
    · rename_i ci hc
      have hci : ci + 1 < k ∨ ci + 1 < n.queue.length := by simpa [Node.IndexWithin, hc] using h
      cases hi; omega
    all_goals
      split at hi
      · cases hi
      · cases hi; omega
      · cases hi; omega

theorem indexTarget_lt {n : Node} {index i : Nat} (hi : indexTarget index n = .ok i) :
    i < k ∨ i < n.queue.length := by
  unfold indexTarget at hi
  split at hi
  · cases hi
  · cases hi; omega

theorem Bounded.jumpSection {s : PlaybackState} (h : Bounded k s) (id : String)
    {target : Node → Except CoreError Nat}
    (ht : ∀ n i, n.IndexWithin k → target n = .ok i → i < k ∨ i < n.queue.length) :
    Bounded k (jumpSection id target s).2 := by
  unfold Kanade.jumpSection
  cases hn : s.node id with
  | none => exact h
  | some n =>
    dsimp only
    cases hi : target n with
    | error e => exact h
    | ok i =>
      have hmove : Bounded k (moveTo id i s) := by
        refine Bounded.modifyNodes (h.modifyNode fun m hm hb => ?_) fun m hm => hm
        rw [hn] at hm
        cases hm
        simpa [Node.IndexWithin] using ht n i hb hi
      dsimp only
      split <;> exact hmove

theorem Bounded.dropDuplicates {s : PlaybackState} (canonical : String) (ids : List String) :
    Bounded k s → Bounded k (ids.foldl (dropDuplicate canonical) s) := by
  induction ids generalizing s with
  | nil => exact id
  | cons id ids ih =>
    intro h
    exact ih (h.of_subset (fun n hn => (List.mem_filter.1 hn).1) rfl rfl)

theorem Bounded.sessionStart {s : PlaybackState} (h : Bounded k s) (name : String)
    (deviceId : Option String) (uuid : String) :
    Bounded k (sessionStartSection name deviceId uuid s).2 := by
  have hnew : ∀ node : Node, node.currentIndex = none →
      Bounded k { s with nodes := s.nodes ++ [node] } := by
    intro node hi
    refine ⟨fun n hn => ?_, h.top⟩
    obtain hn | hn := List.mem_append.1 hn
    · exact h.nodes n hn
    · rw [List.mem_singleton] at hn
      subst hn
      simp [Node.IndexWithin, hi]
  unfold sessionStartSection
  split
  · exact hnew _ rfl
  · dsimp only
    split
    · exact hnew _ rfl
    · exact (Bounded.dropDuplicates _ _ h).modifyNode_frame _ (fun _ => rfl) fun _ => rfl

theorem Bounded.disconnectSection {s : PlaybackState} (h : Bounded k s) (id : String) :
    Bounded k (disconnectSection id s).2 := by
  have hmod : ∀ f : Node → Node, (∀ n, (f n).queue = n.queue) →
      (∀ n, (f n).currentIndex = n.currentIndex) → Bounded k (s.modifyNode id f) :=
    fun f hq hi => h.modifyNode_frame id hq hi
  unfold Kanade.disconnectSection
  cases fallbackNodeId id s with
  | none =>
    dsimp only
    split
    · exact (hmod _ (fun n => by split <;> rfl) fun n => by split <;> rfl).of_subset
        (fun _ hn => hn) rfl rfl
    · exact hmod _ (fun n => by split <;> rfl) fun n => by split <;> rfl
  | some fb =>
    refine Bounded.modifyNodes (f := _) ?_ fun n hn => ?_
    · exact (hmod _ (fun n => by split <;> rfl) fun n => by split <;> rfl).of_subset
        (fun _ hn => hn) rfl rfl
    · split
      · exact hn
      · split <;> exact hn

/-- Only the selection changes, and nodes go away. -/
theorem Bounded.filter {s : PlaybackState} (h : Bounded k s) (keep : Node → Bool)
    (selected : Option String) :
    Bounded k { s with nodes := s.nodes.filter keep, selectedNodeId := selected } :=
  h.of_subset (fun _ hn => (List.mem_filter.1 hn).1) rfl rfl

theorem Bounded.remove {s : PlaybackState} (h : Bounded k s) (id : String)
    (pick : PlaybackState → Option String) :
    Bounded k (
      let s := { s with nodes := s.nodes.filter fun n => n.id ≠ id }
      if s.selectedNodeId = some id then { s with selectedNodeId := pick s } else s) := by
  dsimp only
  split <;> exact h.filter _ _

theorem Bounded.cleanup {s : PlaybackState} (h : Bounded k s) (now maxAge : Int) :
    Bounded k (cleanupSection now maxAge s).2 := by
  unfold cleanupSection
  dsimp only
  split
  · exact h
  · dsimp only
    split <;> exact h.filter _ _

theorem Bounded.select {s : PlaybackState} (h : Bounded k s) (id : String) :
    Bounded k (selectSection id s).2 := by
  unfold selectSection
  split
  · exact h
  · split
    · exact h
    · refine Bounded.modifyNodes (s := { s with selectedNodeId := some id })
        (h.of_subset (fun _ hn => hn) rfl rfl) fun n hn => ?_
      split <;> exact hn

theorem Bounded.migrateQueue {s : PlaybackState} (h : Bounded k s) (id : String) :
    Bounded k (migrateQueue id s) := by
  unfold Kanade.migrateQueue
  split
  · have hs : Bounded k { s with queue := [], currentIndex := none } := ⟨h.nodes, indexIn_none _⟩
    exact hs.modifyNode fun n _ _ => h.top
  · exact h

theorem Bounded.addNode {s : PlaybackState} (h : Bounded k s) {node : Node}
    (hnode : s.node node.id = none → node.IndexWithin k) : Bounded k (addNodeSection node s) := by
  have hselect : ∀ s' : PlaybackState, Bounded k s' →
      Bounded k (Kanade.migrateQueue node.id { s' with selectedNodeId := some node.id }) :=
    fun s' h' => Bounded.migrateQueue (s := { s' with selectedNodeId := some node.id })
      (h'.of_subset (fun _ hn => hn) rfl rfl) node.id
  unfold addNodeSection
  refine Bounded.sync ?_
  split
  · have hs := h.modifyNode_frame node.id
      (f := fun e => { e with name := node.name, connected := node.connected })
      (fun _ => rfl) fun _ => rfl
    split
    · exact hselect _ hs
    · exact hs
  · rename_i hn
    have hs : Bounded k { s with nodes := s.nodes ++ [node] } := by
      refine ⟨fun n hm => ?_, h.top⟩
      obtain hm | hm := List.mem_append.1 hm
      · exact h.nodes n hm
      · exact List.mem_singleton.1 hm ▸ hnode hn
    split
    · exact hselect _ hs
    · exact hs

theorem Node.IndexWithin.append {n : Node} (h : n.IndexWithin k) (tracks : List Track) :
    Node.IndexWithin k { n with queue := n.queue ++ tracks } := fun i hi => by
  rw [List.length_append]
  exact (h i hi).imp_right (Nat.lt_add_right _)

theorem Bounded.removeTrack {s : PlaybackState} (h : Bounded k s) (index : Nat) :
    Bounded k (
      match s.selectedNode with
      | some node =>
        if index < node.queue.length then s.modifyNode node.id (Node.removeTrack index) else s
      | none => s) := by
  split
  · rename_i node hsel
    obtain ⟨id, -, hnode⟩ := Option.bind_eq_some_iff.1 hsel
    split
    · rename_i hlt
      refine h.modifyNode fun n hn hb => indexWithin_removeTrack hb ?_
      rw [node_id hnode, hnode] at hn
      cases hn
      exact hlt
    · exact h
  · exact h

theorem Bounded.moveTrack {s : PlaybackState} (h : Bounded k s) (src dst : Nat) :
    Bounded k (
      match s.selectedNode with
      | some node =>
        if src < node.queue.length ∧ dst < node.queue.length then
          s.modifyNode node.id (Node.moveTrack src dst)
        else s
      | none => s) := by
  split
  · rename_i node hsel
    obtain ⟨id, -, hnode⟩ := Option.bind_eq_some_iff.1 hsel
    split
    · rename_i hlt
      refine h.modifyNode fun n hn hb => ?_
      rw [node_id hnode, hnode] at hn
      cases hn
      exact indexWithin_moveTrack hb hlt.1 hlt.2
    · exact h
  · exact h

theorem Bounded.setQueue {s : PlaybackState} (h : Bounded k s) (id : String)
    (activeId : Option String) {tracks : List Track} {startIndex : Option Nat}
    (hstart : IndexIn k startIndex tracks) :
    Bounded k (setQueueSection id activeId tracks startIndex s).2 := by
  unfold setQueueSection
  split
  · exact h
  · have hset : Bounded k (s.modifyNode id fun node =>
        { node with queue := tracks, currentIndex := startIndex, positionSecs := 0,
                    status := .stopped }) := h.modifyNode fun n _ _ => hstart
    split
    · exact hset.modifyNode_frame _ (fun _ => rfl) fun _ => rfl
    · exact hset

/-! ## The three operations that take an index unchecked -/

/-- `set_queue` gets as far as its state section: there is a selected node, and if it is connected,
its output takes the new list. -/
def ReplacesQueue {η : Type} (env : Outputs η) (tracks : List Track) (startIndex : Option Nat)
    (c : Core × η) : Prop :=
  ∃ id, c.1.state.selectedNodeId = some id ∧ (c.1.state.node id).isSome ∧
    ∀ active, c.1.state.activeId = .ok active → ∃ slot, c.1.outputs active = some slot ∧
      (env c.2 (.output active slot (.setQueue (rotatedPaths tracks startIndex)
        (nextGeneration c.1.transportState active)))).1 = .ok ()

/-- The unchecked index of the operation, where it gets as far as writing one, is below `k` or one
of the queue it is written next to. -/
def CoreOp.KeepsIndex {η : Type} (k : Nat) (env : Outputs η) (op : CoreOp) (c : Core × η) : Prop :=
  match op with
  | .setQueue tracks startIndex =>
    ReplacesQueue env tracks startIndex c → IndexIn k startIndex tracks
  | .localSessionUpdate id u =>
    ∀ node, c.1.state.node id = some node → node.nodeType = .localNode →
      IndexIn k u.currentIndex (u.queue.getD node.queue)
  | .addNode node => c.1.state.node node.id = none → node.IndexWithin k
  | _ => True

/-- `set_queue` that does not get there leaves the state as it is. -/
theorem setQueue_state_of_not_replaces {η : Type} {env : Outputs η} {tracks : List Track}
    {startIndex : Option Nat} {c : Core × η} (h : ¬ ReplacesQueue env tracks startIndex c) :
    ((CoreOp.setQueue tracks startIndex).after env c).1.state = c.1.state := by
  obtain ⟨w, x⟩ := c
  simp only [CoreOp.after, CoreOp.task, Kanade.setQueue, Fallible.run_bind, run_readState]
  cases hsel : w.state.selectedNodeId with
  | none => rfl
  | some id =>
    simp only [Fallible.run_attempt, run_activeNodeId]
    cases hact : w.state.activeId with
    | error e =>
      have hnone : w.state.node id = none := by
        by_contra hn
        refine h ⟨id, hsel, Option.isSome_iff_ne_none.2 hn, fun active ha => ?_⟩
        simp [hact] at ha
      simp [Except.toOption, setQueueRest, Fallible.run_bind, setQueueSection, hnone]
    | ok active =>
      simp only [Except.toOption, Fallible.run_bind, run_rebuildProjectionState]
      cases hout : w.outputs active with
      | none => simp [hout]
      | some slot =>
        simp only [run_eachOutput, hout, run_send]
        cases henv : (env x (.output active slot (.setQueue (rotatedPaths tracks startIndex)
            (nextGeneration w.transportState active)))).1 with
        | error e => rfl
        | ok u =>
          have hnone : w.state.node id = none := by
            by_contra hn
            refine h ⟨id, hsel, Option.isSome_iff_ne_none.2 hn, fun a ha => ?_⟩
            simp only [hact, Except.ok.injEq] at ha
            exact ha ▸ ⟨slot, hout, henv⟩
          simp [setQueueRest, setQueueSection, Fallible.run_bind, hnone]

/-- One operation: every rewrite keeps the bounds, the three unchecked ones where `KeepsIndex`
says so. -/
theorem Bounded.after {η : Type} {env : Outputs η} {op : CoreOp} {c : Core × η}
    (h : Bounded k c.1.state) (hop : op.KeepsIndex k env c) : Bounded k (op.after env c).1.state := by
  have hrel : (∀ f, op.Writes (Bounded k) f → ∀ s, Bounded k s → Bounded k (f s)) →
      Bounded k (op.after env c).1.state := fun hw =>
    CoreOp.after_rel (R := fun _ s' => Bounded k s')
      ⟨fun _ hs => hs, fun _ _ _ _ h => h, fun _ _ _ h => h, fun _ hs => hs.sync⟩ hw env h
  cases op with
  | setQueue tracks startIndex =>
    by_cases hr : ReplacesQueue env tracks startIndex c
    · refine hrel ?_
      rintro _ ⟨⟩ s hs
      exact hs.setQueue _ _ (hop hr)
    · rw [setQueue_state_of_not_replaces hr]
      exact h
  | localSessionUpdate id u =>
    rw [after_localSessionUpdate]
    split
    · rename_i node hn
      split
      · rename_i hl
        refine Bounded.sync (h.modifyNode fun n hn' _ => ?_)
        rw [hn] at hn'
        cases hn'
        exact hop node hn hl
      · exact h
    · exact h
  | addNode node =>
    rw [after_addNode]
    exact (h.addNode hop).sync
  | syncNodeState =>
    refine hrel ?_
    rintro _ ⟨⟩ s hs
    exact hs.modifyNode fun n _ hn => indexWithin_applyReport hn
  | handoff =>
    refine hrel ?_
    rintro _ (_ | _) s hs
    case takeOver s₀ node hs₀ hnode =>
      have hread : node.IndexWithin k := hs₀.node hnode
      exact hs.modifyNode fun n _ _ => hread
    case handoffPlaying => exact hs.modifyNode_frame _ (fun _ => rfl) fun _ => rfl
  | play =>
    refine hrel ?_
    rintro _ ⟨⟩ s hs
    exact hs.modifyNode fun n _ hn => indexWithin_play hn
  | next =>
    refine hrel ?_
    rintro _ (_ | _) s hs
    case next id => exact hs.jumpSection id fun n i hn hi => nextIndex_lt hn hi
    case nextPlaying => exact hs.modifyNode_frame _ (fun _ => rfl) fun _ => rfl
  | previous =>
    refine hrel ?_
    rintro _ (_ | _) s hs
    case previous id => exact hs.jumpSection id fun n i hn hi => previousIndex_lt hn hi
    case previousPlaying => exact hs.modifyNode_frame _ (fun _ => rfl) fun _ => rfl
  | playIndex index =>
    refine hrel ?_
    rintro _ (_ | _) s hs
    case playIndex id => exact hs.jumpSection id fun n i _ hi => indexTarget_lt hi
    case playIndexPlaying => exact hs.modifyNode_frame _ (fun _ => rfl) fun _ => rfl
  | addToQueue | addTracksToQueue =>
    refine hrel ?_
    rintro _ ⟨⟩ s hs
    exact hs.modifyNode fun n _ hn => hn.append _
  | clearQueue =>
    refine hrel ?_
    rintro _ ⟨⟩ s hs
    exact hs.modifyNode fun n _ _ => indexIn_none _
  | removeFromQueue =>
    refine hrel ?_
    rintro _ ⟨⟩ s hs
    exact hs.removeTrack _
  | moveInQueue =>
    refine hrel ?_
    rintro _ ⟨⟩ s hs
    exact hs.moveTrack _ _
  | syncConnectedNode | localSessionDisconnect | pause | stop | seek | setVolume | setShuffle
  | setRepeat =>
    refine hrel ?_
    rintro _ ⟨⟩ s hs
    exact hs.modifyNode_frame _ (fun _ => rfl) fun _ => rfl
  | markNodeConnected =>
    refine hrel ?_
    rintro _ ⟨⟩ s hs
    exact hs.modifyNode_frame _ (fun n => by split <;> rfl) fun n => by split <;> rfl
  | handleNodeDisconnected id =>
    refine hrel ?_
    rintro _ (_ | _) s hs
    case disconnect => exact hs.disconnectSection id
    case disconnectStop => exact hs.modifyNode_frame _ (fun _ => rfl) fun _ => rfl
  | removeNode id =>
    refine hrel ?_
    rintro _ ⟨⟩ s hs
    exact hs.remove id fun s => s.nodes.head?.map Node.id
  | localSessionStart =>
    refine hrel ?_
    rintro _ ⟨⟩ s hs
    exact hs.sessionStart _ _ _
  | localSessionStop id =>
    refine hrel ?_
    rintro _ ⟨⟩ s hs
    exact hs.remove id firstConnectedId
  | cleanupDisconnectedNodes =>
    refine hrel ?_
    rintro _ ⟨⟩ s hs
    exact hs.cleanup _ _
  | selectNode =>
    refine hrel ?_
    rintro _ (_ | _ | _) s hs
    case select => exact hs.select _
    all_goals exact hs.modifyNode_frame _ (fun _ => rfl) fun _ => rfl
  | registerOutput | unregisterOutput =>
    refine hrel ?_
    rintro _ ⟨⟩

/-- The invariant of the runs that meet `KeepsIndex` at each step. -/
theorem bounded_of_run {η : Type} (env : Outputs η) (outputs : String → Option OutputSlot)
    (broadcasters persisters : List Nat) (x : η) (ops : List CoreOp)
    (h : EachOp env (CoreOp.KeepsIndex k env) ops (Core.new outputs broadcasters persisters, x)) :
    Bounded k (runOps env ops (Core.new outputs broadcasters persisters, x)).1.state :=
  runAll_invariant (I := fun c => Bounded k c.1.state) (fun _ _ hop hI => hI.after hop) h
    bounded_empty

/-- In every run that meets `KeepsIndex 0` at each step, every index points into its queue. -/
theorem index_in_queue_of_run {η : Type} (env : Outputs η) (outputs : String → Option OutputSlot)
    (broadcasters persisters : List Nat) (x : η) (ops : List CoreOp)
    (h : EachOp env (CoreOp.KeepsIndex 0 env) ops (Core.new outputs broadcasters persisters, x)) :
    ∀ n ∈ (runOps env ops (Core.new outputs broadcasters persisters, x)).1.state.nodes,
      n.IndexInQueue := fun n hn i hi =>
  ((bounded_of_run env outputs broadcasters persisters x ops h).nodes n hn i hi).resolve_left
    (Nat.not_lt_zero i)

/-- A queue of two tracks started at the second. -/
def shortRun : List CoreOp :=
  [.registerOutput "a" "c" 0, .addNode { id := "a" },
    .setQueue [{ id := "1", filePath := "/1" }, { id := "2", filePath := "/2" }] (some 1),
    .removeFromQueue 0]

theorem index_in_queue_of_short_run :
    EachOp allSucceed (CoreOp.KeepsIndex 0 allSucceed) shortRun
        (Core.new (fun _ => none) [] [], ()) ∧
      ∀ n ∈ (runOps allSucceed shortRun (Core.new (fun _ => none) [] [], ())).1.state.nodes,
        n.IndexInQueue := by
  have hkeeps : EachOp allSucceed (CoreOp.KeepsIndex 0 allSucceed) shortRun
      (Core.new (fun _ => none) [] [], ()) :=
    ⟨trivial, fun _ => by decide, fun _ => by decide, trivial, trivial⟩
  exact ⟨hkeeps, index_in_queue_of_run allSucceed (fun _ => none) [] [] () _ hkeeps⟩

/-- A queue of one track started at index 3: the index of the node is beyond its queue. -/
theorem index_beyond_queue :
    ∃ n ∈ (runOps allSucceed [.registerOutput "a" "c" 0, .addNode { id := "a" },
        .setQueue [{ id := "1", filePath := "/1" }] (some 3)]
        (Core.new (fun _ => none) [] [], ())).1.state.nodes, ¬ n.IndexInQueue := by
  decide

end Kanade

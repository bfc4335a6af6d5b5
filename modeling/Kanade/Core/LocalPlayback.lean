import Kanade.Core.Alone
import Kanade.Core.Roster

/-!
# Kanade.Core.LocalPlayback

What plays on a local node is the client's business: queue, index, status, position and volume of a
connected local node, over runs of the lifecycle and selection operations.

Operations about other nodes look nodes up by id and leave this one alone. `select_node` and
`handle_node_disconnected` sweep over all nodes without looking at their type; `SparesPlayback` says
when a sweep changes nothing on the local node, `playback_kept_of_run` that runs in which it is so
leave the node its playback.
-/

namespace Kanade

open Concur

def Node.playback (n : Node) : List Track × Option Nat × PlaybackStatus × ℚ × UInt8 :=
  (n.queue, n.currentIndex, n.status, n.positionSecs, n.volume)

variable {s s' : PlaybackState} {id l : String} {n : Node}

/-- Node `l`, if it is a connected local one and is still there, plays what it played. -/
def KeepsPlayback (l : String) (s s' : PlaybackState) : Prop :=
  ∀ n, s.node l = some n → n.nodeType = .localNode → n.connected = true →
    ∀ n', s'.node l = some n' → n'.playback = n.playback

theorem keepsPlayback_of_node (h : s'.node l = s.node l ∨ s'.node l = none) :
    KeepsPlayback l s s' := by
  intro n hn _ _ n' hn'
  obtain h | h := h
  · rw [h, hn] at hn'
    cases hn'
    rfl
  · rw [h] at hn'
    cases hn'

theorem node_congr (h : s'.nodes = s.nodes) (id : String) : s'.node id = s.node id := by
  rw [PlaybackState.node, h, PlaybackState.node]

theorem KeepsPlayback.congr {s'' : PlaybackState} (h : KeepsPlayback l s s')
    (hnodes : s''.nodes = s'.nodes) : KeepsPlayback l s s'' :=
  fun n hn hl hc n' hn' => h n hn hl hc n' (by rw [← node_congr hnodes l, hn'])

/-! ## Operations about other nodes -/

theorem node_filter_id (keep : String → Bool) (selected : Option String) :
    ({ s with nodes := s.nodes.filter fun n => keep n.id, selectedNodeId := selected }
      : PlaybackState).node l = if keep l then s.node l else none := by
  simp only [PlaybackState.node, findNode]
  induction s.nodes with
  | nil => simp
  | cons n ns ih =>
    by_cases hn : n.id = l
    · by_cases hk : keep l = true
      · simp [hn, hk]
      · simpa [hn, hk] using ih
    · by_cases hk : keep n.id = true
      · simpa [hn, hk] using ih
      · simpa [hn, hk] using ih

theorem node_append {m : Node} (h : s.node l = some n) :
    ({ s with nodes := s.nodes ++ [m] } : PlaybackState).node l = some n := by
  simp only [PlaybackState.node, findNode, List.find?_append] at h ⊢
  rw [h, Option.some_or]

theorem node_addNodeSection_of_ne {node : Node} (h : l ≠ node.id) (hn : s.node l = some n) :
    (addNodeSection node s).node l = some n := by
  have hpick : ∀ (c : Prop) [Decidable c] (s' : PlaybackState), s'.node l = some n →
      (if c then migrateQueue node.id { s' with selectedNodeId := some node.id }
        else s').node l = some n := by
    intro c _ s' hs'
    split
    · unfold migrateQueue
      split
      · rw [node_modifyNode_of_ne (fun _ => by rfl) h]
        exact hs'
      · exact hs'
    · exact hs'
  unfold addNodeSection
  rw [node_syncTopLevel]
  refine hpick _ _ ?_
  split
  · rw [node_modifyNode_of_ne (fun _ => by rfl) h, hn]
  · exact node_append hn

theorem node_sessionStart_of_not_mem {deviceId : Option String} (name uuid : String)
    (h : ∀ did ∈ deviceId, l ∉ matchingIds did s) (hn : s.node l = some n) :
    (sessionStartSection name deviceId uuid s).2.node l = some n := by
  unfold sessionStartSection
  split
  · exact node_append hn
  · rename_i did
    dsimp only
    split
    · exact node_append hn
    · rename_i canonical hc
      have hl := h did rfl
      have hne : l ≠ canonical := fun heq => hl (heq ▸ canonicalId_mem hc)
      rw [node_modifyNode_of_ne (fun _ => by rfl) hne, foldl_dropDuplicate (by simp),
        node_filter_id (fun id => id ∉ (matchingIds did s).filter fun id => id ≠ canonical)]
      rw [if_pos (by simp [hl]), hn]

theorem keepsPlayback_remove (hid : id ≠ l) (pick : PlaybackState → Option String) :
    KeepsPlayback l s
      (let s := { s with nodes := s.nodes.filter fun n => n.id ≠ id }
       if s.selectedNodeId = some id then { s with selectedNodeId := pick s } else s) := by
  have hkeep := node_filter_id (s := s) (l := l) (fun id' => id' ≠ id)
  dsimp only
  split <;>
    · refine keepsPlayback_of_node (.inl ?_)
      rw [hkeep, if_pos (by simpa using hid.symm)]

theorem keepsPlayback_cleanup (now maxAge : Int) :
    KeepsPlayback l s (cleanupSection now maxAge s).2 := by
  have hkeep := node_filter_id (s := s) (l := l) (fun id => id ∉ removedIds now maxAge s)
  unfold cleanupSection
  dsimp only
  split
  · exact keepsPlayback_of_node (.inl rfl)
  · dsimp only
    split <;>
      · refine keepsPlayback_of_node ?_
        rw [hkeep]
        split
        · exact .inl rfl
        · exact .inr rfl

/-! ## The two sweeps -/

/-- Stopped, at position 0. -/
def Node.Rested (n : Node) : Prop := n.status = .stopped ∧ n.positionSecs = 0

instance (n : Node) : Decidable n.Rested :=
  inferInstanceAs (Decidable (n.status = .stopped ∧ n.positionSecs = 0))

/-- What a node that takes over has to resume: nothing if there was no node. -/
def heldBy : Option Node → PlaybackStatus × ℚ
  | some n => (n.status, n.positionSecs)
  | none => (.stopped, 0)

/-- `select_node(id)` finds `n`, the local node `l`, as its sweep would leave it. Where `l` itself is
selected and the outputs on the way are registered, it may also be given what the previous node was
doing. -/
def SelectSpares (l id : String) (w : Core) (n : Node) : Prop :=
  id ∈ w.state.ids → w.state.selectedNodeId ≠ some id →
    if id = l then
      n.status = .stopped ∧ (SelectReaches id w →
        (heldBy w.state.selectedNode).1 ≠ .playing ∧ (heldBy w.state.selectedNode).1 ≠ .paused ∧
          n.positionSecs = (heldBy w.state.selectedNode).2)
    else n.Rested

/-- `handle_node_disconnected(id)` finds `n`, the local node `l`, as its sweep would leave it. -/
def DisconnectSpares (l id : String) (s : PlaybackState) (n : Node) : Prop :=
  match fallbackNodeId id s with
  | none => id = l → s.selectedNodeId = some id ∨ n.Rested
  | some fallback =>
    if fallback = l then (n.status, n.positionSecs) = heldBy (s.node id) else n.Rested

/-- A write to node `id` as another node sees it, and as `id` does. -/
theorem node_modifyNode {f : Node → Node} (hf : ∀ n, (f n).id = n.id) :
    (s.modifyNode id f).node l = (s.node l).map fun n => if l = id then f n else n := by
  by_cases h : l = id
  · subst h
    rw [node_modifyNode_self hf]
    simp
  · rw [node_modifyNode_of_ne hf h]
    simp [h]

theorem keepsPlayback_disconnect (h : ∀ n, s.node l = some n → DisconnectSpares l id s n) :
    KeepsPlayback l s (disconnectSection id s).2 := by
  intro n hn _ _ n' hn'
  have hspares := h n hn
  have hid := node_id hn
  unfold DisconnectSpares at hspares
  unfold disconnectSection at hn'
  cases hfb : fallbackNodeId id s with
  | none =>
    rw [hfb] at hspares hn'
    have hnode : (s.modifyNode id fun node =>
        if s.selectedNodeId = some id ∧ (none : Option String) = none then
          { node with connected := false }
        else { node with connected := false, status := .stopped, positionSecs := 0 }).node l =
          some n' := by
      dsimp only at hn'
      split at hn' <;> exact hn'
    rw [node_modifyNode fun n => by split <;> rfl, hn, Option.map_some, Option.some.injEq] at hnode
    subst hnode
    by_cases hl : l = id
    · by_cases hsel : s.selectedNodeId = some id
      · simp [hl, hsel, Node.playback]
      · obtain ⟨hstatus, hpos⟩ := (hspares hl.symm).resolve_left hsel
        simp [hl, hsel, Node.playback, hstatus, hpos]
    · simp [hl]
  | some fb =>
    rw [hfb] at hspares hn'
    have hnode : ((s.modifyNode id fun node =>
        if s.selectedNodeId = some id ∧ some fb = none then { node with connected := false }
        else { node with connected := false, status := .stopped, positionSecs := 0 }).modifyNodes
        fun node =>
          if node.id = fb then
            { node with status := (heldBy (s.node id)).1, positionSecs := (heldBy (s.node id)).2 }
          else if node.id ≠ id then { node with status := .stopped, positionSecs := 0 }
          else node).node l = some n' := by
      unfold heldBy
      cases hheld : s.node id <;>
        · rw [hheld] at hn'
          exact hn'
    rw [node_modifyNodes, node_modifyNode fun n => by split <;> rfl, hn, Option.map_some,
      Option.map_some, Option.some.injEq] at hnode
    swap
    · intro n
      split
      · rfl
      · split <;> rfl
    subst hnode
    by_cases hfl : fb = l
    · obtain ⟨hstatus, hpos⟩ := Prod.ext_iff.1 (by simpa [hfl] using hspares)
      by_cases hl : l = id <;> simp_all [Node.playback]
    · obtain ⟨hstatus, hpos⟩ : n.Rested := by simpa [hfl] using hspares
      have hne : l ≠ fb := fun h => hfl h.symm
      by_cases hl : l = id <;> simp_all [Node.playback]

theorem keepsPlayback_select {w : Core} {s' : PlaybackState}
    (h : ∀ n, w.state.node l = some n → SelectSpares l id w n)
    (hs' : SameNodes (selectSection id w.state).2 s' ∨ ∃ status pos,
      (selectSection id w.state).1 = .ok (some (w.state.selectedNodeId, status, pos)) ∧
        SelectReaches id w ∧
        SameNodes ((selectSection id w.state).2.modifyNode id (Node.resume status pos)) s') :
    KeepsPlayback l w.state s' := by
  intro n hn _ _ n' hn'
  have hspares := h n hn
  have hid := node_id hn
  unfold SelectSpares at hspares
  cases hto : w.state.node id with
  | none =>
    have hsection : selectSection id w.state = (.error .nodeNotFound, w.state) := by
      rw [selectSection, hto]
    rw [hsection] at hs'
    obtain hsame | ⟨_, _, herr, -⟩ := hs'
    · rw [node_congr hsame.1, hn] at hn'
      cases hn'
      rfl
    · cases herr
  | some target =>
    replace hspares := hspares (mem_ids_iff_node.2 ⟨target, hto⟩)
    by_cases hsel : w.state.selectedNodeId = some id
    · have hsection : selectSection id w.state = (.ok none, w.state) := by
        rw [selectSection, hto]
        exact if_pos hsel
      rw [hsection] at hs'
      obtain hsame | ⟨_, _, herr, -⟩ := hs'
      · rw [node_congr hsame.1, hn] at hn'
        cases hn'
        rfl
      · cases herr
    · replace hspares := hspares hsel
      have hswept : (selectSection id w.state).2.node l = some
          (if l ≠ id then { n with status := .stopped, positionSecs := 0 }
            else { n with status := .stopped }) := by
        rw [selectSection, hto]
        simp only [if_neg hsel]
        rw [node_modifyNodes fun n => by split <;> rfl]
        show (w.state.node l).map _ = _
        rw [hn, Option.map_some, hid]
      have hheld : ∀ previous status pos,
          (selectSection id w.state).1 = .ok (some (previous, status, pos)) →
            heldBy w.state.selectedNode = (status, pos) := by
        intro previous status pos hok
        rw [selectSection, hto] at hok
        simp only [if_neg hsel] at hok
        cases hsn : w.state.selectedNode <;>
          · rw [hsn] at hok
            cases hok
            rfl
      obtain hsame | ⟨status, pos, hok, hreach, hsame⟩ := hs'
      · rw [node_congr hsame.1, hswept] at hn'
        cases hn'
        by_cases hl : id = l
        · simp_all [Node.playback]
        · have hne : l ≠ id := fun h => hl h.symm
          rw [if_neg hl] at hspares
          simp [hne, Node.playback, hspares.1, hspares.2]
      · rw [node_congr hsame.1, node_modifyNode fun n => by cases status <;> rfl, hswept] at hn'
        cases hn'
        by_cases hl : id = l
        · rw [if_pos hl] at hspares
          obtain ⟨hstatus, hresume⟩ := hspares
          obtain ⟨hplaying, hpaused, hpos⟩ := hresume hreach
          rw [hheld _ _ _ hok] at hplaying hpaused hpos
          cases status <;> simp_all [Node.playback, Node.resume]
        · have hne : l ≠ id := fun h => hl h.symm
          rw [if_neg hl] at hspares
          simp [hne, Node.playback, hspares.1, hspares.2]

/-! ## Runs -/

section Runs

variable {η : Type}

/-- The lifecycle and selection operations; those that are about one node are about another one
than `l`. -/
def CoreOp.AboutOthers (l : String) (op : CoreOp) (c : Core × η) : Prop :=
  match op with
  | .addNode node => node.id ≠ l
  | .removeNode id | .localSessionStop id | .localSessionDisconnect id _
  | .localSessionUpdate id _ => id ≠ l
  | .localSessionStart _ deviceId _ => ∀ did ∈ deviceId, l ∉ matchingIds did c.1.state
  | .selectNode _ | .handleNodeDisconnected _ | .cleanupDisconnectedNodes _ _ => True
  | _ => False

/-- A sweep of the operation finds the local node `l` as it would leave it. -/
def CoreOp.SparesPlayback (l : String) (op : CoreOp) (c : Core × η) : Prop :=
  ∀ n, c.1.state.node l = some n → n.nodeType = .localNode → n.connected = true →
    match op with
    | .selectNode id => SelectSpares l id c.1 n
    | .handleNodeDisconnected id => DisconnectSpares l id c.1.state n
    | _ => True

theorem keepsPlayback_after {env : Outputs η} {op : CoreOp} {c : Core × η}
    (hop : op.AboutOthers l c) (hspares : op.SparesPlayback l c) :
    KeepsPlayback l c.1.state (op.after env c).1.state := by
  intro n hn hlocal hconn
  have hspare : ∀ m, c.1.state.node l = some m → m = n := fun m hm => by
    rw [hn] at hm
    exact (Option.some.inj hm).symm
  have hdone : ∀ {s'}, KeepsPlayback l c.1.state s' → ∀ n', s'.node l = some n' →
      n'.playback = n.playback := fun h => h n hn hlocal hconn
  have hsame : KeepsPlayback l c.1.state c.1.state := keepsPlayback_of_node (.inl rfl)
  cases op with
  | addNode node =>
    rw [after_addNode]
    have hnode : (addNodeSection node c.1.state).node l = some n :=
      node_addNodeSection_of_ne hop.symm hn
    exact hdone ((keepsPlayback_of_node (.inl (hnode.trans hn.symm))).congr syncTopLevel_nodes)
  | removeNode id =>
    rw [after_removeNode]
    exact hdone ((keepsPlayback_remove hop fun s => s.nodes.head?.map Node.id).congr
      syncTopLevel_nodes)
  | localSessionStart name deviceId uuid =>
    rw [after_localSessionStart]
    have hnode := node_sessionStart_of_not_mem name uuid hop hn
    exact hdone ((keepsPlayback_of_node (.inl (hnode.trans hn.symm))).congr syncTopLevel_nodes)
  | localSessionStop id =>
    rw [after_localSessionStop]
    split
    · split
      · exact hdone ((keepsPlayback_remove hop firstConnectedId).congr syncTopLevel_nodes)
      · exact hdone hsame
    · exact hdone hsame
  | localSessionDisconnect id now =>
    rw [after_localSessionDisconnect]
    have hnode : (c.1.state.modifyNode id fun node =>
        { node with connected := false, disconnectedAt := some now }).node l = c.1.state.node l :=
      node_modifyNode_of_ne (fun _ => rfl) hop.symm
    split
    · split
      · exact hdone ((keepsPlayback_of_node (.inl hnode)).congr syncTopLevel_nodes)
      · exact hdone hsame
    · exact hdone hsame
  | localSessionUpdate id u =>
    rw [after_localSessionUpdate]
    have hnode : (c.1.state.modifyNode id u.apply).node l = c.1.state.node l :=
      node_modifyNode_of_ne (fun _ => rfl) hop.symm
    split
    · split
      · exact hdone ((keepsPlayback_of_node (.inl hnode)).congr syncTopLevel_nodes)
      · exact hdone hsame
    · exact hdone hsame
  | cleanupDisconnectedNodes now maxAge =>
    rw [after_cleanupDisconnectedNodes]
    split
    · exact hdone hsame
    · exact hdone ((keepsPlayback_cleanup now maxAge).congr syncTopLevel_nodes)
  | handleNodeDisconnected id =>
    have h : KeepsPlayback l c.1.state (disconnectSection id c.1.state).2 := by
      refine keepsPlayback_disconnect fun m hm => ?_
      rw [hspare m hm]
      exact hspares n hn hlocal hconn
    exact hdone (h.congr (after_handleNodeDisconnected env id c).1)
  | selectNode id =>
    refine hdone (keepsPlayback_select (fun m hm => ?_) (after_selectNode env id c))
    rw [hspare m hm]
    exact hspares n hn hlocal hconn
  | _ => cases hop

/-- Over a run of lifecycle and selection operations whose sweeps spare it, a connected local node
keeps its playback at every step. -/
theorem playback_kept_of_run (env : Outputs η) (l : String) (ops : List CoreOp) (c : Core × η)
    (hops : EachOp env (CoreOp.AboutOthers l) ops c)
    (hspares : EachOp env (CoreOp.SparesPlayback l) ops c) :
    EachOp env (fun op c => KeepsPlayback l c.1.state (op.after env c).1.state) ops c := by
  induction ops generalizing c with
  | nil => trivial
  | cons op ops ih =>
    exact ⟨keepsPlayback_after hops.1 hspares.1, ih _ hops.2 hspares.2⟩

/-- Two nodes, the first selected, and a local session that has reported `u`. -/
def besideSession (u : SessionUpdate) : Core × Unit :=
  runOps allSucceed [.addNode { id := "a" }, .addNode { id := "b" },
    .localSessionStart "phone" (some "x") "", .localSessionUpdate "local-x" u]
    (Core.new (fun _ => none) [] [], ())

/-- The selection changes while the session rests. -/
theorem playback_kept_of_run_resting :
    EachOp allSucceed
      (fun op c => KeepsPlayback "local-x" c.1.state (op.after allSucceed c).1.state)
      [.selectNode "b", .removeNode "a"] (besideSession {}) :=
  have hrested : ∀ n ∈ (besideSession {}).1.state.node "local-x", n.Rested := by decide +kernel
  playback_kept_of_run allSucceed "local-x" _ _ ⟨trivial, (by decide : "a" ≠ "local-x"), trivial⟩
    ⟨fun n hn _ _ _ _ => (if_neg (by decide)).mpr (hrested n hn), fun _ _ _ _ => trivial, trivial⟩

/-- The selection changes while the session plays: the session is stopped and rewound. -/
theorem select_stops_session :
    CoreOp.AboutOthers "local-x" (.selectNode "b")
        (besideSession { positionSecs := 30, status := .playing }) ∧
      ¬ KeepsPlayback "local-x" (besideSession { positionSecs := 30, status := .playing }).1.state
        ((CoreOp.selectNode "b").after allSucceed
          (besideSession { positionSecs := 30, status := .playing })).1.state := by
  refine ⟨trivial, fun h => ?_⟩
  obtain ⟨n, hn, hlocal, hconn, n', hn', hne⟩ :
      ∃ n ∈ (besideSession { positionSecs := 30, status := .playing }).1.state.node "local-x",
        n.nodeType = .localNode ∧ n.connected = true ∧
        ∃ n' ∈ ((CoreOp.selectNode "b").after allSucceed
          (besideSession { positionSecs := 30, status := .playing })).1.state.node "local-x",
          n'.playback ≠ n.playback := by decide +kernel
  exact hne (h n hn hlocal hconn n' hn')

end Runs

end Kanade

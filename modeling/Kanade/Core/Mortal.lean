import Kanade.Core.Bounds
import Kanade.Core.Identity

/-!
# Kanade.Core.Mortal

When a local node that is not connected is removed some time.

`cleanup_disconnected_nodes` looks at the time of disconnection, and only `local_session_disconnect`
sets it: `add_node`, `mark_node_connected` and `handle_node_disconnected` take a node's connection
away and leave the time as it is. `Linked` is the frame of all other operations, and
`mortal_of_run` the invariant of the runs in which those three find the time already there.
-/

namespace Kanade

open Concur

/-- A local node has a time of disconnection. -/
def Node.Dated (n : Node) : Prop := n.nodeType = .localNode → n.disconnectedAt.isSome

instance (n : Node) : Decidable n.Dated := inferInstanceAs (Decidable (_ → _))

/-- Not connected, a local node has a time of disconnection. -/
def Node.Mortal (n : Node) : Prop := n.connected = false → n.Dated

instance (n : Node) : Decidable n.Mortal := inferInstanceAs (Decidable (_ → _))

def PlaybackState.Mortal (s : PlaybackState) : Prop := ∀ n ∈ s.nodes, n.Mortal

/-- Every node looks to the cleanup as one did before. -/
def Linked (s s' : PlaybackState) : Prop := ∀ n' ∈ s'.nodes, ∃ n ∈ s.nodes, n'.link = n.link

variable {s s' s'' : PlaybackState} {id : String} {f : Node → Node} {η : Type}

theorem Node.Mortal.of_link {n n' : Node} (h : n.Mortal) (hlink : n'.link = n.link) :
    n'.Mortal := by
  obtain ⟨htype, hconnected, htime⟩ :
      n'.nodeType = n.nodeType ∧ n'.connected = n.connected ∧ n'.disconnectedAt = n.disconnectedAt := by
    simpa [Node.link] using hlink
  intro hc hl
  rw [htime]
  exact h (hconnected ▸ hc) (htype ▸ hl)

theorem PlaybackState.Mortal.of_linked (h : s.Mortal) (hlinked : Linked s s') : s'.Mortal := by
  intro n' hn'
  obtain ⟨n, hn, hlink⟩ := hlinked n' hn'
  exact (h n hn).of_link hlink

/-! ## The operations that leave it alone -/

namespace Linked

theorem of_subset (h : ∀ n ∈ s'.nodes, n ∈ s.nodes) : Linked s s' := fun n hn => ⟨n, h n hn, rfl⟩

theorem refl (s : PlaybackState) : Linked s s := of_subset fun _ hn => hn

theorem trans (h : Linked s s') (h' : Linked s' s'') : Linked s s'' := by
  intro n'' hn''
  obtain ⟨n', hn', hlink'⟩ := h' n'' hn''
  obtain ⟨n, hn, hlink⟩ := h n' hn'
  exact ⟨n, hn, hlink'.trans hlink⟩

theorem modifyNode (id : String) (hf : ∀ n, (f n).link = n.link) : Linked s (s.modifyNode id f) := by
  refine forall_modifyNode (C := fun n' => ∃ n ∈ s.nodes, n'.link = n.link)
    (fun n hn => ⟨n, hn, rfl⟩) fun n _ hn => ?_
  rwa [hf]

theorem modifyNodes (hf : ∀ n, (f n).link = n.link) : Linked s (s.modifyNodes f) := by
  intro n' hn'
  obtain ⟨n, hn, rfl⟩ := List.mem_map.1 hn'
  exact ⟨n, hn, hf n⟩

theorem sync (s : PlaybackState) : Linked s s.syncTopLevelFromSelectedNode :=
  of_subset fun n hn => by simpa using hn

theorem jumpSection (id : String) (target : Node → Except CoreError Nat) :
    Linked s (jumpSection id target s).2 := by
  cases hn : s.node id with
  | none => rw [Kanade.jumpSection, hn]; exact refl s
  | some node =>
    rw [jumpSection_eq hn]
    cases target node with
    | error e => exact refl s
    | ok i =>
      exact (modifyNode id (f := fun node => { node with currentIndex := some i }) fun _ => rfl).trans
        (modifyNodes fun _ => rfl)

theorem setQueueSection (id : String) (activeId : Option String) (tracks : List Track)
    (startIndex : Option Nat) : Linked s (setQueueSection id activeId tracks startIndex s).2 := by
  have hset : Linked s (s.modifyNode id fun node =>
      { node with queue := tracks, currentIndex := startIndex, positionSecs := 0,
                  status := .stopped }) := modifyNode id fun _ => rfl
  unfold Kanade.setQueueSection
  split
  · exact refl s
  · split
    · exact hset.trans (modifyNode _ fun _ => rfl)
    · exact hset

theorem cleanup (now maxAge : Int) : Linked s (cleanupSection now maxAge s).2 := by
  unfold cleanupSection
  dsimp only
  split
  · exact refl s
  · dsimp only
    split <;> exact of_subset fun n hn => (List.mem_filter.1 hn).1

theorem select (id : String) : Linked s (selectSection id s).2 := by
  unfold selectSection
  split
  · exact refl s
  · split
    · exact refl s
    · exact modifyNodes (s := { s with selectedNodeId := some id }) fun n => by split <;> rfl

theorem remove (id : String) (pick : PlaybackState → Option String) :
    Linked s (
      let s := { s with nodes := s.nodes.filter fun n => n.id ≠ id }
      if s.selectedNodeId = some id then { s with selectedNodeId := pick s } else s) := by
  dsimp only
  split <;> exact of_subset fun n hn => (List.mem_filter.1 hn).1

theorem migrateQueue (id : String) : Linked s (migrateQueue id s) := by
  unfold Kanade.migrateQueue
  split
  · exact modifyNode (s := { s with queue := [], currentIndex := none }) id fun _ => rfl
  · exact refl s

theorem dropDuplicates (canonical : String) (dups : List String) :
    Linked s (dups.foldl (dropDuplicate canonical) s) := by
  induction dups generalizing s with
  | nil => exact refl s
  | cons d dups ih =>
    have hdrop : Linked s (dropDuplicate canonical s d) :=
      of_subset fun n hn => (List.mem_filter.1 hn).1
    exact hdrop.trans ih

end Linked

/-- The operations after which a node may be linked as none was before. -/
def CoreOp.relinks : CoreOp → Bool
  | .addNode _ | .markNodeConnected _ _ | .handleNodeDisconnected _ | .localSessionStart _ _ _
  | .localSessionDisconnect _ _ | .localSessionUpdate _ _ => true
  | _ => false

/-- The inversion for them: a rewrite of any other operation leaves the links alone. -/
theorem CoreOp.Writes.linked {I : PlaybackState → Prop} {op : CoreOp}
    {g : PlaybackState → PlaybackState} (h : op.Writes I g) (hop : op.relinks = false)
    (s : PlaybackState) : Linked s (g s) := by
  cases h with
  | addNode | mark | disconnect | disconnectStop | sessionStart | sessionDisconnect
  | sessionUpdate => cases hop
  | report => exact Linked.modifyNode _ fun n => (frame_applyReport _ _ _ _ n).2
  | remove id => exact Linked.remove id fun s => s.nodes.head?.map Node.id
  | sessionStop id => exact Linked.remove id firstConnectedId
  | cleanup => exact Linked.cleanup _ _
  | select => exact Linked.select _
  | play => exact Linked.modifyNode _ fun n => (frame_play n).2
  | next | previous | playIndex => exact Linked.jumpSection _ _
  | setQueue => exact Linked.setQueueSection _ _ _ _
  | removeTrack index =>
    dsimp only
    split
    · split
      · exact Linked.modifyNode _ fun n => (frame_removeTrack index n).2
      · exact Linked.refl s
    · exact Linked.refl s
  | moveTrack src dst =>
    dsimp only
    split
    · split
      · exact Linked.modifyNode _ fun _ => rfl
      · exact Linked.refl s
    · exact Linked.refl s
  | _ => exact Linked.modifyNode _ fun _ => rfl

theorem Linked.after {env : Outputs η} {op : CoreOp} (hop : op.relinks = false) (c : Core × η) :
    Linked c.1.state (op.after env c).1.state :=
  CoreOp.after_rel (I := fun _ => True) ⟨fun s _ => refl s, fun _ _ _ => trans, fun _ _ _ _ => trivial,
    fun s _ => sync s⟩ (fun _ hw s _ => hw.linked hop s) env trivial

/-! ## The others -/

theorem PlaybackState.Mortal.sync (h : s.Mortal) : s.syncTopLevelFromSelectedNode.Mortal :=
  h.of_linked (Linked.sync s)

theorem PlaybackState.Mortal.modifyNode (h : s.Mortal) (id : String)
    (hf : ∀ n, s.node id = some n → n.Mortal → (f n).Mortal) : (s.modifyNode id f).Mortal :=
  forall_modifyNode h hf

theorem PlaybackState.Mortal.append {node : Node} (h : s.Mortal) (hnode : node.Mortal) :
    PlaybackState.Mortal { s with nodes := s.nodes ++ [node] } := by
  intro n hn
  obtain hn | hn := List.mem_append.1 hn
  · exact h n hn
  · exact List.mem_singleton.1 hn ▸ hnode

theorem PlaybackState.Mortal.addNode {node : Node} (h : s.Mortal)
    (hnode : node.connected = false → ((s.node node.id).getD node).Dated) :
    (addNodeSection node s).Mortal := by
  have hselect : ∀ s' : PlaybackState, s'.Mortal →
      (Kanade.migrateQueue node.id { s' with selectedNodeId := some node.id }).Mortal :=
    fun s' h' => PlaybackState.Mortal.of_linked (s := { s' with selectedNodeId := some node.id }) h'
      (Linked.migrateQueue _)
  unfold addNodeSection
  refine PlaybackState.Mortal.sync ?_
  cases hn : s.node node.id with
  | some e =>
    have hs : (s.modifyNode node.id fun e =>
        { e with name := node.name, connected := node.connected }).Mortal := by
      refine h.modifyNode _ fun n hn' _ hc => ?_
      rw [hn'] at hnode
      exact hnode hc
    dsimp only
    split
    · exact hselect _ hs
    · exact hs
  | none =>
    rw [hn] at hnode
    have hs : PlaybackState.Mortal { s with nodes := s.nodes ++ [node] } := h.append hnode
    dsimp only
    split
    · exact hselect _ hs
    · exact hs

theorem PlaybackState.Mortal.disconnect (h : s.Mortal)
    (hnode : ∀ n, s.node id = some n → n.Dated) : (disconnectSection id s).2.Mortal := by
  have hmod : ∀ f : Node → Node,
      (∀ n, (f n).nodeType = n.nodeType ∧ (f n).disconnectedAt = n.disconnectedAt) →
      (s.modifyNode id f).Mortal := by
    intro f hf
    refine h.modifyNode id fun n hn _ _ => ?_
    have hdated := hnode n hn
    rwa [Node.Dated, (hf n).1, (hf n).2]
  unfold disconnectSection
  cases fallbackNodeId id s with
  | none =>
    dsimp only
    split <;> exact hmod _ fun n => by split <;> exact ⟨rfl, rfl⟩
  | some fb =>
    refine (hmod _ fun n => ?_).of_linked ((Linked.of_subset fun n hn => hn).trans
      (Linked.modifyNodes fun n => ?_))
    · split <;> exact ⟨rfl, rfl⟩
    · split
      · rfl
      · split <;> rfl

theorem PlaybackState.Mortal.sessionStart (h : s.Mortal) (name : String) (deviceId : Option String)
    (uuid : String) : (sessionStartSection name deviceId uuid s).2.Mortal := by
  have hnew : ∀ (id name : String) (deviceId : Option String),
      PlaybackState.Mortal { s with nodes := s.nodes ++ [newLocalNode id name deviceId] } :=
    fun id name deviceId => h.append fun hc => nomatch hc
  unfold sessionStartSection
  cases deviceId with
  | none => exact hnew _ _ _
  | some did =>
    dsimp only
    cases canonicalId (matchingIds did s) s with
    | none => exact hnew _ _ _
    | some canonical =>
      exact (h.of_linked (Linked.dropDuplicates canonical _)).modifyNode _ fun _ _ _ hc => nomatch hc

/-- What the operations that take a connection away have to find. -/
def CoreOp.KeepsMortal (op : CoreOp) (c : Core × η) : Prop :=
  match op with
  | .addNode node => node.connected = false → ((c.1.state.node node.id).getD node).Dated
  | .markNodeConnected id connected =>
    connected = false → ∀ n, c.1.state.node id = some n → n.Dated
  | .handleNodeDisconnected id => ∀ n, c.1.state.node id = some n → n.Dated
  | _ => True

/-- One operation. -/
theorem PlaybackState.Mortal.after {env : Outputs η} {op : CoreOp} {c : Core × η}
    (h : c.1.state.Mortal) (hop : op.KeepsMortal c) : (op.after env c).1.state.Mortal := by
  by_cases hlink : op.relinks = false
  · exact h.of_linked (Linked.after hlink c)
  cases op with
  | addNode node =>
    rw [after_addNode]
    exact (h.addNode hop).sync
  | markNodeConnected id connected =>
    rw [after_markNodeConnected]
    refine (h.modifyNode id fun n hn _ => ?_).sync
    dsimp only
    split
    · rename_i hc
      exact fun hc' => absurd hc (by simpa using hc')
    · rename_i hc
      exact fun _ => hop (by simpa using hc) n hn
  | handleNodeDisconnected id =>
    have hsame := after_handleNodeDisconnected env id c
    exact (h.disconnect hop).of_linked (Linked.of_subset fun n hn => hsame.1 ▸ hn)
  | localSessionStart name deviceId uuid =>
    rw [after_localSessionStart]
    exact (h.sessionStart name deviceId uuid).sync
  | localSessionDisconnect id now =>
    rw [after_localSessionDisconnect]
    split
    · split
      · exact (h.modifyNode id fun _ _ _ _ _ => rfl).sync
      · exact h
    · exact h
  | localSessionUpdate id u =>
    rw [after_localSessionUpdate]
    split
    · split
      · exact (h.modifyNode id fun _ _ _ hc => Bool.noConfusion hc).sync
      · exact h
    · exact h
  | _ => exact absurd rfl hlink

/-- A node with a time of disconnection is gone after a cleanup whose clock is far enough. -/
theorem not_mem_after_cleanup {env : Outputs η} {c : Core × η} {n : Node} {t now maxAge : Int}
    (hn : n ∈ c.1.state.nodes) (hlocal : n.nodeType = .localNode) (hc : n.connected = false)
    (ht : n.disconnectedAt = some t) (hlate : t ≤ now - maxAge) :
    n.id ∉ ((CoreOp.cleanupDisconnectedNodes now maxAge).after env c).1.state.ids := by
  have hremoved : n.id ∈ removedIds now maxAge c.1.state := by
    refine List.mem_map_of_mem (List.mem_filter.2 ⟨hn, ?_⟩)
    have hcut : t ≤ max (now - maxAge) (-2 ^ 63) := hlate.trans (le_max_left _ _)
    simpa [hlocal, hc, ht] using hcut
  have hne : removedIds now maxAge c.1.state ≠ [] := List.ne_nil_of_mem hremoved
  rw [after_cleanupDisconnectedNodes, if_neg hne, ids_syncTopLevel]
  intro hmem
  obtain ⟨m, hm, hid⟩ := mem_ids.1 hmem
  have hkept : m ∈ c.1.state.nodes.filter fun n => n.id ∉ removedIds now maxAge c.1.state := by
    unfold cleanupSection at hm
    dsimp only at hm
    rw [if_neg hne] at hm
    dsimp only at hm
    split at hm <;> exact hm
  have hout : m.id ∉ removedIds now maxAge c.1.state := by simpa using (List.mem_filter.1 hkept).2
  exact hout (hid ▸ hremoved)

/-- In every run whose steps find the time of disconnection where they need it, the nodes stay
mortal. -/
theorem mortal_of_run {env : Outputs η} {ops : List CoreOp} {c : Core × η} (h : c.1.state.Mortal)
    (hops : EachOp env CoreOp.KeepsMortal ops c) : (runOps env ops c).1.state.Mortal :=
  runAll_invariant (I := fun c : Core × η => c.1.state.Mortal) (fun _ _ hop hI => hI.after hop) hops h

end Kanade

import Kanade.Core.Identity
import Kanade.Ws.Dispatch

/-!
# Kanade.Ws.Sessions

Local sessions, one message at a time: any number of connections that start, update and stop
sessions and close.

A local node is attended when an open connection owns it and has it as its `local_node_id`.
`attended_run_iff`: that all connected local nodes are attended, all along, is a matter of what each
message meets. A start must not make a connection leave a connected node it owns; the others must not
be about an id that more than one node has.
-/

namespace Kanade

open Concur Fallible

variable {η : Type}

/-- The messages about local sessions, and the end of the connection. -/
inductive SessionMsg where
  | start (deviceName : String) (deviceId : Option String) (uuid : String)
  | update (update : SessionUpdate)
  | stop
  | close (now : Int)
deriving DecidableEq, Repr

/-- What connection `c` does with the message. -/
def SessionMsg.task (c : String) : SessionMsg → AppOp Unit
  | .start name deviceId uuid => dispatchCommand c (.localSessionStart name deviceId uuid)
  | .update u => dispatchCommand c (.localSessionUpdate u)
  | .stop => dispatchCommand c .localSessionStop
  | .close now => closeConnection c now

/-- The application between two messages, with the memory of the outputs and the connections that
have closed. -/
structure Served (η : Type) where
  app : AppState
  outputs : η
  closed : List String

def SessionMsg.closes : SessionMsg → Bool
  | .close _ => true
  | _ => false

/-- The message handled alone. -/
def SessionMsg.after (env : Outputs η) (m : String × SessionMsg) (s : Served η) : Served η where
  app := ((m.2.task m.1).run env s.app s.outputs).2.1
  outputs := ((m.2.task m.1).run env s.app s.outputs).2.2
  closed := if m.2.closes then m.1 :: s.closed else s.closed

/-! ## Attended nodes -/

def Node.IsLive (n : Node) : Prop := n.nodeType = .localNode ∧ n.connected = true

instance (n : Node) : Decidable n.IsLive := inferInstanceAs (Decidable (_ ∧ _))

/-- Every connected local node has an owner that is open and has it as its local node. -/
def Attended (closed : List String) (s : AppState) : Prop :=
  ∀ n ∈ s.core.state.nodes, n.IsLive → ∃ c, s.localSessionOwners n.id = some c ∧ c ∉ closed ∧
    s.localNodeId c = some n.id

/-- There is a connected local node with this id. -/
def PlaybackState.Live (s : PlaybackState) (id : String) : Prop := ∃ n ∈ s.nodes, n.id = id ∧ n.IsLive

/-- There is one that `node(id)` does not find, because another node comes first. -/
def PlaybackState.Shadowed (s : PlaybackState) (id : String) : Prop :=
  ∃ n ∈ s.nodes.eraseP fun n => n.id = id, n.id = id ∧ n.IsLive

/-- `node(id)` finds a local node. -/
def PlaybackState.FindsLocal (s : PlaybackState) (id : String) : Prop :=
  (s.node id).any (fun n => n.nodeType = .localNode) = true

instance (s : PlaybackState) (id : String) : Decidable (s.FindsLocal id) :=
  inferInstanceAs (Decidable (_ = true))

/-- The node that `local_session_start` comes up with. -/
def sessionNode (deviceId : Option String) (uuid : String) (s : PlaybackState) : String :=
  match deviceId with
  | none => "local-" ++ uuid
  | some did => (canonicalId (matchingIds did s) s).getD ("local-" ++ did)

/-- Another connection owns a node of the device. -/
def Conflicts (c : String) (deviceId : Option String) (s : AppState) : Prop :=
  ∃ did ∈ deviceId, ∃ id ∈ matchingIds did s.core.state, ∃ owner ∈ s.localSessionOwners id,
    owner ≠ c

/-- The connection owns a connected local node, and the start gives it another one without removing
the first as a duplicate. -/
def LeavesBehind (c : String) (deviceId : Option String) (uuid : String) (s : AppState) : Prop :=
  ∃ old ∈ s.localNodeId c, s.localSessionOwners old = some c ∧
    old ≠ sessionNode deviceId uuid s.core.state ∧
    (∀ did ∈ deviceId, old ∉ matchingIds did s.core.state) ∧ s.core.state.Live old

/-- What a message has to meet. -/
def SessionMsg.Attends (m : String × SessionMsg) (s : Served η) : Prop :=
  match m.2 with
  | .start _ deviceId uuid =>
    Conflicts m.1 deviceId s.app ∨ ¬ LeavesBehind m.1 deviceId uuid s.app
  | .update _ | .stop => ∀ nid ∈ s.app.localNodeId m.1, s.app.localSessionOwners nid = some m.1 →
    s.app.core.state.FindsLocal nid ∨ ¬ s.app.core.state.Live nid
  | .close _ => ∀ nid ∈ s.app.localNodeId m.1, s.app.localSessionOwners nid = some m.1 →
    ¬ s.app.core.state.Shadowed nid

/-! ## The nodes after each operation -/

section Nodes

variable {s : PlaybackState} {id : String} {n : Node}

theorem mem_modifyNode_iff {f : Node → Node} {ns : List Node} :
    n ∈ modifyNode id f ns ↔
      (∃ m, findNode id ns = some m ∧ n = f m) ∨ n ∈ ns.eraseP fun n => n.id = id := by
  induction ns with
  | nil => simp [modifyNode, findNode]
  | cons m ns ih =>
    by_cases hm : m.id = id
    · simp [modifyNode, findNode, hm]
    · have hfind : findNode id (m :: ns) = findNode id ns := by simp [findNode, hm]
      rw [hfind, List.eraseP_cons_of_neg (by simpa using hm)]
      simp only [modifyNode, hm, if_false, List.mem_cons, ih]
      exact or_left_comm

theorem mem_nodes_iff (id : String) {ns : List Node} :
    n ∈ ns ↔ findNode id ns = some n ∨ n ∈ ns.eraseP fun n => n.id = id := by
  have h : n ∈ modifyNode id (fun n => n) ns ↔ _ := mem_modifyNode_iff
  rw [modifyNode_eq_self_iff.2 fun _ _ => rfl] at h
  rw [h]
  refine or_congr_left ⟨?_, fun h => ⟨n, h, rfl⟩⟩
  rintro ⟨m, hm, rfl⟩
  exact hm

/-- Nodes with another id are not concerned by a write. -/
theorem mem_modifyNode_of_ne {f : Node → Node} {ns : List Node} (hf : ∀ n, (f n).id = n.id)
    (h : n.id ≠ id) : n ∈ modifyNode id f ns ↔ n ∈ ns := by
  refine mem_modifyNode_iff.trans (Iff.trans ?_ (mem_nodes_iff id).symm)
  refine or_congr_left (iff_of_false ?_ fun hn => h (findNode_id hn))
  rintro ⟨m, hm, rfl⟩
  exact h ((hf m).trans (findNode_id hm))

theorem findsLocal_iff :
    s.FindsLocal id ↔ ∃ node, s.node id = some node ∧ node.nodeType = .localNode := by
  simp [PlaybackState.FindsLocal, Option.any_eq_true]

/-- When `node(id)` does not find a local node, all those with the id are in its shadow. -/
theorem live_iff_shadowed (h : ¬ s.FindsLocal id) : s.Live id ↔ s.Shadowed id := by
  refine exists_congr fun n => and_congr_left fun hn => ?_
  rw [mem_nodes_iff id]
  refine or_iff_right fun hfind => h ?_
  have hnode : s.node id = some n := hfind
  simp [PlaybackState.FindsLocal, hnode, hn.2.1]

theorem sessionStartSection_fst (name : String) (deviceId : Option String) (uuid : String) :
    (sessionStartSection name deviceId uuid s).1.1 = sessionNode deviceId uuid s := by
  cases deviceId with
  | none => rfl
  | some did =>
    unfold sessionNode
    cases h : canonicalId (matchingIds did s) s with
    | some canonical =>
      rw [(sessionStartSection_canonical name uuid h).1]
      simp [h]
    | none =>
      unfold sessionStartSection
      simp [h]

/-- A session start removes the other nodes of the device and leaves the rest alone. -/
theorem mem_sessionStart_of_ne (name : String) (deviceId : Option String) (uuid : String)
    (h : n.id ≠ sessionNode deviceId uuid s) :
    n ∈ (sessionStartSection name deviceId uuid s).2.nodes ↔
      n ∈ s.nodes ∧ ∀ did ∈ deviceId, n.id ∉ matchingIds did s := by
  have hnew : (∀ did ∈ deviceId, matchingIds did s = []) →
      n.id ≠ "local-" ++ deviceId.getD uuid →
      (n ∈ (sessionStartSection name deviceId uuid s).2.nodes ↔
        n ∈ s.nodes ∧ ∀ did ∈ deviceId, n.id ∉ matchingIds did s) := by
    intro hnone hne
    rw [sessionStartSection_new hnone]
    refine List.mem_append.trans ((or_iff_left fun hn => ?_).trans (and_iff_left ?_).symm)
    · rw [List.mem_singleton.1 hn] at hne
      exact hne rfl
    · intro did hdid
      simp [hnone did hdid]
  cases deviceId with
  | none => exact hnew (fun _ hdid => nomatch hdid) h
  | some did =>
    cases hc : canonicalId (matchingIds did s) s with
    | none =>
      refine hnew (fun d hd => ?_) ?_
      · cases hd
        exact canonicalId_eq_none_iff.1 hc
      · simpa [sessionNode, hc] using h
    | some canonical =>
      have hne : n.id ≠ canonical := by simpa [sessionNode, hc] using h
      rw [(sessionStartSection_canonical name uuid hc).2, mem_modifyNode_of_ne (fun _ => by rfl) hne]
      simp [hne]

/-- The node of a session is there afterwards. -/
theorem sessionNode_mem (name : String) (deviceId : Option String) (uuid : String) :
    sessionNode deviceId uuid s ∈ (sessionStartSection name deviceId uuid s).2.ids := by
  have hnew : (∀ did ∈ deviceId, matchingIds did s = []) →
      "local-" ++ deviceId.getD uuid ∈ (sessionStartSection name deviceId uuid s).2.ids := by
    intro hnone
    rw [sessionStartSection_new hnone]
    exact mem_ids.2 ⟨_, List.mem_append_right _ (List.mem_singleton_self _), rfl⟩
  cases deviceId with
  | none => exact hnew fun _ hdid => nomatch hdid
  | some did =>
    cases hc : canonicalId (matchingIds did s) s with
    | none =>
      rw [sessionNode, hc]
      exact hnew fun d hd => by cases hd; exact canonicalId_eq_none_iff.1 hc
    | some canonical =>
      obtain ⟨n, hn, hid⟩ := mem_ids.1 (matchingIds_subset (canonicalId_mem hc))
      rw [sessionNode, hc, PlaybackState.ids, (sessionStartSection_canonical name uuid hc).2,
        map_modifyNode fun _ _ => by rfl]
      exact List.mem_map.2 ⟨n, List.mem_filter.2 ⟨hn, by simp [hid]⟩, hid⟩

/-- A session start gives no other device a node. -/
theorem matchingIds_sessionStart_subset {did : String} (name : String) {deviceId : Option String}
    (uuid : String) (hdid : did ∉ deviceId) (hid : id ∈ matchingIds did
      (sessionStartSection name deviceId uuid s).2) : id ∈ matchingIds did s := by
  obtain ⟨n, hn, rfl⟩ := List.mem_map.1 hid
  obtain ⟨hn, hmatch⟩ := List.mem_filter.1 hn
  have hdevice : n.nodeType = .localNode ∧ n.deviceId = some did := by simpa using hmatch
  refine List.mem_map.2 ⟨n, List.mem_filter.2 ⟨?_, hmatch⟩, rfl⟩
  have hnew : (∀ did ∈ deviceId, matchingIds did s = []) → n ∈ s.nodes := by
    intro hnone
    rw [sessionStartSection_new hnone] at hn
    refine (List.mem_append.1 hn).resolve_right fun hlast => hdid ?_
    rw [List.mem_singleton.1 hlast] at hdevice
    exact hdevice.2
  cases deviceId with
  | none => exact hnew fun _ h => nomatch h
  | some d =>
    cases hc : canonicalId (matchingIds d s) s with
    | none => exact hnew fun d' hd' => by cases hd'; exact canonicalId_eq_none_iff.1 hc
    | some canonical =>
      rw [(sessionStartSection_canonical name uuid hc).2, mem_modifyNode_iff] at hn
      obtain ⟨m, -, rfl⟩ | hn := hn
      · exact absurd hdevice.2 hdid
      · exact (List.mem_filter.1 (List.mem_of_mem_eraseP hn)).1

end Nodes

/-! ## The application after each message -/

section Messages

variable (env : Outputs η) (c : String) (s : AppState) (x : η)

theorem run_startLocalSession (name : String) (deviceId : Option String) (uuid : String) :
    ∃ (core : Core) (x' : η), core.state.nodes = (sessionStartSection name deviceId uuid s.core.state).2.nodes ∧
      (startLocalSession c name deviceId uuid).run env s x =
        (.ok (), (({ s with core := core }).replaceSession c
          (sessionNode deviceId uuid s.core.state)).claimSession c
            (sessionNode deviceId uuid s.core.state), x') := by
  obtain ⟨core, x', hrun, hstate⟩ := run_localSessionStart env name deviceId uuid s.core x
  refine ⟨core, x', by rw [hstate, syncTopLevel_nodes], ?_⟩
  rw [startLocalSession, Fallible.run_bind, run_inSession, hrun]
  dsimp only
  rw [run_adoptSession, sessionStartSection_fst]

/-- A start is refused when another connection owns a node of the device, and else gives the
connection the session's node. -/
theorem run_dispatchLocalSessionStart (name : String) (deviceId : Option String) (uuid : String) :
    (Conflicts c deviceId s ∧
      (dispatchLocalSessionStart c name deviceId uuid).run env s x =
        (.error (.internal "local session already owned by another connection"), s, x)) ∨
    (¬ Conflicts c deviceId s ∧ ∃ (core : Core) (x' : η),
      core.state.nodes = (sessionStartSection name deviceId uuid s.core.state).2.nodes ∧
      (dispatchLocalSessionStart c name deviceId uuid).run env s x =
        (.ok (), (({ s with core := core }).replaceSession c
          (sessionNode deviceId uuid s.core.state)).claimSession c
            (sessionNode deviceId uuid s.core.state), x')) := by
  cases deviceId with
  | none =>
    refine .inr ⟨fun ⟨_, hdid, _⟩ => (nomatch hdid), ?_⟩
    exact run_startLocalSession env c s x name none uuid
  | some did =>
    have hconflict : ((matchingIds did s.core.state).any fun id =>
        (s.localSessionOwners id).any (· ≠ c)) = true ↔ Conflicts c (some did) s := by
      simp [Conflicts, Option.any_eq_true]
    simp only [dispatchLocalSessionStart]
    rw [Fallible.run_bind, run_appSect]
    dsimp only
    rw [Fallible.run_bind, run_conflictAmong]
    dsimp only
    split
    · rename_i h
      exact .inl ⟨hconflict.1 h, rfl⟩
    · rename_i h
      exact .inr ⟨fun hc => h (hconflict.2 hc), run_startLocalSession env c s x name (some did) uuid⟩

/-- The operations on a local node: their result and the nodes they leave. -/
theorem run_localNode_nodes (id : String) (f : PlaybackState → PlaybackState) (w : Core) :
    ∃ core x', core.state.nodes =
        (if w.state.FindsLocal id then (f w.state).nodes else w.state.nodes) ∧
      (do lockLocalNode id f; broadcast : Op Unit).run env w x =
        (if w.state.FindsLocal id then .ok () else .error .localSessionNotFound, core, x') := by
  obtain ⟨x', hrun⟩ := run_localNode env id f w x
  by_cases hf : w.state.FindsLocal id
  · obtain ⟨node, hn, hl⟩ := findsLocal_iff.1 hf
    rw [hn] at hrun
    dsimp only at hrun
    rw [if_pos hl] at hrun
    refine ⟨{ w with state := (f w.state).syncTopLevelFromSelectedNode }, x', ?_, ?_⟩
    · rw [if_pos hf, syncTopLevel_nodes]
    · rw [if_pos hf, hrun]
  · refine ⟨w, x, by rw [if_neg hf], ?_⟩
    rw [if_neg hf, hrun]
    cases hn : w.state.node id with
    | none => rfl
    | some node => exact if_neg fun hl => hf (findsLocal_iff.2 ⟨node, hn, hl⟩)

/-- What `local_session_stop` does to the state. -/
def stopSection (id : String) (s : PlaybackState) : PlaybackState :=
  let s := { s with nodes := s.nodes.filter fun n => n.id ≠ id }
  if s.selectedNodeId = some id then { s with selectedNodeId := firstConnectedId s } else s

theorem stopSection_nodes (id : String) (s : PlaybackState) :
    (stopSection id s).nodes = s.nodes.filter fun n => n.id ≠ id := by
  unfold stopSection
  dsimp only
  split <;> rfl

theorem localSessionStop_eq (id : String) :
    Kanade.localSessionStop id = (do lockLocalNode id (stopSection id); broadcast) := rfl

/-- A stop or an update of a connection that does not own its local node, or has none: it is left
with none. -/
theorem run_checkOwner :
    (∃ nid, s.localNodeId c = some nid ∧ s.localSessionOwners nid = some c ∧
      (checkOwner c).run env s x = (.ok (some nid), s, x)) ∨
    ((∀ nid ∈ s.localNodeId c, s.localSessionOwners nid ≠ some c) ∧
      (checkOwner c).run env s x =
        (.ok none, { s with localNodeId := Function.update s.localNodeId c none }, x)) := by
  rw [checkOwner, run_appSect]
  cases hl : s.localNodeId c with
  | none =>
    refine .inr ⟨fun _ h => (nomatch h), ?_⟩
    dsimp only
    rw [← hl, Function.update_eq_self]
  | some nid =>
    dsimp only
    by_cases ho : s.localSessionOwners nid = some c
    · exact .inl ⟨nid, rfl, ho, by rw [if_pos ho]⟩
    · refine .inr ⟨fun nid' h => ?_, by rw [if_neg ho]⟩
      cases h
      exact ho

theorem run_dispatchLocalSessionStop :
    (∃ nid, s.localNodeId c = some nid ∧ s.localSessionOwners nid = some c ∧
      ∃ (core : Core) (x' : η), core.state.nodes =
        (if s.core.state.FindsLocal nid then s.core.state.nodes.filter fun n => n.id ≠ nid
          else s.core.state.nodes) ∧
      (dispatchLocalSessionStop c).run env s x =
        (.ok (), ({ s with core := core }).releaseSession c nid, x')) ∨
    ((∀ nid ∈ s.localNodeId c, s.localSessionOwners nid ≠ some c) ∧
      (dispatchLocalSessionStop c).run env s x =
        (.ok (), { s with localNodeId := Function.update s.localNodeId c none }, x)) := by
  rw [dispatchLocalSessionStop, Fallible.run_bind]
  obtain ⟨nid, hlocal, howner, hrun⟩ | ⟨hnot, hrun⟩ := run_checkOwner env c s x
  · obtain ⟨core, x', hnodes, hstop⟩ := run_localNode_nodes env x nid (stopSection nid) s.core
    refine .inl ⟨nid, hlocal, howner, core, x', by rw [hnodes, stopSection_nodes], ?_⟩
    rw [hrun]
    dsimp only
    rw [Fallible.run_bind, Fallible.run_attempt, runSession, run_inSession, CoreOp.task,
      localSessionStop_eq, hstop]
    rfl
  · exact .inr ⟨hnot, by rw [hrun]; rfl⟩

theorem run_dispatchLocalSessionUpdate (u : SessionUpdate) :
    (∃ nid, s.localNodeId c = some nid ∧ s.localSessionOwners nid = some c ∧
      ∃ (core : Core) (x' : η), core.state.nodes =
        (if s.core.state.FindsLocal nid then modifyNode nid u.apply s.core.state.nodes
          else s.core.state.nodes) ∧
      (dispatchLocalSessionUpdate c u).run env s x =
        (.ok (), if s.core.state.FindsLocal nid then { s with core := core }
          else ({ s with core := core }).releaseSession c nid, x')) ∨
    ((∀ nid ∈ s.localNodeId c, s.localSessionOwners nid ≠ some c) ∧
      (dispatchLocalSessionUpdate c u).run env s x =
        (.ok (), { s with localNodeId := Function.update s.localNodeId c none }, x)) := by
  rw [dispatchLocalSessionUpdate, Fallible.run_bind]
  obtain ⟨nid, hlocal, howner, hrun⟩ | ⟨hnot, hrun⟩ := run_checkOwner env c s x
  · obtain ⟨core, x', hnodes, hupdate⟩ := run_localNode_nodes env x nid
      (fun s : PlaybackState => s.modifyNode nid u.apply) s.core
    refine .inl ⟨nid, hlocal, howner, core, x', hnodes, ?_⟩
    have heq : (CoreOp.localSessionUpdate nid u).task =
        (do lockLocalNode nid fun s => s.modifyNode nid u.apply; broadcast) := rfl
    rw [hrun]
    dsimp only
    rw [Fallible.run_bind, Fallible.run_attempt, runSession, run_inSession, heq, hupdate]
    by_cases hf : s.core.state.FindsLocal nid
    · simp only [if_pos hf]
      rfl
    · simp only [if_neg hf]
      rfl
  · exact .inr ⟨hnot, by rw [hrun]; rfl⟩

theorem run_closeConnection (now : Int) :
    (∃ nid, s.localNodeId c = some nid ∧ ∃ (core : Core) (x' : η), core.state.nodes =
        (if s.core.state.FindsLocal nid then
          modifyNode nid (fun node => { node with connected := false, disconnectedAt := some now })
            s.core.state.nodes
          else s.core.state.nodes) ∧
      (closeConnection c now).run env s x =
        (.ok (), ({ s with core := core }).releaseSession c nid, x')) ∨
    (s.localNodeId c = none ∧ (closeConnection c now).run env s x = (.ok (), s, x)) := by
  rw [closeConnection, Fallible.run_bind, run_appSect]
  cases hl : s.localNodeId c with
  | none => exact .inr ⟨rfl, rfl⟩
  | some nid =>
    obtain ⟨core, x', hnodes, hdisc⟩ := run_localNode_nodes env x nid
      (fun s : PlaybackState => s.modifyNode nid fun node =>
        { node with connected := false, disconnectedAt := some now }) s.core
    refine .inl ⟨nid, rfl, core, x', hnodes, ?_⟩
    have heq : (CoreOp.localSessionDisconnect nid now).task =
        (do lockLocalNode nid fun s => s.modifyNode nid fun node =>
              { node with connected := false, disconnectedAt := some now }
            broadcast) := rfl
    dsimp only
    have hcore : (s.releaseSession c nid).core = s.core := rfl
    rw [Fallible.run_bind, Fallible.run_attempt, runSession, run_inSession, heq, hcore, hdisc]
    rfl

end Messages

/-! ## What each message does to attendance -/

section Attended

variable {c : String} {closed : List String} {s : AppState} {core : Core}

theorem releaseLocalSessionOwner_of_ne {owners : String → Option String} {nid id : String}
    (h : id ≠ nid ∨ owners id ≠ some c) : releaseLocalSessionOwner owners nid c id = owners id := by
  unfold releaseLocalSessionOwner
  split
  · rename_i ho
    refine Function.update_of_ne ?_ _ _
    rintro rfl
    exact h.elim (fun h => h rfl) fun h => h ho
  · rfl

/-- The connection leaves the node that it owned. -/
theorem owner_left {nid id : String} (hlocal : s.localNodeId c = some nid)
    (howner : s.localSessionOwners nid = some c) (hne : nid ≠ id) :
    ((s.replaceSession c id).claimSession c id).localSessionOwners nid = none := by
  refine (Function.update_of_ne hne _ _).trans ?_
  unfold AppState.replaceSession
  rw [hlocal]
  dsimp only
  rw [if_pos hne, releaseLocalSessionOwner, if_pos howner, Function.update_self]

/-- Other owners stay. -/
theorem owner_kept {nid id : String} (hne : nid ≠ id)
    (howner : s.localSessionOwners nid ≠ some c) :
    ((s.replaceSession c id).claimSession c id).localSessionOwners nid =
      s.localSessionOwners nid := by
  refine (Function.update_of_ne hne _ _).trans ?_
  unfold AppState.replaceSession
  cases s.localNodeId c with
  | none => rfl
  | some old =>
    dsimp only
    split
    · exact releaseLocalSessionOwner_of_ne (.inr howner)
    · rfl

/-- The connection comes to hold the session's node; what it leaves is what it owned before. -/
theorem attended_adopt_iff (h : Attended closed s) (hc : c ∉ closed) {name : String}
    {deviceId : Option String} {uuid : String}
    (hnodes : core.state.nodes = (sessionStartSection name deviceId uuid s.core.state).2.nodes) :
    Attended closed ((({ s with core := core }).replaceSession c
        (sessionNode deviceId uuid s.core.state)).claimSession c
          (sessionNode deviceId uuid s.core.state)) ↔
      ¬ LeavesBehind c deviceId uuid s := by
  generalize hid : sessionNode deviceId uuid s.core.state = id
  have hmem : ∀ n : Node, n.id ≠ id → (n ∈ core.state.nodes ↔
      n ∈ s.core.state.nodes ∧ ∀ did ∈ deviceId, n.id ∉ matchingIds did s.core.state) := by
    intro n hn
    rw [hnodes]
    exact mem_sessionStart_of_ne name deviceId uuid (hid ▸ hn)
  constructor
  · rintro hatt ⟨old, hlocal, howner, hne, hkept, n, hn, rfl, hlive⟩
    rw [hid] at hne
    obtain ⟨c', hc', -, hlocal'⟩ := hatt n ((hmem n hne).2 ⟨hn, hkept⟩) hlive
    cases (owner_left (s := { s with core := core }) hlocal howner hne).symm.trans hc'
  · intro hleft n hn hlive
    by_cases hnid : n.id = id
    · refine ⟨c, ?_, hc, ?_⟩
      · rw [hnid]
        exact Function.update_self _ _ _
      · rw [hnid]
        exact Function.update_self _ _ _
    · obtain ⟨hbefore, hkept⟩ := (hmem n hnid).1 hn
      obtain ⟨c', hc', hopen, hlocal'⟩ := h n hbefore hlive
      have hcc : c' ≠ c := by
        rintro rfl
        exact hleft ⟨n.id, hlocal', hc', by rw [hid]; exact hnid, hkept, n, hbefore, rfl, hlive⟩
      have hne : s.localSessionOwners n.id ≠ some c := by
        rw [hc']
        exact fun heq => hcc (Option.some.inj heq)
      exact ⟨c', (owner_kept hnid hne).trans hc', hopen, (Function.update_of_ne hcc _ _).trans hlocal'⟩

/-- A connection that gives up its local node keeps what it owns attended if there is no more to
attend under that id; `closed'` may have the connection among the closed ones. -/
theorem attended_release_iff (core : Core) (h : Attended closed s) {nid : String}
    (hlocal : s.localNodeId c = some nid) {closed' : List String}
    (hclosed : ∀ c', c' ≠ c → (c' ∉ closed' ↔ c' ∉ closed))
    (hnodes : ∀ n : Node, n.id ≠ nid → n ∈ core.state.nodes → n ∈ s.core.state.nodes)
    (hlive : core.state.Live nid → s.core.state.Live nid) :
    Attended closed' (({ s with core := core }).releaseSession c nid) ↔
      (s.localSessionOwners nid = some c → ¬ core.state.Live nid) := by
  constructor
  · rintro hatt howner ⟨n, hn, rfl, hnlive⟩
    obtain ⟨c', hc', -, hlocal'⟩ := hatt n hn hnlive
    have hnone : releaseLocalSessionOwner s.localSessionOwners n.id c n.id = none := by
      rw [releaseLocalSessionOwner, if_pos howner, Function.update_self]
    exact absurd (hnone.symm.trans hc') (by simp)
  · intro hnot n hn hnlive
    -- it was attended before, by another connection
    obtain ⟨c', hc', hopen, hlocal'⟩ : ∃ c', s.localSessionOwners n.id = some c' ∧ c' ∉ closed ∧
        s.localNodeId c' = some n.id := by
      by_cases hnid : n.id = nid
      · obtain ⟨m, hm, hmid, hmlive⟩ := hlive ⟨n, hn, hnid, hnlive⟩
        rw [hnid, ← hmid]
        exact h m hm hmlive
      · exact h n (hnodes n hnid hn) hnlive
    have hcc : c' ≠ c := by
      rintro rfl
      have hnid : nid = n.id := Option.some.inj (hlocal.symm.trans hlocal')
      exact hnot (hnid ▸ hc') ⟨n, hn, hnid.symm, hnlive⟩
    have hne : s.localSessionOwners n.id ≠ some c := by
      rw [hc']
      exact fun heq => hcc (Option.some.inj heq)
    refine ⟨c', ?_, (hclosed c' hcc).2 hopen, (Function.update_of_ne hcc _ _).trans hlocal'⟩
    exact (releaseLocalSessionOwner_of_ne (.inr hne)).trans hc'

/-- Forgetting a node that it does not own costs a connection nothing. -/
theorem attended_forget (h : Attended closed s)
    (hnot : ∀ nid ∈ s.localNodeId c, s.localSessionOwners nid ≠ some c) :
    Attended closed { s with localNodeId := Function.update s.localNodeId c none } := by
  intro n hn hlive
  obtain ⟨c', hc', hopen, hlocal'⟩ := h n hn hlive
  refine ⟨c', hc', hopen, (Function.update_of_ne ?_ _ _).trans hlocal'⟩
  rintro rfl
  exact hnot n.id hlocal' hc'

end Attended

/-! ## Every run of messages -/

theorem attends_iff {env : Outputs η} {m : String × SessionMsg} {s : Served η}
    (h : Attended s.closed s.app) (hopen : m.1 ∉ s.closed) :
    Attended (SessionMsg.after env m s).closed (SessionMsg.after env m s).app ↔
      SessionMsg.Attends m s := by
  obtain ⟨c, msg⟩ := m
  -- a node given up without an operation that changes other nodes
  have hkeep : ∀ {core : Core} {nid : String} {f : Node → Node} {state : PlaybackState},
      (∀ n, (f n).id = n.id) → core.state.nodes =
        (if state.FindsLocal nid then modifyNode nid f state.nodes else state.nodes) →
      ∀ n : Node, n.id ≠ nid → n ∈ core.state.nodes → n ∈ state.nodes := by
    intro core nid f state hf hnodes n hne hn
    rw [hnodes] at hn
    split at hn
    · exact (mem_modifyNode_of_ne hf hne).1 hn
    · exact hn
  cases msg with
  | start name deviceId uuid =>
    have htask : SessionMsg.task c (.start name deviceId uuid) =
        dispatchLocalSessionStart c name deviceId uuid := rfl
    obtain ⟨hconf, hrun⟩ | ⟨hconf, core, x', hnodes, hrun⟩ :=
      run_dispatchLocalSessionStart env c s.app s.outputs name deviceId uuid
    · refine iff_of_true ?_ (.inl hconf)
      simp only [SessionMsg.after, htask, hrun]
      exact h
    · simp only [SessionMsg.after, htask, hrun, SessionMsg.Attends, or_iff_right hconf]
      exact attended_adopt_iff h hopen hnodes
  | update u =>
    have htask : SessionMsg.task c (.update u) = dispatchLocalSessionUpdate c u := rfl
    obtain ⟨nid, hlocal, howner, core, x', hnodes, hrun⟩ | ⟨hnot, hrun⟩ :=
      run_dispatchLocalSessionUpdate env c s.app s.outputs u
    · simp only [SessionMsg.after, htask, hrun, SessionMsg.Attends, hlocal, Option.mem_some_iff,
        forall_eq', howner, forall_const]
      by_cases hf : s.app.core.state.FindsLocal nid
      · rw [if_pos hf] at hnodes ⊢
        refine iff_of_true (fun n hn hlive => ?_) (.inl hf)
        by_cases hnid : n.id = nid
        · rw [hnid]
          exact ⟨c, howner, hopen, hlocal⟩
        · have hbefore : n ∈ modifyNode nid u.apply s.app.core.state.nodes := hnodes ▸ hn
          exact h n ((mem_modifyNode_of_ne (fun _ => by rfl) hnid).1 hbefore) hlive
      · rw [if_neg hf] at hnodes ⊢
        rw [or_iff_right hf]
        have hiff := attended_release_iff core h hlocal (fun _ _ => Iff.rfl)
          (fun n _ hn => hnodes ▸ hn) (by rw [PlaybackState.Live, hnodes]; exact id)
        refine hiff.trans ?_
        rw [PlaybackState.Live, hnodes]
        exact forall_prop_of_true howner
    · simp only [SessionMsg.after, htask, hrun, SessionMsg.Attends]
      exact iff_of_true (attended_forget h hnot) fun nid hlocal howner =>
        absurd howner (hnot nid hlocal)
  | stop =>
    have htask : SessionMsg.task c .stop = dispatchLocalSessionStop c := rfl
    obtain ⟨nid, hlocal, howner, core, x', hnodes, hrun⟩ | ⟨hnot, hrun⟩ :=
      run_dispatchLocalSessionStop env c s.app s.outputs
    · simp only [SessionMsg.after, htask, hrun, SessionMsg.Attends, hlocal, Option.mem_some_iff,
        forall_eq', howner, forall_const]
      by_cases hf : s.app.core.state.FindsLocal nid
      · rw [if_pos hf] at hnodes
        have hgone : ¬ core.state.Live nid := by
          rintro ⟨n, hn, hnid, -⟩
          rw [hnodes] at hn
          simp [hnid] at hn
        refine iff_of_true ?_ (.inl hf)
        refine (attended_release_iff core h hlocal (fun _ _ => Iff.rfl) (fun n _ hn => ?_)
          fun hlive => absurd hlive hgone).2 fun _ => hgone
        rw [hnodes] at hn
        exact (List.mem_filter.1 hn).1
      · rw [if_neg hf] at hnodes
        rw [or_iff_right hf]
        have hiff := attended_release_iff core h hlocal (fun _ _ => Iff.rfl)
          (fun n _ hn => hnodes ▸ hn) (by rw [PlaybackState.Live, hnodes]; exact id)
        refine hiff.trans ?_
        rw [PlaybackState.Live, hnodes]
        exact forall_prop_of_true howner
    · simp only [SessionMsg.after, htask, hrun, SessionMsg.Attends]
      exact iff_of_true (attended_forget h hnot) fun nid hlocal howner =>
        absurd howner (hnot nid hlocal)
  | close now =>
    have htask : SessionMsg.task c (.close now) = closeConnection c now := rfl
    have hclosed : ∀ c', c' ≠ c → (c' ∉ c :: s.closed ↔ c' ∉ s.closed) := by
      intro c' hcc
      simp [hcc]
    obtain ⟨nid, hlocal, core, x', hnodes, hrun⟩ | ⟨hlocal, hrun⟩ :=
      run_closeConnection env c s.app s.outputs now
    · simp only [SessionMsg.after, htask, hrun, SessionMsg.Attends, hlocal, Option.mem_some_iff,
        forall_eq', SessionMsg.closes, if_true]
      -- what is left under the id is what was in the shadow of the node marked disconnected
      have hshadow : core.state.Live nid ↔ s.app.core.state.Shadowed nid := by
        by_cases hf : s.app.core.state.FindsLocal nid
        · rw [if_pos hf] at hnodes
          refine exists_congr fun n => and_congr_left fun hn => ?_
          rw [hnodes, mem_modifyNode_iff]
          refine or_iff_right ?_
          rintro ⟨m, -, rfl⟩
          exact absurd hn.2.2 (by simp)
        · rw [if_neg hf] at hnodes
          rw [← live_iff_shadowed hf, PlaybackState.Live, hnodes]
          rfl
      rw [← hshadow]
      refine attended_release_iff core h hlocal hclosed (hkeep (fun _ => by rfl) hnodes) fun hlive => ?_
      obtain ⟨n, hn, hnid, hlive⟩ := hshadow.1 hlive
      exact ⟨n, List.mem_of_mem_eraseP hn, hnid, hlive⟩
    · simp only [SessionMsg.after, htask, hrun, SessionMsg.Attends, hlocal, SessionMsg.closes,
        if_true]
      refine iff_of_true (fun n hn hlive => ?_) fun nid hnid => (nomatch hnid)
      obtain ⟨c', hc', hopen', hlocal'⟩ := h n hn hlive
      refine ⟨c', hc', (hclosed c' ?_).2 hopen', hlocal'⟩
      rintro rfl
      rw [hlocal] at hlocal'
      cases hlocal'

/-- Whatever messages open connections send: every connected local node is attended after each of
them exactly if each of them meets what it has to. -/
theorem attended_run_iff (env : Outputs η) (core : Core) (x : η)
    (hcore : ∀ n ∈ core.state.nodes, ¬ n.IsLive) (msgs : List (String × SessionMsg))
    (hopen : Each (SessionMsg.after env) (fun m s => m.1 ∉ s.closed) msgs
      ⟨AppState.new core, x, []⟩) :
    (∀ before, before <+: msgs →
      Attended (runAll (SessionMsg.after env) before ⟨AppState.new core, x, []⟩).closed
        (runAll (SessionMsg.after env) before ⟨AppState.new core, x, []⟩).app) ↔
    Each (SessionMsg.after env) SessionMsg.Attends msgs ⟨AppState.new core, x, []⟩ :=
  good_prefixes_iff (I := fun s => Attended s.closed s.app) (G := fun s => Attended s.closed s.app)
    (fun _ h => h) (fun _ _ h hopen hok => (attends_iff h hopen).2 hok)
    (fun _ _ h hopen hok hatt => hok ((attends_iff h hopen).1 hatt))
    (fun n hn hlive => absurd hlive (hcore n hn)) hopen

/-- A phone comes, updates its session and goes. -/
def phoneSession : List (String × SessionMsg) :=
  [("1", .start "phone" (some "x") ""), ("1", .update {}), ("1", .close 5)]

theorem attended_run_iff_phoneSession :
    (∀ before, before <+: phoneSession →
      Attended (runAll (SessionMsg.after allSucceed) before
          ⟨AppState.new (Core.new (fun _ => none) [] []), (), []⟩).closed
        (runAll (SessionMsg.after allSucceed) before
          ⟨AppState.new (Core.new (fun _ => none) [] []), (), []⟩).app) ↔
    Each (SessionMsg.after allSucceed) SessionMsg.Attends phoneSession
      ⟨AppState.new (Core.new (fun _ => none) [] []), (), []⟩ :=
  attended_run_iff allSucceed (Core.new (fun _ => none) [] []) () (fun _ hn => nomatch hn)
    phoneSession (by decide)

/-- The same connection starts sessions for two devices. -/
def twoDevices : List (String × SessionMsg) :=
  [("1", .start "phone" (some "x") ""), ("1", .start "phone" (some "y") "")]

/-- The first session stays connected and is no one's. -/
theorem twoDevices_not_attended :
    ¬ Attended (runAll (SessionMsg.after allSucceed) twoDevices
        ⟨AppState.new (Core.new (fun _ => none) [] []), (), []⟩).closed
      (runAll (SessionMsg.after allSucceed) twoDevices
        ⟨AppState.new (Core.new (fun _ => none) [] []), (), []⟩).app := by
  intro h
  have hnone : (runAll (SessionMsg.after allSucceed) twoDevices
      ⟨AppState.new (Core.new (fun _ => none) [] []), (), []⟩).app.localSessionOwners "local-x" =
        none := by decide
  obtain ⟨c, hc, -⟩ := h (newLocalNode "local-x" "phone" (some "x")) (by decide) ⟨rfl, rfl⟩
  exact absurd (hnone.symm.trans hc) (by simp)

end Kanade

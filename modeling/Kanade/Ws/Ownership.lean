import Kanade.Concur.Pool
import Kanade.Ws.Sessions

/-!
# Kanade.Ws.Ownership

Exclusive ownership of local sessions, with every lock section of every connection a step.

The ghost stage of a connection says where it is in a session command or in its close, and which
nodes that is about: a start for a device is about the nodes of the device from its look for
conflicting owners to its claim, a stop or an update that finds its node gone from there to its
release, a close from its release to `local_session_disconnect`.

`exclusive_of_noOverlap`: in every interleaving in which connections in the middle of such a thing are
never about the same node, and new nodes get ids of their own, no two connections hold one node, and
no close, stop or update touches a node that another connection has claimed.
-/

namespace Kanade

open Concur Fallible

/-- Where a connection is in a session command or in its close. -/
inductive SessionStage where
  | idle
  /-- `checkOwner` has found it the owner of its node. -/
  | owning (nodeId : String)
  /-- A start has listed the nodes of the device and looks for their owners, `rest` to go. -/
  | looking (deviceId : String) (ids rest : List String)
  | started (nodeId : String) (nodes : List String)
  | adopting (nodeId : String) (nodes : List String)
  /-- A stop or an update that has to release the node yet. -/
  | leaving (nodeId : String)
  /-- A close that has to disconnect the node yet. -/
  | closing (nodeId : String)
deriving DecidableEq, Repr

namespace SessionStage

/-- The nodes it is about. -/
def nodes : SessionStage → List String
  | .idle | .owning _ => []
  | .looking did ids _ => ("local-" ++ did) :: ids
  | .started _ nodes | .adopting _ nodes => nodes
  | .leaving id | .closing id => [id]

/-- Of these, the ones the connection may hold without owning them. -/
def unclaimed : SessionStage → List String
  | .adopting id _ | .leaving id => [id]
  | _ => []

/-- Those it may hold although they are no longer there. -/
def dropped : SessionStage → List String
  | .started _ nodes => nodes
  | .leaving id => [id]
  | _ => []

/-- What it may hold is among what it is about. -/
theorem nodes_of_dropped {p : SessionStage} {id : String} (h : id ∈ p.dropped) : id ∈ p.nodes := by
  cases p with
  | started nodeId nodes => exact h
  | leaving nodeId => exact h
  | _ => cases h

end SessionStage

section Protocol

variable (c : String)

/-- The stage after a section. -/
def stageAfterSect (p : SessionStage) (l : AppSect) (s : AppState) : SessionStage :=
  match l with
  | .sameDevice did => .looking did (matchingIds did s.core.state) (matchingIds did s.core.state)
  | .findOwner id =>
    match p with
    | .looking did ids rest =>
      if (s.localSessionOwners id).any (· ≠ c) then .idle else .looking did ids rest.tail
    | p => p
  | .session (.localSessionStart _ deviceId uuid) =>
    let id := sessionNode deviceId uuid s.core.state
    .started id (match p with
      | .looking did ids _ => ("local-" ++ did) :: ids
      | _ => [id])
  | .session (.localSessionStop id) => .leaving id
  | .session (.localSessionUpdate id _) =>
    if s.core.state.FindsLocal id then .idle else .leaving id
  | .session (.localSessionDisconnect _ _) => .idle
  | .replace id =>
    match p with
    | .started _ nodes => .adopting id nodes
    | p => p
  | .claim _ | .release _ => .idle
  | .checkOwner =>
    match s.localNodeId c with
    | some nid => if s.localSessionOwners nid = some c then .owning nid else .idle
    | none => .idle
  | .close =>
    match s.localNodeId c with
    | some nid => .closing nid
    | none => .idle
  | .guardSelected | .guardType | .core _ _ | .session _ => p

/-- What the first section of a session operation does to the state, from the stage it is met in. -/
def sessionEffect (p : SessionStage) (op : CoreOp) (state state' : PlaybackState) : Prop :=
  match op with
  | .localSessionStart name deviceId uuid =>
    (match deviceId with
      | none => p = .idle
      | some did => ∃ ids, p = .looking did ids []) ∧
      state' = (sessionStartSection name deviceId uuid state).2
  | .localSessionStop id =>
    p = .owning id ∧ state' = if state.FindsLocal id then stopSection id state else state
  | .localSessionUpdate id u =>
    p = .owning id ∧ state' = if state.FindsLocal id then state.modifyNode id u.apply else state
  | .localSessionDisconnect id now =>
    p = .closing id ∧ state' =
      if state.FindsLocal id then
        state.modifyNode id fun node => { node with connected := false, disconnectedAt := some now }
      else state
  | _ => False

/-- The sessions' part of the application is as it was. -/
def SameSessions (s s' : AppState) : Prop :=
  s'.localSessionOwners = s.localSessionOwners ∧ s'.localNodeId = s.localNodeId

/-- What a section of connection `c` does. -/
def appEffect (p : SessionStage) (l : AppSect) (s s' : AppState) : Prop :=
  match l with
  | .guardSelected | .guardType => s' = s
  | .core op _ => SameSessions s s' ∧ s'.core.state.roster = s.core.state.roster ∧
      ((∃ id, op = .localSessionStop id ∨ (∃ u, op = .localSessionUpdate id u) ∨
        ∃ now, op = .localSessionDisconnect id now) → s'.core.state.nodes = s.core.state.nodes)
  | .session op => SameSessions s s' ∧ sessionEffect p op s.core.state s'.core.state
  | .sameDevice _ => p = .idle ∧ s' = s
  | .findOwner id => (∃ did ids rest, p = .looking did ids (id :: rest)) ∧ s' = s
  | .checkOwner => p = .idle ∧ (s' = s ∨ (∀ nid ∈ s.localNodeId c, s.localSessionOwners nid ≠ some c) ∧
      s' = { s with localNodeId := Function.update s.localNodeId c none })
  | .replace id => (∃ nodes, p = .started id nodes) ∧ s' = s.replaceSession c id
  | .claim id => (∃ nodes, p = .adopting id nodes) ∧ s' = s.claimSession c id
  | .release id => p = .leaving id ∧ s' = s.releaseSession c id
  | .close => p = .idle ∧ s' =
      match s.localNodeId c with
      | some nid => s.releaseSession c nid
      | none => s

def appProtocol : Protocol AppState AppSect CoreCall (Except CoreError Unit) SessionStage where
  onSect p l s _ := stageAfterSect c p l s
  onCall p _ _ := p
  rely _ _ _ := True
  sectOk := appEffect c
  callOk _ _ := True

end Protocol

/-! ## The commands follow it -/

section Follows

variable {c : String} {p : SessionStage} {α : Type}

/-- The end of a session operation: it broadcasts, which cannot fail. -/
theorem follows_broadcast_within :
    Follows (Protocol.within (fun _ => True) fun w w' : Core => w'.state.nodes = w.state.nodes)
      (fun _ r => r = .ok ()) () broadcast := by
  have hdeliver : ∀ (call : Nat → CoreCall) (ks : List Nat),
      Follows (Protocol.within (fun _ => True) fun w w' : Core => w'.state.nodes = w.state.nodes)
        (fun _ r => r = .ok ()) () (deliverAll call ks) := by
    intro call ks
    induction ks with
    | nil => rfl
    | cons k ks ih => exact (follows_bind _ _).2 (follows_tell.2 ⟨trivial, fun _ => ih⟩)
  refine (follows_bind _ _).2 (follows_sect.2 fun w _ => ⟨syncTopLevel_nodes, ?_⟩)
  refine (follows_bind _ _).2 (follows_sect.2 fun w _ => ⟨rfl, ?_⟩)
  refine (follows_bind _ _).2 ((hdeliver _ _).mono ?_)
  rintro p (e | _) hr
  · cases hr
  · exact hdeliver _ _

theorem roster_of_nodes {s s' : PlaybackState} (h : s'.nodes = s.nodes) : s'.roster = s.roster :=
  congrArg (List.map Node.badge) h

/-- What follows the first section of a session operation. -/
theorem follows_sessionRest {op : CoreOp} {t : Op α} {Q : Except CoreError α → Prop}
    (h : Follows (Protocol.within (fun _ => True) fun w w' : Core => w'.state.nodes = w.state.nodes)
      (fun _ r => Q r) () t) :
    Follows (appProtocol c) (fun p' r => p' = p ∧ Q r) p (inApp op t) :=
  follows_inApp (P := appProtocol c) (I := fun p' => p' = p) h
    (fun _ _ _ _ hp hnodes => ⟨⟨⟨rfl, rfl⟩, roster_of_nodes hnodes, fun _ => hnodes⟩, hp⟩)
    (fun _ _ hp => ⟨trivial, fun _ => hp⟩) rfl

/-- An operation that neither adds nor removes nodes. -/
theorem follows_runCore {op : CoreOp} (hkeep : ∀ f, op.Writes (fun _ => True) f →
      ∀ s, (f s).roster = s.roster)
    (hop : ¬ ∃ id, op = .localSessionStop id ∨ (∃ u, op = .localSessionUpdate id u) ∨
      ∃ now, op = .localSessionDisconnect id now) :
    Follows (appProtocol c) (fun p' _ => p' = p) p (runCore op) := by
  have hwithin : Within (fun _ => True) (fun w w' : Core => w'.state.roster = w.state.roster)
      op.task :=
    op.within (I := fun _ => True) (R := fun s s' => s'.roster = s.roster)
      ⟨fun _ _ => rfl, fun _ _ _ h h' => h'.trans h, fun _ _ _ _ => trivial,
        fun _ _ => roster_syncTopLevel⟩ fun f hf s _ => hkeep f hf s
  exact (follows_inApp (P := appProtocol c) (I := fun p' => p' = p) hwithin
    (fun _ _ _ _ hp hroster => ⟨⟨⟨rfl, rfl⟩, hroster, fun h => absurd h hop⟩, hp⟩)
    (fun _ _ hp => ⟨trivial, fun _ => hp⟩) rfl).mono fun _ _ h => h.1

theorem follows_adoptSession {id : String} {nodes : List String} :
    Follows (appProtocol c) (fun p' _ => p' = .idle) (.started id nodes) (adoptSession c id) :=
  (follows_bind _ _).2 (follows_appSect.2 fun _ _ => ⟨⟨⟨nodes, rfl⟩, rfl⟩,
    follows_appSect.2 fun _ _ => ⟨⟨⟨nodes, rfl⟩, rfl⟩, rfl⟩⟩)

theorem follows_startLocalSession {name : String} {deviceId : Option String} {uuid : String}
    (hp : match deviceId with
      | none => p = .idle
      | some did => ∃ ids, p = .looking did ids []) :
    Follows (appProtocol c) (fun p' _ => p' = .idle) p (startLocalSession c name deviceId uuid) := by
  have hrest : ∀ (id : String) (ids : List String),
      Follows (Protocol.within (fun _ => True) fun w w' : Core => w'.state.nodes = w.state.nodes)
        (fun _ r => r = .ok id) () (do
          if ids ≠ [] then
            lockTransport .writeTransport
              fun m => ((), retainKeys (fun id' => id' = id ∨ id' ∉ ids) m)
            writeOutputs (retainKeys fun id' => id' = id ∨ id' ∉ ids)
          broadcast
          pure id : Op String) := by
    intro id ids
    have hend : Follows (Protocol.within (fun _ => True)
        fun w w' : Core => w'.state.nodes = w.state.nodes) (fun _ r => r = .ok id) ()
        (do broadcast; pure id : Op String) := by
      refine (follows_bind _ _).2 (follows_broadcast_within.mono ?_)
      rintro p (e | _) hr
      · cases hr
      · rfl
    split
    · exact (follows_bind _ _).2 (follows_sect.2 fun _ _ => ⟨rfl,
        (follows_bind _ _).2 (follows_sect.2 fun _ _ => ⟨rfl, hend⟩)⟩)
    · exact hend
  refine (follows_bind _ _).2 (follows_inSession
    (f := fun w : Core => (.ok (sessionStartSection name deviceId uuid w.state).1,
      { w with state := (sessionStartSection name deviceId uuid w.state).2 })) fun s _ => ?_)
  refine ⟨⟨⟨rfl, rfl⟩, hp, rfl⟩, ?_⟩
  refine (follows_sessionRest (hrest _ _)).mono ?_
  rintro p' (e | id) ⟨rfl, hr⟩
  · cases hr
  · cases hr
    rw [sessionStartSection_fst]
    exact follows_adoptSession

theorem follows_conflictAmong {did : String} {ids rest : List String} :
    Follows (appProtocol c) (fun p' r => p' = .idle ∧ r = .ok true ∨
      p' = .looking did ids [] ∧ r = .ok false) (.looking did ids rest) (conflictAmong c rest) := by
  induction rest with
  | nil => exact .inr ⟨rfl, rfl⟩
  | cons id rest ih =>
    refine (follows_bind _ _).2 (follows_appSect.2 fun s _ => ⟨⟨⟨did, ids, rest, rfl⟩, rfl⟩, ?_⟩)
    show Follows _ _ (if (s.localSessionOwners id).any (· ≠ c) = true then SessionStage.idle
      else .looking did ids rest) _
    split
    · exact .inl ⟨rfl, rfl⟩
    · exact ih

theorem follows_dispatchLocalSessionStart {name : String} {deviceId : Option String}
    {uuid : String} :
    Follows (appProtocol c) (fun p' _ => p' = .idle) .idle
      (dispatchLocalSessionStart c name deviceId uuid) := by
  cases deviceId with
  | none => exact follows_startLocalSession rfl
  | some did =>
    refine (follows_bind _ _).2 (follows_appSect.2 fun s _ => ⟨⟨rfl, rfl⟩, ?_⟩)
    refine (follows_bind _ _).2 (follows_conflictAmong.mono ?_)
    rintro p' r (⟨rfl, rfl⟩ | ⟨rfl, rfl⟩)
    · rfl
    · exact follows_startLocalSession ⟨_, rfl⟩

/-- The section of an operation on a local node. -/
theorem localNodeSection_eq (id : String) (f : PlaybackState → PlaybackState) (s : PlaybackState) :
    (match s.node id with
      | none => (.error .localSessionNotFound, s)
      | some node =>
        if node.nodeType ≠ .localNode then (.error .localSessionNotFound, s) else (.ok (), f s) :
      Except CoreError Unit × PlaybackState) =
      if s.FindsLocal id then (.ok (), f s) else (.error .localSessionNotFound, s) := by
  by_cases hf : s.FindsLocal id
  · obtain ⟨node, hn, hl⟩ := findsLocal_iff.1 hf
    rw [if_pos hf, hn]
    simp [hl]
  · rw [if_neg hf]
    cases hn : s.node id with
    | none => rfl
    | some node =>
      have hl : node.nodeType ≠ .localNode := fun hl => hf (findsLocal_iff.2 ⟨node, hn, hl⟩)
      simp [hl]

/-- An operation on a local node: the stage after its first section, and its result. -/
theorem follows_runSession (op : CoreOp) {id : String} {f : PlaybackState → PlaybackState}
    (htask : op.task = (do lockLocalNode id f; broadcast))
    (heffect : ∀ state, sessionEffect p op state (if state.FindsLocal id then f state else state)) :
    Follows (appProtocol c) (fun p' r => ∃ s : AppState, p' = stageAfterSect c p (.session op) s ∧
      r = if s.core.state.FindsLocal id then .ok () else .error .localSessionNotFound) p
      (runSession op) := by
  rw [runSession, htask]
  refine follows_inSession (f := fun w : Core =>
    ((match w.state.node id with
      | none => (.error .localSessionNotFound, w.state)
      | some node =>
        if node.nodeType ≠ .localNode then (.error .localSessionNotFound, w.state)
        else (.ok (), f w.state) : Except CoreError Unit × PlaybackState).1,
      { w with state := (match w.state.node id with
        | none => (.error .localSessionNotFound, w.state)
        | some node =>
          if node.nodeType ≠ .localNode then (.error .localSessionNotFound, w.state)
          else (.ok (), f w.state) : Except CoreError Unit × PlaybackState).2 })) fun s _ => ?_
  dsimp only
  rw [localNodeSection_eq]
  have hstep := heffect s.core.state
  by_cases hf : s.core.state.FindsLocal id
  · rw [if_pos hf] at hstep ⊢
    refine ⟨⟨⟨rfl, rfl⟩, hstep⟩, (follows_sessionRest follows_broadcast_within).mono ?_⟩
    rintro p' r ⟨rfl, rfl⟩
    exact ⟨s, rfl, (if_pos hf).symm⟩
  · rw [if_neg hf] at hstep ⊢
    exact ⟨⟨⟨rfl, rfl⟩, hstep⟩, s, rfl, (if_neg hf).symm⟩

theorem follows_runStop {id : String} :
    Follows (appProtocol c) (fun p' _ => p' = .leaving id) (.owning id)
      (runSession (.localSessionStop id)) :=
  (follows_runSession (.localSessionStop id) (f := stopSection id) rfl
    fun _ => ⟨rfl, rfl⟩).mono fun _ _ ⟨_, hp, _⟩ => hp

theorem follows_runUpdate {id : String} {u : SessionUpdate} :
    Follows (appProtocol c) (fun p' r => p' = .idle ∧ r = .ok () ∨
      p' = .leaving id ∧ r = .error .localSessionNotFound) (.owning id)
      (runSession (.localSessionUpdate id u)) := by
  refine (follows_runSession (.localSessionUpdate id u)
    (f := fun s => s.modifyNode id u.apply) rfl fun _ => ⟨rfl, rfl⟩).mono ?_
  rintro p' r ⟨s, rfl, rfl⟩
  by_cases hf : s.core.state.FindsLocal id
  · exact .inl ⟨if_pos hf, if_pos hf⟩
  · exact .inr ⟨if_neg hf, if_neg hf⟩

theorem follows_runDisconnect {id : String} {now : Int} :
    Follows (appProtocol c) (fun p' _ => p' = .idle) (.closing id)
      (runSession (.localSessionDisconnect id now)) :=
  (follows_runSession (.localSessionDisconnect id now)
    (f := fun s => s.modifyNode id fun node =>
      { node with connected := false, disconnectedAt := some now }) rfl
    fun _ => ⟨rfl, rfl⟩).mono fun _ _ ⟨_, hp, _⟩ => hp

theorem follows_releaseAndForget {id : String} :
    Follows (appProtocol c) (fun p' _ => p' = .idle) (.leaving id) (releaseAndForget c id) :=
  follows_appSect.2 fun _ _ => ⟨⟨rfl, rfl⟩, rfl⟩

theorem follows_checkOwner :
    Follows (appProtocol c) (fun p' r => (∃ nid, p' = .owning nid ∧ r = .ok (some nid)) ∨
      p' = .idle ∧ r = .ok none) .idle (checkOwner c) := by
  refine follows_appSect.2 fun s _ => ?_
  simp only [appProtocol, appEffect, stageAfterSect]
  cases hl : s.localNodeId c with
  | none => exact ⟨⟨trivial, .inl rfl⟩, .inr ⟨rfl, rfl⟩⟩
  | some nid =>
    dsimp only
    by_cases ho : s.localSessionOwners nid = some c
    · simp only [if_pos ho]
      exact ⟨⟨trivial, .inl trivial⟩, .inl ⟨nid, rfl, rfl⟩⟩
    · simp only [if_neg ho]
      refine ⟨⟨trivial, .inr ⟨fun nid' hnid' => ?_, trivial⟩⟩, .inr ⟨trivial, trivial⟩⟩
      cases hnid'
      exact ho

theorem follows_dispatchLocalSessionStop :
    Follows (appProtocol c) (fun p' _ => p' = .idle) .idle (dispatchLocalSessionStop c) := by
  refine (follows_bind _ _).2 (follows_checkOwner.mono ?_)
  rintro p' r (⟨nid, rfl, rfl⟩ | ⟨rfl, rfl⟩)
  · refine (follows_bind _ _).2 ((follows_attempt _).2 (follows_runStop.mono ?_))
    rintro p' r rfl
    exact follows_releaseAndForget
  · rfl

theorem follows_dispatchLocalSessionUpdate {u : SessionUpdate} :
    Follows (appProtocol c) (fun p' _ => p' = .idle) .idle (dispatchLocalSessionUpdate c u) := by
  refine (follows_bind _ _).2 (follows_checkOwner.mono ?_)
  rintro p' r (⟨nid, rfl, rfl⟩ | ⟨rfl, rfl⟩)
  · refine (follows_bind _ _).2 ((follows_attempt _).2 (follows_runUpdate.mono ?_))
    rintro p' r (⟨rfl, rfl⟩ | ⟨rfl, rfl⟩)
    · rfl
    · exact follows_releaseAndForget
  · rfl

theorem follows_closeConnection {now : Int} :
    Follows (appProtocol c) (fun p' _ => p' = .idle) .idle (closeConnection c now) := by
  refine (follows_bind _ _).2 (follows_appSect.2 fun s _ => ?_)
  simp only [appProtocol, appEffect, stageAfterSect]
  cases hl : s.localNodeId c with
  | none => exact ⟨⟨trivial, rfl⟩, rfl⟩
  | some nid =>
    refine ⟨⟨trivial, rfl⟩, (follows_bind _ _).2 ((follows_attempt _).2
      (follows_runDisconnect.mono ?_))⟩
    rintro p' r rfl
    rfl

theorem follows_guardPasses : Follows (appProtocol c) (fun p' _ => p' = p) p (guardPasses c) := by
  refine (follows_bind _ _).2 (follows_appSect.2 fun s _ => ⟨rfl, ?_⟩)
  dsimp only
  cases s.core.state.selectedNodeId with
  | none => rfl
  | some sel => exact follows_appSect.2 fun s _ => ⟨rfl, rfl⟩

theorem follows_executeCommand (cmd : WsCommand) :
    Follows (appProtocol c) (fun p' _ => p' = .idle) .idle (executeCommand c cmd) := by
  have hcore : ∀ {op : CoreOp}, (∀ f, op.Writes (fun _ => True) f → ∀ s, (f s).roster = s.roster) →
      (¬ ∃ id, op = .localSessionStop id ∨ (∃ u, op = .localSessionUpdate id u) ∨
        ∃ now, op = .localSessionDisconnect id now) →
      Follows (appProtocol c) (fun p' _ => p' = .idle) .idle (runCore op) :=
    fun hkeep hop => follows_runCore hkeep hop
  have hshape : ∀ {op : CoreOp}, (∀ f, ¬ op.Reshapes f) →
      ∀ f, op.Writes (fun _ => True) f → ∀ s, (f s).roster = s.roster :=
    fun hre f hf s => (hf.reshapes.resolve_right (hre f) s).1
  cases cmd with
  | localSessionStart name deviceId uuid => exact follows_dispatchLocalSessionStart
  | localSessionStop => exact follows_dispatchLocalSessionStop
  | localSessionUpdate u => exact follows_dispatchLocalSessionUpdate
  | selectNode id =>
    refine hcore (fun f hf s => ?_) (by simp)
    obtain hsame | hre := hf.reshapes
    · exact (hsame s).1
    · cases hre
      exact (selectSection_shape id s).1
  | handoff fromId toId =>
    exact (follows_bind _ _).2 ((follows_attempt _).2
      (hcore (hshape fun _ h => nomatch h) (by simp)))
  | _ => exact hcore (hshape fun _ h => nomatch h) (by simp)

theorem follows_dispatchCommand (cmd : WsCommand) :
    Follows (appProtocol c) (fun p' _ => p' = .idle) .idle (dispatchCommand c cmd) := by
  unfold dispatchCommand
  split
  · refine (follows_bind _ _).2 (follows_guardPasses.mono ?_)
    rintro p' (e | passes) rfl
    · rfl
    · cases passes with
      | true => exact follows_executeCommand cmd
      | false => rfl
  · exact follows_executeCommand cmd

theorem follows_serveConnection (now : Int) (cmds : List WsCommand) :
    Follows (appProtocol c) (fun p' _ => p' = .idle) .idle (serveConnection c now cmds) := by
  induction cmds with
  | nil => exact follows_closeConnection
  | cons cmd cmds ih =>
    refine (follows_bind _ _).2 ((follows_attempt _).2 ((follows_dispatchCommand cmd).mono ?_))
    rintro p' r rfl
    exact ih

end Follows

/-! ## The invariant -/

/-- No two connections hold one node. -/
def Exclusive (s : AppState) : Prop :=
  ∀ c c' id, s.localNodeId c = some id → s.localNodeId c' = some id → c = c'

/-- What a stage of connection `c` says about the state. -/
def StageInv (c : String) (p : SessionStage) (s : AppState) : Prop :=
  match p with
  | .idle | .leaving _ => True
  | .owning id => s.localNodeId c = some id
  | .looking did ids rest => (∀ id ∈ matchingIds did s.core.state, id ∈ ids) ∧
      ∀ id ∈ ids, id ∉ rest → ∀ c', s.localNodeId c' = some id → c' = c
  | .started id nodes => id ∈ nodes ∧ id ∈ s.core.state.ids ∧
      ∀ c', s.localNodeId c' = some id → c' = c
  | .adopting id nodes => id ∈ nodes ∧ id ∈ s.core.state.ids ∧ s.localNodeId c = some id
  | .closing id => ∀ c', s.localSessionOwners id ≠ some c'

/-- What holds of the stages of all connections and the state. -/
structure OwnInv (φ : String → SessionStage) (s : AppState) : Prop where
  exclusive : Exclusive s
  owned : ∀ c id, s.localNodeId c = some id →
    s.localSessionOwners id = some c ∨ id ∈ (φ c).unclaimed
  there : ∀ c id, s.localNodeId c = some id → id ∈ s.core.state.ids ∨ id ∈ (φ c).dropped
  stage : ∀ c, StageInv c (φ c) s
  apart : ∀ c c', c ≠ c' → ∀ id ∈ (φ c).nodes, id ∉ (φ c').nodes

section Steps

variable {φ : String → SessionStage} {s s' : AppState} {c : String} {p' : SessionStage}

/-- A step of connection `c`, which goes to stage `p'`: what it has to respect of the others, and what
it has to establish for itself. -/
theorem OwnInv.step (h : OwnInv φ s)
    (hL : ∀ d, d ≠ c → s'.localNodeId d = s.localNodeId d)
    (hLc : ∀ id, s'.localNodeId c = some id → s.localNodeId c = some id ∨ id ∈ (φ c).nodes)
    (hexcl : ∀ id, s'.localNodeId c = some id → ∀ d, s.localNodeId d = some id → d = c)
    (hkept : ∀ d, d ≠ c → ∀ id, s.localNodeId d = some id →
      (s.localSessionOwners id = some d → s'.localSessionOwners id = some d) ∧
        (id ∈ s.core.state.ids → id ∈ s'.core.state.ids))
    (howners : ∀ id d, s'.localSessionOwners id = some d →
      s.localSessionOwners id = some d ∨ id ∈ (φ c).nodes)
    (hids : ∀ id ∈ s.core.state.ids, id ∉ p'.nodes → id ∈ s'.core.state.ids)
    (hmatch : ∀ did, "local-" ++ did ∉ p'.nodes → ∀ id ∈ matchingIds did s'.core.state,
      id ∈ matchingIds did s.core.state)
    (howned : ∀ id, s'.localNodeId c = some id →
      s'.localSessionOwners id = some c ∨ id ∈ p'.unclaimed)
    (hthere : ∀ id, s'.localNodeId c = some id → id ∈ s'.core.state.ids ∨ id ∈ p'.dropped)
    (hstage : StageInv c p' s')
    (hapart : ∀ d, d ≠ c → ∀ id ∈ p'.nodes, id ∉ (φ d).nodes) :
    OwnInv (Function.update φ c p') s' := by
  refine ⟨fun d e id hd he => ?_, fun d id hd => ?_, fun d id hd => ?_, fun d => ?_,
    fun d e hne id hd he => ?_⟩
  · by_cases hdc : d = c <;> by_cases hec : e = c
    · rw [hdc, hec]
    · subst hdc
      rw [hL e hec] at he
      exact (hexcl id hd e he).symm
    · subst hec
      rw [hL d hdc] at hd
      exact hexcl id he d hd
    · rw [hL d hdc] at hd
      rw [hL e hec] at he
      exact h.exclusive d e id hd he
  · by_cases hdc : d = c
    · subst hdc
      rw [Function.update_self]
      exact howned id hd
    · rw [Function.update_of_ne hdc]
      rw [hL d hdc] at hd
      exact (h.owned d id hd).imp_left (hkept d hdc id hd).1
  · by_cases hdc : d = c
    · subst hdc
      rw [Function.update_self]
      exact hthere id hd
    · rw [Function.update_of_ne hdc]
      rw [hL d hdc] at hd
      exact (h.there d id hd).imp_left (hkept d hdc id hd).2
  · by_cases hdc : d = c
    · subst hdc
      rw [Function.update_self]
      exact hstage
    · rw [Function.update_of_ne hdc]
      have hd := h.stage d
      have hnodes := hapart d hdc
      have hold := h.apart d c hdc
      -- a node that `d` is about is not one that `c` has come to hold
      have hheld : ∀ id ∈ (φ d).nodes, (∀ e, s.localNodeId e = some id → e = d) →
          ∀ e, s'.localNodeId e = some id → e = d := by
        intro id hid hbefore e he
        by_cases hec : e = c
        · subst hec
          exact hbefore e ((hLc id he).resolve_right (hold id hid))
        · rw [hL e hec] at he
          exact hbefore e he
      have hin : ∀ id ∈ (φ d).nodes, id ∈ s.core.state.ids → id ∈ s'.core.state.ids :=
        fun id hid hs => hids id hs fun hp => hnodes id hp hid
      cases hp : φ d with
      | idle => trivial
      | leaving id => trivial
      | owning id =>
        rw [hp] at hd
        exact (hL d hdc).trans hd
      | looking did ids rest =>
        rw [hp] at hd hnodes hheld
        have hdid : "local-" ++ did ∉ p'.nodes := fun hp => hnodes _ hp List.mem_cons_self
        refine ⟨fun id hid => hd.1 id (hmatch did hdid id hid), fun id hid hrest => ?_⟩
        exact hheld id (List.mem_cons_of_mem _ hid) (hd.2 id hid hrest)
      | started id nodes =>
        rw [hp] at hd hheld hin
        exact ⟨hd.1, hin id hd.1 hd.2.1, hheld id hd.1 hd.2.2⟩
      | adopting id nodes =>
        rw [hp] at hd hin
        exact ⟨hd.1, hin id hd.1 hd.2.1, (hL d hdc).trans hd.2.2⟩
      | closing id =>
        rw [hp] at hd hold
        refine fun e he => ?_
        obtain he | hid := howners id e he
        · exact hd e he
        · exact hold id (List.mem_singleton_self _) hid
  · by_cases hdc : d = c <;> by_cases hec : e = c
    · exact hne (hdc.trans hec.symm)
    · subst hdc
      rw [Function.update_self] at hd
      rw [Function.update_of_ne hec] at he
      exact hapart e hec id hd he
    · subst hec
      rw [Function.update_self] at he
      rw [Function.update_of_ne hdc] at hd
      exact hapart d hdc id he hd
    · rw [Function.update_of_ne hdc] at hd
      rw [Function.update_of_ne hec] at he
      exact h.apart d e hne id hd he

/-- A step that leaves the sessions and the roster alone. -/
theorem OwnInv.quiet (h : OwnInv φ s) (hsame : SameSessions s s')
    (hroster : s'.core.state.roster = s.core.state.roster)
    (hunclaimed : ∀ id ∈ (φ c).unclaimed, id ∈ p'.unclaimed)
    (hdropped : ∀ id ∈ (φ c).dropped, id ∈ p'.dropped) (hstage : StageInv c p' s')
    (hapart : ∀ d, d ≠ c → ∀ id ∈ p'.nodes, id ∉ (φ d).nodes) :
    OwnInv (Function.update φ c p') s' := by
  have hids := ids_of_roster hroster
  refine h.step (fun d _ => by rw [hsame.2]) (fun id hid => .inl (hsame.2 ▸ hid))
    (fun id hid d hd => h.exclusive d c id hd (hsame.2 ▸ hid))
    (fun d _ id _ => ⟨fun ho => by rw [hsame.1, ho], fun hid => by rw [hids]; exact hid⟩)
    (fun id d ho => .inl (hsame.1 ▸ ho)) (fun id hid _ => by rw [hids]; exact hid)
    (fun did _ id hid => ?_) (fun id hid => ?_) (fun id hid => ?_) hstage hapart
  · rwa [matchingIds_eq_roster, ← hroster, ← matchingIds_eq_roster]
  · rw [hsame.2] at hid
    rw [hsame.1]
    exact (h.owned c id hid).imp_right (hunclaimed id)
  · rw [hsame.2] at hid
    rw [hids]
    exact (h.there c id hid).imp_right (hdropped id)

/-- The device and the fresh id of a start's own section. -/
def AppSect.starts : AppSect → Option (Option String × String)
  | .session (.localSessionStart _ deviceId uuid) => some (deviceId, uuid)
  | _ => none

/-- The start's own section finds the id of a new node free. -/
def FindsFree (l : AppSect) (s : AppState) : Prop :=
  ∀ a ∈ l.starts, (∃ did ∈ a.1, matchingIds did s.core.state ≠ []) ∨
    "local-" ++ a.1.getD a.2 ∉ s.core.state.ids

instance (l : AppSect) (s : AppState) : Decidable (FindsFree l s) :=
  inferInstanceAs (Decidable (∀ a ∈ l.starts, _))

theorem OwnInv.start (h : OwnInv φ s) {name : String} {deviceId : Option String} {uuid : String}
    (hsame : SameSessions s s')
    (heff : sessionEffect (φ c) (.localSessionStart name deviceId uuid) s.core.state s'.core.state)
    (hfree : (∃ did ∈ deviceId, matchingIds did s.core.state ≠ []) ∨
      "local-" ++ deviceId.getD uuid ∉ s.core.state.ids)
    (hp' : p' = stageAfterSect c (φ c) (.session (.localSessionStart name deviceId uuid)) s)
    (hapart : ∀ d, d ≠ c → ∀ id ∈ p'.nodes, id ∉ (φ d).nodes) :
    OwnInv (Function.update φ c p') s' := by
  obtain ⟨hp, hstate⟩ := heff
  -- the nodes the start is about are those of the device, and the new one
  have hnodes : ∀ did ∈ deviceId, ("local-" ++ did ∈ p'.nodes ∧
      ∀ id ∈ matchingIds did s.core.state, id ∈ p'.nodes ∧
        ∀ d, s.localNodeId d = some id → d = c) := by
    intro did hdid
    cases hdid
    obtain ⟨ids, hp⟩ := hp
    have hlook := h.stage c
    rw [hp] at hlook
    have hstarted : p' = .started (sessionNode (some did) uuid s.core.state)
        (("local-" ++ did) :: ids) := by
      rw [hp', hp]
      rfl
    rw [hstarted]
    exact ⟨List.mem_cons_self, fun id hid => ⟨List.mem_cons_of_mem _ (hlook.1 id hid),
      hlook.2 id (hlook.1 id hid) (List.not_mem_nil)⟩⟩
  have hheld : ∀ id ∈ p'.nodes, id ∉ s.core.state.ids → ∀ d, s.localNodeId d = some id → d = c := by
    intro id hid hout d hd
    by_contra hne
    obtain hin | hdrop := h.there d id hd
    · exact hout hin
    · exact hapart d hne id hid (SessionStage.nodes_of_dropped hdrop)
  have hstage : ∃ nodes, p' = .started (sessionNode deviceId uuid s.core.state) nodes := by
    cases hdev : deviceId with
    | none => exact ⟨_, by rw [hp', hdev]; rfl⟩
    | some did => exact ⟨_, by rw [hp', hdev]; rfl⟩
  have hnode : sessionNode deviceId uuid s.core.state ∈ p'.nodes ∧
      ∀ d, s.localNodeId d = some (sessionNode deviceId uuid s.core.state) → d = c := by
    cases hdev : deviceId with
    | none =>
      subst hdev
      have hin : sessionNode none uuid s.core.state ∈ p'.nodes := by
        have hidle : φ c = .idle := hp
        have hstarted : p' = .started (sessionNode none uuid s.core.state)
            [sessionNode none uuid s.core.state] := by
          rw [hp', hidle]
          rfl
        rw [hstarted]
        exact List.mem_singleton_self _
      refine ⟨hin, hheld _ hin (hfree.resolve_left ?_)⟩
      rintro ⟨_, hdid, _⟩
      cases hdid
    | some did =>
      subst hdev
      obtain ⟨hlocal, hmatch⟩ := hnodes did rfl
      cases hc : canonicalId (matchingIds did s.core.state) s.core.state with
      | some canonical =>
        rw [sessionNode, hc]
        exact hmatch canonical (canonicalId_mem hc)
      | none =>
        rw [sessionNode, hc]
        refine ⟨hlocal, hheld _ hlocal (hfree.resolve_left ?_)⟩
        rintro ⟨_, hdid, hne⟩
        cases hdid
        exact hne (canonicalId_eq_none_iff.1 hc)
  -- a node that goes is one of the device's
  have hgone : ∀ id ∈ s.core.state.ids, id ∈ s'.core.state.ids ∨
      ∃ did ∈ deviceId, id ∈ matchingIds did s.core.state := by
    intro id hid
    by_cases hself : id = sessionNode deviceId uuid s.core.state
    · rw [hself, hstate]
      exact .inl (sessionNode_mem name deviceId uuid)
    · by_cases hmatch : ∃ did ∈ deviceId, id ∈ matchingIds did s.core.state
      · exact .inr hmatch
      · obtain ⟨n, hn, rfl⟩ := mem_ids.1 hid
        rw [hstate]
        refine .inl (mem_ids.2 ⟨n, (mem_sessionStart_of_ne name deviceId uuid hself).2
          ⟨hn, fun did hdid hin => hmatch ⟨did, hdid, hin⟩⟩, rfl⟩)
  obtain ⟨nodes, hstarted⟩ := hstage
  have hempty : (φ c).unclaimed = [] ∧ (φ c).dropped = [] := by
    cases deviceId with
    | none =>
      have hidle : φ c = .idle := hp
      rw [hidle]
      exact ⟨rfl, rfl⟩
    | some did =>
      obtain ⟨ids, hp⟩ := hp
      rw [hp]
      exact ⟨rfl, rfl⟩
  refine h.step (fun d _ => by rw [hsame.2]) (fun id hid => .inl (hsame.2 ▸ hid))
    (fun id hid d hd => h.exclusive d c id hd (hsame.2 ▸ hid))
    (fun d hd id hid => ⟨fun ho => by rw [hsame.1, ho], fun hin => ?_⟩)
    (fun id d ho => .inl (hsame.1 ▸ ho)) (fun id hid hout => ?_) (fun did hout id hid => ?_)
    (fun id hid => ?_) (fun id hid => ?_) ?_ hapart
  · obtain hin | ⟨did, hdid, hmatch⟩ := hgone id hin
    · exact hin
    · exact absurd (((hnodes did hdid).2 id hmatch).2 d hid) hd
  · obtain hin | ⟨did, hdid, hmatch⟩ := hgone id hid
    · exact hin
    · exact absurd ((hnodes did hdid).2 id hmatch).1 hout
  · rw [hstate] at hid
    exact matchingIds_sessionStart_subset name uuid (fun hdid => hout (hnodes did hdid).1) hid
  · rw [hsame.2] at hid
    rw [hsame.1]
    refine (h.owned c id hid).imp_right fun hun => ?_
    rw [hempty.1] at hun
    cases hun
  · rw [hsame.2] at hid
    by_cases hin : id ∈ s.core.state.ids
    · obtain hin | ⟨did, hdid, hmatch⟩ := hgone id hin
      · exact .inl hin
      · refine .inr ?_
        have hmem := ((hnodes did hdid).2 id hmatch).1
        rw [hstarted] at hmem ⊢
        exact hmem
    · have hdrop := (h.there c id hid).resolve_left hin
      rw [hempty.2] at hdrop
      cases hdrop
  · rw [hstarted] at hnode ⊢
    refine ⟨hnode.1, ?_, fun d hd => hnode.2 d (hsame.2 ▸ hd)⟩
    rw [hstate]
    exact sessionNode_mem name deviceId uuid

/-- What a connection may do to the owner map when it lets a node go. -/
def MayRelease (c : String) (owners owners' : String → Option String) : Prop :=
  owners' = owners ∨ ∃ id, owners' = releaseLocalSessionOwner owners id c

/-- Nobody becomes an owner by that, and the others stay owners. -/
theorem MayRelease.owner {owners owners' : String → Option String} (h : MayRelease c owners owners')
    {id d : String} :
    (owners' id = some d → owners id = some d) ∧
      (d ≠ c → owners id = some d → owners' id = some d) := by
  obtain rfl | ⟨nid, rfl⟩ := h
  · exact ⟨fun ho => ho, fun _ ho => ho⟩
  · refine ⟨fun ho => ?_, fun hd ho => ?_⟩
    · unfold releaseLocalSessionOwner at ho
      split at ho
      · by_cases hid : id = nid
        · rw [hid, Function.update_self] at ho
          cases ho
        · rwa [Function.update_of_ne hid] at ho
      · exact ho
    · have hne : owners id ≠ some c := fun hc => hd (Option.some.inj (ho.symm.trans hc))
      rw [releaseLocalSessionOwner_of_ne (.inr hne), ho]

theorem mayRelease_replaceSession {id : String} :
    MayRelease c s.localSessionOwners (s.replaceSession c id).localSessionOwners := by
  simp only [AppState.replaceSession]
  cases s.localNodeId c with
  | none => exact .inl rfl
  | some old =>
    dsimp only
    split
    · exact .inr ⟨old, rfl⟩
    · exact .inl rfl

theorem OwnInv.replace (h : OwnInv φ s) {id : String} {nodes : List String}
    (hp : φ c = .started id nodes) :
    OwnInv (Function.update φ c (.adopting id nodes)) (s.replaceSession c id) := by
  have hself : (s.replaceSession c id).localNodeId c = some id := Function.update_self ..
  have hstage := h.stage c
  rw [hp] at hstage
  obtain ⟨hmem, hin, hheld⟩ := hstage
  have hid : ∀ {id'}, (s.replaceSession c id).localNodeId c = some id' → id' = id :=
    fun h' => Option.some.inj (h'.symm.trans hself)
  refine h.step (fun d hd => Function.update_of_ne hd ..) (fun id' h' => .inr ?_)
    (fun id' h' d hd => ?_)
    (fun d hd id' _ => ⟨mayRelease_replaceSession.owner.2 hd, fun hin => hin⟩)
    (fun id' d ho => .inl (mayRelease_replaceSession.owner.1 ho)) (fun _ hin _ => hin)
    (fun _ _ _ hin => hin) (fun id' h' => .inr ?_) (fun id' h' => .inl ?_) ⟨hmem, hin, hself⟩
    fun d hd => ?_
  · rw [hid h', hp]
    exact hmem
  · rw [hid h'] at hd
    exact hheld d hd
  · rw [hid h']
    exact List.mem_singleton_self _
  · rw [hid h']
    exact hin
  · have hold := h.apart c d (Ne.symm hd)
    rw [hp] at hold
    exact hold

theorem OwnInv.claim (h : OwnInv φ s) {id : String} {nodes : List String}
    (hp : φ c = .adopting id nodes) :
    OwnInv (Function.update φ c .idle) (s.claimSession c id) := by
  have hstage := h.stage c
  rw [hp] at hstage
  obtain ⟨hmem, hin, hself⟩ := hstage
  have hid : ∀ {id'}, s.localNodeId c = some id' → id' = id :=
    fun h' => Option.some.inj (h'.symm.trans hself)
  refine h.step (fun _ _ => rfl) (fun _ h' => .inl h') (fun id' h' d hd => h.exclusive d c id' hd h')
    (fun d hd id' hlocal => ⟨fun ho => ?_, fun hin => hin⟩) (fun id' d ho => ?_)
    (fun _ hin _ => hin) (fun _ _ _ hin => hin) (fun id' h' => .inl ?_) (fun id' h' => .inl ?_)
    trivial fun _ _ _ hnil => (nomatch hnil)
  · have hne : id' ≠ id := by
      rintro rfl
      exact hd (h.exclusive d c id' hlocal hself)
    exact (Function.update_of_ne hne ..).trans ho
  · by_cases hne : id' = id
    · rw [hne, hp]
      exact .inr hmem
    · exact .inl ((Function.update_of_ne hne ..).symm.trans ho)
  · rw [hid h']
    exact Function.update_self ..
  · rw [hid h']
    exact hin

/-- The connection forgets its node, whose owner it may release. -/
theorem OwnInv.forget (h : OwnInv φ s) (hcore : s'.core = s.core)
    (hlocal : s'.localNodeId = Function.update s.localNodeId c none)
    (howners : MayRelease c s.localSessionOwners s'.localSessionOwners)
    (hstage : StageInv c p' s') (hapart : ∀ d, d ≠ c → ∀ id ∈ p'.nodes, id ∉ (φ d).nodes) :
    OwnInv (Function.update φ c p') s' := by
  have hnone : ∀ {id}, s'.localNodeId c ≠ some id := by
    intro id hid
    rw [hlocal, Function.update_self] at hid
    cases hid
  refine h.step (fun d hd => by rw [hlocal, Function.update_of_ne hd]) (fun _ h' => absurd h' hnone)
    (fun _ h' => absurd h' hnone)
    (fun d hd id _ => ⟨howners.owner.2 hd, fun hin => by rw [hcore]; exact hin⟩)
    (fun id d ho => .inl (howners.owner.1 ho)) (fun _ hin _ => by rw [hcore]; exact hin)
    (fun _ _ _ hin => by rw [hcore] at hin; exact hin) (fun _ h' => absurd h' hnone)
    (fun _ h' => absurd h' hnone) hstage hapart

theorem OwnInv.stop (h : OwnInv φ s) {id : String} (hp : φ c = .owning id)
    (hsame : SameSessions s s')
    (hstate : s'.core.state.nodes = s.core.state.nodes ∨
      s'.core.state.nodes = s.core.state.nodes.filter fun n => n.id ≠ id)
    (hapart : ∀ d, d ≠ c → ∀ id' ∈ [id], id' ∉ (φ d).nodes) :
    OwnInv (Function.update φ c (.leaving id)) s' := by
  have hself : s.localNodeId c = some id := by
    have hstage := h.stage c
    rw [hp] at hstage
    exact hstage
  have hid : ∀ {id'}, s'.localNodeId c = some id' → id' = id := by
    intro id' h'
    rw [hsame.2] at h'
    exact Option.some.inj (h'.symm.trans hself)
  have hkept : ∀ id' ∈ s.core.state.ids, id' ≠ id → id' ∈ s'.core.state.ids := by
    intro id' hin hne
    obtain hn | hn := hstate
    · rwa [PlaybackState.ids, hn]
    · obtain ⟨n, hn', rfl⟩ := mem_ids.1 hin
      exact mem_ids.2 ⟨n, hn ▸ List.mem_filter.2 ⟨hn', by simpa using hne⟩, rfl⟩
  refine h.step (fun d _ => by rw [hsame.2]) (fun id' hid' => .inl (hsame.2 ▸ hid'))
    (fun id' hid' d hd => h.exclusive d c id' hd (hsame.2 ▸ hid'))
    (fun d hd id' hlocal => ⟨fun ho => by rw [hsame.1, ho], fun hin => hkept id' hin ?_⟩)
    (fun id' d ho => .inl (hsame.1 ▸ ho))
    (fun id' hin hout => hkept id' hin fun heq => hout (heq ▸ List.mem_singleton_self _))
    (fun did _ id' hin => ?_) (fun id' h' => .inr ?_) (fun id' h' => .inr ?_) trivial hapart
  · rintro rfl
    exact hd (h.exclusive d c id' hlocal hself)
  · obtain ⟨n, hn', rfl⟩ := List.mem_map.1 hin
    obtain ⟨hn', hdevice⟩ := List.mem_filter.1 hn'
    refine List.mem_map.2 ⟨n, List.mem_filter.2 ⟨?_, hdevice⟩, rfl⟩
    obtain hn | hn := hstate
    · rwa [hn] at hn'
    · rw [hn] at hn'
      exact (List.mem_filter.1 hn').1
  · rw [hid h']
    exact List.mem_singleton_self _
  · rw [hid h']
    exact List.mem_singleton_self _

/-- What a stage says is about the sessions and the roster. -/
theorem StageInv.congr {p : SessionStage} (h : StageInv c p s) (hsame : SameSessions s s')
    (hroster : s'.core.state.roster = s.core.state.roster) : StageInv c p s' := by
  have hids := ids_of_roster hroster
  cases p with
  | idle => trivial
  | leaving id => trivial
  | owning id => exact (congrFun hsame.2 c).trans h
  | looking did ids rest =>
    refine ⟨fun id hid => h.1 id ?_, fun id hid hrest d hd => h.2 id hid hrest d (hsame.2 ▸ hd)⟩
    rwa [matchingIds_eq_roster, ← hroster, ← matchingIds_eq_roster]
  | started id nodes =>
    exact ⟨h.1, by rw [hids]; exact h.2.1, fun d hd => h.2.2 d (hsame.2 ▸ hd)⟩
  | adopting id nodes => exact ⟨h.1, by rw [hids]; exact h.2.1, (congrFun hsame.2 c).trans h.2.2⟩
  | closing id => exact fun d hd => h d (hsame.1 ▸ hd)

/-- A section that is none of the session commands'. -/
theorem OwnInv.same (h : OwnInv φ s) (hsame : SameSessions s s')
    (hroster : s'.core.state.roster = s.core.state.roster) :
    OwnInv (Function.update φ c (φ c)) s' :=
  h.quiet hsame hroster (fun _ hid => hid) (fun _ hid => hid) ((h.stage c).congr hsame hroster)
    fun d hd => h.apart c d (Ne.symm hd)

/-- A section that a session command leaves the sessions and the roster with, for a stage in which it
holds nothing. -/
theorem OwnInv.enter (h : OwnInv φ s) (hun : (φ c).unclaimed = []) (hdrop : (φ c).dropped = [])
    (hsame : SameSessions s s') (hroster : s'.core.state.roster = s.core.state.roster)
    (hstage : StageInv c p' s') (hapart : ∀ d, d ≠ c → ∀ id ∈ p'.nodes, id ∉ (φ d).nodes) :
    OwnInv (Function.update φ c p') s' :=
  h.quiet hsame hroster (fun id hid => by rw [hun] at hid; cases hid)
    (fun id hid => by rw [hdrop] at hid; cases hid) hstage hapart

theorem StageInv.nodes_of_unclaimed {p : SessionStage} (h : StageInv c p s) {id : String}
    (hid : id ∈ p.unclaimed) : id ∈ p.nodes := by
  cases p with
  | adopting nodeId nodes =>
    rw [List.mem_singleton.1 hid]
    exact h.1
  | leaving nodeId => exact hid
  | _ => cases hid

/-- A look at the owner of one node, which is that of the connection or ends the command. -/
theorem OwnInv.findOwner (h : OwnInv φ s) {id did : String} {ids rest : List String}
    (hp : φ c = .looking did ids (id :: rest)) :
    OwnInv (Function.update φ c
      (if (s.localSessionOwners id).any (· ≠ c) then .idle else .looking did ids rest)) s := by
  have hstage := h.stage c
  have hold : ∀ d, d ≠ c → ∀ id ∈ (φ c).nodes, id ∉ (φ d).nodes :=
    fun d hd => h.apart c d (Ne.symm hd)
  rw [hp] at hstage hold
  have hun : (φ c).unclaimed = [] ∧ (φ c).dropped = [] := by
    rw [hp]
    exact ⟨rfl, rfl⟩
  split
  · exact h.enter hun.1 hun.2 ⟨rfl, rfl⟩ rfl trivial fun _ _ _ hnil => (nomatch hnil)
  · rename_i hmine
    refine h.enter hun.1 hun.2 ⟨rfl, rfl⟩ rfl ⟨hstage.1, fun id' hid' hrest d hd => ?_⟩ hold
    by_cases heq : id' = id
    · subst heq
      by_contra hne
      obtain ho | hin := h.owned d id' hd
      · exact hmine (by simpa [ho] using hne)
      · exact hold d hne id' (List.mem_cons_of_mem _ hid') ((h.stage d).nodes_of_unclaimed hin)
    · exact hstage.2 id' hid' (by simp [heq, hrest]) d hd

theorem roster_modifyNode_if {id : String} {f : Node → Node} (hf : ∀ n, (f n).badge = n.badge)
    (st : PlaybackState) :
    (if st.FindsLocal id then st.modifyNode id f else st).roster = st.roster := by
  split
  · exact roster_modifyNode fun n _ => hf n
  · rfl

/-- Every section keeps the invariant. -/
theorem OwnInv.sect (h : OwnInv φ s) {l : AppSect} (hok : appEffect c (φ c) l s s')
    (hfree : FindsFree l s)
    (hapart : ∀ d, d ≠ c → ∀ id ∈ (stageAfterSect c (φ c) l s).nodes, id ∉ (φ d).nodes) :
    OwnInv (Function.update φ c (stageAfterSect c (φ c) l s)) s' := by
  cases l with
  | guardSelected => cases hok; exact h.same ⟨rfl, rfl⟩ rfl
  | guardType => cases hok; exact h.same ⟨rfl, rfl⟩ rfl
  | core op l => exact h.same hok.1 hok.2.1
  | sameDevice did =>
    obtain ⟨hp, rfl⟩ := hok
    exact h.enter (by rw [hp]; rfl) (by rw [hp]; rfl) ⟨rfl, rfl⟩ rfl
      ⟨fun _ hid => hid, fun id hid hrest => absurd hid hrest⟩ hapart
  | findOwner id =>
    obtain ⟨⟨did, ids, rest, hp⟩, rfl⟩ := hok
    have hstep := h.findOwner hp
    have hafter : stageAfterSect c (φ c) (.findOwner id) s' =
        if (s'.localSessionOwners id).any (· ≠ c) then .idle else .looking did ids rest := by
      rw [hp]
      rfl
    rwa [hafter]
  | checkOwner =>
    obtain ⟨hp, rfl | ⟨hnone, rfl⟩⟩ := hok
    · refine h.enter (by rw [hp]; rfl) (by rw [hp]; rfl) ⟨rfl, rfl⟩ rfl ?_ hapart
      simp only [stageAfterSect]
      cases hl : s'.localNodeId c with
      | none => trivial
      | some nid =>
        dsimp only
        split
        · exact hl
        · trivial
    · have hidle : stageAfterSect c (φ c) .checkOwner s = .idle := by
        simp only [stageAfterSect]
        cases hl : s.localNodeId c with
        | none => rfl
        | some nid => exact if_neg (hnone nid hl)
      rw [hidle] at hapart ⊢
      exact h.forget rfl rfl (.inl rfl) trivial hapart
  | replace id =>
    obtain ⟨⟨nodes, hp⟩, rfl⟩ := hok
    have hafter : stageAfterSect c (φ c) (.replace id) s = .adopting id nodes := by
      rw [hp]
      rfl
    rw [hafter]
    exact h.replace hp
  | claim id =>
    obtain ⟨⟨nodes, hp⟩, rfl⟩ := hok
    exact h.claim hp
  | release id =>
    obtain ⟨hp, rfl⟩ := hok
    exact h.forget rfl rfl (.inr ⟨id, rfl⟩) trivial hapart
  | close =>
    obtain ⟨hp, hs'⟩ := hok
    simp only [stageAfterSect] at hapart ⊢
    cases hl : s.localNodeId c with
    | none =>
      rw [hl] at hs'
      cases hs'
      exact h.enter (by rw [hp]; rfl) (by rw [hp]; rfl) ⟨rfl, rfl⟩ rfl trivial
        fun _ _ _ hnil => (nomatch hnil)
    | some nid =>
      rw [hl] at hs' hapart
      cases hs'
      refine h.forget rfl rfl (.inr ⟨nid, rfl⟩) (fun d hd => ?_) hapart
      -- the connection owned the node, so that nobody does now
      have howner : s.localSessionOwners nid = some c := by
        refine (h.owned c nid hl).resolve_right fun hin => ?_
        rw [hp] at hin
        cases hin
      have hnone : (s.releaseSession c nid).localSessionOwners nid = none := by
        simp only [AppState.releaseSession, releaseLocalSessionOwner, howner, if_true,
          Function.update_self]
      rw [hnone] at hd
      cases hd
  | session op =>
    obtain ⟨hsame, heff⟩ := hok
    cases op with
    | localSessionStart name deviceId uuid => exact h.start hsame heff (hfree _ rfl) rfl hapart
    | localSessionStop id =>
      obtain ⟨hp, hstate⟩ := heff
      refine h.stop hp hsame ?_ hapart
      split at hstate
      · exact .inr (by rw [hstate, stopSection_nodes])
      · exact .inl (by rw [hstate])
    | localSessionUpdate id u =>
      obtain ⟨hp, hstate⟩ := heff
      refine h.enter (by rw [hp]; rfl) (by rw [hp]; rfl) hsame ?_ ?_ hapart
      · rw [hstate]
        exact roster_modifyNode_if (fun _ => by rfl) _
      · simp only [stageAfterSect]
        split <;> trivial
    | localSessionDisconnect id now =>
      obtain ⟨hp, hstate⟩ := heff
      refine h.enter (by rw [hp]; rfl) (by rw [hp]; rfl) hsame ?_ trivial hapart
      rw [hstate]
      exact roster_modifyNode_if (fun _ => by rfl) _
    | _ => exact heff.elim

end Steps

/-! ## Interleavings -/

/-- The stages of all connections after a history. -/
def stages (h : List AppEntry) : String → SessionStage :=
  Pool.phases appProtocol (fun _ => .idle) h

/-- What a step has to meet: the nodes it leaves its connection with are not another connection's
too, and a new node finds its id free. -/
def NoOverlap (h : List AppEntry) (e : AppEntry) : Prop :=
  (∀ a ∈ h, a.who ≠ e.who → ∀ id ∈ (stages (e :: h) e.who).nodes, id ∉ (stages h a.who).nodes) ∧
    match e.act with
    | .sect l => FindsFree l e.pre
    | .call _ _ => True

instance (h : List AppEntry) (e : AppEntry) : Decidable (NoOverlap h e) :=
  have : Decidable (match e.act with
      | .sect l => FindsFree l e.pre
      | .call _ _ => True) :=
    match e.act with
    | .sect l => inferInstanceAs (Decidable (FindsFree l e.pre))
    | .call _ _ => .isTrue trivial
  inferInstanceAs (Decidable (_ ∧ _))

/-- The sections of a stop, an update or a close. -/
def AppSect.endsSession : AppSect → Bool
  | .core op _ | .session op =>
    match op with
    | .localSessionStop _ | .localSessionUpdate _ _ | .localSessionDisconnect _ _ => true
    | _ => false
  | .checkOwner | .release _ | .close => true
  | _ => false

/-- A stop, an update or a close leaves the nodes that others have claimed alone. -/
def SparesClaimed (e : AppEntry) : Prop :=
  ∀ l, e.act = .sect l → l.endsSession = true → ∀ id owner, owner ≠ e.who →
    e.pre.localSessionOwners id = some owner →
      (e.post.core.state.nodes.filter fun n => n.id = id) =
        e.pre.core.state.nodes.filter fun n => n.id = id

section Interleaving

variable {core : Core} {commands : String → List WsCommand} {now : String → Int}
  {h : List AppEntry} {p : AppPool}

theorem stages_of_silent {d : String} (hd : ∀ a ∈ h, a.who ≠ d) : stages h d = .idle := by
  induction h with
  | nil => rfl
  | cons e h ih =>
    have hne : e.who ≠ d := hd e List.mem_cons_self
    have hrest := ih fun a ha => hd a (List.mem_cons_of_mem _ ha)
    unfold stages Pool.phases at hrest ⊢
    rw [Pool.phase, if_neg hne]
    exact hrest

theorem ownInv_new (core : Core) : OwnInv (stages []) (AppState.new core) where
  exclusive _ _ _ hlocal := nomatch hlocal
  owned _ _ hlocal := nomatch hlocal
  there _ _ hlocal := nomatch hlocal
  stage _ := trivial
  apart _ _ _ _ hid := nomatch hid

theorem filter_modifyNode_of_ne {id nid : String} {f : Node → Node} (hf : ∀ n, (f n).id = n.id)
    (hne : id ≠ nid) (ns : List Node) :
    ((modifyNode nid f ns).filter fun n => n.id = id) = ns.filter fun n => n.id = id := by
  induction ns with
  | nil => rfl
  | cons n ns ih =>
    by_cases hn : n.id = nid
    · have hout : (f n).id ≠ id := by
        rw [hf, hn]
        exact Ne.symm hne
      simp [modifyNode, hn, hout, Ne.symm hne]
    · simp only [modifyNode, hn, if_false, List.filter_cons, ih]

/-- A section of a stop, an update or a close, at a stage with the invariant. -/
theorem OwnInv.spares {φ : String → SessionStage} {s s' : AppState} {c : String}
    (h : OwnInv φ s) {l : AppSect} (hok : appEffect c (φ c) l s s') (hl : l.endsSession = true)
    {id owner : String} (hne : owner ≠ c) (howner : s.localSessionOwners id = some owner) :
    (s'.core.state.nodes.filter fun n => n.id = id) =
      s.core.state.nodes.filter fun n => n.id = id := by
  have hsame : s'.core.state.nodes = s.core.state.nodes →
      (s'.core.state.nodes.filter fun n => n.id = id) =
        s.core.state.nodes.filter fun n => n.id = id := fun heq => by rw [heq]
  -- the node a stop or an update is about is the connection's
  have howning : ∀ nid, φ c = .owning nid → id ≠ nid := by
    rintro nid hp rfl
    have hlocal := h.stage c
    rw [hp] at hlocal
    have hmine := (h.owned c id hlocal).resolve_right (by rw [hp]; exact List.not_mem_nil)
    exact hne (Option.some.inj (howner.symm.trans hmine))
  cases l with
  | core op l =>
    refine hsame (hok.2.2 ?_)
    cases op with
    | localSessionStop nid => exact ⟨nid, .inl rfl⟩
    | localSessionUpdate nid u => exact ⟨nid, .inr (.inl ⟨u, rfl⟩)⟩
    | localSessionDisconnect nid now => exact ⟨nid, .inr (.inr ⟨now, rfl⟩)⟩
    | _ => cases hl
  | session op =>
    obtain ⟨-, heff⟩ := hok
    cases op with
    | localSessionStop nid =>
      obtain ⟨hp, hstate⟩ := heff
      split at hstate
      · rw [hstate, stopSection_nodes, List.filter_filter]
        refine List.filter_congr fun n _ => ?_
        have hout := howning nid hp
        by_cases hn : n.id = id <;> simp [hn, hout]
      · exact hsame (by rw [hstate])
    | localSessionUpdate nid u =>
      obtain ⟨hp, hstate⟩ := heff
      split at hstate
      · rw [hstate]
        exact filter_modifyNode_of_ne (fun _ => by rfl) (howning nid hp) _
      · exact hsame (by rw [hstate])
    | localSessionDisconnect nid now =>
      obtain ⟨hp, hstate⟩ := heff
      have hclosing := h.stage c
      rw [hp] at hclosing
      have hout : id ≠ nid := by
        rintro rfl
        exact hclosing owner howner
      split at hstate
      · rw [hstate]
        exact filter_modifyNode_of_ne (fun _ => by rfl) hout _
      · exact hsame (by rw [hstate])
    | _ => cases hl
  | checkOwner =>
    obtain ⟨-, rfl | ⟨-, rfl⟩⟩ := hok <;> rfl
  | release nid =>
    obtain ⟨-, rfl⟩ := hok
    rfl
  | close =>
    obtain ⟨-, hs'⟩ := hok
    refine hsame ?_
    rw [hs']
    split <;> rfl
  | _ => cases hl

/-- Ownership is exclusive in every interleaving of any number of connections, whatever commands they
send, whose session commands and closes do not overlap on a node. -/
theorem exclusive_of_noOverlap (hr : Pool.Interleaving (appPool core commands now) h p)
    (hapart : Pool.Met NoOverlap h) : Exclusive p.shared ∧ ∀ e ∈ h, SparesClaimed e := by
  have hrun : Pool.Run NoOverlap (appPool core commands now) h p := Pool.run_iff.2 ⟨hr, hapart⟩
  have ht : ∀ c, ((appPool core commands now).task c).Follows (appProtocol c)
      (fun p' _ => p' = .idle) SessionStage.idle :=
    fun c => follows_serveConnection (now c) (commands c)
  obtain ⟨hinv, -, hall⟩ := Pool.Run.invariant (P := appProtocol)
    (J := fun h s => OwnInv (stages h) s) (ownInv_new core) ht (fun _ _ _ _ _ => trivial)
    (fun h c l s s' hinv hok hstep => by
      have hafter : stages (⟨c, .sect l, s, s'⟩ :: h) =
          Function.update (stages h) c (stageAfterSect c (stages h c) l s) :=
        Pool.phases_sect _ h c l s s'
      obtain ⟨hdisjoint, hfree⟩ := hstep
      dsimp only at hdisjoint
      rw [hafter] at hdisjoint ⊢
      rw [Function.update_self] at hdisjoint
      refine hinv.sect hok hfree fun d hd id hid => ?_
      by_cases hseen : ∃ a ∈ h, a.who = d
      · obtain ⟨a, ha, rfl⟩ := hseen
        exact hdisjoint a ha hd id hid
      · rw [stages_of_silent fun a ha had => hseen ⟨a, ha, had⟩]
        exact List.not_mem_nil)
    (fun h c call r s hinv _ _ => by
      have hafter : stages (⟨c, .call call r, s, s⟩ :: h) = stages h :=
        (Pool.phases_call h c call r s s).trans (Function.update_eq_self c _)
      rwa [hafter])
    hrun
  refine ⟨hinv.exclusive, fun e he l hl hends id owner hne howner => ?_⟩
  obtain ⟨h₂, h₁, rfl⟩ := List.append_of_mem he
  obtain ⟨hpre, hok⟩ := hall h₂ e h₁ rfl
  exact hpre.spares (hok l hl) hends hne howner

end Interleaving

/-- Connections `1` and `2` each start a session, for the devices `did` and `did'`. -/
def startingPhones (did did' : String) : AppPool :=
  appPool (Core.new (fun _ => none) [] [])
    (fun c =>
      if c = "1" then [.localSessionStart "phone" (some did) ""]
      else if c = "2" then [.localSessionStart "phone" (some did') ""]
      else [])
    fun _ => 5

/-- Both look for a conflicting owner before either starts. -/
def bothLook : List (String × Except CoreError Unit) :=
  turns "1" 1 ++ turns "2" 1 ++ turns "1" 5 ++ turns "2" 7

/-- `1` closes, and `2` starts between its release and its disconnect. -/
def startInClose : List (String × Except CoreError Unit) :=
  turns "1" 7 ++ turns "2" 9 ++ turns "1" 1

theorem exclusive_of_noOverlap_bothLook :
    Exclusive (Pool.exec bothLook ([], startingPhones "x" "y")).2.shared ∧
      ∀ e ∈ (Pool.exec bothLook ([], startingPhones "x" "y")).1, SparesClaimed e :=
  exclusive_of_noOverlap (Pool.exec_run bothLook .init) (by decide)

/-- For one device, both hold the node; and a close disconnects the node that the start in its middle
has claimed. -/
theorem bothLook_not_exclusive :
    ¬ Exclusive (Pool.exec bothLook ([], startingPhones "x" "x")).2.shared ∧
      ¬ ∀ e ∈ (Pool.exec startInClose ([], startingPhones "x" "x")).1, SparesClaimed e := by
  constructor
  · intro h
    have hsame : "1" = "2" := h "1" "2" "local-x" (by decide) (by decide)
    exact absurd hsame (by decide)
  · intro h
    obtain ⟨e, he, hwho, hact, howner, hnodes⟩ :
        ∃ e ∈ (Pool.exec startInClose ([], startingPhones "x" "x")).1, e.who = "1" ∧
          e.act = .sect (.session (.localSessionDisconnect "local-x" 5)) ∧
          e.pre.localSessionOwners "local-x" = some "2" ∧
          ¬ (e.post.core.state.nodes.filter fun n => n.id = "local-x") =
            e.pre.core.state.nodes.filter fun n => n.id = "local-x" := by decide
    exact hnodes (h e he _ hact rfl "local-x" "2" (by rw [hwho]; decide) howner)

end Kanade

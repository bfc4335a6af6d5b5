import Kanade.Concur.Lift
import Kanade.Core.Runs

/-!
# Kanade.Ws.Dispatch

UI connections: `dispatch_command` and the end of `run_ui_mode` in `server.rs`.

An `AppState` is what the connections share, the core and the owners of local sessions, together
with the one variable of each connection that outlives a command, its `local_node_id`. A command is
a task over it. The owner map has a lock of its own, so that looking an owner up, claiming and
releasing are sections of their own; what a connection does to its `local_node_id` belongs to the
section next to it.

Playlist commands and requests, which go to the database only, are left out.
-/

namespace Kanade

open Concur Fallible

/-- The core, `local_session_owners` and the `local_node_id` of each connection. Connections are
named by their media key. -/
structure AppState where
  core : Core
  localSessionOwners : String → Option String
  localNodeId : String → Option String

/-- The core of the application, as it starts: no session is owned. -/
def AppState.new (core : Core) : AppState := ⟨core, fun _ => none, fun _ => none⟩

/-- The core as a component. -/
def coreLens : Lens AppState Core where
  get s := s.core
  set core s := { s with core := core }
  get_set _ _ := rfl
  set_get _ := rfl
  set_set _ _ _ := rfl

/-- Which critical section a step of a connection is: `guardSelected` and `guardType` are the two
reads of the guard, `core op l` is a section of an operation of the core and `session op` the first
one of a `local_session_*` operation; the others are those of the session commands. -/
inductive AppSect where
  | guardSelected
  | guardType
  | core (op : CoreOp) (l : Sect)
  | session (op : CoreOp)
  | sameDevice (deviceId : String)
  | findOwner (nodeId : String)
  | checkOwner
  | replace (nodeId : String)
  | claim (nodeId : String)
  | release (nodeId : String)
  | close
deriving DecidableEq, Repr

abbrev AppOp (α : Type) : Type := Fallible AppState AppSect CoreCall CoreError α

/-- An operation of the core, or a part of one. -/
def inApp {α : Type} (op : CoreOp) (t : Op α) : AppOp α := t.lift coreLens (.core op)

/-- A `local_session_*` operation. -/
def inSession {α : Type} (op : CoreOp) (t : Op α) : AppOp α := (inApp op t).headed (.session op)

/-- A section that cannot fail. -/
def appSect {α : Type} (lab : AppSect) (f : AppState → α × AppState) : AppOp α :=
  sect (fun _ _ => lab) fun s => (.ok (f s).1, (f s).2)

/-! ## The owner map -/

def claimLocalSessionOwner (owners : String → Option String) (nodeId connectionId : String) :
    String → Option String :=
  Function.update owners nodeId (some connectionId)

def releaseLocalSessionOwner (owners : String → Option String) (nodeId connectionId : String) :
    String → Option String :=
  if owners nodeId = some connectionId then Function.update owners nodeId none else owners

/-- `conflicting_owner`: the first of the nodes with an owner other than the connection. -/
def conflictAmong (connectionId : String) : List String → AppOp Bool
  | [] => pure false
  | id :: ids => do
    let owner ← appSect (.findOwner id) fun s => (s.localSessionOwners id, s)
    if owner.any (· ≠ connectionId) then pure true else conflictAmong connectionId ids

/-- `LocalSessionStop` and `LocalSessionUpdate` begin with this: the connection's local node, when
it is its owner. A connection that is not forgets the node. -/
def checkOwner (connectionId : String) : AppOp (Option String) :=
  appSect .checkOwner fun s =>
    match s.localNodeId connectionId with
    | none => (none, s)
    | some nid =>
      if s.localSessionOwners nid = some connectionId then (some nid, s)
      else (none, { s with localNodeId := Function.update s.localNodeId connectionId none })

/-- The owner entry is released and the node forgotten. -/
def AppState.releaseSession (s : AppState) (connectionId nodeId : String) : AppState :=
  { s with
    localSessionOwners := releaseLocalSessionOwner s.localSessionOwners nodeId connectionId
    localNodeId := Function.update s.localNodeId connectionId none }

def releaseAndForget (connectionId nodeId : String) : AppOp Unit :=
  appSect (.release nodeId) fun s => ((), s.releaseSession connectionId nodeId)

/-- `local_node_id` is replaced, and another node it held released. -/
def AppState.replaceSession (s : AppState) (connectionId nodeId : String) : AppState :=
  { s with
    localSessionOwners :=
      match s.localNodeId connectionId with
      | some oldNodeId =>
        if oldNodeId ≠ nodeId then
          releaseLocalSessionOwner s.localSessionOwners oldNodeId connectionId
        else s.localSessionOwners
      | none => s.localSessionOwners
    localNodeId := Function.update s.localNodeId connectionId (some nodeId) }

def AppState.claimSession (s : AppState) (connectionId nodeId : String) : AppState :=
  { s with localSessionOwners := claimLocalSessionOwner s.localSessionOwners nodeId connectionId }

/-- A started session becomes the connection's. -/
def adoptSession (connectionId nodeId : String) : AppOp Unit := do
  appSect (.replace nodeId) fun s => ((), s.replaceSession connectionId nodeId)
  appSect (.claim nodeId) fun s => ((), s.claimSession connectionId nodeId)

/-! ## Commands -/

/-- `WsCommand`. `uuid` is the fresh id for a session without a device. -/
inductive WsCommand where
  | play
  | pause
  | stop
  | next
  | previous
  | seek (positionSecs : ℚ)
  | setVolume (volume : UInt8)
  | setRepeat (repeatMode : RepeatMode)
  | setShuffle (shuffle : Bool)
  | selectNode (nodeId : String)
  | addToQueue (track : Track)
  | addTracksToQueue (tracks : List Track)
  | playIndex (index : Nat)
  | removeFromQueue (index : Nat)
  | moveInQueue (src dst : Nat)
  | clearQueue
  | replaceAndPlay (tracks : List Track) (index : Nat)
  | localSessionStart (deviceName : String) (deviceId : Option String) (uuid : String)
  | localSessionStop
  | localSessionUpdate (update : SessionUpdate)
  | handoff (fromNodeId toNodeId : String)
deriving DecidableEq, Repr

/-- `is_queue_op`. -/
def WsCommand.isQueueOp : WsCommand → Bool
  | .play | .pause | .stop | .next | .previous | .seek _ | .setVolume _ | .setRepeat _
  | .setShuffle _ | .addToQueue _ | .addTracksToQueue _ | .playIndex _ | .removeFromQueue _
  | .moveInQueue _ _ | .clearQueue | .replaceAndPlay _ _ => true
  | _ => false

/-- The guard: false when the selected node is a local node other than the connection's. -/
def guardPasses (connectionId : String) : AppOp Bool := do
  let selId ← appSect .guardSelected fun s => (s.core.state.selectedNodeId, s)
  match selId with
  | none => pure true
  | some sel =>
    appSect .guardType fun s =>
      (¬ ((s.core.state.node sel).any (fun n => n.nodeType = .localNode) ∧
        s.localNodeId connectionId ≠ some sel), s)

def runCore (op : CoreOp) : AppOp Unit := inApp op op.task

def runSession (op : CoreOp) : AppOp Unit := inSession op op.task

def startLocalSession (connectionId deviceName : String) (deviceId : Option String)
    (uuid : String) : AppOp Unit := do
  let nodeId ← inSession (.localSessionStart deviceName deviceId uuid)
    (localSessionStart deviceName deviceId uuid)
  adoptSession connectionId nodeId

def dispatchLocalSessionStart (connectionId deviceName : String) (deviceId : Option String)
    (uuid : String) : AppOp Unit :=
  match deviceId with
  | some did => do
    let ids ← appSect (.sameDevice did) fun s => (matchingIds did s.core.state, s)
    if ← conflictAmong connectionId ids then
      throw (.internal "local session already owned by another connection")
    else startLocalSession connectionId deviceName (some did) uuid
  | none => startLocalSession connectionId deviceName none uuid

def dispatchLocalSessionStop (connectionId : String) : AppOp Unit := do
  match ← checkOwner connectionId with
  | some nid => do
    let _ ← (runSession (.localSessionStop nid)).attempt
    releaseAndForget connectionId nid
  | none => pure ()

def dispatchLocalSessionUpdate (connectionId : String) (update : SessionUpdate) : AppOp Unit := do
  match ← checkOwner connectionId with
  | some nid => do
    match ← (runSession (.localSessionUpdate nid update)).attempt with
    | .error .localSessionNotFound => releaseAndForget connectionId nid
    | _ => pure ()
  | none => pure ()

/-- The command proper, after the guard. -/
def executeCommand (connectionId : String) : WsCommand → AppOp Unit
  | .play => runCore .play
  | .pause => runCore .pause
  | .stop => runCore .stop
  | .next => runCore .next
  | .previous => runCore .previous
  | .seek positionSecs => runCore (.seek positionSecs)
  | .setVolume volume => runCore (.setVolume volume)
  | .setRepeat repeatMode => runCore (.setRepeat repeatMode)
  | .setShuffle shuffle => runCore (.setShuffle shuffle)
  | .selectNode nodeId => runCore (.selectNode nodeId)
  | .addToQueue track => runCore (.addToQueue track)
  | .addTracksToQueue tracks => runCore (.addTracksToQueue tracks)
  | .playIndex index => runCore (.playIndex index)
  | .removeFromQueue index => runCore (.removeFromQueue index)
  | .moveInQueue src dst => runCore (.moveInQueue src dst)
  | .clearQueue => runCore .clearQueue
  | .replaceAndPlay tracks index => runCore (.setQueue tracks (some index))
  | .localSessionStart deviceName deviceId uuid =>
    dispatchLocalSessionStart connectionId deviceName deviceId uuid
  | .localSessionStop => dispatchLocalSessionStop connectionId
  | .localSessionUpdate update => dispatchLocalSessionUpdate connectionId update
  | .handoff fromNodeId toNodeId => do
    let _ ← (runCore (.handoff fromNodeId toNodeId)).attempt
    pure ()

def dispatchCommand (connectionId : String) (cmd : WsCommand) : AppOp Unit := do
  if cmd.isQueueOp then
    if ← guardPasses connectionId then executeCommand connectionId cmd else pure ()
  else executeCommand connectionId cmd

/-- What `run_ui_mode` does when its loop is over; `now` is the clock. -/
def closeConnection (connectionId : String) (now : Int) : AppOp Unit := do
  let localNodeId ← appSect .close fun s =>
    match s.localNodeId connectionId with
    | none => (none, s)
    | some nid => (some nid, s.releaseSession connectionId nid)
  match localNodeId with
  | some nid => do
    let _ ← (runSession (.localSessionDisconnect nid now)).attempt
    pure ()
  | none => pure ()

/-- A connection: its commands one after the other, errors being logged, and its end. -/
def serveConnection (connectionId : String) (now : Int) : List WsCommand → AppOp Unit
  | [] => closeConnection connectionId now
  | cmd :: cmds => do
    let _ ← (dispatchCommand connectionId cmd).attempt
    serveConnection connectionId now cmds

/-! ## Connections side by side -/

abbrev AppPool : Type :=
  Pool String AppState AppSect CoreCall (Except CoreError Unit) (Except CoreError Unit)

abbrev AppEntry : Type := Entry String AppState AppSect CoreCall (Except CoreError Unit)

/-- Every connection with its commands; one without any just closes. -/
def appPool (core : Core) (commands : String → List WsCommand) (now : String → Int) : AppPool :=
  ⟨AppState.new core, fun c => serveConnection c (now c) (commands c)⟩

/-- The next steps of a connection. -/
def turns (c : String) (n : Nat) : List (String × Except CoreError Unit) :=
  List.replicate n (c, .ok ())

/-! ## Running the pieces alone -/

section Run

variable {η α : Type} (env : Outputs η) (s : AppState) (x : η)

@[simp] theorem run_appSect (lab : AppSect) (f : AppState → α × AppState) :
    (appSect lab f).run env s x = (.ok (f s).1, (f s).2, x) := rfl

@[simp] theorem run_inApp (op : CoreOp) (t : Op α) :
    (inApp op t).run env s x =
      ((t.run env s.core x).1, { s with core := (t.run env s.core x).2.1 },
        (t.run env s.core x).2.2) := Fallible.run_lift coreLens (AppSect.core op) env t s x

@[simp] theorem run_inSession (op : CoreOp) (t : Op α) :
    (inSession op t).run env s x =
      ((t.run env s.core x).1, { s with core := (t.run env s.core x).2.1 },
        (t.run env s.core x).2.2) := by
  rw [inSession, Fallible.run_headed, run_inApp]

theorem run_conflictAmong (c : String) (ids : List String) :
    (conflictAmong c ids).run env s x =
      (.ok (ids.any fun id => (s.localSessionOwners id).any (· ≠ c)), s, x) := by
  induction ids with
  | nil => rfl
  | cons id ids ih =>
    rw [conflictAmong, Fallible.run_bind, run_appSect]
    dsimp only
    split
    · rename_i h
      rw [List.any_cons, h]
      rfl
    · rename_i h
      rw [ih, List.any_cons, Bool.eq_false_iff.2 h, Bool.false_or]

theorem run_adoptSession (c nodeId : String) :
    (adoptSession c nodeId).run env s x =
      (.ok (), (s.replaceSession c nodeId).claimSession c nodeId, x) := rfl

end Run

/-! ## The pieces in the program logic -/

section Follows

variable {φ α β : Type} {P : Protocol AppState AppSect CoreCall (Except CoreError Unit) φ}
  {op : CoreOp} {p : φ}

theorem follows_appSect {Q : φ → Except CoreError α → Prop} {lab : AppSect}
    {f : AppState → α × AppState} :
    Follows P Q p (appSect lab f) ↔ ∀ s, P.rely p lab s →
      P.sectOk p lab s (f s).2 ∧ Q (P.onSect p lab s (f s).2) (.ok (f s).1) := Iff.rfl

/-- A part of an operation of the core whose sections stay in `R`, in a protocol that asks no more of
such sections and keeps `I` over them. -/
theorem follows_inApp {I : φ → Prop} {R : Core → Core → Prop} {t : Op α}
    {Q : Unit → Except CoreError α → Prop}
    (h : Follows (Protocol.within (fun _ => True) R) Q () t)
    (hsect : ∀ p l s core, I p → R s.core core →
      P.sectOk p (.core op l) s { s with core := core } ∧
        I (P.onSect p (.core op l) s { s with core := core }))
    (hcall : ∀ p c, I p → P.callOk p c ∧ ∀ r, I (P.onCall p c r)) (hp : I p) :
    Follows P (fun p' r => I p' ∧ Q () r) p (inApp op t) :=
  (Task.Follows.lift (T := fun _ p' => I p') (fun _ _ _ _ _ _ => trivial)
    (fun _ p' l s core hI _ hR => hsect p' l s core hI hR) (fun _ p' c hI _ => hcall p' c hI) hp
    h).mono fun _ _ ⟨_, hrel, hQ⟩ => ⟨hrel, hQ⟩

/-- A session operation: its first section is judged by itself. -/
theorem follows_inSession {Q : φ → Except CoreError β → Prop}
    {lab : Core → Except CoreError α → Sect} {f : Core → Except CoreError α × Core}
    {k : α → Op β}
    (hfirst : ∀ s, P.rely p (.session op) s →
      P.sectOk p (.session op) s { s with core := (f s.core).2 } ∧
        match (f s.core).1 with
        | .ok a => Follows P Q (P.onSect p (.session op) s { s with core := (f s.core).2 })
            (inApp op (k a))
        | .error e =>
          Q (P.onSect p (.session op) s { s with core := (f s.core).2 }) (.error e)) :
    Follows P Q p (inSession op (sect lab f >>= k)) := by
  rw [inSession, inApp, lift_bind]
  refine (follows_bind (sect (fun (_ : AppState) _ => AppSect.session op)
    fun s => ((f s.core).1, { s with core := (f s.core).2 })) _).2 (follows_sect.2 fun s hs => ?_)
  obtain ⟨hok, hrest⟩ := hfirst s hs
  refine ⟨hok, ?_⟩
  dsimp only
  cases hres : (f s.core).1 <;>
    · rw [hres] at hrest
      exact hrest

end Follows

end Kanade

import Kanade.Wire.NodeMessages
import Kanade.Ws.FirstMessage
import Kanade.Ws.MediaKeys

/-!
# Kanade.Node.Session

Sessions of nodes with the server: what `run_node_mode` writes on a connection, what `run_session` of
`kanade-node` makes of it, and the keys that the proxy of the node signs with.

The server and its keys are those of `KeyServer`. A node reads the texts of its connection at its own pace,
hangs up at any time and connects anew, and its proxy goes on with what it has.

`LogWritten` is what holds of what the server has written, `FollowsLine` of a node that has read a part of it.
`session_follows`: a node does what was written to it, in order, and what its proxy signs is accepted exactly
as long as the key that it read last is stored.
-/

namespace Kanade

open Concur Serde Wire

/-! ## The node -/

def parseMediaAuth (ack : NodeRegistrationAck) : Option (String × MediaKey) := do
  let keyId ← ack.mediaAuthKeyId
  let keyHex ← ack.mediaAuthKey
  let keyBytes ← Hex.decode keyHex
  if h : keyBytes.length = 32 then some (keyId, ⟨keyBytes.toArray, h⟩) else none

/-- `MediaProxy::update`. -/
def ProxyState.update (proxy : Option ProxyState) (kanadeBaseUrl : String) (auth : Option (String × MediaKey)) :
    ProxyState where
  kanadeBaseUrl := kanadeBaseUrl
  auth := auth
  generation := proxy.elim 1 fun st => saturatingAdd st.generation 1

/-- A call of `run_session` on a connection. -/
structure NodeSession where
  connection : Nat
  /-- How many messages of the connection it has read. -/
  read : Nat
  /-- `node_id`, when the handshake is over. -/
  nodeId : Option String
  /-- The commands that were given to `execute_command`. -/
  executed : List NodeCommand

/-- The parts of the process that a session changes. -/
structure NodeProcess where
  session : Option NodeSession
  proxy : Option ProxyState

namespace NodeProcess

variable (text : Text) (s : String) (session : NodeSession) (p : NodeProcess)

def updateProxy (ack : NodeRegistrationAck) : NodeProcess :=
  { p with proxy := some (ProxyState.update p.proxy ack.mediaBaseUrl (parseMediaAuth ack)) }

/-- A text in the loop of the handshake. -/
def handshake : NodeProcess :=
  match NodeRegistrationAck.fromText text s with
  | .ok ack =>
    { p.updateProxy ack with session := some { session with nodeId := some ack.nodeId } }
  | .error _ => p

/-- A text in the loop of the relay. -/
def relay : NodeProcess :=
  match NodeCommand.fromText text s with
  | .ok cmd => { p with session := some { session with executed := session.executed ++ [cmd] } }
  | .error _ =>
    match NodeRegistrationAck.fromText text s with
    | .ok ack => p.updateProxy ack
    | .error _ => p

def onText : NodeProcess :=
  match session.nodeId with
  | none => p.handshake text s session
  | some _ => p.relay text s session

end NodeProcess

/-! ## The server -/

/-- What the server writes on the connection of a node. -/
inductive ToNode where
  | ack (key : IssuedKey)
  | command (cmd : NodeCommand)
  | ping

def ToNode.key? : ToNode → Option IssuedKey
  | .ack key => some key
  | _ => none

def ToNode.command? : ToNode → Option NodeCommand
  | .command cmd => some cmd
  | _ => none

/-- The acknowledgement of a key; `media_base_url` is that of the server. -/
def ackOf (mediaBaseUrl nodeId : String) (key : IssuedKey) : NodeRegistrationAck where
  nodeId := nodeId
  mediaBaseUrl := mediaBaseUrl
  mediaAuthKey := some (Hex.encode key.key.toList)
  mediaAuthKeyId := some key.id

/-- The text of a message that has one. -/
def ToNode.text? (text : Text) (mediaBaseUrl nodeId : String) : ToNode → Option String
  | .ack key => some ((ackOf mediaBaseUrl nodeId key).toText text)
  | .command cmd => some (cmd.toText text)
  | .ping => none

/-- `active_key_id`. -/
def KeyPhase.activeKey : KeyPhase → Option IssuedKey
  | .nodeServing active _ | .nodeRotating active _ _ => some active
  | _ => none

/-- The key of the acknowledgement that is being sent. -/
def KeyPhase.acknowledging : KeyPhase → Option IssuedKey
  | .nodeAcking key => some key
  | .nodeRotating _ _ next => some next
  | _ => none

/-- The key whose acknowledgement an event puts on the connection. One that could not be sent may be there
or not. -/
def KeyServer.acknowledged (s : KeyServer) (c : Nat) (written : Bool) : KeyEvent → Option IssuedKey
  | .outcome c' o =>
    if c' = c ∧ (o = .sent ∨ o = .failed ∧ written = true) then
      (s.connections c).bind fun conn => conn.phase.acknowledging
    else none
  | _ => none

/-- A connection that a node has opened. -/
structure NodeLine where
  /-- As `run_node_mode` has it. -/
  nodeId : String
  /-- All that was written, whether or not it has been read. -/
  log : List ToNode

/-- The next message of its connection. -/
def NodeProcess.onMessage (text : Text) (mediaBaseUrl : String) (line : NodeLine) (session : NodeSession)
    (p : NodeProcess) (m : ToNode) : NodeProcess :=
  let session := { session with read := session.read + 1 }
  let p := { p with session := some session }
  (m.text? text mediaBaseUrl line.nodeId).elim p fun s => p.onText text s session

structure NodeWorld where
  server : KeyServer
  lines : Nat → Option NodeLine
  nodes : Nat → NodeProcess

inductive NodeEvent where
  | keys (e : KeyEvent) (written : Bool)
  | command (c : Nat) (cmd : NodeCommand)
  | ping (c : Nat)
  /-- `run_session` connects and registers. -/
  | dial (n c : Nat) (nodeName uuid : String)
  | read (n : Nat)
  /-- `run_session` returns, for whatever reason. -/
  | hangUp (n : Nat)

namespace NodeWorld

def new : NodeWorld where
  server := .new
  lines := fun _ => none
  nodes := fun _ => { session := none, proxy := none }

/-- Appended to what was written on a connection. -/
def write (w : NodeWorld) (c : Nat) (ms : List ToNode) : NodeWorld :=
  { w with
    lines := Function.update w.lines c ((w.lines c).map fun line => { line with log := line.log ++ ms }) }

/-- The loop of `run_node_mode`, while no acknowledgement is being sent. -/
def serves (w : NodeWorld) (c : Nat) : Bool :=
  match (w.server.connections c).map KeyConnection.phase with
  | some (.nodeServing _ _) => true
  | _ => false

def keys (w : NodeWorld) (e : KeyEvent) (written : Bool) : NodeWorld where
  server := KeyServer.step e w.server
  lines c := (w.lines c).map fun line =>
    { line with log := line.log ++ (w.server.acknowledged c written e).toList.map .ack }
  nodes := w.nodes

/-- The registration that `run_session` sends. -/
def registrationOf (nodeName : String) : NodeRegistration where
  nodeId := some nodeName
  displayName := some nodeName
  name := none

def dial (w : NodeWorld) (n c : Nat) (nodeName uuid : String) : NodeWorld :=
  let registration := registrationOf nodeName
  if (w.lines c).isNone ∧ (w.server.connections c).isNone ∧ (w.nodes n).session.isNone then
    { w with
      lines := Function.update w.lines c
        (some { nodeId := registeredId registration (registeredName registration uuid), log := [] })
      nodes := Function.update w.nodes n
        { w.nodes n with session := some { connection := c, read := 0, nodeId := none, executed := [] } } }
  else w

def read (text : Text) (mediaBaseUrl : String) (w : NodeWorld) (n : Nat) : NodeWorld :=
  match (w.nodes n).session with
  | none => w
  | some session =>
    match w.lines session.connection with
    | none => w
    | some line =>
      match line.log[session.read]? with
      | none => w
      | some m =>
        { w with
          nodes := Function.update w.nodes n ((w.nodes n).onMessage text mediaBaseUrl line session m) }

def hangUp (w : NodeWorld) (n : Nat) : NodeWorld :=
  { w with nodes := Function.update w.nodes n { w.nodes n with session := none } }

def step (text : Text) (mediaBaseUrl : String) (e : NodeEvent) (w : NodeWorld) : NodeWorld :=
  match e with
  | .keys e written => w.keys e written
  | .command c cmd => if w.serves c then w.write c [.command cmd] else w
  | .ping c => if w.serves c then w.write c [.ping] else w
  | .dial n c nodeName uuid => w.dial n c nodeName uuid
  | .read n => w.read text mediaBaseUrl n
  | .hangUp n => w.hangUp n

end NodeWorld

/-! ## What a key event does to a connection -/

section KeySteps

variable {s : KeyServer} {c : Nat}

/-- A key was drawn for the connection. -/
inductive DrawnFor (s : KeyServer) (c : Nat) (kid : Uuid) (conn : KeyConnection) : Prop where
  | opened (k : IssuedKey) (hid : k.id = kid.text) (hnone : s.connections c = none)
      (hphase : conn.phase = .uiGreeting k ∨ conn.phase = .nodeAcking k) (hdrawn : conn.drawn = [k])
  | rotated (k active : IssuedKey) (issued drawn : List IssuedKey) (hid : k.id = kid.text)
      (hserving : s.connections c = some ⟨.nodeServing active issued, drawn⟩)
      (hphase : conn.phase = .nodeRotating active issued k) (hdrawn : conn.drawn = k :: drawn)

/-- The connection is as it was, or a key was drawn for it, or its handler moved on. -/
theorem step_connections (e : KeyEvent) {conn : KeyConnection}
    (h : (KeyServer.step e s).connections c = some conn) :
    (s.connections c = some conn ∧ ∀ o, e = .outcome c o → conn.phase.move o = none) ∨
      (∃ kid, DrawnFor s c kid conn ∧ ∀ o, e ≠ .outcome c o) ∨
      ∃ o conn₀ m, e = .outcome c o ∧ s.connections c = some conn₀ ∧ conn₀.phase.move o = some m ∧
        conn = ⟨m.phase, conn₀.drawn⟩ := by
  have hconnect : ∀ (c' : Nat) (kid : Uuid) (key : MediaKey) (phase : IssuedKey → KeyPhase),
      (∀ k, phase k = .uiGreeting k ∨ phase k = .nodeAcking k) →
      (s.connect c' kid key phase).connections c = some conn →
      s.connections c = some conn ∨ ∃ kid, DrawnFor s c kid conn := by
    intro c' kid key phase hphase h
    unfold KeyServer.connect at h
    split at h
    · rename_i hnone
      unfold KeyServer.draw at h
      split at h
      · exact .inl h
      · rcases KeyServer.connections_update h with ⟨rfl, rfl⟩ | ⟨-, h⟩
        · exact .inr ⟨kid, .opened _ rfl hnone (hphase _) rfl⟩
        · exact .inl h
    · exact .inl h
  cases e with
  | wait duration => exact .inl ⟨h, fun _ ho => by cases ho⟩
  | connectUi c' kid key =>
    rcases hconnect c' kid key _ (fun _ => .inl rfl) h with h | ⟨kid, h⟩
    · exact .inl ⟨h, fun _ ho => by cases ho⟩
    · exact .inr (.inl ⟨kid, h, fun _ ho => by cases ho⟩)
  | connectNode c' kid key =>
    rcases hconnect c' kid key _ (fun _ => .inr rfl) h with h | ⟨kid, h⟩
    · exact .inl ⟨h, fun _ ho => by cases ho⟩
    · exact .inr (.inl ⟨kid, h, fun _ ho => by cases ho⟩)
  | rotate c' kid key =>
    simp only [KeyServer.step] at h
    unfold KeyServer.rotate at h
    split at h
    · rename_i active issued drawn hserving
      unfold KeyServer.draw at h
      split at h
      · exact .inl ⟨h, fun _ ho => by cases ho⟩
      · rcases KeyServer.connections_update h with ⟨rfl, rfl⟩ | ⟨-, h⟩
        · exact .inr (.inl ⟨kid, .rotated _ active issued drawn rfl hserving rfl rfl, fun _ ho => by cases ho⟩)
        · exact .inl ⟨h, fun _ ho => by cases ho⟩
    · exact .inl ⟨h, fun _ ho => by cases ho⟩
  | outcome c' o =>
    simp only [KeyServer.step] at h
    unfold KeyServer.outcome at h
    split at h
    · rename_i hnone
      refine .inl ⟨h, fun o' ho => ?_⟩
      cases ho
      rw [hnone] at h
      cases h
    · rename_i conn₀ hconn₀
      split at h
      · rename_i m hmove
        rcases KeyServer.connections_update h with ⟨rfl, rfl⟩ | ⟨hne, h⟩
        · exact .inr (.inr ⟨o, conn₀, m, rfl, hconn₀, hmove, rfl⟩)
        · refine .inl ⟨h, fun o' ho => ?_⟩
          cases ho
          exact absurd rfl hne
      · rename_i hstay
        refine .inl ⟨h, fun o' ho => ?_⟩
        cases ho
        rw [hconn₀] at h
        cases h
        exact hstay
  | overlapEnds i =>
    refine .inl ⟨?_, fun _ ho => by cases ho⟩
    simp only [KeyServer.step] at h
    unfold KeyServer.overlapEnds at h
    split at h
    · exact h
    · split at h
      · exact h
      · exact h
  | cleanup => exact .inl ⟨h, fun _ ho => by cases ho⟩

theorem acknowledged_of_ne {e : KeyEvent} (h : ∀ o, e ≠ .outcome c o) (written : Bool) :
    s.acknowledged c written e = none := by
  cases e with
  | outcome c' o =>
    have hne : c' ≠ c := by
      intro hc
      exact h o (by rw [hc])
    simp [KeyServer.acknowledged, hne]
  | _ => rfl

/-- What is being sent gets on the connection by a move. -/
theorem acknowledged_eq_some {e : KeyEvent} {written : Bool} {k : IssuedKey}
    (h : s.acknowledged c written e = some k) :
    ∃ o conn, e = .outcome c o ∧ s.connections c = some conn ∧ conn.phase.acknowledging = some k ∧
      (conn.phase.move o).isSome := by
  cases e with
  | outcome c' o =>
    simp only [KeyServer.acknowledged] at h
    split at h
    · rename_i hsent
      obtain ⟨rfl, ho⟩ := hsent
      obtain ⟨conn, hconn, hack⟩ := Option.bind_eq_some_iff.1 h
      refine ⟨o, conn, rfl, hconn, hack, ?_⟩
      generalize conn.phase = phase at hack
      rcases ho with rfl | ⟨rfl, -⟩
      · cases phase <;> cases hack <;> rfl
      · cases phase <;> cases hack <;> rfl
    · cases h
  | _ => cases h

/-- A move that leaves a key active has just sent its acknowledgement, or left it as it was. -/
theorem activeKey_move {phase : KeyPhase} {o : KeyOutcome} {m : KeyMove} {k : IssuedKey}
    (hmove : phase.move o = some m) (hk : m.phase.activeKey = some k) :
    (o = .sent ∧ phase.acknowledging = some k) ∨
      (o = .notSerialized ∧ phase.activeKey = some k) := by
  cases phase <;> cases o <;> cases hmove <;> simp_all [KeyPhase.activeKey, KeyPhase.acknowledging]

/-- A key is active when it was acknowledged last. -/
theorem activeKey_step (e : KeyEvent) (written : Bool) {conn : KeyConnection} {k : IssuedKey}
    (h : (KeyServer.step e s).connections c = some conn) (hk : conn.phase.activeKey = some k) :
    s.acknowledged c written e = some k ∨
      s.acknowledged c written e = none ∧
        ∃ conn₀, s.connections c = some conn₀ ∧ conn₀.phase.activeKey = some k := by
  rcases step_connections e h with ⟨hconn, hstay⟩ | ⟨kid, hdrawn, hne⟩ |
    ⟨o, conn₀, m, rfl, hconn₀, hmove, rfl⟩
  · right
    refine ⟨?_, conn, hconn, hk⟩
    cases hack : s.acknowledged c written e with
    | none => rfl
    | some k' =>
      obtain ⟨o, conn', he, hconn', -, hmove⟩ := acknowledged_eq_some hack
      rw [hconn] at hconn'
      cases hconn'
      rw [hstay o he] at hmove
      cases hmove
  · right
    refine ⟨acknowledged_of_ne hne written, ?_⟩
    cases hdrawn with
    | opened k' _ _ hphase _ =>
      rcases hphase with hphase | hphase
      · rw [hphase] at hk
        cases hk
      · rw [hphase] at hk
        cases hk
    | rotated k' active issued drawn _ hserving hphase _ =>
      rw [hphase] at hk
      exact ⟨_, hserving, hk⟩
  · rcases activeKey_move hmove hk with ⟨rfl, hack⟩ | ⟨rfl, hactive⟩
    · left
      simp [KeyServer.acknowledged, hconn₀, hack]
    · right
      exact ⟨by simp [KeyServer.acknowledged], conn₀, hconn₀, hactive⟩

/-- The ids of keys are UUIDs. -/
theorem isUuid_step (e : KeyEvent) (h : ∀ c k, s.Drawn c k → IsUuid k.id) :
    ∀ c k, (KeyServer.step e s).Drawn c k → IsUuid k.id := by
  intro c k ⟨conn, hconn, hk⟩
  rcases step_connections e hconn with ⟨hconn, -⟩ | ⟨kid, hdrawn, -⟩ | ⟨o, conn₀, m, -, hconn₀, -, rfl⟩
  · exact h c k ⟨conn, hconn, hk⟩
  · cases hdrawn with
    | opened k' hid hnone hphase hdrawn =>
      rw [hdrawn, List.mem_singleton] at hk
      rw [hk, hid]
      exact kid.isUuid
    | rotated k' active issued drawn hid hserving hphase hdrawn =>
      rw [hdrawn] at hk
      rcases List.mem_cons.1 hk with rfl | hk
      · rw [hid]
        exact kid.isUuid
      · exact h c k ⟨_, hserving, hk⟩
  · exact h c k ⟨conn₀, hconn₀, hk⟩

theorem acknowledging_drawn {phase : KeyPhase} {drawn : List IssuedKey} {k : IssuedKey}
    (huses : phase.Uses drawn) (hk : phase.acknowledging = some k) : k ∈ drawn := by
  cases phase with
  | nodeAcking key =>
    cases hk
    exact huses
  | nodeRotating active issued next =>
    cases hk
    exact huses.2.2.1
  | _ => cases hk

end KeySteps

/-! ## What was written -/

def keysOf (log : List ToNode) : List IssuedKey := log.filterMap ToNode.key?

def commandsOf (log : List ToNode) : List NodeCommand := log.filterMap ToNode.command?

/-- An acknowledgement comes first, and the active key is that of the last one. -/
structure LogWritten (s : KeyServer) (c : Nat) (log : List ToNode) : Prop where
  first : log = [] ∨ ∃ k rest, log = .ack k :: rest
  drawn : ∀ k ∈ keysOf log, s.Drawn c k
  active : ∀ conn k, s.connections c = some conn → conn.phase.activeKey = some k →
    (keysOf log).getLast? = some k

section WrittenSteps

variable {s : KeyServer} {c : Nat} {log : List ToNode}

theorem written_nil (h : s.connections c = none) : LogWritten s c [] where
  first := .inl rfl
  drawn := fun k hk => by cases hk
  active := fun conn k hconn _ => by
    rw [h] at hconn
    cases hconn

theorem LogWritten.keys (h : LogWritten s c log) (hs : s.Sound) (e : KeyEvent) (written : Bool) :
    LogWritten (KeyServer.step e s) c (log ++ (s.acknowledged c written e).toList.map .ack) := by
  have hkeys : keysOf (log ++ (s.acknowledged c written e).toList.map .ack) =
      keysOf log ++ (s.acknowledged c written e).toList := by
    unfold keysOf
    rw [List.filterMap_append]
    cases s.acknowledged c written e <;> rfl
  refine ⟨?_, ?_, ?_⟩
  · rcases h.first with rfl | ⟨k, rest, rfl⟩
    · cases s.acknowledged c written e with
      | none => exact .inl rfl
      | some k => exact .inr ⟨k, [], rfl⟩
    · exact .inr ⟨k, rest ++ _, rfl⟩
  · intro k hk
    rw [hkeys, List.mem_append, Option.mem_toList] at hk
    rcases hk with hk | hk
    · exact KeyServer.Drawn.step (h.drawn k hk) e
    · obtain ⟨o, conn, -, hconn, hack, -⟩ := acknowledged_eq_some hk
      exact KeyServer.Drawn.step ⟨conn, hconn, acknowledging_drawn (hs.uses c conn hconn) hack⟩ e
  · intro conn k hconn hk
    rw [hkeys]
    rcases activeKey_step e written hconn hk with hack | ⟨hack, conn₀, hconn₀, hactive⟩
    · rw [hack, Option.toList_some, List.getLast?_concat]
    · rw [hack, Option.toList_none, List.append_nil]
      exact h.active conn₀ k hconn₀ hactive

/-- Between acknowledgements. -/
theorem LogWritten.write (h : LogWritten s c log) {m : ToNode} (hm : m.key? = none)
    (hserves : ∃ conn k, s.connections c = some conn ∧ conn.phase.activeKey = some k) :
    LogWritten s c (log ++ [m]) := by
  have hkeys : keysOf (log ++ [m]) = keysOf log := by
    unfold keysOf
    rw [List.filterMap_append, List.filterMap_cons_none hm, List.filterMap_nil, List.append_nil]
  refine ⟨?_, ?_, ?_⟩
  · rcases h.first with rfl | ⟨k, rest, rfl⟩
    · obtain ⟨conn, k, hconn, hk⟩ := hserves
      have hlast := h.active conn k hconn hk
      cases hlast
    · exact .inr ⟨k, rest ++ [m], rfl⟩
  · rw [hkeys]
    exact h.drawn
  · rw [hkeys]
    exact h.active

end WrittenSteps

/-! ## What was read -/

/-- A node in a session on the connection has done what it has read. -/
structure FollowsLine (text : Text) (mediaBaseUrl : String) (line : NodeLine) (session : NodeSession)
    (p : NodeProcess) : Prop where
  read_le : session.read ≤ line.log.length
  nodeId : session.nodeId = if session.read = 0 then none else some line.nodeId
  executed : session.executed =
    (commandsOf (line.log.take session.read)).map (NodeCommand.received text.reread)
  signs : 0 < session.read → ∃ k st, (keysOf (line.log.take session.read)).getLast? = some k ∧
    p.proxy = some st ∧ st.kanadeBaseUrl = mediaBaseUrl ∧ st.auth = some (k.id, k.key)

section Reading

variable {text : Text} {mediaBaseUrl : String} {line : NodeLine} {session : NodeSession} {p : NodeProcess}

theorem parseMediaAuth_ackOf (mediaBaseUrl nodeId : String) (k : IssuedKey) :
    parseMediaAuth (ackOf mediaBaseUrl nodeId k) = some (k.id, k.key) := by
  simp [parseMediaAuth, ackOf, Hex.decode_encode]
  exact Array.toArray_toList

/-- What is written later is not read yet. -/
theorem FollowsLine.extend (h : FollowsLine text mediaBaseUrl line session p) (ms : List ToNode) :
    FollowsLine text mediaBaseUrl { line with log := line.log ++ ms } session p := by
  have htake : (line.log ++ ms).take session.read = line.log.take session.read :=
    List.take_append_of_le_length h.read_le
  refine ⟨?_, h.nodeId, ?_, ?_⟩
  · dsimp only
    rw [List.length_append]
    exact Nat.le_add_right_of_le h.read_le
  · dsimp only
    rw [htake]
    exact h.executed
  · dsimp only
    rw [htake]
    exact h.signs

theorem follows_dialled (c : Nat) (nodeId : String) (p : NodeProcess) :
    FollowsLine text mediaBaseUrl { nodeId := nodeId, log := [] }
      { connection := c, read := 0, nodeId := none, executed := [] } p where
  read_le := Nat.le_refl 0
  nodeId := rfl
  executed := rfl
  signs := fun h => absurd h (Nat.lt_irrefl 0)

theorem onText_handshake (k : IssuedKey) (hsession : session.nodeId = none) :
    p.onText text ((ackOf mediaBaseUrl line.nodeId k).toText text) session =
      { session := some { session with nodeId := some line.nodeId }
        proxy := some (ProxyState.update p.proxy mediaBaseUrl (some (k.id, k.key))) } := by
  unfold NodeProcess.onText
  rw [hsession]
  dsimp only
  rw [NodeProcess.handshake, ack_fromText]
  dsimp only
  rw [NodeProcess.updateProxy, parseMediaAuth_ackOf]
  rfl

theorem onText_ack (k : IssuedKey) {id : String} (hsession : session.nodeId = some id) :
    p.onText text ((ackOf mediaBaseUrl line.nodeId k).toText text) session =
      { p with proxy := some (ProxyState.update p.proxy mediaBaseUrl (some (k.id, k.key))) } := by
  obtain ⟨e, herror⟩ := command_fromText_ack text (ackOf mediaBaseUrl line.nodeId k)
  unfold NodeProcess.onText
  rw [hsession]
  dsimp only
  rw [NodeProcess.relay, herror]
  dsimp only
  rw [ack_fromText]
  dsimp only
  rw [NodeProcess.updateProxy, parseMediaAuth_ackOf]
  rfl

theorem onText_command (cmd : NodeCommand) {id : String} (hsession : session.nodeId = some id) :
    p.onText text (cmd.toText text) session =
      { p with
        session := some { session with executed := session.executed ++ [cmd.received text.reread] } } := by
  unfold NodeProcess.onText
  rw [hsession]
  dsimp only
  rw [NodeProcess.relay, command_fromText]
  dsimp only
  rw [hsession]

theorem take_read {m : ToNode} (hm : line.log[session.read]? = some m) :
    line.log.take (session.read + 1) = line.log.take session.read ++ [m] := by
  rw [List.take_add_one, hm]
  rfl

theorem keysOf_concat (log : List ToNode) (m : ToNode) : keysOf (log ++ [m]) = keysOf log ++ m.key?.toList := by
  unfold keysOf
  rw [List.filterMap_append]
  cases m <;> rfl

theorem commandsOf_concat (log : List ToNode) (m : ToNode) :
    commandsOf (log ++ [m]) = commandsOf log ++ m.command?.toList := by
  unfold commandsOf
  rw [List.filterMap_append]
  cases m <;> rfl

theorem onMessage_first (k : IssuedKey) (hid : session.nodeId = none) :
    p.onMessage text mediaBaseUrl line session (.ack k) =
      { session := some { session with read := session.read + 1, nodeId := some line.nodeId }
        proxy := some (ProxyState.update p.proxy mediaBaseUrl (some (k.id, k.key))) } :=
  onText_handshake k hid

/-- After the first message. -/
theorem follows_first (h : FollowsLine text mediaBaseUrl line session p) (hread : session.read = 0)
    {k : IssuedKey} {rest : List ToNode} (hlog : line.log = .ack k :: rest) :
    ∃ session', (p.onMessage text mediaBaseUrl line session (.ack k)).session = some session' ∧
      session'.connection = session.connection ∧
      FollowsLine text mediaBaseUrl line session' (p.onMessage text mediaBaseUrl line session (.ack k)) := by
  have hnone : session.nodeId = none := by rw [h.nodeId, if_pos hread]
  have hone : line.log.take (session.read + 1) = [.ack k] := by
    rw [hread, hlog]
    rfl
  rw [onMessage_first k hnone]
  refine ⟨_, rfl, rfl, ?_, ?_, ?_, ?_⟩
  · dsimp only
    rw [hread, hlog]
    exact Nat.succ_le_succ (Nat.zero_le _)
  · exact (if_neg (Nat.succ_ne_zero _)).symm
  · dsimp only
    rw [hone, h.executed, hread, List.take_zero]
    rfl
  · intro _
    dsimp only
    rw [hone]
    exact ⟨k, _, rfl, rfl, rfl, rfl⟩

/-- After a message behind the first. -/
theorem follows_next (h : FollowsLine text mediaBaseUrl line session p) (hread : session.read ≠ 0)
    {m : ToNode} (hm : line.log[session.read]? = some m) :
    ∃ session', (p.onMessage text mediaBaseUrl line session m).session = some session' ∧
      session'.connection = session.connection ∧
      FollowsLine text mediaBaseUrl line session' (p.onMessage text mediaBaseUrl line session m) := by
  have hid : session.nodeId = some line.nodeId := by rw [h.nodeId, if_neg hread]
  have hid' : session.nodeId = if session.read + 1 = 0 then none else some line.nodeId := by
    rw [if_neg (Nat.succ_ne_zero _), hid]
  have hle : session.read + 1 ≤ line.log.length := (List.getElem?_eq_some_iff.1 hm).1
  have htake := take_read hm
  obtain ⟨k₀, st, hlast, hproxy, hbase, hauth⟩ := h.signs (Nat.pos_of_ne_zero hread)
  cases m with
  | ack k =>
    have hafter : p.onMessage text mediaBaseUrl line session (.ack k) =
        { session := some { session with read := session.read + 1 }
          proxy := some (ProxyState.update p.proxy mediaBaseUrl (some (k.id, k.key))) } :=
      onText_ack k hid
    rw [hafter]
    refine ⟨_, rfl, rfl, hle, hid', ?_, fun _ => ⟨k, _, ?_, rfl, rfl, rfl⟩⟩
    · dsimp only
      rw [htake, commandsOf_concat, h.executed]
      simp [ToNode.command?]
    · dsimp only
      rw [htake, keysOf_concat]
      exact List.getLast?_concat
  | command cmd =>
    have hafter : p.onMessage text mediaBaseUrl line session (.command cmd) =
        { p with
          session := some { session with
            read := session.read + 1
            executed := session.executed ++ [cmd.received text.reread] } } :=
      onText_command cmd hid
    rw [hafter]
    refine ⟨_, rfl, rfl, hle, hid', ?_, fun _ => ⟨k₀, st, ?_, hproxy, hbase, hauth⟩⟩
    · dsimp only
      rw [htake, commandsOf_concat, h.executed]
      simp [ToNode.command?]
    · dsimp only
      rw [htake, keysOf_concat]
      simpa [ToNode.key?] using hlast
  | ping =>
    refine ⟨{ session with read := session.read + 1 }, rfl, rfl, hle, hid', ?_,
      fun _ => ⟨k₀, st, ?_, hproxy, hbase, hauth⟩⟩
    · dsimp only
      rw [htake, commandsOf_concat, h.executed]
      simp [ToNode.command?]
    · dsimp only
      rw [htake, keysOf_concat]
      simpa [ToNode.key?] using hlast

end Reading

/-! ## Runs -/

/-- What holds of the server, of what was written and of the nodes. -/
structure NodeWorld.Sound (text : Text) (mediaBaseUrl : String) (w : NodeWorld) : Prop where
  server : w.server.Sound
  uuids : ∀ c k, w.server.Drawn c k → IsUuid k.id
  written : ∀ c line, w.lines c = some line → LogWritten w.server c line.log
  follows : ∀ n session, (w.nodes n).session = some session →
    ∃ line, w.lines session.connection = some line ∧
      FollowsLine text mediaBaseUrl line session (w.nodes n)

namespace NodeWorld

variable {text : Text} {mediaBaseUrl : String} {w : NodeWorld}

theorem sound_new : new.Sound text mediaBaseUrl where
  server := KeyServer.sound_new
  uuids := fun c k h => by
    obtain ⟨conn, hconn, -⟩ := h
    cases hconn
  written := fun c line h => by cases h
  follows := fun n session h => by cases h

theorem Sound.keys (h : w.Sound text mediaBaseUrl) (e : KeyEvent) (written : Bool) :
    (w.keys e written).Sound text mediaBaseUrl where
  server := h.server.step e
  uuids := isUuid_step e h.uuids
  written := by
    intro c line hmapped
    obtain ⟨line, hline, rfl⟩ := Option.map_eq_some_iff.1 hmapped
    exact (h.written c line hline).keys h.server e written
  follows := by
    intro n session hsession
    obtain ⟨line, hline, hfollows⟩ := h.follows n session hsession
    exact ⟨_, Option.map_eq_some_iff.2 ⟨line, hline, rfl⟩, hfollows.extend _⟩

theorem exists_active {c : Nat} (h : w.serves c) :
    ∃ conn k, w.server.connections c = some conn ∧ conn.phase.activeKey = some k := by
  unfold serves at h
  split at h
  · rename_i active issued hphase
    obtain ⟨conn, hconn, hserving⟩ := Option.map_eq_some_iff.1 hphase
    exact ⟨conn, active, hconn, by rw [hserving]; rfl⟩
  · cases h

theorem Sound.write (h : w.Sound text mediaBaseUrl) {c : Nat} (hserves : w.serves c) {m : ToNode}
    (hm : m.key? = none) : (w.write c [m]).Sound text mediaBaseUrl where
  server := h.server
  uuids := h.uuids
  written := by
    intro c' line hwritten
    simp only [NodeWorld.write] at hwritten
    by_cases hc : c' = c
    · subst hc
      rw [Function.update_self] at hwritten
      obtain ⟨line, hline, rfl⟩ := Option.map_eq_some_iff.1 hwritten
      exact (h.written c' line hline).write hm (exists_active hserves)
    · rw [Function.update_of_ne hc] at hwritten
      exact h.written c' line hwritten
  follows := by
    intro n session hsession
    obtain ⟨line, hline, hfollows⟩ := h.follows n session hsession
    simp only [NodeWorld.write]
    by_cases hc : session.connection = c
    · rw [hc, Function.update_self, ← hc, hline]
      exact ⟨_, rfl, hfollows.extend _⟩
    · rw [Function.update_of_ne hc]
      exact ⟨line, hline, hfollows⟩

theorem Sound.dial (h : w.Sound text mediaBaseUrl) (n c : Nat) (nodeName uuid : String) :
    (w.dial n c nodeName uuid).Sound text mediaBaseUrl := by
  unfold NodeWorld.dial
  dsimp only
  split
  · rename_i hfree
    obtain ⟨hline, hconn, -⟩ := hfree
    rw [Option.isNone_iff_eq_none] at hline hconn
    refine ⟨h.server, h.uuids, ?_, ?_⟩
    · intro c' line hline'
      dsimp only at hline'
      by_cases hc : c' = c
      · rw [hc, Function.update_self] at hline'
        cases hline'
        rw [hc]
        exact written_nil hconn
      · rw [Function.update_of_ne hc] at hline'
        exact h.written c' line hline'
    · intro n' session hsession
      dsimp only at hsession ⊢
      by_cases hn : n' = n
      · subst hn
        rw [Function.update_self] at hsession ⊢
        cases hsession
        dsimp only
        rw [Function.update_self]
        exact ⟨_, rfl, follows_dialled c _ _⟩
      · rw [Function.update_of_ne hn] at hsession ⊢
        obtain ⟨line, hline', hfollows⟩ := h.follows n' session hsession
        have hc : session.connection ≠ c := by
          intro hc
          rw [hc, hline] at hline'
          cases hline'
        rw [Function.update_of_ne hc]
        exact ⟨line, hline', hfollows⟩
  · exact h

theorem Sound.read (h : w.Sound text mediaBaseUrl) (n : Nat) :
    (w.read text mediaBaseUrl n).Sound text mediaBaseUrl := by
  unfold NodeWorld.read
  split
  · exact h
  · rename_i session hsession
    split
    · exact h
    · rename_i line hline
      split
      · exact h
      · rename_i m hm
        obtain ⟨line', hline', hfollows⟩ := h.follows n session hsession
        rw [hline] at hline'
        cases hline'
        have hnext : ∃ session', ((w.nodes n).onMessage text mediaBaseUrl line session m).session = some session' ∧
            session'.connection = session.connection ∧
            FollowsLine text mediaBaseUrl line session' ((w.nodes n).onMessage text mediaBaseUrl line session m) := by
          by_cases hread : session.read = 0
          · rw [hread] at hm
            rcases (h.written _ line hline).first with hlog | ⟨k, rest, hlog⟩
            · rw [hlog] at hm
              cases hm
            · rw [hlog] at hm
              cases hm
              exact follows_first hfollows hread hlog
          · exact follows_next hfollows hread hm
        obtain ⟨session', hsession', hconnection, hfollows'⟩ := hnext
        refine ⟨h.server, h.uuids, h.written, ?_⟩
        intro n' session'' hsession''
        dsimp only at hsession'' ⊢
        by_cases hn : n' = n
        · rw [hn, Function.update_self] at hsession'' ⊢
          rw [hsession'] at hsession''
          cases hsession''
          exact ⟨line, hconnection ▸ hline, hfollows'⟩
        · rw [Function.update_of_ne hn] at hsession'' ⊢
          exact h.follows n' session'' hsession''

theorem Sound.hangUp (h : w.Sound text mediaBaseUrl) (n : Nat) : (w.hangUp n).Sound text mediaBaseUrl := by
  refine ⟨h.server, h.uuids, h.written, ?_⟩
  intro n' session hsession
  simp only [NodeWorld.hangUp] at hsession ⊢
  by_cases hn : n' = n
  · rw [hn, Function.update_self] at hsession
    cases hsession
  · rw [Function.update_of_ne hn] at hsession ⊢
    exact h.follows n' session hsession

theorem Sound.step (h : w.Sound text mediaBaseUrl) (e : NodeEvent) :
    (step text mediaBaseUrl e w).Sound text mediaBaseUrl := by
  cases e with
  | keys e written => exact h.keys e written
  | command c cmd =>
    simp only [NodeWorld.step]
    split
    · rename_i hserves
      exact h.write hserves rfl
    · exact h
  | ping c =>
    simp only [NodeWorld.step]
    split
    · rename_i hserves
      exact h.write hserves rfl
    · exact h
  | dial n c nodeName uuid => exact h.dial n c nodeName uuid
  | read n => exact h.read n
  | hangUp n => exact h.hangUp n

end NodeWorld

/-! ## What a node is to the server -/

/-- The server takes the request for a URL. -/
def KeyServer.accepts (s : KeyServer) (hmac : MediaKey → String → List UInt8) (mediaBaseUrl : String)
    (now : UInt64) (path url : String) : Prop :=
  ∃ authQuery, MediaRequest.ofUrl (trimSlashes mediaBaseUrl) url = some ⟨path, authQuery⟩ ∧
    verifyMediaAuth hmac s.store now path authQuery = .ok ()

/-- What the proxy signs with a key of an open connection is taken as long as the key is stored. -/
theorem accepts_redirect {s : KeyServer} (hs : s.Sound) {c : Nat} {conn : KeyConnection}
    (hconn : s.connections c = some conn) {k : IssuedKey} (hk : k ∈ conn.drawn) (huuid : IsUuid k.id)
    (hmac : MediaKey → String → List UInt8) {mediaBaseUrl : String} {st : ProxyState}
    (hbase : st.kanadeBaseUrl = mediaBaseUrl) (hauth : st.auth = some (k.id, k.key)) (signedAt now : UInt64)
    {path : String} (hpath : '?' ∉ path.toList) :
    ∃ url, buildRedirectTarget hmac (some st) (some signedAt) path = some (url, st.generation, true) ∧
      (s.accepts hmac mediaBaseUrl now path url ↔
        now ≤ saturatingAdd signedAt mediaUrlTtlSecs ∧ s.Holds conn.phase k) := by
  generalize hexp : saturatingAdd signedAt mediaUrlTtlSecs = exp
  refine ⟨signedUrl (trimSlashes mediaBaseUrl) path k.id exp (computeMediaSignature hmac k.key path exp), ?_, ?_⟩
  · rw [buildRedirectTarget, Option.bind_eq_bind, Option.bind_some, hauth]
    dsimp only
    rw [Option.bind_eq_bind, Option.bind_some, hexp, hbase]
    rfl
  · unfold KeyServer.accepts
    rw [ofUrl_signedUrl huuid hpath]
    constructor
    · intro h
      obtain ⟨authQuery, hrequest, hok⟩ := h
      cases hrequest
      obtain ⟨hnow, key, hget, -⟩ := verifyMediaAuth_ok_iff.1 hok
      exact ⟨hnow, ((KeyServer.stored_iff hs hconn hk).1 hget).2⟩
    · intro h
      obtain ⟨hnow, hholds⟩ := h
      have hget := (KeyServer.stored_iff hs hconn hk).2 ⟨rfl, hholds⟩
      exact ⟨_, rfl, verifyMediaAuth_ok_iff.2 ⟨hnow, k.key, hget, Hex.decode_encode _⟩⟩

/-- A registered node, what was written to it on its connection, and the key that it read last. -/
structure NodeServes (text : Text) (mediaBaseUrl : String) (w : NodeWorld) (n : Nat) (session : NodeSession)
    (line : NodeLine) (conn : KeyConnection) (k : IssuedKey) (st : ProxyState) : Prop where
  opened : w.lines session.connection = some line
  registered : session.nodeId = some line.nodeId
  /-- It has executed all commands as far as it has read, in order. -/
  executed : session.executed =
    (commandsOf (line.log.take session.read)).map (NodeCommand.received text.reread)
  connection : w.server.connections session.connection = some conn
  drawn : k ∈ conn.drawn
  /-- The key of the last acknowledgement that it has read. -/
  last : (keysOf (line.log.take session.read)).getLast? = some k
  /-- When it has read all, its key is the active one. -/
  active : session.read = line.log.length → ∀ active ∈ conn.phase.activeKey, k = active
  proxy : (w.nodes n).proxy = some st
  base : st.kanadeBaseUrl = mediaBaseUrl
  auth : st.auth = some (k.id, k.key)
  /-- What its proxy signs at any time is taken as long as it has not expired and the key is stored. -/
  accepted : ∀ hmac signedAt now path, '?' ∉ path.toList →
    ∃ url, buildRedirectTarget hmac (some st) (some signedAt) path = some (url, st.generation, true) ∧
      (w.server.accepts hmac mediaBaseUrl now path url ↔
        now ≤ saturatingAdd signedAt mediaUrlTtlSecs ∧ w.server.Holds conn.phase k)

/-- In every run, whatever is written and read when, a node that is registered serves its connection. -/
theorem session_follows (text : Text) (mediaBaseUrl : String) (events : List NodeEvent) (n : Nat)
    (session : NodeSession)
    (hsession : ((runAll (NodeWorld.step text mediaBaseUrl) events .new).nodes n).session = some session)
    (hid : session.nodeId ≠ none) :
    ∃ line conn k st,
      NodeServes text mediaBaseUrl (runAll (NodeWorld.step text mediaBaseUrl) events .new) n session line conn k
        st := by
  have h : (runAll (NodeWorld.step text mediaBaseUrl) events .new).Sound text mediaBaseUrl :=
    runAll_keeps (I := NodeWorld.Sound text mediaBaseUrl) (fun e _ h => NodeWorld.Sound.step h e) events
      NodeWorld.sound_new
  generalize runAll (NodeWorld.step text mediaBaseUrl) events .new = w at h hsession
  obtain ⟨line, hline, hfollows⟩ := h.follows n session hsession
  have hread : session.read ≠ 0 := by
    intro hread
    rw [hfollows.nodeId, if_pos hread] at hid
    exact hid rfl
  obtain ⟨k, st, hlast, hproxy, hbase, hauth⟩ := hfollows.signs (Nat.pos_of_ne_zero hread)
  have hmem : k ∈ keysOf line.log := by
    obtain ⟨m, hm, hkey⟩ := List.mem_filterMap.1 (List.mem_of_getLast? hlast)
    exact List.mem_filterMap.2 ⟨m, List.mem_of_mem_take hm, hkey⟩
  have hdrawn := (h.written _ line hline).drawn k hmem
  have huuid := h.uuids _ k hdrawn
  obtain ⟨conn, hconn, hk⟩ := hdrawn
  refine ⟨line, conn, k, st, hline, ?_, hfollows.executed, hconn, hk, hlast, ?_, hproxy, hbase, hauth, ?_⟩
  · rw [hfollows.nodeId, if_neg hread]
  · intro hall active hactive
    rw [hall, List.take_length] at hlast
    have hact := (h.written _ line hline).active conn active hconn hactive
    rw [hlast] at hact
    exact Option.some.inj hact
  · intro hmac signedAt now path hpath
    exact accepts_redirect h.server hconn hk huuid hmac hbase hauth signedAt now hpath

theorem firstKey_chars : ("k-1".toList.all fun c => decide (c.isAlphanum ∨ c = '-')) = true := by decide

/-- A node connects and reads its acknowledgement. -/
def firstSession : List NodeEvent :=
  [.dial 0 0 "node" "u-1", .keys (.connectNode 0 (KeyServer.uuid "k-1" firstKey_chars) sampleKey) false,
    .keys (.outcome 0 .sent) false, .read 0]

theorem session_read_ack (text : Text) (mediaBaseUrl : String) {w : NodeWorld} (n : Nat)
    (session : NodeSession) {line : NodeLine} {k : IssuedKey} (hsession : (w.nodes n).session = some session)
    (hline : w.lines session.connection = some line) (hm : line.log[session.read]? = some (.ack k))
    (hid : session.nodeId = none) :
    ((w.read text mediaBaseUrl n).nodes n).session =
      some { session with read := session.read + 1, nodeId := some line.nodeId } := by
  unfold NodeWorld.read
  rw [hsession]
  dsimp only
  rw [hline]
  dsimp only
  rw [hm]
  dsimp only
  rw [Function.update_self, onMessage_first k hid]

theorem session_follows_firstSession :
    ∃ session, ((runAll (NodeWorld.step plainText "http://kanade") firstSession .new).nodes 0).session =
        some session ∧
      ∃ line conn k st,
        NodeServes plainText "http://kanade" (runAll (NodeWorld.step plainText "http://kanade") firstSession .new)
          0 session line conn k st := by
  have hrun : runAll (NodeWorld.step plainText "http://kanade") firstSession .new =
      (runAll (NodeWorld.step plainText "http://kanade") (firstSession.take 3) .new).read plainText
        "http://kanade" 0 := rfl
  have hopened : (runAll (NodeWorld.step plainText "http://kanade") (firstSession.take 3) .new).lines 0 =
      some
        { nodeId := registeredId (NodeWorld.registrationOf "node")
            (registeredName (NodeWorld.registrationOf "node") "u-1")
          log := [.ack { id := "k-1", key := sampleKey, createdAt := 0 }] } := rfl
  have hread := session_read_ack plainText "http://kanade" 0
    { connection := 0, read := 0, nodeId := none, executed := [] } rfl hopened rfl rfl
  rw [← hrun] at hread
  exact ⟨_, hread, session_follows plainText _ firstSession 0 _ hread (by simp)⟩

end Kanade

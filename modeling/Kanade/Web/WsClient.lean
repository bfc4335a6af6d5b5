import Kanade.Concur.Runs
import Kanade.Concur.Timers
import Kanade.Web.SendQueue

/-!
# Kanade.Web.WsClient

`WsClient` of `ws.svelte.ts`, on a page with its timers and its sockets, and a server at their other ends.

A step is a call of the client, an event of the browser (of a socket, a timer, the network, the page), or the
server taking or sending a message; each is run to its end, and they come in any order. Sockets are numbered in
the order they were opened in; what is under way on a socket is kept with it. `ρ` is what a request says, `δ`
what a response carries, `σ` what the server pushes.
-/

namespace Kanade

namespace Web

open Concur Keyed

inductive ReadyState where
  | connecting
  | opened
  | closing
  | closed
deriving DecidableEq

inductive ServerMessage (δ σ : Type) where
  | state (state : σ)
  | response (reqId : Nat) (data : δ)
  /-- What the client has no use for, as `media_auth`. -/
  | other

/-- A socket with what the client has sent on it and the server has not taken, and the other way. -/
structure Socket (ρ δ σ : Type) where
  readyState : ReadyState
  outgoing : List (QueuedMessage ρ)
  incoming : List (ServerMessage δ σ)

/-- What a timer runs. -/
inductive Callback where
  | requestTimeout (reqId promise : Nat)
  | connectTimeout (socket : Nat)
  | heartbeat
  | reconnect
deriving DecidableEq

/-- What `sendRequest` has returned for a request, settled or not. -/
structure Promise (ρ δ : Type) where
  request : ρ
  outcome : Option (Except String δ)

/-- `resolve` and `reject`: only the first call has an effect. -/
def Promise.settle {ρ δ : Type} (outcome : Except String δ) (promise : Promise ρ δ) : Promise ρ δ :=
  { promise with outcome := promise.outcome.or (some outcome) }

/-- An entry of `pendingRequests`: its key, the promise that `resolve` and `reject` settle, and the timer. -/
structure PendingRequest where
  id : Nat
  promise : Nat
  timeoutId : Nat

structure WsClient (ρ σ : Type) where
  ws : Option Nat
  url : String
  reqId : Nat
  pendingRequests : Table PendingRequest.id
  sendQueue : List (QueuedMessage ρ)
  reconnectTimeout : Option Nat
  connectTimeout : Option Nat
  heartbeatTimeout : Option Nat
  retryCount : Nat
  active : Bool
  connected : Bool
  /-- The state shown, if the server has pushed one. -/
  view : Option σ

def requestTimeoutMs : Nat := 10000

def connectTimeoutMs : Nat := 5000

def heartbeatTimeoutMs : Nat := 45000

structure Page (ρ δ σ : Type) where
  client : WsClient ρ σ
  sockets : List (Socket ρ δ σ)
  timers : Timers Callback
  promises : List (Promise ρ δ)
  /-- `navigator.onLine`. -/
  onLine : Bool
  /-- Whether `new WebSocket` takes the URL on this page; it throws if not (a fragment, mixed content). -/
  takesUrl : String → Bool

namespace Page

variable {ρ δ σ : Type}

def new (url : String) (takesUrl : String → Bool) : Page ρ δ σ where
  client := ⟨none, url, 0, Table.empty _, [], none, none, none, 0, false, false, none⟩
  sockets := []
  timers := Timers.empty _
  promises := []
  onLine := true
  takesUrl := takesUrl

/-! ## Timers -/

def setTimeout (callback : Callback) (delay : Nat) (p : Page ρ δ σ) : Page ρ δ σ :=
  { p with timers := p.timers.set callback delay }

def clearTimeout (id : Option Nat) (p : Page ρ δ σ) : Page ρ δ σ := { p with timers := p.timers.clear id }

def clearReconnectTimeout (p : Page ρ δ σ) : Page ρ δ σ :=
  { p.clearTimeout p.client.reconnectTimeout with client := { p.client with reconnectTimeout := none } }

def clearConnectTimeout (p : Page ρ δ σ) : Page ρ δ σ :=
  { p.clearTimeout p.client.connectTimeout with client := { p.client with connectTimeout := none } }

def clearHeartbeat (p : Page ρ δ σ) : Page ρ δ σ :=
  { p.clearTimeout p.client.heartbeatTimeout with client := { p.client with heartbeatTimeout := none } }

def resetHeartbeat (p : Page ρ δ σ) : Page ρ δ σ :=
  { p.clearHeartbeat.setTimeout .heartbeat heartbeatTimeoutMs with
    client := { p.clearHeartbeat.client with heartbeatTimeout := some p.timers.count } }

def reconnectDelay (retryCount : Nat) : Nat :=
  if retryCount = 0 then 3000 else min (1000 * 2 ^ retryCount) 5000

def scheduleReconnect (p : Page ρ δ σ) : Page ρ δ σ :=
  if p.client.active = false ∨ p.client.reconnectTimeout ≠ none then p
  else
    { p.setTimeout .reconnect (reconnectDelay p.client.retryCount) with
      client :=
        { p.client with retryCount := p.client.retryCount + 1, reconnectTimeout := some p.timers.count } }

/-! ## Requests -/

def settlePromise (outcome : Except String δ) (promise : Nat) (p : Page ρ δ σ) : Page ρ δ σ :=
  { p with promises := p.promises.modify promise (Promise.settle outcome) }

def deletePending (id : Nat) (p : Page ρ δ σ) : Page ρ δ σ :=
  { p with
    client := { p.client with pendingRequests := p.client.pendingRequests.restrict fun k => decide (k ≠ id) } }

/-- The timer of an entry is cleared, its promise settled, and the entry deleted. -/
def settleRequest (outcome : Except String δ) (row : PendingRequest) (p : Page ρ δ σ) : Page ρ δ σ :=
  ((p.clearTimeout (some row.timeoutId)).settlePromise outcome row.promise).deletePending row.id

/-- The loop over all entries. -/
def rejectAll (error : String) (p : Page ρ δ σ) : Page ρ δ σ :=
  p.client.pendingRequests.rows.foldl (fun p row => p.settleRequest (.error error) row) p

def rejectPendingRequest (id : Nat) (error : String) (p : Page ρ δ σ) : Page ρ δ σ :=
  match p.client.pendingRequests.get id with
  | some row => p.settleRequest (.error error) row
  | none => p

/-- The message that `dropOldestQueuedMessage` drops. -/
def droppedMessage? (sendQueue : List (QueuedMessage ρ)) : Option (QueuedMessage ρ) :=
  sendQueue[(sendQueue.findIdx? QueuedMessage.isRequest).getD 0]?

def rejectDropped (p : Page ρ δ σ) : Page ρ δ σ :=
  match droppedMessage? p.client.sendQueue with
  | some (.request id _) => p.rejectPendingRequest id "WS send queue overflow"
  | _ => p

/-- `queueMessage` of the client. -/
def queue (message : QueuedMessage ρ) (p : Page ρ δ σ) : Page ρ δ σ :=
  let full := mergeMessage p.client.sendQueue message = none ∧ maxQueuedMessages ≤ p.client.sendQueue.length
  let rejected := if full then p.rejectDropped else p
  { rejected with client := { rejected.client with sendQueue := queueMessage p.client.sendQueue message } }

/-- `send` of a socket; `none` is the exception of one that is not open yet. One that closes or is closed takes the
message to nowhere. -/
def send (s : Nat) (message : QueuedMessage ρ) (p : Page ρ δ σ) : Option (Page ρ δ σ) :=
  match p.sockets[s]? with
  | none => some p
  | some socket =>
    match socket.readyState with
    | .connecting => none
    | .opened =>
      some
        { p with
          sockets := p.sockets.modify s fun socket => { socket with outgoing := socket.outgoing ++ [message] } }
    | .closing => some p
    | .closed => some p

def sendMessage (message : QueuedMessage ρ) (p : Page ρ δ σ) : Option (Page ρ δ σ) :=
  match p.client.connected, p.client.ws with
  | true, some s => p.send s message
  | _, _ => some (p.queue message)

/-- An exception goes to the caller, and nothing has changed. -/
def sendCommand (cmd : WsCommand) (p : Page ρ δ σ) : Page ρ δ σ :=
  (p.sendMessage (.command cmd)).getD p

/-- The entry of a new request. -/
def newRequest (p : Page ρ δ σ) : PendingRequest := ⟨p.client.reqId + 1, p.promises.length, p.timers.count⟩

/-- Its id is taken, its timer set, and its entry put in. -/
def register (request : ρ) (p : Page ρ δ σ) : Page ρ δ σ :=
  { p.setTimeout (.requestTimeout (p.client.reqId + 1) p.promises.length) requestTimeoutMs with
    promises := p.promises ++ [⟨request, none⟩]
    client :=
      { p.client with
        reqId := p.client.reqId + 1
        pendingRequests :=
          p.client.pendingRequests.upsert p.newRequest (fun row => { p.newRequest with id := row.id })
            fun _ => rfl } }

/-- An exception in the promise's executor rejects the promise; the entry stays. -/
def sendRequest (request : ρ) (p : Page ρ δ σ) : Page ρ δ σ :=
  ((p.register request).sendMessage (.request (p.client.reqId + 1) request)).getD
    ((p.register request).settlePromise (.error "InvalidStateError") p.promises.length)

/-! ## Sockets -/

def setReadyState (s : Nat) (readyState : ReadyState) (p : Page ρ δ σ) : Page ρ δ σ :=
  { p with sockets := p.sockets.modify s fun socket => { socket with readyState := readyState } }

def readyState? (s : Nat) (p : Page ρ δ σ) : Option ReadyState := p.sockets[s]?.map Socket.readyState

/-- `close` of a socket. -/
def close (s : Nat) (p : Page ρ δ σ) : Page ρ δ σ :=
  match p.readyState? s with
  | some .connecting => p.setReadyState s .closing
  | some .opened => p.setReadyState s .closing
  | _ => p

/-- The handlers are taken off, the socket is closed and forgotten. -/
def dropSocket (p : Page ρ δ σ) : Page ρ δ σ :=
  match p.client.ws with
  | some s => { p.close s with client := { (p.close s).client with ws := none } }
  | none => p

/-- The socket is there, and its `readyState` is one of the first two. -/
def busy (p : Page ρ δ σ) : Bool :=
  match p.client.ws.bind p.readyState? with
  | some .connecting => true
  | some .opened => true
  | _ => false

/-- The new socket of `connect`, with its timer. -/
def openSocket (p : Page ρ δ σ) : Page ρ δ σ :=
  let opening : Page ρ δ σ :=
    { p with
      sockets := p.sockets ++ [⟨.connecting, [], []⟩]
      client := { p.client with ws := some p.sockets.length } }
  let cleared := opening.clearConnectTimeout
  { cleared.setTimeout (.connectTimeout p.sockets.length) connectTimeoutMs with
    client := { cleared.client with connectTimeout := some cleared.timers.count } }

/-- `active` is set and the reconnect timer cleared, whatever is with the socket. -/
def activate (p : Page ρ δ σ) : Page ρ δ σ :=
  clearReconnectTimeout { p with client := { p.client with active := true } }

/-- An exception of the constructor goes to the caller, after the reconnect timer was cleared. -/
def connect (p : Page ρ δ σ) : Page ρ δ σ :=
  if p.activate.busy then p.activate
  else if p.takesUrl p.client.url then p.activate.openSocket
  else p.activate

def disconnect (p : Page ρ δ σ) : Page ρ δ σ :=
  let off : Page ρ δ σ := { p with client := { p.client with active := false, connected := false, retryCount := 0 } }
  off.clearConnectTimeout.clearReconnectTimeout.clearHeartbeat.dropSocket.rejectAll "Disconnected"

def reconnectTo (url : String) (p : Page ρ δ σ) : Page ρ δ σ :=
  connect (disconnect { p with client := { p.client with url := url, reqId := 0, sendQueue := [], view := none } })

/-! ## Events -/

/-- `onopen`: what was queued is sent. -/
def handleOpen (s : Nat) (p : Page ρ δ σ) : Page ρ δ σ :=
  let cleared := p.clearConnectTimeout
  resetHeartbeat
    { cleared with
      sockets := cleared.sockets.modify s fun socket =>
        { socket with outgoing := socket.outgoing ++ cleared.client.sendQueue }
      client := { cleared.client with connected := true, sendQueue := [], retryCount := 0 } }

/-- `onmessage`. -/
def handleMessage (message : ServerMessage δ σ) (p : Page ρ δ σ) : Page ρ δ σ :=
  let seen := p.resetHeartbeat
  match message with
  | .state state => { seen with client := { seen.client with view := some state } }
  | .response reqId data =>
    match seen.client.pendingRequests.get reqId with
    | some row => seen.settleRequest (.ok data) row
    | none => seen
  | .other => seen

/-- `onclose`. -/
def handleClose (p : Page ρ δ σ) : Page ρ δ σ :=
  let cleared := p.clearConnectTimeout.clearHeartbeat
  let gone : Page ρ δ σ :=
    { cleared with client := { cleared.client with ws := none, connected := false, sendQueue := [] } }
  (gone.rejectAll "Disconnected").scheduleReconnect

/-- The callback of a request's timer. -/
def timeOut (id promise : Nat) (p : Page ρ δ σ) : Page ρ δ σ :=
  match p.client.pendingRequests.get id with
  | some _ => (p.deletePending id).settlePromise (.error "Request timed out") promise
  | none => p

/-- The callback of the heartbeat's timer. -/
def handleSilence (p : Page ρ δ σ) : Page ρ δ σ :=
  let dropped := p.dropSocket
  let gone : Page ρ δ σ := { dropped with client := { dropped.client with connected := false, sendQueue := [] } }
  (gone.rejectAll "Heartbeat timeout").scheduleReconnect

def runCallback (callback : Callback) (p : Page ρ δ σ) : Page ρ δ σ :=
  match callback with
  | .requestTimeout reqId promise => p.timeOut reqId promise
  | .connectTimeout s => if p.client.ws = some s ∧ p.readyState? s = some .connecting then p.close s else p
  | .heartbeat => p.handleSilence
  | .reconnect => connect { p with client := { p.client with reconnectTimeout := none } }

end Page

/-! ## Steps -/

inductive PageAct (ρ δ σ : Type) where
  | connect
  | disconnect
  | reconnectTo (url : String)
  | sendCommand (cmd : WsCommand)
  | sendRequest (request : ρ)
  | opened (s : Nat)
  | received (s : Nat)
  /-- `onclose`, after `onerror` if the connection has failed. -/
  | closed (s : Nat) (failed : Bool)
  | fired (timer : Nat)
  | visible
  | online
  | offline
  /-- The server takes the next message that was sent on the socket; a request has its response, or none if the
  server's end is lost meanwhile. -/
  | serve (s : Nat) (answer : Option δ)
  /-- The server sends a message that is no response. -/
  | push (s : Nat) (state : Option σ)

namespace Page

variable {ρ δ σ : Type}

/-- What the server sends back for a message. -/
def reply (answer : Option δ) : QueuedMessage ρ → List (ServerMessage δ σ)
  | .request id _ => (answer.map (.response id)).toList
  | .command _ => []

def takeOutgoing (answer : Option δ) (socket : Socket ρ δ σ) : Socket ρ δ σ :=
  match socket.outgoing with
  | [] => socket
  | message :: rest => { socket with outgoing := rest, incoming := socket.incoming ++ reply answer message }

/-- An event of a socket reaches the client only if the socket is the current one. -/
def ifCurrent (s : Nat) (handle : Page ρ δ σ → Page ρ δ σ) (p : Page ρ δ σ) : Page ρ δ σ :=
  if p.client.ws = some s then handle p else p

/-- One step; an event that cannot come changes nothing. -/
def next (act : PageAct ρ δ σ) (p : Page ρ δ σ) : Page ρ δ σ :=
  match act with
  | .connect => p.connect
  | .disconnect => p.disconnect
  | .reconnectTo url => p.reconnectTo url
  | .sendCommand cmd => p.sendCommand cmd
  | .sendRequest request => p.sendRequest request
  | .opened s =>
    if p.readyState? s = some .connecting then (p.setReadyState s .opened).ifCurrent s (handleOpen s) else p
  | .received s =>
    match p.sockets[s]? with
    | some ⟨.opened, _, message :: rest⟩ =>
      Page.ifCurrent s (handleMessage message)
        { p with sockets := p.sockets.modify s fun socket => { socket with incoming := rest } }
    | _ => p
  | .closed s failed =>
    if p.readyState? s = some .closed then p
    else
      let closed := p.setReadyState s .closed
      (if failed then closed.ifCurrent s clearConnectTimeout else closed).ifCurrent s handleClose
  | .fired timer =>
    match p.timers.get timer with
    | some t => (p.clearTimeout (some timer)).runCallback t.callback
    | none => p
  | .visible =>
    if p.client.connected = false ∧ p.client.active then
      connect (clearReconnectTimeout { p with client := { p.client with retryCount := 0 } })
    else p
  | .online => scheduleReconnect { p with onLine := true }
  | .offline => dropSocket { p with onLine := false }
  | .serve s answer => { p with sockets := p.sockets.modify s (takeOutgoing answer) }
  | .push s state =>
    { p with
      sockets := p.sockets.modify s fun socket =>
        { socket with incoming := socket.incoming ++ [(state.map ServerMessage.state).getD .other] } }

end Page

/-- A run from a new page, in whatever order the steps come. -/
structure PageRun (ρ δ σ : Type) where
  url : String
  takesUrl : String → Bool
  acts : List (PageAct ρ δ σ)

def PageRun.page {ρ δ σ : Type} (run : PageRun ρ δ σ) : Page ρ δ σ :=
  runAll Page.next run.acts (Page.new run.url run.takesUrl)

end Web

end Kanade

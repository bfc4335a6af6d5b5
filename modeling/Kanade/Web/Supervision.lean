import Kanade.Web.PageTimers

/-!
# Kanade.Web.Supervision

The connection of the web client, over any run.

* `Linked`: a client that is shown as connected has its heartbeat's timer armed, and the current socket is waited for.
* `Attended`: one that is not active waits for nothing, and a timer that is to connect again is armed.
* `Supervised`: there is one if a client that is active and online has no socket, unless `new WebSocket` threw.
* `connection_supervised`: along every run, in whatever order calls, timers and the browser's events come.
-/

namespace Kanade

namespace Web

open Concur Keyed

namespace Page

variable {ρ δ σ : Type} {p : Page ρ δ σ} {id s k : Nat} {row : PendingRequest} {callback : Callback} {delay : Nat}

/-- A timer is armed that runs the callback, after `delay` milliseconds at most. -/
def Armed (p : Page ρ δ σ) (callback : Callback) (delay : Nat) : Prop :=
  ∃ k timer, p.timers.get k = some timer ∧ timer.callback = callback ∧ timer.delay ≤ delay

structure Linked (p : Page ρ δ σ) : Prop where
  tidy : p.Tidy
  beats : p.client.connected = true → p.Armed .heartbeat heartbeatTimeoutMs
  current : ∀ s, p.client.ws = some s →
    p.readyState? s = some .connecting ∧ p.Armed (.connectTimeout s) connectTimeoutMs ∨
      p.readyState? s = some .opened ∧ p.client.connected = true ∨ p.readyState? s = some .closing

structure Attended (p : Page ρ δ σ) : Prop extends Linked p where
  idle : p.client.active = false →
    p.client.ws = none ∧ ∀ slot, (∀ id, slot ≠ .request id) → p.held slot = none
  retry : ∀ k, p.client.reconnectTimeout = some k → p.Armed .reconnect 5000

structure Supervised (p : Page ρ δ σ) : Prop extends Attended p where
  waits : p.client.active = true → p.onLine = true → p.takesUrl p.client.url = true → p.client.ws = none →
    p.Armed .reconnect 5000

/-! ## Armed -/

theorem Armed.mono {q : Page ρ δ σ} (h : p.Armed callback delay)
    (htimers : ∀ k timer, p.timers.get k = some timer → timer.callback = callback → q.timers.get k = some timer) :
    q.Armed callback delay := by
  obtain ⟨k, timer, hget, hcallback, hdelay⟩ := h
  exact ⟨k, timer, htimers k timer hget hcallback, hcallback, hdelay⟩

theorem Armed.setTimeout {callback' : Callback} {delay' : Nat} (h : p.Armed callback delay) :
    (p.setTimeout callback' delay').Armed callback delay :=
  h.mono fun _ _ hget _ => Timers.get_set_of_get hget

theorem armed_setTimeout (callback : Callback) {delay' : Nat} (hdelay : delay' ≤ delay) :
    (p.setTimeout callback delay').Armed callback delay := ⟨_, _, Timers.get_set_count, rfl, hdelay⟩

/-- A slot cleared leaves what is armed for the others. -/
theorem Armed.clear (slot : Slot) (h : p.Armed callback delay) (htidy : p.Tidy) (hslot : callback.slot ≠ slot) :
    (p.clearTimeout (p.held slot)).Armed callback delay :=
  h.mono fun _ _ hget hcallback => Held.get_clear htidy hget (hcallback ▸ hslot)

/-- What is armed is kept in its slot. -/
theorem Armed.held (h : p.Armed callback delay) (htidy : p.Tidy) : ∃ k, p.held callback.slot = some k := by
  obtain ⟨k, timer, hget, rfl, -⟩ := h
  exact ⟨k, htidy.owner k timer hget⟩

/-! ## Frames -/

/-- What the connection is about. -/
def link (p : Page ρ δ σ) : Bool × Bool × Option Nat × Bool × Bool × Option Nat × Option Nat × Option Nat :=
  (p.client.active, p.client.connected, p.client.ws, p.onLine, p.takesUrl p.client.url, p.client.reconnectTimeout,
    p.client.connectTimeout, p.client.heartbeatTimeout)

/-- Requests, their timers, and the sockets that are not the current one do not matter. -/
theorem Linked.frame {q : Page ρ δ σ} (h : Linked p) (htidy : q.Tidy) (hlink : q.link = p.link)
    (hready : ∀ s, p.client.ws = some s → q.readyState? s = p.readyState? s)
    (htimers : ∀ k timer, p.timers.get k = some timer → (∀ id, timer.callback.slot ≠ .request id) →
      q.timers.get k = some timer) : Linked q := by
  simp only [link, Prod.mk.injEq] at hlink
  obtain ⟨-, hconnected, hws, -, -, -, -, -⟩ := hlink
  have harmed : ∀ {callback delay}, (∀ id, callback.slot ≠ .request id) → p.Armed callback delay →
      q.Armed callback delay := fun hslot h => h.mono fun k timer hget hcallback =>
    htimers k timer hget (hcallback ▸ hslot)
  refine ⟨htidy, fun hbeats => ?_, fun s hs => ?_⟩
  · rw [hconnected] at hbeats
    exact harmed (fun _ heq => by cases heq) (h.beats hbeats)
  · rw [hws] at hs
    rw [hready s hs, hconnected]
    rcases h.current s hs with ⟨hstate, hconnect⟩ | hrest
    · exact .inl ⟨hstate, harmed (fun _ heq => by cases heq) hconnect⟩
    · exact .inr hrest

theorem Attended.frame {q : Page ρ δ σ} (h : Attended p) (htidy : q.Tidy) (hlink : q.link = p.link)
    (hready : ∀ s, p.client.ws = some s → q.readyState? s = p.readyState? s)
    (htimers : ∀ k timer, p.timers.get k = some timer → (∀ id, timer.callback.slot ≠ .request id) →
      q.timers.get k = some timer) : Attended q := by
  have hlinked := h.toLinked.frame htidy hlink hready htimers
  simp only [link, Prod.mk.injEq] at hlink
  obtain ⟨hactive, -, hws, -, -, hreconnect, hconnect, hheartbeat⟩ := hlink
  refine ⟨hlinked, fun hidle => ?_, fun k hk => ?_⟩
  · rw [hactive] at hidle
    obtain ⟨hnone, hslots⟩ := h.idle hidle
    refine ⟨hws.trans hnone, fun slot hslot => ?_⟩
    cases slot with
    | request id => exact absurd rfl (hslot id)
    | connect => exact hconnect.trans (hslots .connect hslot)
    | heartbeat => exact hheartbeat.trans (hslots .heartbeat hslot)
    | reconnect => exact hreconnect.trans (hslots .reconnect hslot)
  · rw [hreconnect] at hk
    refine (h.retry k hk).mono fun k timer hget hcallback => htimers k timer hget fun id heq => ?_
    rw [hcallback] at heq
    cases heq

theorem Supervised.frame {q : Page ρ δ σ} (h : Supervised p) (htidy : q.Tidy) (hlink : q.link = p.link)
    (hready : ∀ s, p.client.ws = some s → q.readyState? s = p.readyState? s)
    (htimers : ∀ k timer, p.timers.get k = some timer → (∀ id, timer.callback.slot ≠ .request id) →
      q.timers.get k = some timer) : Supervised q := by
  have hattended := h.toAttended.frame htidy hlink hready htimers
  simp only [link, Prod.mk.injEq] at hlink
  obtain ⟨hactive, -, hws, honLine, htakes, hreconnect, -, -⟩ := hlink
  refine ⟨hattended, fun ha ho ht hw => ?_⟩
  rw [hactive] at ha
  rw [honLine] at ho
  rw [htakes] at ht
  rw [hws] at hw
  obtain ⟨k, hk⟩ := (h.waits ha ho ht hw).held h.tidy
  exact hattended.retry k (hreconnect.trans hk)

theorem Attended.active_of_ws (h : Attended p) (hs : p.client.ws = some s) : p.client.active = true := by
  cases hactive : p.client.active with
  | true => rfl
  | false => cases (h.idle hactive).1.symm.trans hs

theorem Attended.active_of_armed (h : Attended p) (harmed : p.Armed callback delay)
    (hslot : ∀ id, callback.slot ≠ .request id) : p.client.active = true := by
  cases hactive : p.client.active with
  | true => rfl
  | false =>
    obtain ⟨k, hk⟩ := harmed.held h.tidy
    cases ((h.idle hactive).2 _ hslot).symm.trans hk

/-! ## Requests -/

theorem get_settleRequest {outcome : Except String δ} {timer : Timer Callback} (h : p.Tidy)
    (hrow : p.client.pendingRequests.get id = some row) (hget : p.timers.get k = some timer)
    (hslot : ∀ id, timer.callback.slot ≠ .request id) : (p.settleRequest outcome row).timers.get k = some timer := by
  have hcleared := Held.get_clear h hget (hslot id)
  rwa [held_request hrow] at hcleared

theorem Attended.settleRequest {outcome : Except String δ} (h : Attended p)
    (hrow : p.client.pendingRequests.get id = some row) : Attended (p.settleRequest outcome row) :=
  h.frame (h.tidy.settleRequest hrow) rfl (fun _ _ => rfl) fun _ _ => get_settleRequest h.tidy hrow

theorem Attended.rejectAll {error : String} (h : Attended p) : Attended (p.rejectAll error) :=
  rejectAll_induction h fun _ _ _ hq hrow => hq.settleRequest hrow

theorem Supervised.settleRequest {outcome : Except String δ} (h : Supervised p)
    (hrow : p.client.pendingRequests.get id = some row) : Supervised (p.settleRequest outcome row) :=
  h.frame (h.tidy.settleRequest hrow) rfl (fun _ _ => rfl) fun _ _ => get_settleRequest h.tidy hrow

theorem Supervised.rejectAll {error : String} (h : Supervised p) : Supervised (p.rejectAll error) :=
  rejectAll_induction h fun _ _ _ hq hrow => hq.settleRequest hrow

theorem Supervised.queue {message : QueuedMessage ρ} (h : Supervised p) : Supervised (p.queue message) := by
  have hrejected : Supervised p.rejectDropped := by
    obtain heq | ⟨id, row, error, hrow, heq⟩ := rejectDropped_cases p
    · rwa [heq]
    · rw [heq]
      exact h.settleRequest hrow
  have htidy := h.tidy.queue message
  unfold Page.queue at htidy ⊢
  dsimp only at htidy ⊢
  split
  · rename_i hfull
    rw [if_pos hfull] at htidy
    exact hrejected.frame htidy rfl (fun _ _ => rfl) fun _ _ hget _ => hget
  · rename_i hfull
    rw [if_neg hfull] at htidy
    exact h.frame htidy rfl (fun _ _ => rfl) fun _ _ hget _ => hget

/-- A socket may carry more, or less. -/
theorem Supervised.modifySocket (h : Supervised p) (change : Socket ρ δ σ → Socket ρ δ σ)
    (hchange : ∀ socket, (change socket).readyState = socket.readyState) :
    Supervised { p with sockets := p.sockets.modify s change } := by
  refine h.frame h.tidy rfl (fun s' _ => ?_) fun _ _ hget _ => hget
  unfold readyState?
  rw [List.getElem?_modify]
  cases p.sockets[s']? with
  | none => rfl
  | some socket =>
    by_cases hs : s = s'
    · simp [hs, hchange]
    · simp [hs]

theorem Supervised.sendMessage {message : QueuedMessage ρ} {p' : Page ρ δ σ} (h : Supervised p)
    (hsent : p.sendMessage message = some p') : Supervised p' := by
  obtain rfl | ⟨s, rfl⟩ | rfl := sendMessage_cases hsent
  · exact h
  · exact h.modifySocket (fun socket => { socket with outgoing := socket.outgoing ++ [message] }) fun _ => rfl
  · exact h.queue

theorem Supervised.sendCommand {cmd : WsCommand} (h : Supervised p) : Supervised (p.sendCommand cmd) := by
  unfold Page.sendCommand
  cases hsent : p.sendMessage (.command cmd) with
  | none => exact h
  | some p' => exact h.sendMessage hsent

theorem Supervised.sendRequest {Answers : ρ → δ → Prop} {request : ρ} (h : Supervised p)
    (hpaired : Paired Answers p) : Supervised (p.sendRequest request) := by
  have hregister : Supervised (p.register request) :=
    h.frame (h.tidy.register hpaired request) rfl (fun _ _ => rfl) fun _ _ hget _ => Timers.get_set_of_get hget
  unfold Page.sendRequest
  cases hsent : (p.register request).sendMessage (.request (p.client.reqId + 1) request) with
  | some p' => exact hregister.sendMessage hsent
  | none => exact hregister.frame hregister.tidy rfl (fun _ _ => rfl) fun _ _ hget _ => hget

/-! ## Connecting -/

theorem Attended.scheduleReconnect (h : Attended p) : Supervised p.scheduleReconnect := by
  have htidy := h.tidy.scheduleReconnect
  unfold Page.scheduleReconnect at htidy ⊢
  split
  · rename_i hoff
    refine ⟨h, fun hactive _ _ _ => ?_⟩
    rcases hoff with hoff | hoff
    · cases hactive.symm.trans hoff
    · obtain ⟨k, hk⟩ := Option.ne_none_iff_exists'.1 hoff
      exact h.retry k hk
  · rename_i hnot
    rw [if_neg hnot] at htidy
    have hactive : p.client.active = true := by
      cases hactive : p.client.active with
      | true => rfl
      | false => exact absurd (.inl hactive) hnot
    have hdelay : reconnectDelay p.client.retryCount ≤ 5000 := by
      unfold reconnectDelay
      split <;> omega
    refine ⟨⟨⟨htidy, ?_, ?_⟩, ?_, ?_⟩, ?_⟩
    · intro hconnected
      exact (h.beats hconnected).setTimeout
    · intro s hs
      rcases h.current s hs with ⟨hstate, hconnect⟩ | hrest
      · exact .inl ⟨hstate, hconnect.setTimeout⟩
      · exact .inr hrest
    · intro hidle
      cases hactive.symm.trans hidle
    · intro _ _
      exact armed_setTimeout .reconnect hdelay
    · intro _ _ _ _
      exact armed_setTimeout .reconnect hdelay

theorem readyState?_new {socket : Socket ρ δ σ} {client : WsClient ρ σ} {timers : Timers Callback} :
    (⟨client, p.sockets ++ [socket], timers, p.promises, p.onLine, p.takesUrl⟩ : Page ρ δ σ).readyState?
      p.sockets.length = some socket.readyState := by
  unfold readyState?
  rw [List.getElem?_concat_length]
  rfl

theorem Linked.activate (h : Linked p) : Attended p.activate := by
  refine ⟨⟨h.tidy.clearReconnectTimeout, ?_, ?_⟩, ?_, ?_⟩
  · intro hconnected
    exact (h.beats hconnected).clear .reconnect h.tidy fun heq => by cases heq
  · intro s hs
    rcases h.current s hs with ⟨hstate, hconnect⟩ | hrest
    · exact .inl ⟨hstate, hconnect.clear .reconnect h.tidy fun heq => by cases heq⟩
    · exact .inr hrest
  · intro hidle
    cases hidle
  · intro k hk
    cases hk

theorem Attended.openSocket (h : Attended p) (hactive : p.client.active = true) : Supervised p.openSocket := by
  refine ⟨⟨⟨h.tidy.openSocket, ?_, ?_⟩, ?_, ?_⟩, ?_⟩
  · intro hconnected
    have hcleared := (h.beats hconnected).clear .connect h.tidy fun heq => by cases heq
    exact hcleared.setTimeout
  · intro s hs
    cases hs
    exact .inl ⟨readyState?_new, armed_setTimeout _ (Nat.le_refl _)⟩
  · intro hidle
    cases hactive.symm.trans hidle
  · intro k hk
    have hcleared := (h.retry k hk).clear .connect h.tidy fun heq => by cases heq
    exact hcleared.setTimeout
  · intro _ _ _ hnone
    cases hnone

/-- With a socket that is there, a new one, or an exception. -/
theorem Linked.connect (h : Linked p) : Supervised p.connect := by
  have hattended := h.activate
  unfold Page.connect
  split
  · rename_i hbusy
    refine ⟨hattended, fun _ _ _ hnone => ?_⟩
    unfold busy at hbusy
    rw [hnone] at hbusy
    cases hbusy
  split
  · exact hattended.openSocket rfl
  · rename_i hthrows
    exact ⟨hattended, fun _ _ htakes _ => absurd htakes hthrows⟩

theorem Linked.clearReconnectTimeout (h : Linked p) : Linked p.clearReconnectTimeout := by
  refine ⟨h.tidy.clearReconnectTimeout, ?_, ?_⟩
  · intro hconnected
    exact (h.beats hconnected).clear .reconnect h.tidy fun heq => by cases heq
  · intro s hs
    rcases h.current s hs with ⟨hstate, hconnect⟩ | hrest
    · exact .inl ⟨hstate, hconnect.clear .reconnect h.tidy fun heq => by cases heq⟩
    · exact .inr hrest

/-- A client that is not active and waits for nothing drops its socket. -/
theorem Tidy.dropped_supervised (h : p.Tidy) (hactive : p.client.active = false) (hconnected : p.client.connected = false)
    (hslots : ∀ slot, (∀ id, slot ≠ .request id) → p.held slot = none) : Supervised p.dropSocket := by
  have hkeeps : (p.dropSocket.client.active, p.dropSocket.client.connected, p.dropSocket.held) =
      (p.client.active, p.client.connected, p.held) :=
    dropSocket_keeps (fun q : Page ρ δ σ => (q.client.active, q.client.connected, q.held)) (fun _ _ _ => rfl)
      fun _ => rfl
  simp only [Prod.mk.injEq] at hkeeps
  obtain ⟨hactive', hconnected', hheld⟩ := hkeeps
  refine ⟨⟨⟨h.dropSocket, ?_, ?_⟩, ?_, ?_⟩, ?_⟩
  · intro hbeats
    cases (hconnected'.trans hconnected).symm.trans hbeats
  · intro s hs
    cases ws_dropSocket.symm.trans hs
  · intro _
    refine ⟨ws_dropSocket, fun slot hslot => ?_⟩
    rw [hheld]
    exact hslots slot hslot
  · intro k hk
    have hnone : p.dropSocket.held .reconnect = none := by
      rw [hheld]
      exact hslots .reconnect fun id heq => by cases heq
    cases hnone.symm.trans hk
  · intro hon
    cases (hactive'.trans hactive).symm.trans hon

/-- Whatever there was. -/
theorem Tidy.disconnect_supervised (h : p.Tidy) : Supervised p.disconnect := by
  have hoff : Tidy { p with client := { p.client with active := false, connected := false, retryCount := 0 } } := h
  unfold Page.disconnect
  refine Supervised.rejectAll (hoff.clearConnectTimeout.clearReconnectTimeout.clearHeartbeat.dropped_supervised rfl rfl ?_)
  intro slot hslot
  cases slot with
  | request id => exact absurd rfl (hslot id)
  | connect => rfl
  | heartbeat => rfl
  | reconnect => rfl

/-! ## Events -/

theorem readyState?_setReadyState {s' : Nat} {readyState : ReadyState} :
    (p.setReadyState s readyState).readyState? s' =
      if s = s' then (p.readyState? s').map fun _ => readyState else p.readyState? s' := by
  unfold readyState? setReadyState
  rw [List.getElem?_modify]
  by_cases hs : s = s'
  · simp [hs, Function.comp_def]
  · simp [hs]

theorem Supervised.setReadyState_other {readyState : ReadyState} (h : Supervised p) (hs : p.client.ws ≠ some s) :
    Supervised (p.setReadyState s readyState) := by
  refine h.frame h.tidy rfl (fun s' hs' => ?_) fun _ _ hget _ => hget
  rw [readyState?_setReadyState, if_neg]
  intro heq
  exact hs (heq ▸ hs')

theorem Supervised.opened (h : Supervised p) (hs : p.client.ws = some s)
    (hstate : p.readyState? s = some .connecting) : Supervised ((p.setReadyState s .opened).handleOpen s) := by
  have htidy : (p.setReadyState s .opened).Tidy := h.tidy
  have hactive := h.active_of_ws hs
  refine ⟨⟨⟨htidy.handleOpen, ?_, ?_⟩, ?_, ?_⟩, ?_⟩
  · intro _
    exact armed_setTimeout .heartbeat (Nat.le_refl _)
  · intro s' hs'
    cases hs.symm.trans hs'
    refine .inr (.inl ⟨?_, rfl⟩)
    have hopen : (p.setReadyState s .opened).readyState? s = some .opened := by
      rw [readyState?_setReadyState, if_pos rfl, hstate]
      rfl
    unfold readyState? at hopen
    show Option.map _ ((List.modify _ s _)[s]?) = _
    rw [List.getElem?_modify_eq, Option.map_eq_map, Option.map_map]
    exact hopen
  · intro hidle
    cases hactive.symm.trans hidle
  · intro k hk
    have hconnect : p.clearConnectTimeout.Armed .reconnect 5000 :=
      (h.retry k hk).clear .connect h.tidy fun heq => by cases heq
    have hheartbeat := hconnect.clear .heartbeat h.tidy.clearConnectTimeout fun heq => by cases heq
    exact hheartbeat.setTimeout
  · intro _ _ _ hnone
    cases hs.symm.trans hnone

theorem Tidy.closed_supervised (h : p.Tidy) (hactive : p.client.active = true)
    (hretry : ∀ k, p.client.reconnectTimeout = some k → p.Armed .reconnect 5000) : Supervised p.handleClose := by
  unfold Page.handleClose
  refine (Attended.rejectAll ?_).scheduleReconnect
  refine ⟨⟨h.clearConnectTimeout.clearHeartbeat, ?_, ?_⟩, ?_, ?_⟩
  · intro hconnected
    cases hconnected
  · intro s hs
    cases hs
  · intro hidle
    cases hactive.symm.trans hidle
  · intro k hk
    have hconnect : p.clearConnectTimeout.Armed .reconnect 5000 :=
      (hretry k hk).clear .connect h fun heq => by cases heq
    exact hconnect.clear .heartbeat h.clearConnectTimeout fun heq => by cases heq

theorem Tidy.silent_supervised (h : p.Tidy) (hactive : p.client.active = true)
    (hretry : ∀ k, p.client.reconnectTimeout = some k → p.Armed .reconnect 5000) : Supervised p.handleSilence := by
  have hkeeps : (p.dropSocket.timers, p.dropSocket.client.active, p.dropSocket.client.reconnectTimeout) =
      (p.timers, p.client.active, p.client.reconnectTimeout) :=
    dropSocket_keeps (fun q : Page ρ δ σ => (q.timers, q.client.active, q.client.reconnectTimeout))
      (fun _ _ _ => rfl) fun _ => rfl
  simp only [Prod.mk.injEq] at hkeeps
  obtain ⟨htimers, hactive', hreconnect⟩ := hkeeps
  unfold Page.handleSilence
  refine (Attended.rejectAll ?_).scheduleReconnect
  refine ⟨⟨h.dropSocket, ?_, ?_⟩, ?_, ?_⟩
  · intro hconnected
    cases hconnected
  · intro s hs
    cases ws_dropSocket.symm.trans hs
  · intro hidle
    cases (hactive'.trans hactive).symm.trans hidle
  · intro k hk
    refine (hretry k (hreconnect ▸ hk)).mono fun k timer hget _ => ?_
    show p.dropSocket.timers.get k = some timer
    rw [htimers]
    exact hget

theorem Supervised.resetHeartbeat (h : Supervised p) (hs : p.client.ws = some s) : Supervised p.resetHeartbeat := by
  refine ⟨⟨⟨h.tidy.resetHeartbeat, ?_, ?_⟩, ?_, ?_⟩, ?_⟩
  · intro _
    exact armed_setTimeout .heartbeat (Nat.le_refl _)
  · intro s' hs'
    rcases h.current s' hs' with ⟨hstate, hconnect⟩ | hrest
    · have hcleared := hconnect.clear .heartbeat h.tidy fun heq => by cases heq
      exact .inl ⟨hstate, hcleared.setTimeout⟩
    · exact .inr hrest
  · intro hidle
    cases (h.active_of_ws hs).symm.trans hidle
  · intro k hk
    have hcleared := (h.retry k hk).clear .heartbeat h.tidy fun heq => by cases heq
    exact hcleared.setTimeout
  · intro _ _ _ hnone
    cases hs.symm.trans hnone

theorem Supervised.handleMessage {message : ServerMessage δ σ} (h : Supervised p) (hs : p.client.ws = some s) :
    Supervised (p.handleMessage message) := by
  have hseen := h.resetHeartbeat hs
  unfold Page.handleMessage
  cases message with
  | state state => exact hseen.frame hseen.tidy rfl (fun _ _ => rfl) fun _ _ hget _ => hget
  | other => exact hseen
  | response id data =>
    dsimp only
    split
    · rename_i row hrow
      exact hseen.settleRequest hrow
    · exact hseen

theorem Supervised.offline (h : Supervised p) : Supervised (dropSocket { p with onLine := false }) := by
  generalize hq : ({ p with onLine := false } : Page ρ δ σ) = q
  have hkeeps : (q.dropSocket.timers, q.dropSocket.client.active, q.dropSocket.client.connected, q.dropSocket.onLine,
      q.dropSocket.held) = (p.timers, p.client.active, p.client.connected, false, p.held) := by
    rw [dropSocket_keeps (fun q : Page ρ δ σ => (q.timers, q.client.active, q.client.connected, q.onLine, q.held))
      (fun _ _ _ => rfl) fun _ => rfl, ← hq]
    rfl
  simp only [Prod.mk.injEq] at hkeeps
  obtain ⟨htimers, hactive, hconnected, honLine, hheld⟩ := hkeeps
  have harmed : ∀ {callback delay}, p.Armed callback delay → q.dropSocket.Armed callback delay := fun h =>
    h.mono fun _ _ hget _ => htimers ▸ hget
  have htidy : q.Tidy := by
    rw [← hq]
    exact h.tidy
  refine ⟨⟨⟨htidy.dropSocket, ?_, ?_⟩, ?_, ?_⟩, ?_⟩
  · intro hbeats
    exact harmed (h.beats (hconnected ▸ hbeats))
  · intro s hs
    cases ws_dropSocket.symm.trans hs
  · intro hidle
    refine ⟨ws_dropSocket, fun slot hslot => ?_⟩
    rw [hheld]
    exact (h.idle (hactive ▸ hidle)).2 slot hslot
  · intro k hk
    exact harmed (h.retry k ((congrFun hheld .reconnect).symm.trans hk))
  · intro _ hon
    cases honLine.symm.trans hon

/-! ## Timers -/

/-- What runs and what is armed for other slots. -/
theorem get_ran {timer timer' : Timer Callback} {k' : Nat} (h : p.Tidy) (htimer : p.timers.get k = some timer)
    (hget : p.timers.get k' = some timer') (hslot : timer'.callback.slot ≠ timer.callback.slot) :
    (p.clearTimeout (some k)).timers.get k' = some timer' := by
  have hcleared := Held.get_clear h hget hslot
  rwa [h.owner k timer htimer] at hcleared

theorem Supervised.timedOut {promise : Nat} {timer : Timer Callback} (h : Supervised p)
    (htimer : p.timers.get k = some timer) (hcallback : timer.callback = .requestTimeout id promise) :
    Supervised ((p.clearTimeout (some k)).runCallback (.requestTimeout id promise)) := by
  have htidy := h.tidy.fired htimer
  rw [hcallback] at htidy
  have hget : ∀ k' timer', p.timers.get k' = some timer' → (∀ id, timer'.callback.slot ≠ .request id) →
      (p.clearTimeout (some k)).timers.get k' = some timer' := by
    intro k' timer' hget hslot
    refine get_ran h.tidy htimer hget ?_
    rw [hcallback]
    exact hslot id
  unfold runCallback timeOut at htidy ⊢
  dsimp only at htidy ⊢
  split
  · rename_i row hrow
    rw [hrow] at htidy
    exact h.frame htidy rfl (fun _ _ => rfl) hget
  · rename_i hrow
    rw [hrow] at htidy
    exact h.frame htidy rfl (fun _ _ => rfl) hget

/-- The one socket that a connect timer is armed for is closed, if it is still connecting. -/
theorem Supervised.connectTimedOut {timer : Timer Callback} (h : Supervised p) (htimer : p.timers.get k = some timer)
    (hcallback : timer.callback = .connectTimeout s) :
    Supervised ((p.clearTimeout (some k)).runCallback (.connectTimeout s)) := by
  have htidy := h.tidy.fired htimer
  rw [hcallback] at htidy
  have harmed : ∀ {callback delay}, callback.slot ≠ .connect → p.Armed callback delay →
      (p.clearTimeout (some k)).Armed callback delay := by
    intro callback delay hslot harmed
    refine harmed.mono fun k' timer' hget hcallback' => get_ran h.tidy htimer hget ?_
    rw [hcallback, hcallback']
    exact hslot
  have honly : ∀ s', p.Armed (.connectTimeout s') connectTimeoutMs → s' = s := by
    intro s' hs'
    obtain ⟨k', timer', hget, hcallback', -⟩ := hs'
    have howner := h.tidy.owner k timer htimer
    have howner' := h.tidy.owner k' timer' hget
    rw [hcallback] at howner
    rw [hcallback'] at howner'
    cases howner.symm.trans howner'
    cases htimer.symm.trans hget
    rw [hcallback] at hcallback'
    cases hcallback'
    rfl
  unfold runCallback at htidy ⊢
  dsimp only at htidy ⊢
  split
  · rename_i hstill
    have hactive := h.active_of_ws hstill.1
    have hclose : (p.clearTimeout (some k)).close s = (p.clearTimeout (some k)).setReadyState s .closing := by
      unfold Page.close
      rw [hstill.2]
    rw [if_pos hstill, hclose] at htidy
    rw [hclose]
    refine ⟨⟨⟨htidy, ?_, ?_⟩, ?_, ?_⟩, ?_⟩
    · intro hconnected
      exact harmed (fun heq => by cases heq) (h.beats hconnected)
    · intro s' hs'
      cases hstill.1.symm.trans hs'
      right
      right
      rw [readyState?_setReadyState, if_pos rfl, hstill.2]
      rfl
    · intro hidle
      cases hactive.symm.trans hidle
    · intro k' hk'
      exact harmed (fun heq => by cases heq) (h.retry k' hk')
    · intro _ _ _ hnone
      cases hstill.1.symm.trans hnone
  · rename_i hnot
    rw [if_neg hnot] at htidy
    refine ⟨⟨⟨htidy, ?_, ?_⟩, ?_, ?_⟩, ?_⟩
    · intro hconnected
      exact harmed (fun heq => by cases heq) (h.beats hconnected)
    · intro s' hs'
      rcases h.current s' hs' with ⟨hstate, hconnect⟩ | hrest
      · cases honly s' hconnect
        exact absurd ⟨hs', hstate⟩ hnot
      · exact .inr hrest
    · exact h.idle
    · intro k' hk'
      exact harmed (fun heq => by cases heq) (h.retry k' hk')
    · intro ha ho ht hw
      exact harmed (fun heq => by cases heq) (h.waits ha ho ht hw)

theorem Supervised.fired {timer : Timer Callback} (h : Supervised p) (htimer : p.timers.get k = some timer) :
    Supervised ((p.clearTimeout (some k)).runCallback timer.callback) := by
  have howner := h.tidy.owner k timer htimer
  cases hcallback : timer.callback with
  | requestTimeout id promise => exact h.timedOut htimer hcallback
  | connectTimeout s => exact h.connectTimedOut htimer hcallback
  | heartbeat =>
    have hactive : p.client.active = true :=
      h.active_of_armed ⟨k, timer, htimer, hcallback, Nat.le_refl _⟩ fun _ heq => by cases heq
    refine (h.tidy.ran htimer).silent_supervised hactive fun k' hk' => ?_
    refine (h.retry k' hk').mono fun k'' timer' hget hcallback' => get_ran h.tidy htimer hget ?_
    rw [hcallback, hcallback']
    intro heq
    cases heq
  | reconnect =>
    have hcleared := h.toLinked.clearReconnectTimeout
    unfold Page.clearReconnectTimeout at hcleared
    rw [hcallback] at howner
    rw [show p.client.reconnectTimeout = some k from howner] at hcleared
    exact hcleared.connect

/-! ## Runs -/

namespace Supervised

theorem new (url : String) (takesUrl : String → Bool) : Supervised (Page.new url takesUrl : Page ρ δ σ) := by
  refine ⟨⟨⟨Tidy.new url takesUrl, ?_, ?_⟩, ?_, ?_⟩, ?_⟩
  · intro hconnected
    cases hconnected
  · intro s hs
    cases hs
  · intro _
    refine ⟨rfl, fun slot hslot => ?_⟩
    cases slot with
    | request id => exact absurd rfl (hslot id)
    | connect => rfl
    | heartbeat => rfl
    | reconnect => rfl
  · intro k hk
    cases hk
  · intro hactive
    cases hactive

theorem opening (h : Supervised p) (hstate : p.readyState? s = some .connecting) :
    Supervised ((p.setReadyState s .opened).ifCurrent s (handleOpen s)) := by
  unfold Page.ifCurrent
  split
  · rename_i hs
    exact h.opened hs hstate
  · rename_i hs
    exact h.setReadyState_other hs

theorem closed (h : Supervised p) (failed : Bool) :
    Supervised (Page.ifCurrent s handleClose
      (if failed then (p.setReadyState s .closed).ifCurrent s Page.clearConnectTimeout
        else p.setReadyState s .closed)) := by
  have htidy : (p.setReadyState s .closed).Tidy := h.tidy
  by_cases hs : p.client.ws = some s
  · have hactive := h.active_of_ws hs
    have hcurrent : (p.setReadyState s .closed).client.ws = some s := hs
    have hcleared : (p.setReadyState s .closed).clearConnectTimeout.client.ws = some s := hs
    cases failed with
    | true =>
      rw [if_pos rfl, Page.ifCurrent, Page.ifCurrent, if_pos hcurrent, if_pos hcleared]
      refine htidy.clearConnectTimeout.closed_supervised hactive fun k hk => ?_
      exact (h.retry k hk).clear .connect h.tidy fun heq => by cases heq
    | false =>
      rw [if_neg Bool.false_ne_true, Page.ifCurrent, if_pos hcurrent]
      exact htidy.closed_supervised hactive h.retry
  · have hother : (p.setReadyState s .closed).client.ws ≠ some s := hs
    have hnot : ∀ handle, (p.setReadyState s .closed).ifCurrent s handle = p.setReadyState s .closed :=
      fun handle => if_neg hother
    rw [hnot, ite_self, hnot]
    exact h.setReadyState_other hs

theorem received {message : ServerMessage δ σ} {rest : List (ServerMessage δ σ)} (h : Supervised p) :
    Supervised (Page.ifCurrent s (Page.handleMessage message)
      { p with sockets := p.sockets.modify s fun socket => { socket with incoming := rest } }) := by
  have htaken := h.modifySocket (s := s) (fun socket => { socket with incoming := rest }) fun _ => rfl
  unfold Page.ifCurrent
  split
  · rename_i hs
    exact htaken.handleMessage hs
  · exact htaken

theorem next {Answers : ρ → δ → Prop} {act : PageAct ρ δ σ} (h : Supervised p) (hpaired : Paired Answers p) :
    Supervised (Page.next act p) := by
  cases act with
  | connect => exact h.toLinked.connect
  | disconnect => exact h.tidy.disconnect_supervised
  | reconnectTo url =>
    have htidy : Tidy { p with client := { p.client with url := url, reqId := 0, sendQueue := [], view := none } } :=
      h.tidy
    exact htidy.disconnect_supervised.toLinked.connect
  | sendCommand cmd => exact h.sendCommand
  | sendRequest request => exact h.sendRequest hpaired
  | opened s =>
    unfold Page.next
    dsimp only
    split
    · rename_i hstate
      exact h.opening hstate
    · exact h
  | received s =>
    unfold Page.next
    dsimp only
    split
    · exact h.received
    · exact h
  | closed s failed =>
    unfold Page.next
    dsimp only
    split
    · exact h
    · exact h.closed failed
  | fired timer =>
    unfold Page.next
    dsimp only
    split
    · rename_i t ht
      exact h.fired ht
    · exact h
  | visible =>
    unfold Page.next
    dsimp only
    split
    · have hlinked : Linked { p with client := { p.client with retryCount := 0 } } := ⟨h.tidy, h.beats, h.current⟩
      exact hlinked.clearReconnectTimeout.connect
    · exact h
  | online =>
    have hattended : Attended { p with onLine := true } := ⟨⟨h.tidy, h.beats, h.current⟩, h.idle, h.retry⟩
    exact hattended.scheduleReconnect
  | offline => exact h.offline
  | serve s answer =>
    refine h.modifySocket (takeOutgoing answer) fun socket => ?_
    unfold takeOutgoing
    split <;> rfl
  | push s state => exact h.modifySocket _ fun _ => rfl

theorem run (run : PageRun ρ δ σ) : Supervised run.page := by
  have hrun : Paired (fun _ _ => True) run.page ∧ Supervised run.page := by
    refine runAll_keeps (I := fun p => Paired (fun _ _ => True) p ∧ Supervised p) ?_ run.acts
      ⟨Paired.new _ _, new _ _⟩
    intro act p ⟨hpaired, h⟩
    exact ⟨hpaired.next fun _ _ _ _ _ _ _ _ => trivial, h.next hpaired⟩
  exact hrun.2

end Supervised

/-- A client that is not active has no socket and no timer but those of requests; one that is active and online waits
for its current socket or for the timer that connects again, or its URL is one that `new WebSocket` throws on; and
while it is shown as connected the heartbeat's timer is armed. There is never a second timer for the same. -/
theorem connection_supervised (run : PageRun ρ δ σ) :
    (run.page.client.active = false → run.page.client.ws = none ∧
      ∀ k timer, run.page.timers.get k = some timer → ∃ id promise, timer.callback = .requestTimeout id promise) ∧
    (run.page.client.active = true → run.page.onLine = true →
      run.page.takesUrl run.page.client.url = false ∨ run.page.Armed .reconnect 5000 ∨
        ∃ s, run.page.client.ws = some s ∧
          (run.page.readyState? s = some .connecting ∧ run.page.Armed (.connectTimeout s) connectTimeoutMs ∨
            run.page.readyState? s = some .opened ∧ run.page.Armed .heartbeat heartbeatTimeoutMs ∨
            run.page.readyState? s = some .closing)) ∧
    (run.page.client.connected = true → run.page.Armed .heartbeat heartbeatTimeoutMs) ∧
    ∀ k k' timer timer', run.page.timers.get k = some timer → run.page.timers.get k' = some timer' →
      timer.callback.slot = timer'.callback.slot → k = k' := by
  have h := Supervised.run run
  generalize run.page = p at h ⊢
  refine ⟨fun hidle => ⟨(h.idle hidle).1, fun k timer hget => ?_⟩, fun hactive hon => ?_, h.beats,
    fun k k' timer timer' hget hget' hslot => ?_⟩
  · have howner := h.tidy.owner k timer hget
    cases hcallback : timer.callback with
    | requestTimeout id promise => exact ⟨id, promise, rfl⟩
    | connectTimeout s =>
      rw [hcallback] at howner
      cases ((h.idle hidle).2 .connect fun id heq => by cases heq).symm.trans howner
    | heartbeat =>
      rw [hcallback] at howner
      cases ((h.idle hidle).2 .heartbeat fun id heq => by cases heq).symm.trans howner
    | reconnect =>
      rw [hcallback] at howner
      cases ((h.idle hidle).2 .reconnect fun id heq => by cases heq).symm.trans howner
  · cases hws : p.client.ws with
    | none =>
      cases htakes : p.takesUrl p.client.url with
      | true => exact .inr (.inl (h.waits hactive hon htakes hws))
      | false => exact .inl rfl
    | some s =>
      refine .inr (.inr ⟨s, rfl, ?_⟩)
      rcases h.current s hws with hconnecting | ⟨hopened, hconnected⟩ | hclosing
      · exact .inl hconnecting
      · exact .inr (.inl ⟨hopened, h.beats hconnected⟩)
      · exact .inr (.inr hclosing)
  · have howner := h.tidy.owner k timer hget
    rw [hslot, h.tidy.owner k' timer' hget'] at howner
    exact (Option.some.inj howner).symm

end Page

end Web

end Kanade

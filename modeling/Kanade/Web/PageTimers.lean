import Kanade.Web.Pairing

/-!
# Kanade.Web.PageTimers

The timers of the web client.

* `Page.held`: where the client keeps the number of a timer, by what the timer is for.
* `Tidy`: an armed timer is the one that is kept there; so there is at most one for each purpose.
* `Tidy.next`: every step keeps it.
-/

namespace Kanade

namespace Web

open Concur Keyed

/-- What a timer is for. -/
inductive Slot where
  | request (id : Nat)
  | connect
  | heartbeat
  | reconnect
deriving DecidableEq

def Callback.slot : Callback → Slot
  | .requestTimeout id _ => .request id
  | .connectTimeout _ => .connect
  | .heartbeat => .heartbeat
  | .reconnect => .reconnect

namespace Page

variable {ρ δ σ : Type} {Answers : ρ → δ → Prop} {p : Page ρ δ σ} {id s k : Nat} {row : PendingRequest}

def held (p : Page ρ δ σ) : Slot → Option Nat
  | .request id => (p.client.pendingRequests.get id).map PendingRequest.timeoutId
  | .connect => p.client.connectTimeout
  | .heartbeat => p.client.heartbeatTimeout
  | .reconnect => p.client.reconnectTimeout

def Tidy (p : Page ρ δ σ) : Prop := Held Callback.slot p.held p.timers

theorem held_request (h : p.client.pendingRequests.get id = some row) :
    p.held (.request id) = some row.timeoutId := by
  unfold held
  simp only [h, Option.map_some]

theorem held_deletePending (slot : Slot) :
    (p.deletePending id).held slot = if slot = .request id then none else p.held slot := by
  cases slot with
  | request id' =>
    unfold held deletePending
    simp only [Table.get_restrict, Slot.request.injEq]
    by_cases hid : id' = id
    · simp [hid]
    · simp [hid]
  | connect => rfl
  | heartbeat => rfl
  | reconnect => rfl

/-- An entry is deleted with its timer. -/
theorem Tidy.deletePending (h : p.Tidy) (id : Nat) :
    Tidy ((p.clearTimeout (p.held (.request id))).deletePending id) := by
  refine Held.clear (s := .request id) h (fun slot hslot => ?_) ?_
  · exact (held_deletePending (p := p) slot).trans (if_neg hslot)
  · exact (held_deletePending (p := p) _).trans (if_pos rfl)

namespace Tidy

theorem new (url : String) (takesUrl : String → Bool) : Tidy (Page.new url takesUrl : Page ρ δ σ) := by
  have hheld : (Page.new url takesUrl : Page ρ δ σ).held = fun _ => none := by
    funext slot
    cases slot <;> rfl
  unfold Tidy
  rw [hheld]
  exact Held.empty

theorem clearReconnectTimeout (h : p.Tidy) : p.clearReconnectTimeout.Tidy := by
  refine Held.clear (s := .reconnect) h (fun slot hslot => ?_) ?_
  · cases slot with
    | reconnect => exact absurd rfl hslot
    | request id => rfl
    | connect => rfl
    | heartbeat => rfl
  · rfl

theorem clearConnectTimeout (h : p.Tidy) : p.clearConnectTimeout.Tidy := by
  refine Held.clear (s := .connect) h (fun slot hslot => ?_) ?_
  · cases slot with
    | connect => exact absurd rfl hslot
    | request id => rfl
    | heartbeat => rfl
    | reconnect => rfl
  · rfl

theorem clearHeartbeat (h : p.Tidy) : p.clearHeartbeat.Tidy := by
  refine Held.clear (s := .heartbeat) h (fun slot hslot => ?_) ?_
  · cases slot with
    | heartbeat => exact absurd rfl hslot
    | request id => rfl
    | connect => rfl
    | reconnect => rfl
  · rfl

theorem resetHeartbeat (h : p.Tidy) : p.resetHeartbeat.Tidy := by
  refine Held.set h.clearHeartbeat (fun slot hslot => ?_) (fun k timer hget => ?_) rfl
  · cases slot with
    | heartbeat => exact absurd rfl hslot
    | request id => rfl
    | connect => rfl
    | reconnect => rfl
  · have hcleared : (p.timers.clear (p.held .heartbeat)).get k = some timer := hget
    exact h.slot_ne_of_clear hcleared

theorem scheduleReconnect (h : p.Tidy) : p.scheduleReconnect.Tidy := by
  unfold Page.scheduleReconnect
  split
  · exact h
  · rename_i hnot
    have hnone : p.client.reconnectTimeout = none := by
      by_contra hne
      exact hnot (.inr hne)
    refine Held.set h (fun slot hslot => ?_) (fun k timer hget hslot => ?_) rfl
    · cases slot with
      | reconnect => exact absurd rfl hslot
      | request id => rfl
      | connect => rfl
      | heartbeat => rfl
    · have howner := h.owner k timer hget
      rw [hslot] at howner
      cases hnone.symm.trans howner

/-! ## Requests -/

theorem settlePromise {outcome : Except String δ} (h : p.Tidy) : (p.settlePromise outcome k).Tidy := h

theorem settleRequest {outcome : Except String δ} (h : p.Tidy) (hrow : p.client.pendingRequests.get id = some row) :
    (p.settleRequest outcome row).Tidy := by
  have hid : row.id = id := Table.key_of_get hrow
  have hdeleted := h.deletePending id
  rw [held_request hrow] at hdeleted
  unfold Page.settleRequest
  rw [hid]
  exact hdeleted

theorem rejectPendingRequest {error : String} (h : p.Tidy) : (p.rejectPendingRequest id error).Tidy := by
  obtain ⟨-, heq⟩ | ⟨row, hrow, heq⟩ := rejectPendingRequest_cases id error p
  · rwa [heq]
  · rw [heq]
    exact h.settleRequest hrow

theorem rejectAll {error : String} (h : p.Tidy) : (p.rejectAll error).Tidy :=
  rejectAll_induction h fun _ _ _ hq hrow => hq.settleRequest hrow

theorem queue (h : p.Tidy) (message : QueuedMessage ρ) : (p.queue message).Tidy := by
  have hrejected : p.rejectDropped.Tidy := by
    obtain heq | ⟨id, row, error, hrow, heq⟩ := rejectDropped_cases p
    · rwa [heq]
    · rw [heq]
      exact h.settleRequest hrow
  unfold Page.queue
  dsimp only
  split
  · exact hrejected
  · exact h

theorem sendMessage {message : QueuedMessage ρ} {p' : Page ρ δ σ} (h : p.Tidy)
    (hsent : p.sendMessage message = some p') : p'.Tidy := by
  obtain rfl | ⟨s, rfl⟩ | rfl := sendMessage_cases hsent
  · exact h
  · exact h
  · exact h.queue _

theorem sendCommand {cmd : WsCommand} (h : p.Tidy) : (p.sendCommand cmd).Tidy := by
  unfold Page.sendCommand
  cases hsent : p.sendMessage (.command cmd) with
  | none => exact h
  | some p' => exact h.sendMessage hsent

theorem register (h : p.Tidy) (hpaired : Paired Answers p) (request : ρ) : (p.register request).Tidy := by
  have hget : ∀ id, (p.register request).client.pendingRequests.get id =
      if id = p.client.reqId + 1 then some p.newRequest else p.client.pendingRequests.get id :=
    fun _ => hpaired.get_register request
  refine Held.set h (fun slot hslot => ?_) (fun k timer htimer hslot => ?_) ?_
  · cases slot with
    | request id =>
      unfold held
      dsimp only
      rw [hget, if_neg]
      intro hid
      exact hslot (congrArg Slot.request hid)
    | connect => rfl
    | heartbeat => rfl
    | reconnect => rfl
  · have howner := h.owner k timer htimer
    rw [hslot] at howner
    obtain ⟨row, hrow, -⟩ := Option.map_eq_some_iff.1 howner
    have := (hpaired.pending _ row hrow).1
    omega
  · show ((p.register request).client.pendingRequests.get (p.client.reqId + 1)).map PendingRequest.timeoutId = _
    rw [hget, if_pos rfl]
    rfl

theorem sendRequest {request : ρ} (h : p.Tidy) (hpaired : Paired Answers p) : (p.sendRequest request).Tidy := by
  have hregister := h.register hpaired request
  unfold Page.sendRequest
  cases hsent : (p.register request).sendMessage (.request (p.client.reqId + 1) request) with
  | some p' => exact hregister.sendMessage hsent
  | none => exact hregister.settlePromise

/-! ## Sockets -/

theorem close (h : p.Tidy) : (p.close s).Tidy := by
  unfold Page.close
  split
  · exact h
  · exact h
  · exact h

theorem dropSocket (h : p.Tidy) : p.dropSocket.Tidy := by
  unfold Page.dropSocket
  split
  · rename_i s _
    exact h.close (s := s)
  · exact h

theorem openSocket (h : p.Tidy) : p.openSocket.Tidy := by
  have hcleared := h.clearConnectTimeout
  refine Held.set hcleared (fun slot hslot => ?_) (fun k timer hget => ?_) rfl
  · cases slot with
    | connect => exact absurd rfl hslot
    | request id => rfl
    | heartbeat => rfl
    | reconnect => rfl
  · have hold : (p.timers.clear (p.held .connect)).get k = some timer := hget
    exact h.slot_ne_of_clear hold

theorem connect (h : p.Tidy) : p.connect.Tidy := by
  have hactive : p.activate.Tidy := h.clearReconnectTimeout
  unfold Page.connect
  split
  · exact hactive
  split
  · exact hactive.openSocket
  · exact hactive

theorem disconnect (h : p.Tidy) : p.disconnect.Tidy := by
  have hoff : Tidy { p with client := { p.client with active := false, connected := false, retryCount := 0 } } := h
  exact hoff.clearConnectTimeout.clearReconnectTimeout.clearHeartbeat.dropSocket.rejectAll

theorem reconnectTo {url : String} (h : p.Tidy) : (p.reconnectTo url).Tidy := by
  have hreset : Tidy { p with client := { p.client with url := url, reqId := 0, sendQueue := [], view := none } } := h
  exact hreset.disconnect.connect

/-! ## Events -/

theorem handleOpen (h : p.Tidy) : (p.handleOpen s).Tidy := by
  have hcleared := h.clearConnectTimeout
  exact resetHeartbeat hcleared

theorem handleMessage {message : ServerMessage δ σ} (h : p.Tidy) : (p.handleMessage message).Tidy := by
  have hseen := h.resetHeartbeat
  unfold Page.handleMessage
  cases message with
  | state state => exact hseen
  | other => exact hseen
  | response id data =>
    dsimp only
    split
    · rename_i row hrow
      exact hseen.settleRequest hrow
    · exact hseen

theorem handleClose (h : p.Tidy) : p.handleClose.Tidy := by
  have hcleared := h.clearConnectTimeout.clearHeartbeat
  refine (rejectAll ?_).scheduleReconnect
  exact hcleared

theorem handleSilence (h : p.Tidy) : p.handleSilence.Tidy := by
  refine (rejectAll ?_).scheduleReconnect
  exact h.dropSocket

/-- The client goes on keeping the number of a timer that has run. -/
theorem ran {timer : Timer Callback} (h : p.Tidy) (htimer : p.timers.get k = some timer) :
    (p.clearTimeout (some k)).Tidy := by
  have hran : Held Callback.slot p.held (p.timers.clear (p.held timer.callback.slot)) :=
    Held.ran h (fun _ _ => rfl) fun _ hk => hk
  rwa [h.owner k timer htimer] at hran

theorem fired {timer : Timer Callback} (h : p.Tidy) (htimer : p.timers.get k = some timer) :
    ((p.clearTimeout (some k)).runCallback timer.callback).Tidy := by
  have hran := h.ran htimer
  have howner := h.owner k timer htimer
  cases hcallback : timer.callback with
  | requestTimeout id promise =>
    rw [hcallback] at howner
    obtain ⟨row, hrow, -⟩ := Option.map_eq_some_iff.1 howner
    have hrow' : (p.clearTimeout (some k)).client.pendingRequests.get id = some row := hrow
    have hdeleted := h.deletePending id
    rw [show p.held (.request id) = some k from howner] at hdeleted
    unfold runCallback timeOut
    dsimp only
    rw [hrow']
    exact hdeleted
  | connectTimeout s =>
    unfold runCallback
    dsimp only
    split
    · exact hran.close
    · exact hran
  | heartbeat => exact hran.handleSilence
  | reconnect =>
    rw [hcallback] at howner
    have hcleared := h.clearReconnectTimeout
    unfold Page.clearReconnectTimeout at hcleared
    rw [show p.client.reconnectTimeout = some k from howner] at hcleared
    exact hcleared.connect

theorem ifCurrent {handle : Page ρ δ σ → Page ρ δ σ} (h : p.Tidy) (hhandle : (handle p).Tidy) :
    (p.ifCurrent s handle).Tidy := by
  unfold Page.ifCurrent
  split
  · exact hhandle
  · exact h

theorem next {act : PageAct ρ δ σ} (h : p.Tidy) (hpaired : Paired Answers p) : (Page.next act p).Tidy := by
  have hsockets : ∀ sockets, Tidy { p with sockets := sockets } := fun _ => h
  cases act with
  | connect => exact h.connect
  | disconnect => exact h.disconnect
  | reconnectTo url => exact h.reconnectTo
  | sendCommand cmd => exact h.sendCommand
  | sendRequest request => exact h.sendRequest hpaired
  | opened s =>
    unfold Page.next
    dsimp only
    split
    · exact ifCurrent (hsockets _) (hsockets _).handleOpen
    · exact h
  | received s =>
    unfold Page.next
    dsimp only
    split
    · exact ifCurrent (hsockets _) (hsockets _).handleMessage
    · exact h
  | closed s failed =>
    unfold Page.next
    dsimp only
    split
    · exact h
    · split
      · have hclosed : Tidy (p.setReadyState s .closed) := hsockets _
        have hcleared := hclosed.ifCurrent (s := s) hclosed.clearConnectTimeout
        exact hcleared.ifCurrent hcleared.handleClose
      · exact ifCurrent (hsockets _) (hsockets _).handleClose
  | fired timer =>
    unfold Page.next
    dsimp only
    split
    · rename_i t ht
      exact h.fired ht
    · exact h
  | visible =>
    unfold Page.next
    dsimp only
    split
    · refine (clearReconnectTimeout ?_).connect
      exact h
    · exact h
  | online =>
    refine scheduleReconnect ?_
    exact h
  | offline =>
    refine dropSocket ?_
    exact h
  | serve s answer => exact hsockets _
  | push s state => exact hsockets _

end Tidy

end Page

end Web

end Kanade

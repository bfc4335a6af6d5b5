import Kanade.Web.WsClient

/-!
# Kanade.Web.Pairing

What the web client's request ids stand for.

* `Paired`: an id that is queued, sent or answered on the current socket, and still pending, stands for the request
  that its promise was made for; and no promise has taken what is no answer to its request.
* `Paired.next`: every step keeps it, if the server answers requests with what answers them.
-/

namespace Kanade

namespace Web

open Concur Keyed

namespace Page

variable {ρ δ σ : Type} {Answers : ρ → δ → Prop} {p : Page ρ δ σ} {id s k : Nat} {row : PendingRequest}

/-- The request that is pending under the id, if there is one, is as `P` says. -/
def Names (p : Page ρ δ σ) (id : Nat) (P : ρ → Prop) : Prop :=
  id ≤ p.client.reqId ∧ ∀ row, p.client.pendingRequests.get id = some row →
    ∀ promise, p.promises[row.promise]? = some promise → P promise.request

/-- What is under way on a socket. -/
def Carries (Answers : ρ → δ → Prop) (p : Page ρ δ σ) (socket : Socket ρ δ σ) : Prop :=
  (∀ id request, .request id request ∈ socket.outgoing → p.Names id (request = ·)) ∧
    ∀ id data, .response id data ∈ socket.incoming → p.Names id (Answers · data)

/-- No promise has taken what is no answer to its request. -/
def Resolved (Answers : ρ → δ → Prop) (p : Page ρ δ σ) : Prop :=
  ∀ promise ∈ p.promises, ∀ data, promise.outcome = some (.ok data) → Answers promise.request data

structure Paired (Answers : ρ → δ → Prop) (p : Page ρ δ σ) : Prop where
  pending : ∀ id row, p.client.pendingRequests.get id = some row →
    id ≤ p.client.reqId ∧ row.promise < p.promises.length
  queued : ∀ id request, .request id request ∈ p.client.sendQueue → p.Names id (request = ·)
  current : ∀ s, p.client.ws = some s → s < p.sockets.length
  wires : ∀ s socket, p.client.ws = some s → p.sockets[s]? = some socket → p.Carries Answers socket
  resolved : p.Resolved Answers

namespace Paired

theorem new (url : String) (takesUrl : String → Bool) :
    Paired Answers (Page.new url takesUrl : Page ρ δ σ) := by
  constructor
  · intro id row h
    cases h
  · intro id request h
    cases h
  · intro s h
    cases h
  · intro s socket h
    cases h
  · intro promise h
    cases h

/-! Timers, flags and what is shown have no part in it. -/

theorem setTimeout (h : Paired Answers p) (callback : Callback) (delay : Nat) :
    Paired Answers (p.setTimeout callback delay) := ⟨h.pending, h.queued, h.current, h.wires, h.resolved⟩

theorem clearTimeout (h : Paired Answers p) (timer : Option Nat) : Paired Answers (p.clearTimeout timer) :=
  ⟨h.pending, h.queued, h.current, h.wires, h.resolved⟩

theorem clearReconnectTimeout (h : Paired Answers p) : Paired Answers p.clearReconnectTimeout :=
  ⟨h.pending, h.queued, h.current, h.wires, h.resolved⟩

theorem clearConnectTimeout (h : Paired Answers p) : Paired Answers p.clearConnectTimeout :=
  ⟨h.pending, h.queued, h.current, h.wires, h.resolved⟩

theorem clearHeartbeat (h : Paired Answers p) : Paired Answers p.clearHeartbeat :=
  ⟨h.pending, h.queued, h.current, h.wires, h.resolved⟩

theorem resetHeartbeat (h : Paired Answers p) : Paired Answers p.resetHeartbeat :=
  ⟨h.pending, h.queued, h.current, h.wires, h.resolved⟩

theorem scheduleReconnect (h : Paired Answers p) : Paired Answers p.scheduleReconnect := by
  unfold Page.scheduleReconnect
  split
  · exact h
  · exact ⟨h.pending, h.queued, h.current, h.wires, h.resolved⟩

theorem activate (h : Paired Answers p) : Paired Answers p.activate :=
  ⟨h.pending, h.queued, h.current, h.wires, h.resolved⟩

end Paired

/-! ## Settling -/

theorem exists_of_getElem?_modify {α : Type} {l : List α} {f : α → α} {i j : Nat} {a' : α}
    (h : (l.modify i f)[j]? = some a') : ∃ a, l[j]? = some a ∧ (j = i ∧ a' = f a ∨ j ≠ i ∧ a' = a) := by
  rw [List.getElem?_modify] at h
  cases hj : l[j]? with
  | none =>
    rw [hj] at h
    cases h
  | some a =>
    refine ⟨a, rfl, ?_⟩
    rw [hj, Option.map_eq_map, Option.map_some] at h
    by_cases hi : i = j
    · rw [if_pos hi] at h
      exact .inl ⟨hi.symm, (Option.some.inj h).symm⟩
    · rw [if_neg hi] at h
      exact .inr ⟨fun heq => hi heq.symm, (Option.some.inj h).symm⟩

theorem request_of_settled {promises : List (Promise ρ δ)} {outcome : Except String δ} {j : Nat}
    {promise : Promise ρ δ} (h : (promises.modify k (Promise.settle outcome))[j]? = some promise) :
    ∃ before, promises[j]? = some before ∧ before.request = promise.request ∧
      (promise.outcome = before.outcome ∨ j = k ∧ promise.outcome = before.outcome.or (some outcome)) := by
  obtain ⟨before, hbefore, ⟨hj, rfl⟩ | ⟨-, rfl⟩⟩ := exists_of_getElem?_modify h
  · exact ⟨before, hbefore, rfl, .inr ⟨hj, rfl⟩⟩
  · exact ⟨promise, hbefore, rfl, .inl rfl⟩

theorem Names.settlePromise {P : ρ → Prop} {outcome : Except String δ} (h : p.Names id P) :
    (p.settlePromise outcome k).Names id P := by
  refine ⟨h.1, ?_⟩
  intro row hrow promise hpromise
  obtain ⟨before, hbefore, hrequest, -⟩ := request_of_settled hpromise
  rw [← hrequest]
  exact h.2 row hrow before hbefore

theorem Resolved.settlePromise {outcome : Except String δ} (h : Resolved Answers p)
    (hok : ∀ data promise, outcome = .ok data → p.promises[k]? = some promise → Answers promise.request data) :
    Resolved Answers (p.settlePromise outcome k) := by
  intro promise hmem data hdata
  obtain ⟨j, hj⟩ := List.mem_iff_getElem?.1 hmem
  obtain ⟨before, hbefore, hrequest, hout⟩ := request_of_settled hj
  rw [← hrequest]
  have hold : before.outcome = some (.ok data) → Answers before.request data := fun hsome =>
    h before (List.mem_of_getElem? hbefore) data hsome
  rcases hout with hout | ⟨rfl, hout⟩
  · exact hold (hout ▸ hdata)
  · rw [hdata] at hout
    cases hbo : before.outcome with
    | some old =>
      rw [hbo, Option.some_or] at hout
      exact hold (hbo.trans hout.symm)
    | none =>
      rw [hbo, Option.none_or] at hout
      exact hok data before (Option.some.inj hout).symm hbefore

theorem Paired.settlePromise {outcome : Except String δ} (h : Paired Answers p)
    (hok : ∀ data promise, outcome = .ok data → p.promises[k]? = some promise → Answers promise.request data) :
    Paired Answers (p.settlePromise outcome k) := by
  constructor
  · intro id row hrow
    obtain ⟨hid, hlt⟩ := h.pending id row hrow
    refine ⟨hid, ?_⟩
    rw [Page.settlePromise, List.length_modify]
    exact hlt
  · intro id request hmem
    exact (h.queued id request hmem).settlePromise
  · exact h.current
  · intro s socket hs hsocket
    obtain ⟨hout, hin⟩ := h.wires s socket hs hsocket
    exact ⟨fun id request hmem => (hout id request hmem).settlePromise,
      fun id data hmem => (hin id data hmem).settlePromise⟩
  · exact h.resolved.settlePromise hok

/-- With an entry deleted, fewer ids stand for something. -/
theorem Names.deletePending {P : ρ → Prop} (h : p.Names id P) (id' : Nat) : (p.deletePending id').Names id P :=
  ⟨h.1, fun row hrow => h.2 row (Table.get_of_restrict hrow)⟩

theorem Paired.deletePending (h : Paired Answers p) : Paired Answers (p.deletePending id) := by
  constructor
  · intro id' row hrow
    exact h.pending id' row (Table.get_of_restrict hrow)
  · intro id' request hmem
    exact (h.queued id' request hmem).deletePending _
  · exact h.current
  · intro s socket hs hsocket
    obtain ⟨hout, hin⟩ := h.wires s socket hs hsocket
    exact ⟨fun id request hmem => (hout id request hmem).deletePending _,
      fun id data hmem => (hin id data hmem).deletePending _⟩
  · exact h.resolved

theorem Names.settleRequest {P : ρ → Prop} {outcome : Except String δ} (h : p.Names id P) :
    (p.settleRequest outcome row).Names id P := by
  have hsettled : (p.settlePromise outcome row.promise).Names id P := h.settlePromise
  exact hsettled.deletePending row.id

theorem Paired.settleRequest {outcome : Except String δ} (h : Paired Answers p)
    (hok : ∀ data promise, outcome = .ok data → p.promises[row.promise]? = some promise →
      Answers promise.request data) : Paired Answers (p.settleRequest outcome row) :=
  ((h.clearTimeout _).settlePromise hok).deletePending

theorem Resolved.rejectRequest {error : String} (h : Resolved Answers p) :
    Resolved Answers (p.settleRequest (.error error) row) :=
  h.settlePromise fun data promise hdata => by cases hdata

theorem Paired.rejectRequest {error : String} (h : Paired Answers p) :
    Paired Answers (p.settleRequest (.error error) row) :=
  h.settleRequest fun data promise hdata => by cases hdata

/-- Rejecting by the id is settling the entry, if there is one. -/
theorem rejectPendingRequest_cases (id : Nat) (error : String) (p : Page ρ δ σ) :
    p.client.pendingRequests.get id = none ∧ p.rejectPendingRequest id error = p ∨
      ∃ row, p.client.pendingRequests.get id = some row ∧
        p.rejectPendingRequest id error = p.settleRequest (.error error) row := by
  unfold rejectPendingRequest
  cases hget : p.client.pendingRequests.get id with
  | none => exact .inl ⟨rfl, rfl⟩
  | some row => exact .inr ⟨row, rfl, rfl⟩

theorem Paired.rejectPendingRequest {error : String} (h : Paired Answers p) :
    Paired Answers (p.rejectPendingRequest id error) := by
  obtain ⟨-, heq⟩ | ⟨row, -, heq⟩ := rejectPendingRequest_cases id error p
  · rwa [heq]
  · rw [heq]
    exact h.rejectRequest

/-- The entries are settled one after the other; those that are left are still in. -/
theorem rejectAll_induction {I : Page ρ δ σ → Prop} {error : String} (hp : I p)
    (hstep : ∀ q id row, I q → q.client.pendingRequests.get id = some row → I (q.settleRequest (.error error) row)) :
    I (p.rejectAll error) := by
  unfold rejectAll
  have hrows : ∀ row ∈ p.client.pendingRequests.rows, p.client.pendingRequests.get row.id = some row :=
    fun row hrow => Table.mem_rows_iff.1 hrow
  have hnodup := p.client.pendingRequests.nodup
  revert hrows hnodup
  generalize p.client.pendingRequests.rows = rows
  intro hrows hnodup
  induction rows generalizing p with
  | nil => exact hp
  | cons row rows ih =>
    obtain ⟨hnot, hnodup⟩ := List.nodup_cons.1 hnodup
    refine ih (hstep p row.id row hp (hrows row List.mem_cons_self)) ?_ hnodup
    intro row' hrow'
    have hne : row'.id ≠ row.id := fun heq => hnot (heq ▸ List.mem_map_of_mem hrow')
    have hget : (Page.settleRequest (.error error) row p).client.pendingRequests.get row'.id =
        if decide (row'.id ≠ row.id) then p.client.pendingRequests.get row'.id else none :=
      Table.get_restrict _
    rw [hget, if_pos (decide_eq_true hne)]
    exact hrows row' (List.mem_cons_of_mem _ hrow')

theorem Resolved.rejectAll {error : String} (h : Resolved Answers p) : Resolved Answers (p.rejectAll error) :=
  rejectAll_induction h fun _ _ _ hq _ => hq.rejectRequest

theorem Paired.rejectAll {error : String} (h : Paired Answers p) : Paired Answers (p.rejectAll error) :=
  rejectAll_induction h fun _ _ _ hq _ => hq.rejectRequest

/-- What settling a request leaves alone, rejecting all of them does. -/
theorem rejectAll_keeps {γ : Type} (f : Page ρ δ σ → γ) {error : String}
    (hf : ∀ row q, f (q.settleRequest (.error error) row) = f q) : f (p.rejectAll error) = f p :=
  rejectAll_induction (I := fun q => f q = f p) rfl fun q _ row hq _ => (hf row q).trans hq

theorem pending_foldl {error : String} (rows : List PendingRequest) :
    (rows.foldl (fun q row => settleRequest (.error error) row q) p).client.pendingRequests.rows =
      p.client.pendingRequests.rows.filter fun row => row.id ∉ rows.map PendingRequest.id := by
  induction rows generalizing p with
  | nil => simp
  | cons row rows ih =>
    rw [List.foldl_cons, ih]
    unfold settleRequest deletePending Table.restrict
    rw [List.filter_filter]
    refine List.filter_congr fun row' _ => ?_
    simp [Bool.and_comm]

theorem pending_rejectAll (error : String) : (p.rejectAll error).client.pendingRequests.rows = [] := by
  rw [rejectAll, pending_foldl, List.filter_eq_nil_iff]
  intro row hrow
  simpa using ⟨row, hrow, rfl⟩

/-! ## Sockets -/

theorem Paired.modifySocket (h : Paired Answers p) (change : Socket ρ δ σ → Socket ρ δ σ)
    (hchange : ∀ socket, p.client.ws = some s → p.sockets[s]? = some socket → p.Carries Answers socket →
      p.Carries Answers (change socket)) :
    Paired Answers { p with sockets := p.sockets.modify s change } := by
  refine ⟨h.pending, h.queued, ?_, ?_, h.resolved⟩
  · intro s' hs'
    rw [List.length_modify]
    exact h.current s' hs'
  · intro s' socket' hs' hsocket'
    obtain ⟨socket, hsocket, ⟨rfl, rfl⟩ | ⟨-, rfl⟩⟩ := exists_of_getElem?_modify hsocket'
    · exact hchange socket hs' hsocket (h.wires s' socket hs' hsocket)
    · exact h.wires s' socket' hs' hsocket

theorem Paired.setReadyState (h : Paired Answers p) (readyState : ReadyState) :
    Paired Answers (p.setReadyState s readyState) :=
  h.modifySocket (fun socket => { socket with readyState := readyState }) fun _ _ _ hcarries => hcarries

theorem Paired.close (h : Paired Answers p) : Paired Answers (p.close s) := by
  unfold Page.close
  split
  · exact h.setReadyState .closing
  · exact h.setReadyState .closing
  · exact h

/-- Without a socket there is nothing to check on one. -/
theorem Paired.forget (h : Paired Answers p) :
    Paired Answers { p with client := { p.client with ws := none } } := by
  refine ⟨h.pending, h.queued, ?_, ?_, h.resolved⟩
  · intro s hs
    cases hs
  · intro s socket hs
    cases hs

theorem Paired.dropSocket (h : Paired Answers p) : Paired Answers p.dropSocket := by
  unfold Page.dropSocket
  split
  · exact h.close.forget
  · exact h

theorem Paired.openSocket (h : Paired Answers p) : Paired Answers p.openSocket := by
  refine ⟨h.pending, h.queued, ?_, ?_, h.resolved⟩
  · intro s hs
    cases hs
    show p.sockets.length < (p.sockets ++ [_]).length
    rw [List.length_append]
    exact Nat.lt_succ_self _
  · intro s socket hs hsocket
    cases hs
    have hnew : socket = ⟨.connecting, [], []⟩ := by
      have hget : (p.sockets ++ [⟨.connecting, [], []⟩])[p.sockets.length]? = some socket := hsocket
      rw [List.getElem?_concat_length] at hget
      exact (Option.some.inj hget).symm
    rw [hnew]
    constructor
    · intro id request hmem
      cases hmem
    · intro id data hmem
      cases hmem

theorem Paired.connect (h : Paired Answers p) : Paired Answers p.connect := by
  unfold Page.connect
  split
  · exact h.activate
  split
  · exact h.activate.openSocket
  · exact h.activate

/-! ## Sending -/

theorem request_mem_queueMessage {sendQueue : List (QueuedMessage ρ)} {message : QueuedMessage ρ} {request : ρ}
    (h : .request id request ∈ queueMessage sendQueue message) :
    .request id request ∈ sendQueue ∨ message = .request id request := by
  unfold queueMessage at h
  cases hmerge : mergeMessage sendQueue message with
  | some merged =>
    obtain ⟨before, last, cmd, previousTracks, nextTracks, rfl, -, -, -, rfl⟩ := mergeMessage_eq_some hmerge
    rw [hmerge, Option.getD_some] at h
    rcases List.mem_append.1 h with h | h
    · exact .inl (List.mem_append_left _ h)
    · cases List.mem_singleton.1 h
  | none =>
    rw [hmerge, Option.getD_none, pushMessage] at h
    rcases List.mem_append.1 h with h | h
    · left
      split at h
      · exact (List.eraseIdx_sublist _ _).subset h
      · exact h
    · exact .inr (List.mem_singleton.1 h).symm

theorem rejectDropped_cases (p : Page ρ δ σ) : p.rejectDropped = p ∨
    ∃ id row error, p.client.pendingRequests.get id = some row ∧
      p.rejectDropped = p.settleRequest (.error error) row := by
  unfold rejectDropped
  split
  · rename_i id _ _
    obtain ⟨-, heq⟩ | ⟨row, hrow, heq⟩ := rejectPendingRequest_cases id "WS send queue overflow" p
    · exact .inl heq
    · exact .inr ⟨id, row, _, hrow, heq⟩
  · exact .inl rfl

theorem Paired.queue {message : QueuedMessage ρ} (h : Paired Answers p)
    (hmessage : ∀ id request, message = .request id request → p.Names id (request = ·)) :
    Paired Answers (p.queue message) := by
  have hrejected : ∀ q : Page ρ δ σ, q = p ∨ (∃ id row error, p.client.pendingRequests.get id = some row ∧
      q = p.settleRequest (.error error) row) → Paired Answers
        { q with client := { q.client with sendQueue := queueMessage p.client.sendQueue message } } := by
    intro q hq
    have hnamed : ∀ id request, .request id request ∈ queueMessage p.client.sendQueue message →
        p.Names id (request = ·) := by
      intro id request hmem
      rcases request_mem_queueMessage hmem with hmem | heq
      · exact h.queued id request hmem
      · exact hmessage id request heq
    rcases hq with rfl | ⟨id, row, error, -, rfl⟩
    · exact ⟨h.pending, hnamed, h.current, h.wires, h.resolved⟩
    · have hs : Paired Answers (p.settleRequest (.error error) row) := h.rejectRequest
      exact ⟨hs.pending, fun id request hmem => (hnamed id request hmem).settleRequest, hs.current, hs.wires,
        hs.resolved⟩
  unfold Page.queue
  dsimp only
  split
  · exact hrejected _ (rejectDropped_cases p)
  · exact hrejected _ (.inl rfl)

/-- A message goes nowhere, on a socket, or in the queue. -/
theorem sendMessage_cases {message : QueuedMessage ρ} {p' : Page ρ δ σ} (h : p.sendMessage message = some p') :
    p' = p ∨ (∃ s, p' = { p with
      sockets := p.sockets.modify s fun socket => { socket with outgoing := socket.outgoing ++ [message] } }) ∨
      p' = p.queue message := by
  unfold sendMessage at h
  split at h
  · rename_i s _ _
    unfold send at h
    split at h
    · exact .inl (Option.some.inj h).symm
    · split at h
      · cases h
      · exact .inr (.inl ⟨s, (Option.some.inj h).symm⟩)
      · exact .inl (Option.some.inj h).symm
      · exact .inl (Option.some.inj h).symm
  · exact .inr (.inr (Option.some.inj h).symm)

theorem Paired.sendMessage {message : QueuedMessage ρ} {p' : Page ρ δ σ} (h : Paired Answers p)
    (hmessage : ∀ id request, message = .request id request → p.Names id (request = ·))
    (hsent : p.sendMessage message = some p') : Paired Answers p' := by
  obtain rfl | ⟨s, rfl⟩ | rfl := sendMessage_cases hsent
  · exact h
  · refine h.modifySocket (fun socket => { socket with outgoing := socket.outgoing ++ [message] }) ?_
    intro socket _ _ hcarries
    refine ⟨?_, hcarries.2⟩
    intro id request hmem
    rcases List.mem_append.1 hmem with hmem | hmem
    · exact hcarries.1 id request hmem
    · exact hmessage id request (List.mem_singleton.1 hmem).symm
  · exact h.queue hmessage

theorem Paired.sendCommand {cmd : WsCommand} (h : Paired Answers p) : Paired Answers (p.sendCommand cmd) := by
  unfold Page.sendCommand
  cases hsent : p.sendMessage (.command cmd) with
  | none => exact h
  | some p' => exact h.sendMessage (fun id request heq => by cases heq) hsent

/-- The new id is above all that are named. -/
theorem Paired.get_register (h : Paired Answers p) (request : ρ) :
    (p.register request).client.pendingRequests.get id =
      if id = p.client.reqId + 1 then some p.newRequest else p.client.pendingRequests.get id := by
  have hnew : p.newRequest.id = p.client.reqId + 1 := rfl
  unfold register
  rw [Table.get_upsert, hnew]
  split
  · rename_i hid
    have hnone : p.client.pendingRequests.get id = none := by
      rw [Option.eq_none_iff_forall_ne_some]
      intro row hrow
      have := (h.pending id row hrow).1
      omega
    rw [hnone]
    rfl
  · rfl

theorem Paired.names_register {P : ρ → Prop} (h : Paired Answers p) (hname : p.Names id P) (request : ρ) :
    (p.register request).Names id P := by
  have hid : id ≠ p.client.reqId + 1 := by
    have := hname.1
    omega
  refine ⟨Nat.le_succ_of_le hname.1, ?_⟩
  intro row hrow promise hpromise
  rw [h.get_register, if_neg hid] at hrow
  have hlt := (h.pending id row hrow).2
  have hold : p.promises[row.promise]? = some promise := by
    rwa [register, List.getElem?_append_left hlt] at hpromise
  exact hname.2 row hrow promise hold

theorem Paired.names_new (h : Paired Answers p) (request : ρ) :
    (p.register request).Names (p.client.reqId + 1) (request = ·) := by
  refine ⟨Nat.le_refl _, ?_⟩
  intro row hrow promise hpromise
  rw [h.get_register, if_pos rfl] at hrow
  cases hrow
  rw [register, newRequest, List.getElem?_concat_length] at hpromise
  cases hpromise
  rfl

theorem Paired.register (h : Paired Answers p) (request : ρ) : Paired Answers (p.register request) := by
  constructor
  · intro id row hrow
    rw [h.get_register] at hrow
    have hlen : (p.register request).promises.length = p.promises.length + 1 := List.length_append
    have hid : (p.register request).client.reqId = p.client.reqId + 1 := rfl
    rw [hlen, hid]
    split at hrow
    · rename_i heq
      cases hrow
      exact ⟨heq.le, Nat.lt_succ_self _⟩
    · obtain ⟨hle, hlt⟩ := h.pending id row hrow
      omega
  · intro id request' hmem
    exact h.names_register (h.queued id request' hmem) request
  · exact h.current
  · intro s socket hs hsocket
    obtain ⟨hout, hin⟩ := h.wires s socket hs hsocket
    exact ⟨fun id request' hmem => h.names_register (hout id request' hmem) request,
      fun id data hmem => h.names_register (hin id data hmem) request⟩
  · intro promise hmem data hdata
    rcases List.mem_append.1 hmem with hmem | hmem
    · exact h.resolved promise hmem data hdata
    · cases List.mem_singleton.1 hmem
      cases hdata

theorem Paired.sendRequest {request : ρ} (h : Paired Answers p) : Paired Answers (p.sendRequest request) := by
  have hregister := h.register request
  unfold Page.sendRequest
  cases hsent : (p.register request).sendMessage (.request (p.client.reqId + 1) request) with
  | some p' =>
    refine hregister.sendMessage (fun id request' heq => ?_) hsent
    cases heq
    exact h.names_new request
  | none =>
    exact hregister.settlePromise fun data promise hdata => by cases hdata

/-! ## Events -/

theorem Paired.handleOpen (h : Paired Answers p) : Paired Answers (p.handleOpen s) := by
  have hsent := h.clearConnectTimeout.modifySocket (s := s)
    (fun socket => { socket with outgoing := socket.outgoing ++ p.client.sendQueue }) (by
      intro socket _ _ hcarries
      refine ⟨?_, hcarries.2⟩
      intro id request hmem
      rcases List.mem_append.1 hmem with hmem | hmem
      · exact hcarries.1 id request hmem
      · exact h.queued id request hmem)
  refine ⟨hsent.pending, ?_, hsent.current, hsent.wires, hsent.resolved⟩
  intro id request hmem
  cases hmem

theorem Paired.handleMessage {message : ServerMessage δ σ} (h : Paired Answers p)
    (hmessage : ∀ id data, message = .response id data → p.Names id (Answers · data)) :
    Paired Answers (p.handleMessage message) := by
  unfold Page.handleMessage
  cases message with
  | state state => exact ⟨h.pending, h.queued, h.current, h.wires, h.resolved⟩
  | other => exact h.resetHeartbeat
  | response id data =>
    dsimp only
    split
    · rename_i row hrow
      refine h.resetHeartbeat.settleRequest ?_
      intro data' promise hdata hpromise
      cases hdata
      exact (hmessage id data rfl).2 row hrow promise hpromise
    · exact h.resetHeartbeat

/-- What was queued is given up. -/
theorem Paired.giveUp (h : Paired Answers p) (connected : Bool) :
    Paired Answers { p with client := { p.client with connected := connected, sendQueue := [] } } := by
  refine ⟨h.pending, ?_, h.current, h.wires, h.resolved⟩
  intro id request hmem
  cases hmem

theorem Paired.handleClose (h : Paired Answers p) : Paired Answers p.handleClose :=
  (h.clearConnectTimeout.clearHeartbeat.giveUp false).forget.rejectAll.scheduleReconnect

theorem Paired.handleSilence (h : Paired Answers p) : Paired Answers p.handleSilence :=
  (h.dropSocket.giveUp false).rejectAll.scheduleReconnect

theorem Paired.timeOut {promise : Nat} (h : Paired Answers p) : Paired Answers (p.timeOut id promise) := by
  unfold Page.timeOut
  split
  · exact h.deletePending.settlePromise fun data promise hdata => by cases hdata
  · exact h

theorem Paired.runCallback {callback : Callback} (h : Paired Answers p) :
    Paired Answers (p.runCallback callback) := by
  cases callback with
  | requestTimeout id promise => exact h.timeOut
  | connectTimeout s =>
    unfold Page.runCallback
    dsimp only
    split
    · exact h.close
    · exact h
  | heartbeat => exact h.handleSilence
  | reconnect =>
    refine Paired.connect ?_
    exact ⟨h.pending, h.queued, h.current, h.wires, h.resolved⟩

/-! ## Calls -/

theorem dropSocket_keeps {γ : Type} (f : Page ρ δ σ → γ) (hclose : ∀ s readyState q, f (setReadyState s readyState q) = f q)
    (hws : ∀ q : Page ρ δ σ, f { q with client := { q.client with ws := none } } = f q) : f p.dropSocket = f p := by
  unfold dropSocket
  split
  · rw [hws, close]
    split
    · exact hclose _ _ p
    · exact hclose _ _ p
    · rfl
  · rfl

theorem ws_dropSocket : p.dropSocket.client.ws = none := by
  unfold dropSocket
  cases hws : p.client.ws with
  | none => exact hws
  | some s => rfl

theorem ws_disconnect : p.disconnect.client.ws = none :=
  (rejectAll_keeps (fun q => q.client.ws) fun _ _ => rfl).trans ws_dropSocket

theorem sendQueue_disconnect : p.disconnect.client.sendQueue = p.client.sendQueue :=
  (rejectAll_keeps (fun q => q.client.sendQueue) fun _ _ => rfl).trans
    (dropSocket_keeps (fun q => q.client.sendQueue) (fun _ _ _ => rfl) fun _ => rfl)

theorem Resolved.disconnect (h : Resolved Answers p) : Resolved Answers p.disconnect := by
  refine Resolved.rejectAll ?_
  unfold Resolved
  rw [dropSocket_keeps (fun q : Page ρ δ σ => q.promises) (fun _ _ _ => rfl) fun _ => rfl]
  exact h

theorem Paired.disconnect (h : Paired Answers p) : Paired Answers p.disconnect := by
  refine (Paired.dropSocket ?_).rejectAll
  exact ⟨h.pending, h.queued, h.current, h.wires, h.resolved⟩

/-- Disconnected, nothing is under way and nothing is pending, so that the ids can be given out again. -/
theorem Paired.reconnectTo {url : String} (h : Paired Answers p) : Paired Answers (p.reconnectTo url) := by
  refine Paired.connect ?_
  constructor
  · intro id row hrow
    have hmem := Table.mem_of_get hrow
    rw [Page.disconnect, pending_rejectAll] at hmem
    cases hmem
  · intro id request hmem
    rw [sendQueue_disconnect] at hmem
    cases hmem
  · intro s hs
    rw [ws_disconnect] at hs
    cases hs
  · intro s socket hs
    rw [ws_disconnect] at hs
    cases hs
  · exact Resolved.disconnect (p := { p with client := _ }) h.resolved

/-! ## Steps -/

/-- The server answers requests with what answers them. -/
def Honest (Answers : ρ → δ → Prop) (act : PageAct ρ δ σ) (p : Page ρ δ σ) : Prop :=
  ∀ s data, act = .serve s (some data) → ∀ socket, p.sockets[s]? = some socket →
    ∀ id request, socket.outgoing.head? = some (.request id request) → Answers request data

theorem Paired.ifCurrent {handle : Page ρ δ σ → Page ρ δ σ} (h : Paired Answers p)
    (hhandle : p.client.ws = some s → Paired Answers (handle p)) : Paired Answers (p.ifCurrent s handle) := by
  unfold Page.ifCurrent
  split
  · rename_i hs
    exact hhandle hs
  · exact h

theorem Paired.serve {answer : Option δ} (h : Paired Answers p)
    (hhonest : Honest Answers (.serve s answer) p) :
    Paired Answers { p with sockets := p.sockets.modify s (takeOutgoing answer) } := by
  refine h.modifySocket _ ?_
  intro socket hs hsocket hcarries
  unfold takeOutgoing
  split
  · exact hcarries
  · rename_i message rest hout
    constructor
    · intro id request hmem
      exact hcarries.1 id request (hout ▸ List.mem_cons_of_mem _ hmem)
    · intro id data hmem
      rcases List.mem_append.1 hmem with hmem | hmem
      · exact hcarries.2 id data hmem
      · cases message with
        | command cmd => cases hmem
        | request id' request =>
          cases answer with
          | none => cases hmem
          | some answer =>
            cases List.mem_singleton.1 hmem
            have hname := hcarries.1 id request (hout ▸ List.mem_cons_self)
            have hanswers := hhonest s data rfl socket hsocket id request (hout ▸ rfl)
            refine ⟨hname.1, fun row hrow promise hpromise => ?_⟩
            rw [← hname.2 row hrow promise hpromise]
            exact hanswers

theorem Paired.received {outgoing : List (QueuedMessage ρ)} {message : ServerMessage δ σ}
    {rest : List (ServerMessage δ σ)} (h : Paired Answers p)
    (hsocket : p.sockets[s]? = some ⟨.opened, outgoing, message :: rest⟩) :
    Paired Answers (Page.ifCurrent s (Page.handleMessage message)
      { p with sockets := p.sockets.modify s fun socket => { socket with incoming := rest } }) := by
  have htaken : Paired Answers
      { p with sockets := p.sockets.modify s fun socket => { socket with incoming := rest } } := by
    refine h.modifySocket (fun socket => { socket with incoming := rest }) ?_
    intro socket _ hsocket' hcarries
    cases hsocket.symm.trans hsocket'
    exact ⟨hcarries.1, fun id data hmem => hcarries.2 id data (List.mem_cons_of_mem _ hmem)⟩
  refine htaken.ifCurrent fun hs => htaken.handleMessage ?_
  intro id data hmessage
  exact (h.wires s _ hs hsocket).2 id data (hmessage ▸ List.mem_cons_self)

theorem Paired.next {act : PageAct ρ δ σ} (h : Paired Answers p) (hhonest : Honest Answers act p) :
    Paired Answers (Page.next act p) := by
  cases act with
  | connect => exact h.connect
  | disconnect => exact h.disconnect
  | reconnectTo url => exact h.reconnectTo
  | sendCommand cmd => exact h.sendCommand
  | sendRequest request => exact h.sendRequest
  | opened s =>
    unfold Page.next
    dsimp only
    split
    · exact (h.setReadyState .opened).ifCurrent fun _ => (h.setReadyState .opened).handleOpen
    · exact h
  | received s =>
    unfold Page.next
    dsimp only
    split
    · rename_i outgoing message rest hsocket
      exact h.received hsocket
    · exact h
  | closed s failed =>
    unfold Page.next
    dsimp only
    split
    · exact h
    · have hclosed := h.setReadyState (s := s) .closed
      split
      · have hcleared := hclosed.ifCurrent (s := s) fun _ => hclosed.clearConnectTimeout
        exact hcleared.ifCurrent fun _ => hcleared.handleClose
      · exact hclosed.ifCurrent fun _ => hclosed.handleClose
  | fired timer =>
    unfold Page.next
    dsimp only
    split
    · exact (h.clearTimeout _).runCallback
    · exact h
  | visible =>
    unfold Page.next
    dsimp only
    split
    · refine Paired.connect ?_
      exact ⟨h.pending, h.queued, h.current, h.wires, h.resolved⟩
    · exact h
  | online =>
    refine Paired.scheduleReconnect ?_
    exact ⟨h.pending, h.queued, h.current, h.wires, h.resolved⟩
  | offline =>
    refine Paired.dropSocket ?_
    exact ⟨h.pending, h.queued, h.current, h.wires, h.resolved⟩
  | serve s answer => exact h.serve hhonest
  | push s state =>
    refine h.modifySocket _ ?_
    intro socket _ _ hcarries
    refine ⟨hcarries.1, ?_⟩
    intro id data hmem
    rcases List.mem_append.1 hmem with hmem | hmem
    · exact hcarries.2 id data hmem
    · cases state with
      | none => cases List.mem_singleton.1 hmem
      | some state => cases List.mem_singleton.1 hmem

end Page

end Web

end Kanade

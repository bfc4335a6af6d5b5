import Kanade.Web.PageTimers

/-!
# Kanade.Web.Requests

The requests of the web client, over any run with its server.

* `Waits`: a promise that is not settled has an entry, and every entry an armed timer of its own.
* `ServedRun`: any order of calls, events and answers, the server answering requests with what answers them.
* `request_answered`: no promise takes the answer to another request, whatever connections were lost in between and
  whatever ids were given out again; and none is forgotten: its own timer rejects it, and no other promise.
-/

namespace Kanade

namespace Web

open Concur Keyed

namespace Page

variable {ρ δ σ : Type} {Answers : ρ → δ → Prop} {p : Page ρ δ σ} {id s k : Nat} {row : PendingRequest}

def Unsettled (p : Page ρ δ σ) (k : Nat) : Prop := ∃ promise, p.promises[k]? = some promise ∧ promise.outcome = none

structure Waits (p : Page ρ δ σ) : Prop where
  tidy : p.Tidy
  waiting : ∀ k promise, p.promises[k]? = some promise → promise.outcome = none →
    ∃ id row, p.client.pendingRequests.get id = some row ∧ row.promise = k
  armed : ∀ id row, p.client.pendingRequests.get id = some row →
    p.timers.get row.timeoutId = some ⟨row.timeoutId, .requestTimeout id row.promise, requestTimeoutMs⟩

namespace Waits

theorem new (url : String) (takesUrl : String → Bool) : Waits (Page.new url takesUrl : Page ρ δ σ) := by
  refine ⟨Tidy.new url takesUrl, ?_, ?_⟩
  · intro k promise h
    cases h
  · intro id row h
    cases h

/-- The other timers do not matter. -/
theorem frame {q : Page ρ δ σ} (h : Waits p) (htidy : q.Tidy) (hpromises : q.promises = p.promises)
    (hpending : q.client.pendingRequests = p.client.pendingRequests)
    (htimers : ∀ k timer id, p.timers.get k = some timer → timer.callback.slot = .request id →
      q.timers.get k = some timer) : Waits q := by
  refine ⟨htidy, ?_, ?_⟩
  · rw [hpromises, hpending]
    exact h.waiting
  · intro id row hrow
    rw [hpending] at hrow
    exact htimers _ _ id (h.armed id row hrow) rfl

theorem clearSlot {q : Page ρ δ σ} (slot : Slot) (h : Waits p) (htidy : q.Tidy) (hpromises : q.promises = p.promises)
    (hpending : q.client.pendingRequests = p.client.pendingRequests)
    (htimers : q.timers = p.timers.clear (p.held slot)) (hslot : ∀ id, slot ≠ .request id) : Waits q := by
  refine h.frame htidy hpromises hpending fun k timer id hget hrequest => ?_
  rw [htimers]
  exact Held.get_clear h.tidy hget (hrequest ▸ (hslot id).symm)

theorem clearReconnectTimeout (h : Waits p) : Waits p.clearReconnectTimeout :=
  h.clearSlot .reconnect h.tidy.clearReconnectTimeout rfl rfl rfl fun _ heq => by cases heq

theorem clearConnectTimeout (h : Waits p) : Waits p.clearConnectTimeout :=
  h.clearSlot .connect h.tidy.clearConnectTimeout rfl rfl rfl fun _ heq => by cases heq

theorem clearHeartbeat (h : Waits p) : Waits p.clearHeartbeat :=
  h.clearSlot .heartbeat h.tidy.clearHeartbeat rfl rfl rfl fun _ heq => by cases heq

theorem resetHeartbeat (h : Waits p) : Waits p.resetHeartbeat :=
  h.clearHeartbeat.frame h.tidy.resetHeartbeat rfl rfl fun _ _ _ hget _ => Timers.get_set_of_get hget

theorem scheduleReconnect (h : Waits p) : Waits p.scheduleReconnect := by
  have htidy := h.tidy.scheduleReconnect
  unfold Page.scheduleReconnect at htidy ⊢
  split
  · exact h
  · rename_i hnot
    rw [if_neg hnot] at htidy
    exact h.frame htidy rfl rfl fun _ _ _ hget _ => Timers.get_set_of_get hget

/-! ## Settling -/

/-- An entry is deleted with its timer, and its promise settled. -/
theorem settle {outcome : Except String δ} {q : Page ρ δ σ} (h : Waits p)
    (hrow : p.client.pendingRequests.get id = some row) (htidy : q.Tidy)
    (hclient : q.client.pendingRequests = p.client.pendingRequests.restrict fun k => decide (k ≠ id))
    (hpromises : q.promises = p.promises.modify row.promise (Promise.settle outcome))
    (htimers : q.timers = p.timers.clear (some row.timeoutId)) : Waits q := by
  have hget : ∀ k, q.client.pendingRequests.get k = if k = id then none else p.client.pendingRequests.get k := by
    intro k
    rw [hclient, Table.get_restrict]
    by_cases hk : k = id
    · simp [hk]
    · simp [hk]
  refine ⟨htidy, ?_, ?_⟩
  · intro k promise hk hnone
    rw [hpromises] at hk
    obtain ⟨before, hbefore, ⟨-, rfl⟩ | ⟨hne, rfl⟩⟩ := exists_of_getElem?_modify hk
    · simp [Promise.settle] at hnone
    · obtain ⟨id', row', hrow', hk'⟩ := h.waiting k promise hbefore hnone
      refine ⟨id', row', ?_, hk'⟩
      rw [hget, if_neg]
      · exact hrow'
      · intro heq
        rw [heq, hrow] at hrow'
        cases hrow'
        exact hne hk'.symm
  · intro id' row' hrow'
    rw [hget] at hrow'
    split at hrow'
    · cases hrow'
    · rename_i hne
      have harmed := h.armed id' row' hrow'
      rw [htimers, Timers.get_clear, if_neg]
      · exact harmed
      · intro heq
        rw [Option.some.inj heq, h.armed id row hrow] at harmed
        simp only [Option.some.injEq, Timer.mk.injEq, Callback.requestTimeout.injEq] at harmed
        exact hne harmed.2.1.1.symm

theorem settleRequest {outcome : Except String δ} (h : Waits p)
    (hrow : p.client.pendingRequests.get id = some row) : Waits (p.settleRequest outcome row) := by
  have hid : row.id = id := Table.key_of_get hrow
  exact h.settle hrow (h.tidy.settleRequest hrow) (by rw [← hid]; rfl) rfl rfl

theorem rejectAll {error : String} (h : Waits p) : Waits (p.rejectAll error) :=
  rejectAll_induction h fun _ _ _ hq hrow => hq.settleRequest hrow

theorem settlePromise {outcome : Except String δ} (h : Waits p) : Waits (p.settlePromise outcome k) := by
  refine ⟨h.tidy, ?_, h.armed⟩
  intro j promise hj hnone
  obtain ⟨before, hbefore, -, hout⟩ := request_of_settled hj
  rcases hout with hout | ⟨-, hout⟩
  · exact h.waiting j before hbefore (hout ▸ hnone)
  · rw [hout] at hnone
    simp at hnone

/-! ## Sending -/

theorem queue {message : QueuedMessage ρ} (h : Waits p) : Waits (p.queue message) := by
  have hrejected : Waits p.rejectDropped := by
    obtain heq | ⟨id, row, error, hrow, heq⟩ := rejectDropped_cases p
    · rwa [heq]
    · rw [heq]
      exact h.settleRequest hrow
  unfold Page.queue
  dsimp only
  split
  · exact ⟨hrejected.tidy, hrejected.waiting, hrejected.armed⟩
  · exact ⟨h.tidy, h.waiting, h.armed⟩

theorem sendMessage {message : QueuedMessage ρ} {p' : Page ρ δ σ} (h : Waits p)
    (hsent : p.sendMessage message = some p') : Waits p' := by
  obtain rfl | ⟨s, rfl⟩ | rfl := sendMessage_cases hsent
  · exact h
  · exact ⟨h.tidy, h.waiting, h.armed⟩
  · exact h.queue

theorem sendCommand {cmd : WsCommand} (h : Waits p) : Waits (p.sendCommand cmd) := by
  unfold Page.sendCommand
  cases hsent : p.sendMessage (.command cmd) with
  | none => exact h
  | some p' => exact h.sendMessage hsent

theorem register (h : Waits p) (hpaired : Paired Answers p) (request : ρ) : Waits (p.register request) := by
  refine ⟨h.tidy.register hpaired request, ?_, ?_⟩
  · intro k promise hk hnone
    by_cases hlt : k < p.promises.length
    · rw [Page.register, List.getElem?_append_left hlt] at hk
      obtain ⟨id, row, hrow, hk'⟩ := h.waiting k promise hk hnone
      refine ⟨id, row, ?_, hk'⟩
      rw [hpaired.get_register, if_neg]
      · exact hrow
      · have := (hpaired.pending id row hrow).1
        omega
    · have hlen : k < (p.register request).promises.length := (List.getElem?_eq_some_iff.1 hk).1
      rw [Page.register, List.length_append, List.length_singleton] at hlen
      refine ⟨p.client.reqId + 1, p.newRequest, ?_, by show p.promises.length = k; omega⟩
      rw [hpaired.get_register, if_pos rfl]
  · intro id row hrow
    rw [hpaired.get_register] at hrow
    split at hrow
    · rename_i hid
      cases hrow
      rw [hid]
      exact Timers.get_set_count
    · exact Timers.get_set_of_get (h.armed id row hrow)

theorem sendRequest {request : ρ} (h : Waits p) (hpaired : Paired Answers p) : Waits (p.sendRequest request) := by
  have hregister := h.register hpaired request
  unfold Page.sendRequest
  cases hsent : (p.register request).sendMessage (.request (p.client.reqId + 1) request) with
  | some p' => exact hregister.sendMessage hsent
  | none => exact hregister.settlePromise

/-! ## Sockets and events -/

theorem openSocket (h : Waits p) : Waits p.openSocket := by
  have hcleared := h.clearConnectTimeout
  exact hcleared.frame h.tidy.openSocket rfl rfl fun _ _ _ hget _ => Timers.get_set_of_get hget

theorem connect (h : Waits p) : Waits p.connect := by
  have hactive : Waits { p with client := { p.client with active := true } } := ⟨h.tidy, h.waiting, h.armed⟩
  unfold Page.connect
  split
  · exact hactive.clearReconnectTimeout
  split
  · exact hactive.clearReconnectTimeout.openSocket
  · exact hactive.clearReconnectTimeout

theorem close (h : Waits p) : Waits (p.close s) := by
  unfold Page.close
  split
  · exact ⟨h.tidy, h.waiting, h.armed⟩
  · exact ⟨h.tidy, h.waiting, h.armed⟩
  · exact h

theorem dropSocket (h : Waits p) : Waits p.dropSocket := by
  unfold Page.dropSocket
  split
  · rename_i s _
    have hclosed := h.close (s := s)
    exact ⟨hclosed.tidy, hclosed.waiting, hclosed.armed⟩
  · exact h

theorem disconnect (h : Waits p) : Waits p.disconnect := by
  have hoff : Waits { p with client := { p.client with active := false, connected := false, retryCount := 0 } } :=
    ⟨h.tidy, h.waiting, h.armed⟩
  exact hoff.clearConnectTimeout.clearReconnectTimeout.clearHeartbeat.dropSocket.rejectAll

theorem reconnectTo {url : String} (h : Waits p) : Waits (p.reconnectTo url) := by
  refine (disconnect ?_).connect
  exact ⟨h.tidy, h.waiting, h.armed⟩

theorem handleOpen (h : Waits p) : Waits (p.handleOpen s) := by
  have hcleared := h.clearConnectTimeout
  refine resetHeartbeat ?_
  exact ⟨hcleared.tidy, hcleared.waiting, hcleared.armed⟩

theorem handleMessage {message : ServerMessage δ σ} (h : Waits p) : Waits (p.handleMessage message) := by
  have hseen := h.resetHeartbeat
  unfold Page.handleMessage
  cases message with
  | state state => exact ⟨hseen.tidy, hseen.waiting, hseen.armed⟩
  | other => exact hseen
  | response id data =>
    dsimp only
    split
    · rename_i row hrow
      exact hseen.settleRequest hrow
    · exact hseen

theorem handleClose (h : Waits p) : Waits p.handleClose := by
  have hcleared := h.clearConnectTimeout.clearHeartbeat
  refine (rejectAll ?_).scheduleReconnect
  exact ⟨hcleared.tidy, hcleared.waiting, hcleared.armed⟩

theorem handleSilence (h : Waits p) : Waits p.handleSilence := by
  have hdropped := h.dropSocket
  refine (rejectAll ?_).scheduleReconnect
  exact ⟨hdropped.tidy, hdropped.waiting, hdropped.armed⟩

theorem timeOut (h : Waits p) (hrow : p.client.pendingRequests.get id = some row) :
    Waits ((p.clearTimeout (some row.timeoutId)).timeOut id row.promise) := by
  have htidy := h.tidy.fired (h.armed id row hrow)
  have hrow' : (p.clearTimeout (some row.timeoutId)).client.pendingRequests.get id = some row := hrow
  unfold runCallback Page.timeOut at htidy
  unfold Page.timeOut
  rw [hrow']
  dsimp only at htidy ⊢
  rw [hrow'] at htidy
  exact h.settle hrow htidy rfl rfl rfl

/-- A request's timer takes the entry with it; the others are no request's. -/
theorem fired {timer : Timer Callback} (h : Waits p) (htimer : p.timers.get k = some timer) :
    Waits ((p.clearTimeout (some k)).runCallback timer.callback) := by
  have howner := h.tidy.owner k timer htimer
  have hran : (∀ id, timer.callback.slot ≠ .request id) → Waits (p.clearTimeout (some k)) := fun hslot =>
    h.clearSlot _ (h.tidy.ran htimer) rfl rfl (congrArg p.timers.clear howner.symm) hslot
  cases hcallback : timer.callback with
  | requestTimeout id promise =>
    rw [hcallback] at howner
    obtain ⟨row, hrow, rfl⟩ := Option.map_eq_some_iff.1 howner
    have harmed := h.armed id row hrow
    rw [htimer] at harmed
    cases harmed
    cases hcallback
    exact h.timeOut hrow
  | connectTimeout s =>
    have hcleared := hran fun id heq => by rw [hcallback] at heq; cases heq
    unfold runCallback
    dsimp only
    split
    · exact hcleared.close
    · exact hcleared
  | heartbeat => exact (hran fun id heq => by rw [hcallback] at heq; cases heq).handleSilence
  | reconnect =>
    have hcleared := h.clearReconnectTimeout
    unfold Page.clearReconnectTimeout at hcleared
    rw [hcallback] at howner
    rw [show p.client.reconnectTimeout = some k from howner] at hcleared
    exact hcleared.connect

theorem ifCurrent {handle : Page ρ δ σ → Page ρ δ σ} (h : Waits p) (hhandle : Waits (handle p)) :
    Waits (p.ifCurrent s handle) := by
  unfold Page.ifCurrent
  split
  · exact hhandle
  · exact h

theorem next {act : PageAct ρ δ σ} (h : Waits p) (hpaired : Paired Answers p) : Waits (Page.next act p) := by
  have hsockets : ∀ sockets, Waits { p with sockets := sockets } := fun _ => ⟨h.tidy, h.waiting, h.armed⟩
  cases act with
  | connect => exact h.connect
  | disconnect => exact h.disconnect
  | reconnectTo url => exact h.reconnectTo
  | sendCommand cmd => exact h.sendCommand
  | sendRequest request => exact h.sendRequest hpaired
  | opened s =>
    unfold Page.next
    dsimp only
    split
    · exact ifCurrent (hsockets _) (hsockets _).handleOpen
    · exact h
  | received s =>
    unfold Page.next
    dsimp only
    split
    · exact ifCurrent (hsockets _) (hsockets _).handleMessage
    · exact h
  | closed s failed =>
    unfold Page.next
    dsimp only
    split
    · exact h
    · split
      · have hclosed : Waits (p.setReadyState s .closed) := hsockets _
        have hcleared := hclosed.ifCurrent (s := s) hclosed.clearConnectTimeout
        exact hcleared.ifCurrent hcleared.handleClose
      · exact ifCurrent (hsockets _) (hsockets _).handleClose
  | fired timer =>
    unfold Page.next
    dsimp only
    split
    · rename_i t ht
      exact h.fired ht
    · exact h
  | visible =>
    unfold Page.next
    dsimp only
    split
    · refine (clearReconnectTimeout ?_).connect
      exact ⟨h.tidy, h.waiting, h.armed⟩
    · exact h
  | online =>
    refine scheduleReconnect ?_
    exact ⟨h.tidy, h.waiting, h.armed⟩
  | offline =>
    refine dropSocket ?_
    exact ⟨h.tidy, h.waiting, h.armed⟩
  | serve s answer => exact hsockets _
  | push s state => exact hsockets _

/-- A promise that is not settled has a timer, which rejects it and no other. -/
theorem settled {promise : Promise ρ δ} (h : Waits p) (hpromise : p.promises[k]? = some promise)
    (hnone : promise.outcome = none) :
    ∃ timer reqId, p.timers.get timer = some ⟨timer, .requestTimeout reqId k, requestTimeoutMs⟩ ∧
      (Page.next (.fired timer) p).promises =
        p.promises.set k { promise with outcome := some (.error "Request timed out") } := by
  obtain ⟨id, row, hrow, rfl⟩ := h.waiting k promise hpromise hnone
  have harmed := h.armed id row hrow
  refine ⟨row.timeoutId, id, harmed, ?_⟩
  have hrow' : (p.clearTimeout (some row.timeoutId)).client.pendingRequests.get id = some row := hrow
  unfold Page.next
  dsimp only
  rw [harmed]
  dsimp only [runCallback]
  unfold Page.timeOut
  rw [hrow']
  have : Inhabited (Promise ρ δ) := ⟨promise⟩
  show p.promises.modify row.promise (Promise.settle (.error "Request timed out")) = _
  rw [List.modify_eq_set, hpromise]
  simp [Promise.settle, hnone]

end Waits

/-! ## Runs -/

/-- The server answers requests with what answers them. -/
structure ServedRun (ρ δ σ : Type) (Answers : ρ → δ → Prop) extends PageRun ρ δ σ where
  honest : Each Page.next (Honest Answers) acts (Page.new url takesUrl)

/-- Nothing has happened. -/
instance : Inhabited (ServedRun ρ δ σ Answers) := ⟨⟨⟨"", fun _ => true, []⟩, trivial⟩⟩

theorem ServedRun.paired_waits (run : ServedRun ρ δ σ Answers) : Paired Answers run.page ∧ Waits run.page := by
  refine runAll_invariant (I := fun p => Paired Answers p ∧ Waits p) ?_ run.honest ⟨Paired.new _ _, Waits.new _ _⟩
  intro act p hhonest ⟨hpaired, hwaits⟩
  exact ⟨hpaired.next hhonest, hwaits.next hpaired⟩

/-- `timerOf` says which timer is whose. -/
theorem request_answered (run : ServedRun ρ δ σ Answers) :
    (∀ promise ∈ run.page.promises, ∀ data, promise.outcome = some (.ok data) → Answers promise.request data) ∧
      ∃ timerOf : Nat → Nat, Set.InjOn timerOf { k | run.page.Unsettled k } ∧
        ∀ (k : Nat) (promise : Promise ρ δ), run.page.promises[k]? = some promise → promise.outcome = none →
          (∃ timer, run.page.timers.get (timerOf k) = some timer ∧ timer.delay = requestTimeoutMs) ∧
            (Page.next (.fired (timerOf k)) run.page).promises =
              run.page.promises.set k { promise with outcome := some (.error "Request timed out") } := by
  obtain ⟨hpaired, hwaits⟩ := run.paired_waits
  refine ⟨hpaired.resolved, ?_⟩
  have hsettled : ∀ k : Nat, ∃ timer, ∀ promise : Promise ρ δ, run.page.promises[k]? = some promise →
      promise.outcome = none → ∃ reqId,
        run.page.timers.get timer = some ⟨timer, .requestTimeout reqId k, requestTimeoutMs⟩ ∧
          (Page.next (.fired timer) run.page).promises =
            run.page.promises.set k { promise with outcome := some (.error "Request timed out") } := by
    intro k
    by_cases hk : run.page.Unsettled k
    · obtain ⟨promise, hpromise, hnone⟩ := hk
      obtain ⟨timer, reqId, hget, hfired⟩ := hwaits.settled hpromise hnone
      refine ⟨timer, fun promise' hpromise' _ => ?_⟩
      cases hpromise.symm.trans hpromise'
      exact ⟨reqId, hget, hfired⟩
    · exact ⟨0, fun promise hpromise hnone => absurd ⟨promise, hpromise, hnone⟩ hk⟩
  choose timerOf htimerOf using hsettled
  refine ⟨timerOf, ?_, fun k promise hpromise hnone => ?_⟩
  · -- the callback of a timer names the promise
    intro k ⟨promise, hpromise, hnone⟩ k' ⟨promise', hpromise', hnone'⟩ heq
    obtain ⟨reqId, hget, -⟩ := htimerOf k promise hpromise hnone
    obtain ⟨reqId', hget', -⟩ := htimerOf k' promise' hpromise' hnone'
    rw [heq, hget'] at hget
    simp only [Option.some.injEq, Timer.mk.injEq, Callback.requestTimeout.injEq] at hget
    exact hget.2.1.2.symm
  · obtain ⟨reqId, hget, hfired⟩ := htimerOf k promise hpromise hnone
    exact ⟨⟨_, hget, rfl⟩, hfired⟩

end Page

end Web

end Kanade

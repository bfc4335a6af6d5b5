import Kanade.Concur.Broadcast
import Kanade.Core.Convergence

/-!
# Kanade.Ws.StateStream

The states that a UI client is sent, by `run_ui_mode` over `WsBroadcaster`, while operations of the core interleave.

* `StreamAct`, `Streaming.next`: the client subscribes, is sent the state that is read then, and is sent what it
  receives from the broadcaster's channel, which keeps 64 messages.
* `Streamed`: which state the client was sent first, and what it has been sent since.
* `client_converged`: a client for which nothing is left to receive has been sent the core's state last, although it
  subscribes before it reads the state and may miss states when it lags.
-/

namespace Kanade

namespace Ws

open Concur

variable {ι : Type} [DecidableEq ι]

/-- `run_ui_mode` before its loop, and in it. -/
inductive ClientStage where
  | connected
  | subscribed (rx : Receiver)
  | streaming (rx : Receiver)
  | gone
deriving DecidableEq

/-- The core with its operations under way, `WsBroadcaster`, and one client with the states it was sent. -/
structure Streaming (ι : Type) where
  history : List (CoreEntry ι)
  pool : CorePool ι
  channel : Channel PlaybackState
  stage : ClientStage
  sent : List PlaybackState

inductive StreamAct (ι : Type) where
  /-- The next step of an operation; `on_state_changed` of the broadcaster is one. -/
  | core (i : ι) (r : Except CoreError Unit)
  | subscribe
  | snapshot
  | recv
  /-- A send fails, or the client closes. -/
  | hangUp

/-- What the broadcaster `k` is given in a step. -/
def toBroadcaster? (k : Nat) (e : CoreEntry ι) : Option PlaybackState :=
  (entryDelivery? e).bind fun d => if d.1 = .broadcaster k then some d.2 else none

namespace Streaming

/-- `WsBroadcaster::new(64)`. -/
def start (w : Core) (ops : ι → CoreOp) : Streaming ι where
  history := []
  pool := corePool w ops
  channel := ⟨64, by decide, []⟩
  stage := .connected
  sent := []

/-- A step of the core, with what the broadcaster makes of it. -/
def advance (k : Nat) (e : CoreEntry ι) (pool : CorePool ι) (s : Streaming ι) : Streaming ι :=
  { s with
    history := e :: s.history
    pool := pool
    channel :=
      match toBroadcaster? k e with
      | some state => s.channel.send state
      | none => s.channel }

/-- One step; one that cannot be taken changes nothing. -/
def next (k : Nat) (act : StreamAct ι) (s : Streaming ι) : Streaming ι :=
  match act with
  | .core i r =>
    match s.pool.step i r with
    | some (e, pool) => s.advance k e pool
    | none => s
  | .subscribe =>
    match s.stage with
    | .connected => { s with stage := .subscribed s.channel.subscribe }
    | _ => s
  | .snapshot =>
    match s.stage with
    | .subscribed rx => { s with stage := .streaming rx, sent := [s.pool.shared.state] }
    | _ => s
  | .recv =>
    match s.stage with
    | .streaming rx =>
      { s with
        stage := .streaming (s.channel.recv rx).2
        sent := s.sent ++ (s.channel.recv rx).1.toList }
    | _ => s
  | .hangUp => { s with stage := .gone }

end Streaming

/-- A run: the operations, and the steps in whatever order they come. -/
structure StreamRun (ι : Type) where
  w : Core
  ops : ι → CoreOp
  /-- Which of the core's broadcasters is `WsBroadcaster`. -/
  broadcaster : Nat
  registered : broadcaster ∈ w.broadcasters
  acts : List (StreamAct ι)

def StreamRun.finish (run : StreamRun ι) : Streaming ι :=
  runAll (Streaming.next run.broadcaster) run.acts (Streaming.start run.w run.ops)

/-! ## Deliveries -/

variable {w : Core} {ops : ι → CoreOp} {k : Nat} {s : Streaming ι}

/-- What the broadcaster has been given, the oldest first. -/
def deliveries (k : Nat) (h : List (CoreEntry ι)) : List PlaybackState := (h.filterMap (toBroadcaster? k)).reverse

omit [DecidableEq ι] in
theorem deliveries_append (h₂ h₁ : List (CoreEntry ι)) :
    deliveries k (h₂ ++ h₁) = deliveries k h₁ ++ deliveries k h₂ := by
  unfold deliveries
  rw [List.filterMap_append, List.reverse_append]

omit [DecidableEq ι] in
theorem toBroadcaster?_eq_some {e : CoreEntry ι} {state : PlaybackState} :
    toBroadcaster? k e = some state ↔ entryDelivery? e = some (.broadcaster k, state) := by
  unfold toBroadcaster?
  cases hd : entryDelivery? e with
  | none => simp
  | some d =>
    obtain ⟨sink, state'⟩ := d
    by_cases hsink : sink = .broadcaster k
    · simp [hsink]
    · simp [hsink]

omit [DecidableEq ι] in
/-- What the broadcaster has been given last. -/
theorem shown_eq (w : Core) (k : Nat) (h : List (CoreEntry ι)) :
    shown w (.broadcaster k) h = (deliveries k h).getLast?.getD w.state := by
  induction h with
  | nil => rfl
  | cons e h ih =>
    have hcons : deliveries k (e :: h) = deliveries k h ++ deliveries k [e] := deliveries_append [e] h
    rw [hcons, shown]
    cases hto : toBroadcaster? k e with
    | some state =>
      have hone : deliveries k [e] = [state] := by simp [deliveries, hto]
      rw [hone, List.getLast?_concat, toBroadcaster?_eq_some.1 hto]
      simp
    | none =>
      have hone : deliveries k [e] = [] := by simp [deliveries, hto]
      rw [hone, List.append_nil, ← ih]
      cases hd : entryDelivery? e with
      | none => rfl
      | some d =>
        have hne : d.1 ≠ .broadcaster k := by
          intro heq
          rw [toBroadcaster?, hd] at hto
          simp [heq] at hto
        simp [hne]

/-- With nothing delivered since, the broadcaster's state is as old as it was. -/
theorem shownAt_append {h₂ h₁ : List (CoreEntry ι)} (hnone : deliveries k h₂ = []) :
    shownAt (.broadcaster k) (h₂ ++ h₁) = shownAt (.broadcaster k) h₁ := by
  induction h₂ with
  | nil => rfl
  | cons e h₂ ih =>
    have hcons : deliveries k (e :: h₂) = deliveries k h₂ ++ deliveries k [e] := deliveries_append [e] h₂
    rw [hcons, List.append_eq_nil_iff] at hnone
    have hto : toBroadcaster? k e = none := by
      cases hto : toBroadcaster? k e with
      | none => rfl
      | some state => simp [deliveries, hto] at hnone
    rw [List.cons_append, shownAt]
    cases hd : entryDelivery? e with
    | none => exact ih hnone.1
    | some d =>
      have hne : d.1 ≠ .broadcaster k := by
        intro heq
        rw [toBroadcaster?, hd] at hto
        simp [heq] at hto
      simp only [if_neg hne]
      exact ih hnone.1

theorem takenAt_le (i : ι) (h : List (CoreEntry ι)) : takenAt i h ≤ h.length := by
  induction h with
  | nil => exact Nat.le_refl 0
  | cons e h ih =>
    rw [takenAt, List.length_cons]
    split <;> omega

theorem shownAt_le (k : Sink) (h : List (CoreEntry ι)) : shownAt k h ≤ h.length := by
  induction h with
  | nil => exact Nat.le_refl 0
  | cons e h ih =>
    have htaken := takenAt_le e.who h
    rw [shownAt, List.length_cons]
    split
    · split <;> omega
    · omega

omit [DecidableEq ι] in
/-- The steps after the newest snapshot. -/
theorem mem_sinceSnapshot {h₂ h₁ : List (CoreEntry ι)} (hlast : lastTime (h₂ ++ h₁) ≤ h₁.length) {e : CoreEntry ι}
    (he : e ∈ h₂) : e ∈ sinceSnapshot (h₂ ++ h₁) := by
  induction h₂ with
  | nil => cases he
  | cons e' h₂ ih =>
    rw [List.cons_append, lastTime] at hlast
    split at hlast
    · rw [List.length_append] at hlast
      omega
    · rename_i hact
      have hcons : sinceSnapshot (e' :: (h₂ ++ h₁)) = e' :: sinceSnapshot (h₂ ++ h₁) := by
        simp [sinceSnapshot, hact]
      rw [List.cons_append, hcons]
      rcases List.mem_cons.1 he with rfl | he
      · exact List.mem_cons_self
      · exact List.mem_cons_of_mem _ (ih hlast he)

/-! ## The client -/

/-- What the client has been told at its stage: `h₁` is the history when it subscribed, `h₂` is what came before it
was sent the state that was read, `h₃` what has come since. -/
def Told (k : Nat) (s : Streaming ι) : ClientStage → Prop
  | .connected => True
  | .subscribed rx => ∃ h₂ h₁, s.history = h₂ ++ h₁ ∧ Listened s.channel (deliveries k h₁).length rx []
  | .streaming rx =>
    ∃ h₃ h₂ h₁ first got, s.history = h₃ ++ (h₂ ++ h₁) ∧ s.sent = first :: got ∧
      Listened s.channel (deliveries k h₁).length rx got ∧
      ((∀ e ∈ h₃, e.post.state = e.pre.state) → s.pool.shared.state = first)
  | .gone => True

structure Streamed (k : Nat) (w : Core) (ops : ι → CoreOp) (s : Streaming ι) : Prop where
  run : Pool.Interleaving (corePool w ops) s.history s.pool
  log : s.channel.log = deliveries k s.history
  told : Told k s s.stage

theorem Streamed.start (k : Nat) (w : Core) (ops : ι → CoreOp) : Streamed k w ops (Streaming.start w ops) :=
  ⟨.init, rfl, trivial⟩

omit [DecidableEq ι] in
theorem log_advance {e : CoreEntry ι} {pool : CorePool ι} (hlog : s.channel.log = deliveries k s.history) :
    (s.advance k e pool).channel.log = deliveries k (e :: s.history) := by
  have hcons : deliveries k (e :: s.history) = deliveries k s.history ++ deliveries k [e] :=
    deliveries_append [e] s.history
  rw [hcons, ← hlog]
  unfold Streaming.advance
  cases hto : toBroadcaster? k e with
  | some state => simp [deliveries, hto, Channel.send]
  | none => simp [deliveries, hto]

omit [DecidableEq ι] in
theorem listened_advance {e : CoreEntry ι} {pool : CorePool ι} {n : Nat} {rx : Receiver} {got : List PlaybackState}
    (h : Listened s.channel n rx got) : Listened (s.advance k e pool).channel n rx got := by
  unfold Streaming.advance
  cases hto : toBroadcaster? k e with
  | some state => simpa only [hto] using h.send state
  | none => simpa only [hto] using h

theorem Streamed.advance {e : CoreEntry ι} {pool : CorePool ι} {i : ι} {r : Except CoreError Unit}
    (h : Streamed k w ops s) (hstep : s.pool.step i r = some (e, pool)) : Streamed k w ops (s.advance k e pool) := by
  obtain ⟨-, hpre, hpost⟩ := Pool.step_who hstep
  refine ⟨.step h.run hstep trivial, log_advance h.log, ?_⟩
  have htold := h.told
  show Told k (s.advance k e pool) s.stage
  cases hstage : s.stage with
  | connected => trivial
  | gone => trivial
  | subscribed rx =>
    rw [hstage] at htold
    obtain ⟨h₂, h₁, hhist, hlisten⟩ := htold
    refine ⟨e :: h₂, h₁, ?_, listened_advance hlisten⟩
    show e :: s.history = _
    rw [hhist, List.cons_append]
  | streaming rx =>
    rw [hstage] at htold
    obtain ⟨h₃, h₂, h₁, first, got, hhist, hsent, hlisten, hfirst⟩ := htold
    refine ⟨e :: h₃, h₂, h₁, first, got, ?_, hsent, listened_advance hlisten, fun hsame => ?_⟩
    · show e :: s.history = _
      rw [hhist, List.cons_append]
    · have hbefore := hfirst fun e' he' => hsame e' (List.mem_cons_of_mem e he')
      show pool.shared.state = first
      rw [← hpost, hsame e List.mem_cons_self, hpre, hbefore]

theorem Streamed.next {act : StreamAct ι} (h : Streamed k w ops s) : Streamed k w ops (Streaming.next k act s) := by
  have htold := h.told
  cases act with
  | core i r =>
    unfold Streaming.next
    dsimp only
    cases hstep : s.pool.step i r with
    | none => exact h
    | some ep => exact h.advance hstep
  | subscribe =>
    unfold Streaming.next
    dsimp only
    split
    · refine ⟨h.run, h.log, [], s.history, rfl, ?_⟩
      rw [← h.log]
      exact Listened.subscribe s.channel
    · exact h
  | snapshot =>
    unfold Streaming.next
    dsimp only
    split
    · rename_i rx hstage
      rw [hstage] at htold
      obtain ⟨h₂, h₁, hhist, hlisten⟩ := htold
      exact ⟨h.run, h.log, [], h₂, h₁, s.pool.shared.state, [], hhist, rfl, hlisten, fun _ => rfl⟩
    · exact h
  | recv =>
    unfold Streaming.next
    dsimp only
    split
    · rename_i rx hstage
      rw [hstage] at htold
      obtain ⟨h₃, h₂, h₁, first, got, hhist, hsent, hlisten, hfirst⟩ := htold
      refine ⟨h.run, h.log, h₃, h₂, h₁, first, _, hhist, ?_, hlisten.recv, hfirst⟩
      rw [hsent, List.cons_append]
    · exact h
  | hangUp => exact ⟨h.run, h.log, trivial⟩

theorem StreamRun.streamed (run : StreamRun ι) : Streamed run.broadcaster run.w run.ops run.finish :=
  runAll_keeps (I := Streamed run.broadcaster run.w run.ops) (fun _ _ h => Streamed.next h) run.acts
    (Streamed.start _ _ _)

/-- All operations have finished, the deliveries to the broadcaster were in order, and the operations that failed
have changed nothing since the newest snapshot: then a client for which nothing is left to receive has been sent the
state last. -/
theorem client_converged (run : StreamRun ι) {rx : Receiver} (hstage : run.finish.stage = .streaming rx)
    (hempty : run.finish.channel.recv rx = (.empty, rx)) (hdone : ∀ i, (run.finish.pool.task i).result?.isSome)
    (horder : Pool.Met (InOrderTo (.broadcaster run.broadcaster)) run.finish.history)
    (hfailed : ∀ i err, (run.finish.pool.task i).result? = some (.error err) →
      ∀ e ∈ sinceSnapshot run.finish.history, e.who = i → e.post.state = e.pre.state) :
    run.finish.sent.getLast? = some run.finish.pool.shared.state := by
  have h := run.streamed
  have hregistered : Sink.broadcaster run.broadcaster ∈ run.w.sinks :=
    List.mem_append_left _ (List.mem_map_of_mem run.registered)
  have hsame := unchanged_sinceSnapshot h.run hdone hfailed
  obtain ⟨hreached, hshown⟩ := reached_of_inOrderTo h.run hdone hregistered horder
  rw [← state_eq_lastSnapshot h.run hsame] at hshown
  have htold := h.told
  rw [hstage] at htold
  obtain ⟨h₃, h₂, h₁, first, got, hhist, hsent, hlisten, hfirst⟩ := htold
  have hlog : run.finish.channel.log.drop (deliveries run.broadcaster h₁).length =
      deliveries run.broadcaster (h₃ ++ h₂) := by
    rw [h.log, hhist, ← List.append_assoc, deliveries_append, List.drop_left]
  have hgot := hlisten.drained (hlisten.next_eq hempty)
  rw [hlog] at hgot
  rw [shown_eq, hhist, ← List.append_assoc, deliveries_append] at hshown
  rw [hsent]
  cases hlast : (deliveries run.broadcaster (h₃ ++ h₂)).getLast? with
  | some state =>
    -- the client has got what the broadcaster was given last
    rw [List.getLast?_append, hlast] at hshown
    rw [hlast] at hgot
    rw [← hshown, List.getLast?_cons, hgot]
    rfl
  | none =>
    -- nothing since the client subscribed: the newest snapshot is older, and the state read since is the last
    rw [List.getLast?_eq_none_iff] at hlast
    rw [hlast, List.getLast?_nil, List.getLast?_eq_none_iff] at hgot
    have hsince : shownAt (.broadcaster run.broadcaster) (h₃ ++ (h₂ ++ h₁)) =
        shownAt (.broadcaster run.broadcaster) h₁ := by
      rw [← List.append_assoc]
      exact shownAt_append hlast
    have hle : lastTime (h₃ ++ (h₂ ++ h₁)) ≤ (h₂ ++ h₁).length := by
      have hlen := shownAt_le (.broadcaster run.broadcaster) h₁
      rw [hhist] at hreached
      rw [← hreached, hsince, List.length_append]
      omega
    have hstate := hfirst fun e he => hsame e (by
      rw [hhist]
      exact mem_sinceSnapshot hle he)
    rw [hgot, hstate]
    rfl

/-- A client that subscribes before the first operation and is sent the state in the middle of it. -/
def earlyClient : StreamRun Bool where
  w := twoSettings.shared
  ops := fun i => if i then .setRepeat .all else .setShuffle true
  broadcaster := 0
  registered := by decide
  acts :=
    [.subscribe, .core false (.ok ()), .core false (.ok ()), .snapshot, .core false (.ok ()), .core false (.ok ()),
      .recv, .core true (.ok ()), .core true (.ok ()), .core true (.ok ()), .core true (.ok ()), .recv]

theorem client_converged_earlyClient :
    earlyClient.finish.sent.getLast? = some earlyClient.finish.pool.shared.state := by
  have hfinished : ∀ i, (earlyClient.finish.pool.task i).result? = some (.ok ()) := by
    intro i
    cases i <;> decide
  have hstage : earlyClient.finish.stage = .streaming ⟨2⟩ := by decide
  refine client_converged earlyClient hstage rfl (fun i => ?_) (by decide) fun i err h => ?_
  · rw [hfinished]
    rfl
  · cases (hfinished i).symm.trans h

end Ws

end Kanade

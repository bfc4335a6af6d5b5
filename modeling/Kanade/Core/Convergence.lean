import Kanade.Core.Snapshots

/-!
# Kanade.Core.Convergence

What broadcasters and persisters have been given last, when all operations have finished.

A snapshot is delivered after the lock has been released, so that an older one may arrive later;
and an operation that fails after a write broadcasts nothing. `InOrder` excludes the first. The
invariant `Delivering` follows the newest snapshot: a sink has been given it, or the task that took
it has still to deliver it there; `changed_dirty` follows the state: whoever has changed it since
then has yet to broadcast. `converged_of_inOrder` puts them together.
-/

namespace Kanade

open Concur Fallible Discipline

inductive Sink where
  | broadcaster (k : Nat)
  | persister (k : Nat)
deriving DecidableEq, Repr

def Core.sinks (w : Core) : List Sink :=
  w.broadcasters.map .broadcaster ++ w.persisters.map .persister

/-- The sink a call goes to, and the snapshot it brings. -/
def CoreCall.delivery? : CoreCall → Option (Sink × PlaybackState)
  | .onStateChanged k s => some (.broadcaster k, s)
  | .persist k s => some (.persister k, s)
  | .output _ _ _ => none

/-! ## The protocol -/

/-- Whether a task has changed the state since its last snapshot, the sinks it has still to give
that snapshot, and the snapshot. -/
structure Broadcasting where
  dirty : Bool := false
  pending : List Sink := []
  snapshot : PlaybackState := .empty
deriving DecidableEq, Repr

/-- A task takes a section only when it has delivered everything, and delivers its snapshot to the
sinks one after the other. The sinks stay the same. -/
def deliveryProtocol : Protocol Core Sect CoreCall (Except CoreError Unit) Broadcasting where
  onSect p lab w w' :=
    if lab = .snapshot then ⟨false, w.sinks, w.state⟩
    else { p with dirty := p.dirty || w'.state != w.state }
  onCall p call _ := if call.delivery?.isSome then { p with pending := p.pending.tail } else p
  rely _ _ _ := True
  sectOk p lab w w' :=
    p.pending = [] ∧ w'.sinks = w.sinks ∧ (lab = .snapshot → w'.state = w.state)
  callOk p call := ∀ d ∈ call.delivery?, p.pending.head? = some d.1 ∧ p.snapshot = d.2

@[simp] theorem deliveryProtocol_onSect (p : Broadcasting) (lab : Sect) (w w' : Core) :
    deliveryProtocol.onSect p lab w w' =
      if lab = .snapshot then ⟨false, w.sinks, w.state⟩
      else { p with dirty := p.dirty || w'.state != w.state } := rfl

@[simp] theorem deliveryProtocol_onCall (p : Broadcasting) (call : CoreCall)
    (r : Except CoreError Unit) :
    deliveryProtocol.onCall p call r =
      if call.delivery?.isSome then { p with pending := p.pending.tail } else p := rfl

/-- At rest all has been delivered; settled, nothing has been changed since. -/
def broadcastStage (settled : Bool) (p : Broadcasting) : Prop :=
  p.pending = [] ∧ (settled = true → p.dirty = false)

theorem follows_deliverAll_pending {call : Nat → CoreCall} {sink : Nat → Sink} {s : PlaybackState}
    (hcall : ∀ k, (call k).delivery? = some (sink k, s)) (rest : List Sink) (ks : List Nat) :
    ∀ {p : Broadcasting}, p = ⟨false, ks.map sink ++ rest, s⟩ →
      Follows deliveryProtocol (fun p' r => p' = ⟨false, rest, s⟩ ∧ r = .ok ()) p
        (deliverAll call ks) := by
  induction ks with
  | nil => intro p hp; exact ⟨hp, rfl⟩
  | cons k ks ih =>
    rintro p rfl
    refine (follows_bind _ _).2 (follows_tell.2 ⟨fun d hd => ?_, fun _ => ih ?_⟩)
    · rw [hcall k, Option.mem_some_iff] at hd
      rw [← hd]
      exact ⟨rfl, rfl⟩
    · simp [deliveryProtocol, hcall k]

theorem follows_broadcast_pending {p : Broadcasting} (hp : p.pending = []) :
    Follows deliveryProtocol (fun p' _ => broadcastStage true p') p broadcast := by
  refine (follows_bind _ _).2 (follows_sect.2 fun w _ => ⟨⟨hp, rfl, by simp⟩, ?_⟩)
  refine (follows_bind _ _).2 (follows_sect.2 fun w' _ => ⟨⟨hp, rfl, fun _ => rfl⟩, ?_⟩)
  refine (follows_bind _ _).2 ((follows_deliverAll_pending (fun _ => rfl)
    (w'.persisters.map .persister) w'.broadcasters rfl).mono ?_)
  rintro p' _ ⟨hp', rfl⟩
  refine (follows_deliverAll_pending (fun _ => rfl) [] w'.persisters
    (by rw [hp', List.append_nil])).mono ?_
  rintro p'' _ ⟨rfl, -⟩
  exact ⟨rfl, fun _ => rfl⟩

theorem deliveryDiscipline (op : CoreOp) :
    Discipline deliveryProtocol broadcastStage (fun _ => True) op where
  weaken := fun hp => ⟨hp.1, by simp⟩
  reads := fun _ _ => trivial
  quiet := fun hp _ _ hs hw hb hk => by
    refine ⟨⟨hp.1, by simp [Core.sinks, hb, hk], fun h => absurd h hs⟩, ?_⟩
    simpa [deliveryProtocol, hs, hw, broadcastStage] using hp
  write := fun hp _ _ hs _ => by
    refine ⟨⟨hp.1, rfl, fun h => absurd h hs⟩, ?_⟩
    simpa [deliveryProtocol, hs, broadcastStage] using hp.1
  output := fun hp => ⟨fun d hd => by simp [CoreCall.delivery?] at hd, fun r => hp⟩
  broadcasts := fun hp => follows_broadcast_pending hp.1

/-! ## Snapshots and deliveries of a history -/

section Runs

variable {ι : Type} [DecidableEq ι]

def entryDelivery? (e : CoreEntry ι) : Option (Sink × PlaybackState) :=
  match e.act with
  | .sect _ => none
  | .call call _ => call.delivery?

/-- The newest snapshot; before the first, the state at the start. -/
def lastSnapshot (w : Core) : List (CoreEntry ι) → PlaybackState
  | [] => w.state
  | e :: h => if e.act = .sect .snapshot then e.pre.state else lastSnapshot w h

/-- When it was taken, counted in steps; 0 before the first. -/
def lastTime : List (CoreEntry ι) → Nat
  | [] => 0
  | e :: h => if e.act = .sect .snapshot then h.length + 1 else lastTime h

/-- When task `i` took its last snapshot. -/
def takenAt (i : ι) : List (CoreEntry ι) → Nat
  | [] => 0
  | e :: h => if e.who = i ∧ e.act = .sect .snapshot then h.length + 1 else takenAt i h

/-- What a sink has been given last; before the first delivery, the state at the start. -/
def shown (w : Core) (k : Sink) : List (CoreEntry ι) → PlaybackState
  | [] => w.state
  | e :: h =>
    match entryDelivery? e with
    | some d => if d.1 = k then d.2 else shown w k h
    | none => shown w k h

/-- When the snapshot it has been given last was taken. -/
def shownAt (k : Sink) : List (CoreEntry ι) → Nat
  | [] => 0
  | e :: h =>
    match entryDelivery? e with
    | some d => if d.1 = k then takenAt e.who h else shownAt k h
    | none => shownAt k h

/-- A delivery brings its sink no snapshot older than the one it has. -/
def InOrder (before : List (CoreEntry ι)) (e : CoreEntry ι) : Prop :=
  ∀ d ∈ entryDelivery? e, shownAt d.1 before ≤ takenAt e.who before

instance (before : List (CoreEntry ι)) (e : CoreEntry ι) : Decidable (InOrder before e) :=
  inferInstanceAs (Decidable (∀ d ∈ entryDelivery? e, shownAt d.1 before ≤ takenAt e.who before))

/-- The same for one sink. -/
def InOrderTo (k : Sink) (before : List (CoreEntry ι)) (e : CoreEntry ι) : Prop :=
  ∀ d ∈ entryDelivery? e, d.1 = k → shownAt d.1 before ≤ takenAt e.who before

instance (k : Sink) (before : List (CoreEntry ι)) (e : CoreEntry ι) :
    Decidable (InOrderTo k before e) :=
  inferInstanceAs (Decidable (∀ d ∈ entryDelivery? e, d.1 = k → _))

/-- The steps since the newest snapshot. -/
def sinceSnapshot (h : List (CoreEntry ι)) : List (CoreEntry ι) :=
  h.takeWhile fun e => e.act ≠ .sect .snapshot

variable {w : Core} {ops : ι → CoreOp} {h : List (CoreEntry ι)} {p : CorePool ι} {k : Sink}

omit [DecidableEq ι] in
theorem lastTime_le (h : List (CoreEntry ι)) : lastTime h ≤ h.length := by
  induction h with
  | nil => exact le_refl 0
  | cons e h ih =>
    rw [lastTime, List.length_cons]
    split <;> omega

/-- The phase of task `i`, all starting clean. -/
abbrev broadcasting (i : ι) (h : List (CoreEntry ι)) : Broadcasting :=
  Pool.phase deliveryProtocol (fun _ => {}) i h

/-- The run lemma of the protocol. -/
theorem follows_delivery (hr : Pool.Interleaving (corePool w ops) h p) :
    Pool.Respects deliveryProtocol (fun _ => {}) h ∧
      ∀ i, (p.task i).Follows deliveryProtocol (Ends broadcastStage true) (broadcasting i h) := by
  have hops : ∀ i, ((corePool w ops).task i).Follows deliveryProtocol (Ends broadcastStage true)
      {} := fun i => CoreOp.follows (deliveryDiscipline (ops i)) {} ⟨rfl, fun _ => rfl⟩
  exact hr.follows (Q := fun _ => Ends broadcastStage true) hops fun _ _ _ _ _ _ => trivial

theorem sinks_eq (hr : Pool.Interleaving (corePool w ops) h p) : p.shared.sinks = w.sinks := by
  have hresp := (follows_delivery hr).1
  induction hr with
  | init => rfl
  | step hr hs _ ih =>
    obtain ⟨lab, upd, next, -, rfl, rfl⟩ | ⟨call, next, -, rfl, rfl⟩ := Pool.step_cases hs
    · exact hresp.1.2.1.trans (ih hresp.2)
    · exact ih hresp.2

/-- Where the newest snapshot is: sink `k` has it, or the task that took it has still to deliver it
there. -/
structure Delivering (w : Core) (k : Sink) (h : List (CoreEntry ι)) : Prop where
  taken_le : ∀ i, takenAt i h ≤ lastTime h
  shown_le : ∀ k', shownAt k' h ≤ lastTime h
  started : ∀ i, (broadcasting i h).pending ≠ [] → takenAt i h ≠ 0
  carries : ∀ i, takenAt i h = lastTime h → takenAt i h ≠ 0 →
    (broadcasting i h).snapshot = lastSnapshot w h
  shows : ∀ k', shownAt k' h = lastTime h → shown w k' h = lastSnapshot w h
  reaches : shownAt k h = lastTime h ∨
    ∃ i, takenAt i h = lastTime h ∧ k ∈ (broadcasting i h).pending

theorem delivering_nil (w : Core) (k : Sink) : Delivering w k ([] : List (CoreEntry ι)) :=
  ⟨fun _ => le_refl 0, fun _ => le_refl 0, fun _ h => absurd rfl h, fun _ _ h => absurd rfl h,
    fun _ _ => rfl, .inl rfl⟩

theorem broadcasting_of_ne {e : CoreEntry ι} {i : ι} (hi : e.who ≠ i) :
    broadcasting i (e :: h) = broadcasting i h := by
  simp [broadcasting, Pool.phase, hi]

theorem broadcasting_snapshot {e : CoreEntry ι} (hact : e.act = .sect .snapshot) :
    broadcasting e.who (e :: h) = ⟨false, e.pre.sinks, e.pre.state⟩ := by
  simp [broadcasting, Pool.phase, hact]

theorem broadcasting_deliver {e : CoreEntry ι} {d : Sink × PlaybackState}
    (hsome : entryDelivery? e = some d) :
    broadcasting e.who (e :: h) =
      { broadcasting e.who h with pending := (broadcasting e.who h).pending.tail } := by
  obtain ⟨who, act, pre, post⟩ := e
  cases act with
  | sect l => cases hsome
  | call call r =>
    have hcall : call.delivery? = some d := hsome
    simp [broadcasting, Pool.phase, hcall]

/-- Neither a snapshot nor a delivery: the task stands where it stood. -/
theorem broadcasting_other {e : CoreEntry ι} (hact : e.act ≠ .sect .snapshot)
    (hnone : entryDelivery? e = none) (i : ι) :
    (broadcasting i (e :: h)).pending = (broadcasting i h).pending ∧
      (broadcasting i (e :: h)).snapshot = (broadcasting i h).snapshot := by
  obtain ⟨who, act, pre, post⟩ := e
  by_cases hi : who = i
  · cases act with
    | sect l =>
      have hl : l ≠ .snapshot := fun hl => hact (by rw [hl])
      simp [broadcasting, Pool.phase, hi, hl]
    | call call r =>
      have hcall : call.delivery? = none := hnone
      simp [broadcasting, Pool.phase, hi, hcall]
  · rw [broadcasting_of_ne hi]
    exact ⟨rfl, rfl⟩

/-- A snapshot starts over. -/
theorem Delivering.snapshot {e : CoreEntry ι} (hd : Delivering w k h) (hk : k ∈ w.sinks)
    (hact : e.act = .sect .snapshot) (hsinks : e.pre.sinks = w.sinks) : Delivering w k (e :: h) := by
  have hle := lastTime_le h
  have htime : lastTime (e :: h) = h.length + 1 := by simp [lastTime, hact]
  have hwho : takenAt e.who (e :: h) = h.length + 1 := by simp [takenAt, hact]
  have hother : ∀ i, e.who ≠ i → takenAt i (e :: h) = takenAt i h := fun i hi => by
    simp [takenAt, hi]
  have hshown : ∀ k, shownAt k (e :: h) = shownAt k h := fun k => by
    simp [shownAt, entryDelivery?, hact]
  refine ⟨fun i => ?_, fun k => ?_, fun i => ?_, fun i => ?_, fun k => ?_, .inr ?_⟩
  · by_cases hi : e.who = i
    · rw [← hi, hwho, htime]
    · rw [hother i hi, htime]
      exact (hd.taken_le i).trans (by omega)
  · rw [hshown, htime]
    exact (hd.shown_le k).trans (by omega)
  · by_cases hi : e.who = i
    · rw [← hi, hwho]
      exact fun _ => Nat.succ_ne_zero _
    · rw [hother i hi, broadcasting_of_ne hi]
      exact hd.started i
  · by_cases hi : e.who = i
    · rw [← hi, broadcasting_snapshot hact]
      simp [lastSnapshot, hact]
    · rw [hother i hi, htime]
      intro h
      have := hd.taken_le i
      omega
  · rw [hshown, htime]
    intro h
    have := hd.shown_le k
    omega
  · exact ⟨e.who, hwho.trans htime.symm, by rw [broadcasting_snapshot hact, hsinks]; exact hk⟩

/-- Neither a snapshot nor a delivery: nothing moves. -/
theorem Delivering.other {e : CoreEntry ι} (hd : Delivering w k h)
    (hact : e.act ≠ .sect .snapshot) (hnone : entryDelivery? e = none) : Delivering w k (e :: h) := by
  have htime : lastTime (e :: h) = lastTime h := by simp [lastTime, hact]
  have htaken : ∀ i, takenAt i (e :: h) = takenAt i h := fun i => by simp [takenAt, hact]
  have hshownAt : ∀ k, shownAt k (e :: h) = shownAt k h := fun k => by simp [shownAt, hnone]
  have hshown : ∀ k, shown w k (e :: h) = shown w k h := fun k => by simp [shown, hnone]
  have hlast : lastSnapshot w (e :: h) = lastSnapshot w h := by simp [lastSnapshot, hact]
  have hsame := broadcasting_other (h := h) hact hnone
  constructor
  · simpa only [htime, htaken] using hd.taken_le
  · simpa only [htime, hshownAt] using hd.shown_le
  · simpa only [htaken, (hsame _).1] using hd.started
  · simpa only [htime, htaken, hlast, (hsame _).2] using hd.carries
  · simpa only [htime, hshownAt, hshown, hlast] using hd.shows
  · simpa only [htime, hshownAt, htaken, (hsame _).1] using hd.reaches

/-- A delivery in order. -/
theorem Delivering.deliver {e : CoreEntry ι} (hd : Delivering w k h) {d : Sink × PlaybackState}
    (hsome : entryDelivery? e = some d) (hhead : (broadcasting e.who h).pending.head? = some d.1)
    (hsnap : (broadcasting e.who h).snapshot = d.2)
    (horder : d.1 = k → shownAt d.1 h ≤ takenAt e.who h) : Delivering w k (e :: h) := by
  have hact : e.act ≠ .sect .snapshot := fun hact => by simp [entryDelivery?, hact] at hsome
  have htime : lastTime (e :: h) = lastTime h := by simp [lastTime, hact]
  have htaken : ∀ i, takenAt i (e :: h) = takenAt i h := fun i => by simp [takenAt, hact]
  have hlast : lastSnapshot w (e :: h) = lastSnapshot w h := by simp [lastSnapshot, hact]
  have hpend : (broadcasting e.who h).pending ≠ [] := fun h => by simp [h] at hhead
  have hcons : (broadcasting e.who h).pending = d.1 :: (broadcasting e.who h).pending.tail :=
    (List.cons_head?_tail hhead).symm
  have hsame : ∀ i, (broadcasting i (e :: h)).snapshot = (broadcasting i h).snapshot := fun i => by
    by_cases hi : e.who = i
    · rw [← hi, broadcasting_deliver hsome]
    · rw [broadcasting_of_ne hi]
  have hsub : ∀ i, (broadcasting i (e :: h)).pending ⊆ (broadcasting i h).pending := fun i => by
    by_cases hi : e.who = i
    · rw [← hi, broadcasting_deliver hsome]
      exact (List.tail_sublist _).subset
    · rw [broadcasting_of_ne hi]
      exact List.Subset.refl _
  have hshownAt : ∀ k, shownAt k (e :: h) = if d.1 = k then takenAt e.who h else shownAt k h :=
    fun k => by simp [shownAt, hsome]
  have hshown : ∀ k, shown w k (e :: h) = if d.1 = k then d.2 else shown w k h :=
    fun k => by simp [shown, hsome]
  refine ⟨?_, fun k => ?_, fun i hi => ?_, ?_, fun k => ?_, ?_⟩
  · simpa only [htime, htaken] using hd.taken_le
  · rw [hshownAt, htime]
    split
    · exact hd.taken_le e.who
    · exact hd.shown_le k
  · rw [htaken]
    exact hd.started i fun hnil => hi (List.subset_nil.1 (hnil ▸ hsub i))
  · simpa only [htime, htaken, hlast, hsame] using hd.carries
  · rw [hshownAt, hshown, htime, hlast]
    split
    · rw [← hsnap]
      exact fun ht => hd.carries e.who ht (hd.started e.who hpend)
    · exact hd.shows k
  · rw [hshownAt, htime]
    by_cases hk' : d.1 = k
    · -- the newest snapshot arrives, or the one that brings it is another task
      rw [if_pos hk']
      by_cases hnew : takenAt e.who h = lastTime h
      · exact .inl hnew
      · have hlt := lt_of_le_of_ne (hd.taken_le e.who) hnew
        obtain hold | ⟨i, hi, hmem⟩ := hd.reaches
        · have hle := horder hk'
          rw [hk'] at hle
          omega
        · have hne : e.who ≠ i := fun he => hnew (by rw [he, hi])
          exact .inr ⟨i, by rw [htaken, hi], by rw [broadcasting_of_ne hne]; exact hmem⟩
    · rw [if_neg hk']
      refine hd.reaches.imp_right ?_
      rintro ⟨i, hi, hmem⟩
      refine ⟨i, by rw [htaken, hi], ?_⟩
      by_cases he : e.who = i
      · rw [← he] at hmem ⊢
        rw [broadcasting_deliver hsome]
        rw [hcons] at hmem
        exact (List.mem_cons.1 hmem).resolve_left fun h => hk' h.symm
      · rw [broadcasting_of_ne he]
        exact hmem

/-- The invariant of the runs whose deliveries to the sink are in order. -/
theorem delivering (hr : Pool.Interleaving (corePool w ops) h p) (hk : k ∈ w.sinks)
    (horder : Pool.Met (InOrderTo k) h) : Delivering w k h := by
  have hresp := (follows_delivery hr).1
  induction hr with
  | init => exact delivering_nil w k
  | @step h p p' e i r hr hs _ ih =>
    have hd := ih horder.2 hresp.2
    by_cases hact : e.act = .sect .snapshot
    · exact hd.snapshot hk hact (by rw [(Pool.step_who hs).2.1]; exact sinks_eq hr)
    · cases hdel : entryDelivery? e with
      | none => exact hd.other hact hdel
      | some d =>
        obtain ⟨who, act, pre, post⟩ := e
        cases act with
        | sect l => cases hdel
        | call call r =>
          obtain ⟨hhead, hsnap⟩ := hresp.1 d hdel
          exact hd.deliver hdel hhead hsnap (horder.1 d hdel)

/-! ## The state since the newest snapshot -/

theorem broadcasting_dirty {e : CoreEntry ι} (hact : e.act ≠ .sect .snapshot) {i : ι}
    (hdirty : (broadcasting i h).dirty = true) : (broadcasting i (e :: h)).dirty = true := by
  obtain ⟨who, act, pre, post⟩ := e
  by_cases hi : who = i
  · cases act with
    | sect l =>
      have hl : l ≠ .snapshot := fun hl => hact (by rw [hl])
      simp [broadcasting, Pool.phase, hi, hl, hdirty]
    | call call r =>
      simp only [broadcasting, Pool.phase, hi, if_true, deliveryProtocol_onCall]
      split <;> exact hdirty
  · rw [broadcasting_of_ne hi]
    exact hdirty

theorem broadcasting_changed {who : ι} {l : Sect} {pre post : Core} (hl : l ≠ .snapshot)
    (hne : post.state ≠ pre.state) :
    (broadcasting who (⟨who, .sect l, pre, post⟩ :: h)).dirty = true := by
  simp [broadcasting, Pool.phase, hl, hne]

/-- Whoever has changed the state since the newest snapshot has yet to take one. -/
theorem changed_dirty (hr : Pool.Interleaving (corePool w ops) h p) :
    ∀ e ∈ sinceSnapshot h, e.post.state ≠ e.pre.state →
      (broadcasting e.who h).dirty = true := by
  induction hr with
  | init => simp [sinceSnapshot]
  | @step h p p' e i r hr hs _ ih =>
    intro e' he' hne
    by_cases hact : e.act = .sect .snapshot
    · simp [sinceSnapshot, hact] at he'
    · have hcons : sinceSnapshot (e :: h) = e :: sinceSnapshot h := by
        simp [sinceSnapshot, hact]
      rw [hcons, List.mem_cons] at he'
      obtain rfl | he' := he'
      · obtain ⟨lab, upd, next, -, rfl, rfl⟩ | ⟨call, next, -, rfl, rfl⟩ := Pool.step_cases hs
        · exact broadcasting_changed (fun hl => hact (by rw [hl])) hne
        · exact absurd rfl hne
      · exact broadcasting_dirty hact (ih e' he' hne)

/-- A state that nobody has changed since the newest snapshot is that snapshot. -/
theorem state_eq_lastSnapshot (hr : Pool.Interleaving (corePool w ops) h p)
    (hsame : ∀ e ∈ sinceSnapshot h, e.post.state = e.pre.state) :
    p.shared.state = lastSnapshot w h := by
  have hresp := (follows_delivery hr).1
  induction hr with
  | init => rfl
  | @step h p p' e i r hr hs _ ih =>
    obtain ⟨-, hpre, hpost⟩ := Pool.step_who hs
    by_cases hact : e.act = .sect .snapshot
    · have hok := hresp.1
      rw [hact] at hok
      rw [← hpost, lastSnapshot, if_pos hact]
      exact hok.2.2 rfl
    · have hcons : sinceSnapshot (e :: h) = e :: sinceSnapshot h := by
        simp [sinceSnapshot, hact]
      rw [hcons] at hsame
      calc p'.shared.state = e.post.state := by rw [hpost]
        _ = e.pre.state := hsame e List.mem_cons_self
        _ = lastSnapshot w h := by
          rw [hpre]
          exact ih (fun e' he' => hsame e' (List.mem_cons_of_mem e he')) hresp.2
        _ = lastSnapshot w (e :: h) := by rw [lastSnapshot, if_neg hact]

/-- A task that has finished has delivered everything, and has changed nothing since its last
snapshot if it has succeeded. -/
theorem finished (hr : Pool.Interleaving (corePool w ops) h p) {i : ι} {r : Except CoreError Unit}
    (hdone : (p.task i).result? = some r) :
    (broadcasting i h).pending = [] ∧ (r = .ok () → (broadcasting i h).dirty = false) := by
  have hf := (follows_delivery hr).2 i
  cases htask : p.task i with
  | sect lab upd next => rw [htask] at hdone; cases hdone
  | call e next => rw [htask] at hdone; cases hdone
  | done a =>
    rw [htask] at hdone hf
    cases hdone
    cases r with
    | error e => exact ⟨hf.1, fun h => by cases h⟩
    | ok a => exact ⟨hf.1, fun _ => hf.2 rfl⟩

/-- Nobody has changed the state since the newest snapshot, when all operations have finished and those
that failed have not. -/
theorem unchanged_sinceSnapshot (hr : Pool.Interleaving (corePool w ops) h p)
    (hdone : ∀ i, (p.task i).result?.isSome)
    (hfailed : ∀ i err, (p.task i).result? = some (.error err) →
      ∀ e ∈ sinceSnapshot h, e.who = i → e.post.state = e.pre.state) :
    ∀ e ∈ sinceSnapshot h, e.post.state = e.pre.state := by
  intro e he
  obtain ⟨r, hres⟩ := Option.isSome_iff_exists.1 (hdone e.who)
  cases r with
  | error err => exact hfailed e.who err hres e he rfl
  | ok a =>
    by_contra hne
    exact absurd (changed_dirty hr e he hne) (by simp [(finished hr hres).2 rfl])

/-- All operations have finished, and the deliveries to the sink were in order: it has been given the
newest snapshot last. -/
theorem reached_of_inOrderTo (hr : Pool.Interleaving (corePool w ops) h p)
    (hdone : ∀ i, (p.task i).result?.isSome) (hk : k ∈ w.sinks) (horder : Pool.Met (InOrderTo k) h) :
    shownAt k h = lastTime h ∧ shown w k h = lastSnapshot w h := by
  have hd := delivering hr hk horder
  have hreached : shownAt k h = lastTime h := by
    refine hd.reaches.resolve_right ?_
    rintro ⟨i, -, hmem⟩
    obtain ⟨r, hres⟩ := Option.isSome_iff_exists.1 (hdone i)
    rw [(finished hr hres).1] at hmem
    cases hmem
  exact ⟨hreached, hd.shows k hreached⟩

/-- All operations have finished, each delivery was in order, and the operations that failed have
changed nothing since the newest snapshot: then every broadcaster and every persister has been
given the state last. -/
theorem converged_of_inOrder (hr : Pool.Interleaving (corePool w ops) h p)
    (hdone : ∀ i, (p.task i).result?.isSome) (horder : Pool.Met InOrder h)
    (hfailed : ∀ i err, (p.task i).result? = some (.error err) →
      ∀ e ∈ sinceSnapshot h, e.who = i → e.post.state = e.pre.state) :
    ∀ k ∈ w.sinks, shown w k h = p.shared.state := by
  intro k hk
  have horderTo : Pool.Met (InOrderTo k) h :=
    Pool.met_iff.2 fun h₂ e h₁ heq d hd _ => Pool.met_iff.1 horder h₂ e h₁ heq d hd
  rw [(reached_of_inOrderTo hr hdone hk horderTo).2,
    state_eq_lastSnapshot hr (unchanged_sinceSnapshot hr hdone hfailed)]

end Runs

/-- One after the other: all deliveries are in order. -/
def oneByOne : List (Bool × Except CoreError Unit) :=
  List.replicate 4 (false, .ok ()) ++ List.replicate 4 (true, .ok ())

/-- The first snapshot is delivered when all else is over. -/
def lateDelivery : List (Bool × Except CoreError Unit) :=
  List.replicate 3 (false, .ok ()) ++ List.replicate 4 (true, .ok ()) ++ [(false, .ok ())]

theorem converged_of_inOrder_oneByOne :
    Pool.Met InOrder (Pool.exec oneByOne ([], twoSettings)).1 ∧
      ∀ k ∈ twoSettings.shared.sinks,
        shown twoSettings.shared k (Pool.exec oneByOne ([], twoSettings)).1 =
          (Pool.exec oneByOne ([], twoSettings)).2.shared.state := by
  have horder : Pool.Met InOrder (Pool.exec oneByOne ([], twoSettings)).1 := by decide
  exact ⟨horder, converged_of_inOrder (Pool.exec_run oneByOne .init)
    (fun i => by cases i <;> decide) horder (fun i err h => by cases i <;> cases h)⟩

/-- The broadcaster is left with the older snapshot. -/
theorem lateDelivery_stale :
    (∀ i, ((Pool.exec lateDelivery ([], twoSettings)).2.task i).result?.isSome) ∧
      ¬ ∀ k ∈ twoSettings.shared.sinks,
        shown twoSettings.shared k (Pool.exec lateDelivery ([], twoSettings)).1 =
          (Pool.exec lateDelivery ([], twoSettings)).2.shared.state := by
  refine ⟨fun i => by cases i <;> decide, ?_⟩
  decide

end Kanade

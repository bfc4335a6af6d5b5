import Kanade.Concur.Times
import Kanade.Core.Runs
import Mathlib.Data.Fintype.Basic
import Mathlib.Data.Nat.Count

/-!
# Kanade.Core.Reports

Reports about superseded lists, over every interleaving of `play_index`, `next`, `previous`,
`set_queue` and `sync_node_state`.

A report is checked against the projection in one section and applied to the node in a later one,
and the three jumps write the node's index before they install the new projection. `ReportApart`
says that no such write falls between; `ListsInOrder` that lists are sent in the order of their
projections. `index_kept_of_apart`: then a report about a superseded list does not move the index.
-/

namespace Kanade

open Concur Fallible

/-- The operations that load an output or report about it. -/
def CoreOp.reloads : CoreOp → Bool
  | .playIndex _ | .next | .previous | .setQueue _ _ | .syncNodeState _ _ _ _ _ _ => true
  | _ => false

/-- The generation a report is about. -/
def CoreOp.reported : CoreOp → UInt64
  | .syncNodeState _ _ _ _ _ g => g
  | _ => 0

/-- The generation of a node's projection; a node without one would get the default. -/
def Core.generation (w : Core) (id : String) : UInt64 :=
  ((w.transportState id).getD {}).projectionGeneration

def Core.currentIndex (w : Core) (id : String) : Option (Option Nat) :=
  (w.state.node id).map Node.currentIndex

/-- The list a call sends: the node, and the generation it is sent under. -/
def CoreCall.list? : CoreCall → Option (String × UInt64)
  | .output n _ (.setQueue _ g) => some (n, g)
  | _ => none

/-! ## The protocol -/

/-- The generation a task reports about and the node for which it has found it current; the
projection it has installed; and whether it has sent the list. -/
structure Projecting where
  reports : UInt64
  matched : Option String := none
  rebuilt : Option (String × UInt64) := none
  sent : Bool := false
deriving DecidableEq, Repr

def Projecting.after (q : Projecting) (lab : Sect) (w : Core) : Projecting :=
  match lab with
  | .project n => { q with matched := if w.generation n = q.reports then some n else none }
  | .rebuild n => { q with rebuilt := some (n, w.generation n + 1) }
  | _ => q

/-- The active node stays `a`. A task installs at most one projection, with the next generation of
its node, and sends at most one list, under that generation to that node. A report whose generation
was not current leaves the index alone. -/
def projectionProtocol (a : Except CoreError String) :
    Protocol Core Sect CoreCall (Except CoreError Unit) Projecting where
  onSect q lab w _ := q.after lab w
  onCall q call _ := if call.list?.isSome then { q with sent := true } else q
  rely _ _ w := w.state.activeId = a
  sectOk q lab w w' :=
    w'.state.activeId = w.state.activeId ∧
    (∀ m, w'.generation m = if lab = .rebuild m then w.generation m + 1 else w.generation m) ∧
    (∀ n, lab = .rebuild n → q.rebuilt = none) ∧
    ∀ n, lab = .report n → q.matched ≠ some n → w'.currentIndex n = w.currentIndex n
  callOk q call := ∀ l ∈ call.list?, q.rebuilt = some l ∧ q.sent = false

section Follows

variable {α β : Type} {a : Except CoreError String} {q : Projecting}

/-- The task neither installs, sends nor reports, and its result has `R`. -/
abbrev Idles (a : Except CoreError String) (R : α → Prop) (t : Op α) : Prop :=
  ∀ q, Keeps (projectionProtocol a) (· = q) R t

/-- Any other section of `state` that keeps the active node. -/
theorem idles_lockState {lab : PlaybackState → Except CoreError α → Sect}
    {f : PlaybackState → Except CoreError α × PlaybackState} {R : α → Prop}
    (hlab : ∀ s r, (∃ n, lab s r = .edit n) ∨ lab s r = .readState ∨ lab s r = .writeState)
    (hf : ∀ s, (f s).2.activeId = s.activeId)
    (hR : ∀ s x, s.activeId = a → (f s).1 = .ok x → R x) : Idles a R (lockState lab f) := by
  rintro q _ rfl
  refine follows_sect.2 fun w ha => ⟨⟨hf w.state, fun m => ?_, ?_⟩, ?_, fun x hx => ?_⟩
  · obtain ⟨n, h⟩ | h | h := hlab w.state (f w.state).1 <;> simp [h, Core.generation]
  · obtain ⟨n, h⟩ | h | h := hlab w.state (f w.state).1 <;> simp [h]
  · obtain ⟨n, h⟩ | h | h := hlab w.state (f w.state).1 <;>
      simp [h, projectionProtocol, Projecting.after]
  · exact hR w.state x ha hx

theorem idles_readState {f : PlaybackState → Except CoreError α} {R : α → Prop}
    (hR : ∀ s x, s.activeId = a → f s = .ok x → R x) : Idles a R (readState f) :=
  idles_lockState (fun _ _ => .inr (.inl rfl)) (fun _ => rfl) hR

theorem idles_activeNodeId : Idles a (fun id => a = .ok id) activeNodeId :=
  idles_readState fun _ _ ha hx => by rw [← ha, hx]

theorem idles_editLocked {id : String} {f : PlaybackState → Except CoreError α × PlaybackState}
    (hf : ∀ s, (f s).2.activeId = s.activeId) :
    Idles a (fun _ => True) (lockState (fun _ => editLabel id) f) :=
  idles_lockState
    (fun _ r => by
      cases r with
      | error e => exact .inr (.inl rfl)
      | ok x => exact .inl ⟨id, rfl⟩)
    hf fun _ _ _ _ => trivial

theorem idles_eachOutput (id : String) : Idles a (fun o => o.node = id) (eachOutput id) := by
  rintro q _ rfl
  refine follows_sect.2 fun w _ => ?_
  cases w.outputs id with
  | none => exact ⟨⟨rfl, fun _ => rfl, by simp, by simp⟩, rfl, fun _ h => by cases h⟩
  | some slot =>
    exact ⟨⟨rfl, fun _ => rfl, by simp, by simp⟩, rfl, fun _ h => by cases h; rfl⟩

theorem idles_activeOutputs : Idles a (fun o => a = .ok o.node) activeOutputs := fun q =>
  (idles_activeNodeId q).bind fun _ hid _ hp =>
    (idles_eachOutput _ q _ hp).mono fun _ _ h => ⟨h.1, fun o ho => by rw [h.2 o ho, hid]⟩

theorem idles_send (o : OutputHandle) {cmd : OutputCmd}
    (hcmd : (CoreCall.output o.node o.slot cmd).list? = none) :
    Idles a (fun _ => True) (o.send cmd) := by
  rintro q _ rfl
  refine follows_call.2 ⟨fun l hl => ?_, fun r => ⟨?_, fun _ _ => trivial⟩⟩
  · rw [hcmd] at hl
    cases hl
  · simp [projectionProtocol, hcmd]

theorem idles_broadcast : Idles a (fun _ => True) broadcast := fun q => by
  refine keeps_broadcast ?_ ?_ ?_ ?_
  · rintro _ w rfl -
    refine ⟨⟨activeId_congr syncTopLevel_selectedNodeId fun id => ?_, fun _ => rfl, by simp,
      by simp⟩, rfl⟩
    rw [node_syncTopLevel]
  · rintro _ w rfl -
    exact ⟨⟨rfl, fun _ => rfl, by simp, by simp⟩, rfl⟩
  · rintro k s _ rfl
    exact ⟨fun _ h => (nomatch h), fun _ => rfl⟩
  · rintro k s _ rfl
    exact ⟨fun _ h => (nomatch h), fun _ => rfl⟩

theorem follows_idle {R : α → Prop} {t : Op α} {f : α → Op β} (ht : Idles a R t)
    (hf : ∀ x, R x → Follows (projectionProtocol a) (fun _ _ => True) q (f x)) :
    Follows (projectionProtocol a) (fun _ _ => True) q (t >>= f) :=
  (ht q).bind_follows rfl (fun _ _ _ => trivial) fun x _ hx hp' => hp' ▸ hf x hx

theorem follows_broadcast_idle : Follows (projectionProtocol a) (fun _ _ => True) q broadcast :=
  (idles_broadcast q q rfl).mono fun _ _ _ => trivial

/-- The projection is installed once, ... -/
theorem follows_rebuild {id : String} {start : Option Nat} {len : Nat} {f : UInt64 → Op β}
    (hq : q.rebuilt = none)
    (hf : ∀ g, Follows (projectionProtocol a) (fun _ _ => True)
      { q with rebuilt := some (id, g) } (f g)) :
    Follows (projectionProtocol a) (fun _ _ => True) q
      (rebuildProjectionState id start len >>= f) := by
  unfold rebuildProjectionState lockTransport
  refine (follows_bind _ _).2 (follows_sect.2 fun w _ => ?_)
  refine ⟨⟨rfl, fun m => ?_, fun _ _ => hq, by simp⟩, hf _⟩
  by_cases hm : m = id
  · subst hm
    simp [Core.generation, nextProjection]
  · have hne : id ≠ m := fun h => hm h.symm
    simp [Core.generation, hm, hne]

/-- ... and its list sent once. -/
theorem follows_setQueue {o : OutputHandle} {paths : List String} {g : UInt64} {f : Unit → Op β}
    (hq : q.rebuilt = some (o.node, g)) (hsent : q.sent = false)
    (hf : Follows (projectionProtocol a) (fun _ _ => True) { q with sent := true } (f ())) :
    Follows (projectionProtocol a) (fun _ _ => True) q (o.send (.setQueue paths g) >>= f) := by
  refine (follows_bind _ _).2 (follows_call.2 ⟨?_, fun r => ?_⟩)
  · rintro _ ⟨⟩
    exact ⟨hq, hsent⟩
  · cases r with
    | error e => trivial
    | ok x => exact hf

theorem activeId_jumpSection (id : String) (target : Node → Except CoreError Nat)
    (s : PlaybackState) : (jumpSection id target s).2.activeId = s.activeId := by
  cases hn : s.node id with
  | none => simp [jumpSection, hn]
  | some node =>
    rw [jumpSection_eq hn]
    cases target node with
    | error e => rfl
    | ok i => exact activeId_moveTo id i s

theorem activeId_setQueueSection (id : String) (activeId : Option String) (tracks : List Track)
    (startIndex : Option Nat) (s : PlaybackState) :
    (setQueueSection id activeId tracks startIndex s).2.activeId = s.activeId := by
  unfold setQueueSection
  cases s.node id with
  | none => rfl
  | some node =>
    dsimp only
    split
    · rw [activeId_modifyNode (fun _ => by rfl) fun _ => by rfl,
        activeId_modifyNode (fun _ => by rfl) fun _ => by rfl]
    · rw [activeId_modifyNode (fun _ => by rfl) fun _ => by rfl]

theorem follows_jump_projecting {target : Node → Except CoreError Nat} (hq : q.rebuilt = none)
    (hsent : q.sent = false) :
    Follows (projectionProtocol a) (fun _ _ => True) q (jump target) := by
  refine follows_idle idles_activeNodeId fun id hid => ?_
  refine follows_idle (idles_editLocked (activeId_jumpSection id target)) fun _ _ => ?_
  refine follows_rebuild hq fun g => ?_
  refine follows_idle idles_activeOutputs fun o ho => ?_
  have hnode : o.node = id := by
    rw [hid] at ho
    cases ho
    rfl
  refine follows_setQueue (by rw [hnode]) hsent ?_
  refine follows_idle idles_activeOutputs fun o' _ => ?_
  refine follows_idle (idles_send o' rfl) fun _ _ => ?_
  refine follows_idle (idles_lockState (R := fun _ => True) (fun _ _ => .inr (.inr rfl))
    (fun s => ?_) fun _ _ _ _ => trivial) fun _ _ => follows_broadcast_idle
  exact activeId_modifyNode (fun _ => by rfl) fun _ => by rfl

theorem follows_setQueue_projecting {tracks : List Track} {startIndex : Option Nat}
    (hq : q.rebuilt = none) (hsent : q.sent = false) :
    Follows (projectionProtocol a) (fun _ _ => True) q (setQueue tracks startIndex) := by
  have hrest : ∀ (q : Projecting) (id : String) (r : Except CoreError String),
      Follows (projectionProtocol a) (fun _ _ => True) q
        (setQueueRest id r.toOption tracks startIndex) := fun q id r => by
    refine follows_idle (idles_editLocked (activeId_setQueueSection _ _ _ _)) fun _ _ => ?_
    split
    · refine follows_idle (fun q => keeps_maybeActiveOutputs (idles_activeOutputs q))
        fun o _ => ?_
      cases o with
      | none => exact follows_broadcast_idle
      | some o => exact follows_idle (idles_send o rfl) fun _ _ => follows_broadcast_idle
    · exact follows_broadcast_idle
  refine follows_idle (idles_readState (R := fun _ => True) fun _ _ _ _ => trivial) fun id _ => ?_
  refine follows_idle (fun q => (idles_activeNodeId q).attempt) fun r _ => ?_
  cases r with
  | error e => exact hrest q id (.error e)
  | ok activeId =>
    refine follows_rebuild hq fun g => ?_
    refine follows_idle (idles_eachOutput _) fun o ho => ?_
    exact follows_setQueue (by rw [ho]) hsent (hrest _ id (.ok activeId))

/-- A report is dropped unless its generation is current. -/
theorem projectedCurrentIndex_none {w : Core} {id : String} {song : Option Nat} {g : UInt64}
    (h : w.generation id ≠ g) : projectedCurrentIndex (w.transportState id) song g = none := by
  unfold projectedCurrentIndex
  cases hp : w.transportState id with
  | none => rfl
  | some projection =>
    have hne : projection.projectionGeneration ≠ g := by simpa [Core.generation, hp] using h
    simp [hne]

theorem follows_syncNodeState {id : String} {status : PlaybackStatus} {pos : ℚ} {volume : UInt8}
    {song : Option Nat} :
    Follows (projectionProtocol a) (fun _ _ => True) q
      (syncNodeState id status pos volume song q.reports) := by
  have hframe := fun projected => applyReport_frame status pos volume projected
  refine (follows_bind _ _).2 (follows_sect.2 fun w _ => ⟨⟨rfl, fun _ => rfl, by simp, by simp⟩, ?_⟩)
  refine (follows_bind _ _).2 (follows_sect.2 fun w' _ => ?_)
  dsimp only
  cases hn : w'.state.node id with
  | none => exact ⟨⟨rfl, fun _ => rfl, by simp, fun _ _ _ => rfl⟩, trivial⟩
  | some node =>
    dsimp only
    refine ⟨⟨?_, fun _ => rfl, by simp, fun n hlab hmatched => ?_⟩, ?_⟩
    · exact activeId_modifyNode (fun n => (hframe _ n).1) fun n => (hframe _ n).2.1
    · cases hlab
      have hgen : w.generation id ≠ q.reports := fun h => hmatched (by
        simp [projectionProtocol, Projecting.after, h])
      rw [projectedCurrentIndex_none hgen, Core.currentIndex, Core.currentIndex]
      dsimp only
      rw [node_modifyNode_self fun n => (hframe none n).1, Option.map_map]
      exact congrArg (Option.map · _) (funext (applyReport_none_currentIndex status pos volume))
    · split
      · exact follows_broadcast_idle
      · trivial

/-- Each of the operations keeps to the protocol. -/
theorem CoreOp.follows_projection {op : CoreOp} (hop : op.reloads = true) :
    op.task.Follows (projectionProtocol a) (fun _ _ => True) { reports := op.reported } := by
  cases op <;> cases hop
  case playIndex => exact follows_jump_projecting rfl rfl
  case next => exact follows_jump_projecting rfl rfl
  case previous => exact follows_jump_projecting rfl rfl
  case setQueue => exact follows_setQueue_projecting rfl rfl
  case syncNodeState => exact follows_syncNodeState

end Follows

/-! ## Runs -/

section Runs

variable {ι : Type} [DecidableEq ι] {w : Core} {ops : ι → CoreOp} {h : List (CoreEntry ι)}
  {p : CorePool ι} {i j : ι} {n : String} {g : UInt64} {t t' : Nat}

/-- The list a step sends. -/
def entryList? (e : CoreEntry ι) : Option (String × UInt64) :=
  match e.act with
  | .sect _ => none
  | .call call _ => call.list?

/-- At time `t` task `j` sends a list to node `n`. -/
def Sends (h : List (CoreEntry ι)) (t : Nat) (j : ι) (n : String) : Prop :=
  ∃ e ∈ Pool.entryAt h t, e.who = j ∧ (entryList? e).map Prod.fst = some n

/-- At time `t` node `n` is sent list `g`. -/
def Loads (h : List (CoreEntry ι)) (t : Nat) (n : String) (g : UInt64) : Prop :=
  ∃ e ∈ Pool.entryAt h t, entryList? e = some (n, g)

/-- At time `t` the projection of list `g` of node `n` is installed. -/
def Installs (h : List (CoreEntry ι)) (t : Nat) (n : String) (g : UInt64) : Prop :=
  ∃ e ∈ Pool.entryAt h t, e.act = .sect (.rebuild n) ∧ e.pre.generation n + 1 = g

/-- At time `t` some projection of node `n` is installed. -/
def Rebuilds (n : String) (h : List (CoreEntry ι)) (t : Nat) : Prop :=
  ∃ e ∈ Pool.entryAt h t, e.act = .sect (.rebuild n)

instance (h : List (CoreEntry ι)) (t : Nat) (j : ι) (n : String) : Decidable (Sends h t j n) :=
  inferInstanceAs (Decidable (∃ e ∈ Pool.entryAt h t, e.who = j ∧ _))

instance (h : List (CoreEntry ι)) (t : Nat) (n : String) (g : UInt64) :
    Decidable (Loads h t n g) :=
  inferInstanceAs (Decidable (∃ e ∈ Pool.entryAt h t, entryList? e = some (n, g)))

instance (h : List (CoreEntry ι)) (t : Nat) (n : String) (g : UInt64) :
    Decidable (Installs h t n g) :=
  inferInstanceAs (Decidable (∃ e ∈ Pool.entryAt h t, e.act = .sect (.rebuild n) ∧ _))

instance (n : String) (h : List (CoreEntry ι)) : DecidablePred (Rebuilds n h) := fun t =>
  inferInstanceAs (Decidable (∃ e ∈ Pool.entryAt h t, e.act = .sect (.rebuild n)))

/-- List `g` of node `n` is superseded at time `t`: its output has been given it (or had it before
the run), and an operation that has written the node's index by now gives it another list later. -/
def Superseded (h : List (CoreEntry ι)) (n : String) (g : UInt64) (t : Nat) : Prop :=
  ((∀ u < h.length, ¬ Installs h u n g) ∨ ∃ u < t, Loads h u n g) ∧
    ∃ j, ∃ tE < t, Pool.Takes h tE j (.edit n) ∧
      ∃ tC < h.length, Sends h tC j n ∧ ∀ u < h.length, Loads h u n g → u < tC

/-- Task `j` installs no projection of `n` from time `t` on. -/
def InstalledBefore (h : List (CoreEntry ι)) (j : ι) (n : String) (t : Nat) : Prop :=
  ∀ tR < h.length, Pool.Takes h tR j (.rebuild n) → tR < t

/-- An operation that writes the index of `n` before report `i` is applied has installed its
projection, if it installs one, before the report looks at it. -/
def ReportApart (h : List (CoreEntry ι)) (i : ι) (n : String) : Prop :=
  ∀ tW < h.length, Pool.Takes h tW i (.report n) → ∀ tP < tW, Pool.Takes h tP i (.project n) →
    ∀ j, ∀ tE < tW, Pool.Takes h tE j (.edit n) → InstalledBefore h j n tP

/-- The list of task `j` is sent to `n` before that of `j'`. -/
def SentBefore (h : List (CoreEntry ι)) (j j' : ι) (n : String) : Prop :=
  ∀ tC < h.length, Sends h tC j n → ∀ tC' < h.length, Sends h tC' j' n → tC < tC'

/-- Lists are sent to `n` in the order in which their projections are installed. -/
def ListsInOrder (h : List (CoreEntry ι)) (n : String) : Prop :=
  ∀ j j', ∀ tR < h.length, Pool.Takes h tR j (.rebuild n) →
    ∀ tR' < h.length, Pool.Takes h tR' j' (.rebuild n) → tR < tR' → SentBefore h j j' n

instance (h : List (CoreEntry ι)) (j : ι) (n : String) (t : Nat) :
    Decidable (InstalledBefore h j n t) :=
  inferInstanceAs (Decidable (∀ tR < h.length, Pool.Takes h tR j (.rebuild n) → tR < t))

instance (h : List (CoreEntry ι)) (j j' : ι) (n : String) : Decidable (SentBefore h j j' n) :=
  inferInstanceAs (Decidable (∀ tC < h.length, Sends h tC j n → ∀ tC' < h.length, _))

set_option synthInstance.maxSize 2000 in
instance [Fintype ι] (h : List (CoreEntry ι)) (n : String) (g : UInt64) (t : Nat) :
    Decidable (Superseded h n g t) :=
  inferInstanceAs (Decidable (((∀ u < h.length, ¬ Installs h u n g) ∨ ∃ u < t, Loads h u n g) ∧
    ∃ j, ∃ tE < t, Pool.Takes h tE j (.edit n) ∧
      ∃ tC < h.length, Sends h tC j n ∧ ∀ u < h.length, Loads h u n g → u < tC))

set_option synthInstance.maxSize 2000 in
instance [Fintype ι] (h : List (CoreEntry ι)) (i : ι) (n : String) :
    Decidable (ReportApart h i n) :=
  inferInstanceAs (Decidable (∀ tW < h.length, Pool.Takes h tW i (.report n) →
    ∀ tP < tW, Pool.Takes h tP i (.project n) → ∀ j, ∀ tE < tW, Pool.Takes h tE j (.edit n) →
      InstalledBefore h j n tP))

set_option synthInstance.maxSize 2000 in
instance [Fintype ι] (h : List (CoreEntry ι)) (n : String) : Decidable (ListsInOrder h n) :=
  inferInstanceAs (Decidable (∀ j j', ∀ tR < h.length, Pool.Takes h tR j (.rebuild n) →
    ∀ tR' < h.length, Pool.Takes h tR' j' (.rebuild n) → tR < tR' → SentBefore h j j' n))

/-- How many projections of `n` have been installed by time `t`. -/
def rebuilds (n : String) (h : List (CoreEntry ι)) (t : Nat) : Nat := Nat.count (Rebuilds n h) t

/-- The phase of task `i`. -/
abbrev projecting (w : Core) (ops : ι → CoreOp) (i : ι) (h : List (CoreEntry ι)) : Projecting :=
  Pool.phase (projectionProtocol w.state.activeId) (fun i => { reports := (ops i).reported }) i h

/-- As long as the protocol is respected, the active node stays. -/
theorem activeId_eq (hr : Pool.Interleaving (corePool w ops) h p)
    (hresp : Pool.Respects (projectionProtocol w.state.activeId)
      (fun i => { reports := (ops i).reported }) h) :
    p.shared.state.activeId = w.state.activeId := by
  induction hr with
  | init => rfl
  | step _ hs _ ih =>
    obtain ⟨lab, upd, next, -, rfl, rfl⟩ | ⟨call, next, -, rfl, rfl⟩ := Pool.step_cases hs
    · exact hresp.1.1.trans (ih hresp.2)
    · exact ih hresp.2

/-- The run lemma of the protocol. -/
theorem respects_projection (hops : ∀ i, (ops i).reloads = true)
    (hr : Pool.Interleaving (corePool w ops) h p) :
    Pool.Respects (projectionProtocol w.state.activeId)
      (fun i => { reports := (ops i).reported }) h := by
  have hfollows : ∀ i, ((corePool w ops).task i).Follows (projectionProtocol w.state.activeId)
      (fun _ _ => True) { reports := (ops i).reported } :=
    fun i => CoreOp.follows_projection (hops i)
  exact (hr.follows (Q := fun _ _ _ => True) hfollows
    fun hr hresp _ _ _ _ => activeId_eq hr hresp).1

/-- A task that has installed a projection has done so at some time. -/
theorem exists_rebuild (hq : (projecting w ops i h).rebuilt = some (n, g)) :
    ∃ t < h.length, Pool.Takes h t i (.rebuild n) ∧ Installs h t n g := by
  obtain ⟨t, e, he, hwho, h₁, hold, hnew⟩ :=
    Pool.exists_turn (G := fun q : Projecting => q.rebuilt = some (n, g)) (by simp) hq
  have hact : e.act = .sect (.rebuild n) ∧ e.pre.generation n + 1 = g := by
    obtain ⟨who, act, pre, post⟩ := e
    cases act with
    | call call r =>
      simp only [Pool.advance, projectionProtocol] at hnew
      split at hnew <;> exact absurd hnew hold
    | sect l =>
      cases l with
      | rebuild m => cases hnew; exact ⟨rfl, rfl⟩
      | _ => exact absurd hnew hold
  exact ⟨t, Pool.entryAt_lt he, ⟨e, he, hwho, hact.1⟩, ⟨e, he, hact⟩⟩

/-- From then on it has sent its list. -/
theorem sent_of_sends (ht : Sends h t i n) : (projecting w ops i h).sent = true := by
  obtain ⟨e, he, rfl, hlist⟩ := ht
  refine Pool.phase_since (G := fun q : Projecting => q.sent = true)
    (fun q e' hq => ?_) he fun q => ?_
  · obtain ⟨who, act, pre, post⟩ := e'
    cases act with
    | call call r =>
      simp only [Pool.advance, projectionProtocol]
      split
      · rfl
      · exact hq
    | sect l => cases l <;> exact hq
  · obtain ⟨who, act, pre, post⟩ := e
    cases act with
    | sect l => cases hlist
    | call call r =>
      obtain ⟨l, hl, -⟩ := Option.map_eq_some_iff.1 hlist
      have hl : call.list? = some l := hl
      simp [Pool.advance, projectionProtocol, hl]

/-- A report that has matched has found its generation current at some time. -/
theorem exists_match (hq : (projecting w ops i h).matched = some n) :
    ∃ t, ∃ e ∈ Pool.entryAt h t, e.who = i ∧ e.act = .sect (.project n) ∧
      e.pre.generation n = (ops i).reported := by
  obtain ⟨t, e, he, hwho, h₁, hold, hnew⟩ :=
    Pool.exists_turn (G := fun q : Projecting => q.matched = some n) (by simp) hq
  have hreports : (projecting w ops i h₁).reports = (ops i).reported := by
    refine Pool.phase_invariant (G := fun q : Projecting => q.reports = (ops i).reported) rfl
      (fun q e' hq => ?_) h₁
    obtain ⟨who, act, pre, post⟩ := e'
    cases act with
    | call call r =>
      simp only [Pool.advance, projectionProtocol]
      split <;> exact hq
    | sect l => cases l <;> exact hq
  refine ⟨t, e, he, hwho, ?_⟩
  obtain ⟨who, act, pre, post⟩ := e
  cases act with
  | call call r =>
    simp only [Pool.advance, projectionProtocol] at hnew
    split at hnew <;> exact absurd hnew hold
  | sect l =>
    cases l with
    | project m =>
      simp only [Pool.advance, projectionProtocol, Projecting.after] at hnew
      split at hnew
      · rename_i hgen
        cases hnew
        exact ⟨rfl, hgen.trans hreports⟩
      · cases hnew
    | _ => exact absurd hnew hold

section Respected

variable (hresp : Pool.Respects (projectionProtocol w.state.activeId)
  (fun i => { reports := (ops i).reported }) h)
include hresp

/-- A task sends one list at most. -/
theorem send_once {n' : String} (ht : Sends h t i n) (ht' : Sends h t' i n') : t' ≤ t := by
  by_contra hlt
  obtain ⟨e, he, hwho, hlist⟩ := ht'
  obtain ⟨h₁, hsame, -, hok⟩ := hresp.entryAt he
  have hsent : (projecting w ops i h₁).sent = true :=
    sent_of_sends (t := t) (n := n) (by rwa [Sends, hsame t (not_le.1 hlt)])
  obtain ⟨l, hl, -⟩ := Option.map_eq_some_iff.1 hlist
  obtain ⟨who, act, pre, post⟩ := e
  cases act with
  | sect l => cases hl
  | call call r =>
    have hunsent := (hok l hl).2
    subst hwho
    rw [hsent] at hunsent
    cases hunsent

/-- The list a task sends is the one whose projection it has installed. -/
theorem send_installed {e : CoreEntry ι} (he : Pool.entryAt h t = some e)
    (hlist : entryList? e = some (n, g)) :
    ∃ tR < t, Pool.Takes h tR e.who (.rebuild n) ∧ Installs h tR n g := by
  obtain ⟨h₁, hsame, hlen, hok⟩ := hresp.entryAt he
  obtain ⟨who, act, pre, post⟩ := e
  cases act with
  | sect l => cases hlist
  | call call r =>
    obtain ⟨tR, htR, htakes, hinst⟩ := exists_rebuild (hok _ hlist).1
    rw [hlen] at htR
    refine ⟨tR, htR, ?_, ?_⟩
    · rwa [Pool.Takes, ← hsame tR htR]
    · rwa [Installs, ← hsame tR htR]

theorem rebuild_of_sends (ht : Sends h t i n) : ∃ tR < t, Pool.Takes h tR i (.rebuild n) := by
  obtain ⟨e, he, rfl, hlist⟩ := ht
  obtain ⟨⟨n', g⟩, hl, hn⟩ := Option.map_eq_some_iff.1 hlist
  obtain ⟨tR, htR, htakes, -⟩ := send_installed hresp he hl
  cases hn
  exact ⟨tR, htR, htakes⟩

end Respected

/-! ### Generations count the projections installed -/

omit [DecidableEq ι] in
theorem rebuilds_congr {h₁ : List (CoreEntry ι)}
    (hsame : ∀ u < t, Pool.entryAt h₁ u = Pool.entryAt h u) : rebuilds n h₁ t = rebuilds n h t :=
  le_antisymm
    (Nat.count_mono_left fun u hu hb => by rwa [Rebuilds, ← hsame u hu])
    (Nat.count_mono_left fun u hu hb => by rwa [Rebuilds, hsame u hu])

omit [DecidableEq ι] in
theorem rebuilds_succ (n : String) (h : List (CoreEntry ι)) (t : Nat) :
    rebuilds n h (t + 1) = rebuilds n h t + if Rebuilds n h t then 1 else 0 := Nat.count_succ _ _

omit [DecidableEq ι] in
theorem rebuilds_cons (n : String) (e : CoreEntry ι) (h : List (CoreEntry ι)) :
    rebuilds n (e :: h) (e :: h).length =
      rebuilds n h h.length + if e.act = .sect (.rebuild n) then 1 else 0 := by
  have hlast : Rebuilds n (e :: h) h.length ↔ e.act = .sect (.rebuild n) := by
    simp [Rebuilds]
  rw [List.length_cons, rebuilds_succ, rebuilds_congr fun u hu => Pool.entryAt_cons hu]
  simp only [hlast]

theorem generation_eq (hr : Pool.Interleaving (corePool w ops) h p)
    (hresp : Pool.Respects (projectionProtocol w.state.activeId)
      (fun i => { reports := (ops i).reported }) h) :
    p.shared.generation n = w.generation n + UInt64.ofNat (rebuilds n h h.length) := by
  induction hr with
  | init => simp [rebuilds, corePool]
  | @step h p _ _ _ _ _ hs _ ih =>
    rw [rebuilds_cons]
    obtain ⟨lab, upd, next, -, rfl, rfl⟩ | ⟨call, next, -, rfl, rfl⟩ := Pool.step_cases hs
    · rw [hresp.1.2.1 n, ih hresp.2]
      by_cases hlab : lab p.shared = Sect.rebuild n
      · rw [if_pos hlab, if_pos (by rw [hlab])]
        simp [UInt64.add_assoc]
      · rw [if_neg hlab, if_neg (by simpa using hlab)]
        rfl
    · rw [if_neg (by simp)]
      exact ih hresp.2

/-- The generation that a step finds. -/
theorem generation_entryAt (hr : Pool.Interleaving (corePool w ops) h p)
    (hresp : Pool.Respects (projectionProtocol w.state.activeId)
      (fun i => { reports := (ops i).reported }) h)
    {e : CoreEntry ι} (he : Pool.entryAt h t = some e) :
    e.pre.generation n = w.generation n + UInt64.ofNat (rebuilds n h t) := by
  obtain ⟨h₂, h₁, rfl, rfl⟩ := Pool.exists_append_of_entryAt he
  obtain ⟨p₁, hr₁⟩ := hr.of_append
  have hcount : rebuilds n h₁ h₁.length = rebuilds n (h₂ ++ e :: h₁) h₁.length :=
    rebuilds_congr fun u hu => by
      rw [Pool.entryAt_append (Nat.lt_succ_of_lt hu), Pool.entryAt_cons hu]
  rw [← hcount]
  cases hr₁ with
  | step hr₀ hs _ =>
    rw [(Pool.step_who hs).2.1]
    exact generation_eq hr₀ hresp.of_append.2

omit [DecidableEq ι] in
/-- The projection that is current at time `t'`, if one has been installed before. -/
theorem exists_last_rebuild (ht : t < t') (hb : Rebuilds n h t) :
    ∃ u < t', Rebuilds n h u ∧ rebuilds n h u + 1 = rebuilds n h t' := by
  induction t' with
  | zero => exact absurd ht (Nat.not_lt_zero t)
  | succ t' ih =>
    by_cases hlast : Rebuilds n h t'
    · exact ⟨t', Nat.lt_succ_self _, hlast, by rw [rebuilds_succ, if_pos hlast]⟩
    · have hne : t ≠ t' := fun h => hlast (h ▸ hb)
      obtain ⟨u, hu, hbu, hcount⟩ := ih (by omega)
      exact ⟨u, Nat.lt_succ_of_lt hu, hbu, by rw [rebuilds_succ, if_neg hlast, hcount, add_zero]⟩

omit [DecidableEq ι] in
theorem rebuilds_of_takes (ht : Pool.Takes h t i (.rebuild n)) : Rebuilds n h t := by
  obtain ⟨e, he, -, hact⟩ := ht
  exact ⟨e, he, hact⟩

theorem uint64_count_inj (g₀ : UInt64) {a b : Nat} (ha : a < 2 ^ 64) (hb : b < 2 ^ 64)
    (h : g₀ + UInt64.ofNat a = g₀ + UInt64.ofNat b) : a = b := by
  have h := congrArg UInt64.toNat ((UInt64.add_right_inj g₀).1 h)
  rwa [UInt64.toNat_ofNat', UInt64.toNat_ofNat', Nat.mod_eq_of_lt ha, Nat.mod_eq_of_lt hb] at h

/-- In every interleaving in which the report is kept apart from the writes and lists are sent in
order: a report about a superseded list leaves the index alone. -/
theorem index_kept_of_apart (hops : ∀ i, (ops i).reloads = true)
    (hr : Pool.Interleaving (corePool w ops) h p) {i : ι} {n : String}
    (hfew : rebuilds n h h.length < 2 ^ 64) (hapart : ReportApart h i n)
    (hlists : ListsInOrder h n) :
    ∀ t, ∀ e ∈ Pool.entryAt h t, e.who = i → e.act = .sect (.report n) →
      Superseded h n (ops i).reported t → e.post.currentIndex n = e.pre.currentIndex n := by
  intro tW e he hwho hact hsup
  have hresp := respects_projection hops hr
  by_contra hmoved
  -- the report has found its generation current, at `tP`
  obtain ⟨h₁, hsame, hlen, hok⟩ := hresp.entryAt he
  rw [hact] at hok
  have hmatched : (projecting w ops i h₁).matched = some n := by
    by_contra hne
    exact hmoved (hok.2.2.2 n rfl (hwho ▸ hne))
  obtain ⟨tP, eP, heP, hwhoP, hactP, hgenP⟩ := exists_match hmatched
  have htP : tP < tW := hlen ▸ Pool.entryAt_lt heP
  rw [hsame tP htP] at heP
  rw [generation_entryAt hr hresp heP] at hgenP
  -- the operation that supersedes the list had installed its own before, at `tR`
  obtain ⟨hlist, j, tE, htE, hE, tC, htC, hC, hlater⟩ := hsup
  obtain ⟨tR, htR, hR⟩ := rebuild_of_sends hresp hC
  have hRP : tR < tP := hapart tW (Pool.entryAt_lt he) ⟨e, he, hwho, hact⟩ tP htP
    ⟨eP, heP, hwhoP, hactP⟩ _ tE htE hE tR (htR.trans htC) hR
  obtain ⟨tL, htL, hL, hcount⟩ := exists_last_rebuild hRP (rebuilds_of_takes hR)
  obtain hold | ⟨tK, htK, eK, heK, hlistK⟩ := hlist
  · -- the list is older than the run, but its generation is one of the run
    obtain ⟨eL, heL, hactL⟩ := hL
    refine hold tL (Pool.entryAt_lt heL) ⟨eL, heL, hactL, ?_⟩
    rw [generation_entryAt hr hresp heL, ← hgenP, ← hcount]
    simp [UInt64.add_assoc]
  · -- the list was sent at `tK`, and its projection installed at `tI`, which is `tL`
    obtain ⟨tI, htI, hI, eI, heI, hactI, hgenI⟩ := send_installed hresp heK hlistK
    have hbI := rebuilds_of_takes hI
    have hsucc : rebuilds n h tI + 1 = rebuilds n h tP := by
      have hltI : rebuilds n h tI < rebuilds n h h.length :=
        Nat.count_strict_mono hbI (Pool.entryAt_lt heI)
      have hleP : rebuilds n h tP ≤ rebuilds n h h.length :=
        Nat.count_monotone _ (Pool.entryAt_lt heP).le
      refine uint64_count_inj (w.generation n) (by omega) (by omega) ?_
      rw [hgenP, ← hgenI, generation_entryAt hr hresp heI]
      simp [UInt64.add_assoc]
    have hIL : tI = tL := Nat.count_injective hbI hL (by
      show rebuilds n h tI = rebuilds n h tL
      omega)
    have hRI : tR ≤ tI := by
      by_contra hlt
      have hmono : rebuilds n h tL < rebuilds n h tR :=
        Nat.count_strict_mono hL (hIL ▸ not_le.1 hlt)
      have hmono' : rebuilds n h tR < rebuilds n h tP :=
        Nat.count_strict_mono (rebuilds_of_takes hR) hRP
      omega
    have hKC : tK < tC := hlater tK (Pool.entryAt_lt heK) ⟨eK, heK, hlistK⟩
    have hKlist : Sends h tK eK.who n := ⟨eK, heK, rfl, by rw [hlistK]; rfl⟩
    obtain hlt | heq := lt_or_eq_of_le hRI
    · have := hlists _ _ tR hR.lt hR tI hI.lt hI hlt tC htC hC tK (Pool.entryAt_lt heK) hKlist
      omega
    · subst heq
      obtain ⟨eR, heR, hwhoR, -⟩ := hR
      obtain ⟨eR', heR', hwhoR', -⟩ := hI
      rw [heR] at heR'
      cases heR'
      rw [← hwhoR', hwhoR] at hKlist
      have := send_once hresp hKlist hC
      omega

end Runs

/-- A connected node whose output plays the first track of list 1. -/
def playingNode : Core :=
  (runOps allSucceed
    [.registerOutput "a" "" 0, .addNode { id := "a" },
      .setQueue [{ id := "1", filePath := "/1" }, { id := "2", filePath := "/2" }] (some 0)]
    (Core.new (fun _ => none) [] [], ())).1

/-- `play_index` together with a report about the first track of list 1. -/
def playOrReport (reports : Bool) : CoreOp :=
  if reports then .syncNodeState "a" .playing 0 50 (some 0) 1 else .playIndex 1

/-- The report comes when the new list has been sent. -/
def reportAfter : List (Bool × Except CoreError Unit) :=
  List.replicate 6 (false, .ok ()) ++ List.replicate 2 (true, .ok ())

/-- The report comes between the write of the index and the new projection. -/
def reportBetween : List (Bool × Except CoreError Unit) :=
  List.replicate 2 (false, .ok ()) ++ List.replicate 2 (true, .ok ()) ++
    List.replicate 4 (false, .ok ())

/-- What a run of the two does under a schedule. -/
def playAndReport (sched : List (Bool × Except CoreError Unit)) : List (CoreEntry Bool) :=
  (Pool.exec sched ([], corePool playingNode playOrReport)).1

/-- The report is about a list that has been replaced by then, and the index stays. -/
theorem index_kept_of_apart_reportAfter :
    (∃ t < 8, Superseded (playAndReport reportAfter) "a" (playOrReport true).reported t) ∧
      ∀ t, ∀ e ∈ Pool.entryAt (playAndReport reportAfter) t, e.who = true →
        e.act = .sect (.report "a") →
        Superseded (playAndReport reportAfter) "a" (playOrReport true).reported t →
        e.post.currentIndex "a" = e.pre.currentIndex "a" :=
  ⟨by decide +kernel, index_kept_of_apart (fun i => by cases i <;> rfl)
    (Pool.exec_run reportAfter .init) (by decide) (by decide) (by decide)⟩

/-- The index goes back to the first track. -/
theorem reportBetween_moves :
    ¬ ∀ t, ∀ e ∈ Pool.entryAt (playAndReport reportBetween) t, e.who = true →
      e.act = .sect (.report "a") →
      Superseded (playAndReport reportBetween) "a" (playOrReport true).reported t →
      e.post.currentIndex "a" = e.pre.currentIndex "a" := by
  intro hkept
  have hmoved : ∃ e ∈ Pool.entryAt (playAndReport reportBetween) 3, e.who = true ∧
      e.act = .sect (.report "a") ∧
      Superseded (playAndReport reportBetween) "a" (playOrReport true).reported 3 ∧
      e.post.currentIndex "a" ≠ e.pre.currentIndex "a" := by decide +kernel
  obtain ⟨e, he, hwho, hact, hsup, hne⟩ := hmoved
  exact hne (hkept 3 e he hwho hact hsup)

end Kanade

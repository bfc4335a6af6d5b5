import Kanade.Core.Runs

/-!
# Kanade.Core.Snapshots

The snapshots that `broadcast` delivers, over every interleaving of operations.

The mirror is recomputed in one section and the snapshot is cloned in a later one; in between,
another operation may change the selection or the selected node. `MirrorCurrent` says that none has
made a difference. `snapshot_consistent_iff`: a snapshot is consistent exactly then, and
`delivered_consistent`: what is delivered is what was cloned.
-/

namespace Kanade

open Concur Fallible Discipline

/-- The fields of a node that the top level repeats. -/
structure Mirror where
  queue : List Track := []
  currentIndex : Option Nat := none
  shuffle : Bool := false
  repeatMode : RepeatMode := .off
deriving DecidableEq, Repr

def Node.mirror (n : Node) : Mirror := ⟨n.queue, n.currentIndex, n.shuffle, n.repeatMode⟩

/-- What the top level holds. -/
def PlaybackState.mirror (s : PlaybackState) : Mirror :=
  ⟨s.queue, s.currentIndex, s.shuffle, s.repeatMode⟩

/-- What the top level should hold: the fields of the selected node, if there is one. -/
def PlaybackState.selectedMirror (s : PlaybackState) : Mirror :=
  (s.selectedNode.map Node.mirror).getD {}

/-- If the selection names a node, the top level repeats its fields. -/
def Consistent (s : PlaybackState) : Prop := ∀ n ∈ s.selectedNode, s.mirror = n.mirror

instance (s : PlaybackState) : Decidable (Consistent s) :=
  inferInstanceAs (Decidable (∀ n ∈ s.selectedNode, s.mirror = n.mirror))

theorem mirror_sync (s : PlaybackState) :
    s.syncTopLevelFromSelectedNode.mirror = s.selectedMirror := by
  unfold PlaybackState.syncTopLevelFromSelectedNode PlaybackState.selectedMirror
  cases s.selectedNode <;> rfl

theorem selectedNode_sync (s : PlaybackState) :
    s.syncTopLevelFromSelectedNode.selectedNode = s.selectedNode := by
  simp only [PlaybackState.selectedNode, syncTopLevel_selectedNodeId]
  cases s.selectedNodeId with
  | none => rfl
  | some id => simp

theorem selectedMirror_sync (s : PlaybackState) :
    s.syncTopLevelFromSelectedNode.selectedMirror = s.selectedMirror := by
  rw [PlaybackState.selectedMirror, selectedNode_sync, PlaybackState.selectedMirror]

theorem mirror_dropDuplicates (canonical : String) (ids : List String) :
    ∀ s : PlaybackState, (ids.foldl (dropDuplicate canonical) s).mirror = s.mirror := by
  induction ids with
  | nil => intro s; rfl
  | cons id ids ih => intro s; exact ih _

theorem mirror_jumpSection (id : String) (target : Node → Except CoreError Nat)
    (s : PlaybackState) : (jumpSection id target s).2.mirror = s.mirror := by
  cases hn : s.node id with
  | none => simp [jumpSection, hn]
  | some node =>
    rw [jumpSection_eq hn]
    cases target node <;> rfl

/-- The rewrites of operations other than `add_node` leave the top level alone. -/
theorem mirror_write {I : PlaybackState → Prop} {op : CoreOp} {f : PlaybackState → PlaybackState}
    (hf : op.Writes I f) (hop : op.mirrors = false) (s : PlaybackState) :
    (f s).mirror = s.mirror := by
  cases hf
  case addNode => cases hop
  case disconnect id =>
    show (disconnectSection id s).2.mirror = s.mirror
    unfold disconnectSection
    cases fallbackNodeId id s with
    | some fallback => rfl
    | none =>
      dsimp only
      split <;> rfl
  case remove =>
    dsimp only
    split <;> rfl
  case sessionStart =>
    unfold sessionStartSection
    split
    · rfl
    · dsimp only
      split
      · rfl
      · exact mirror_dropDuplicates _ _ s
  case sessionStop =>
    dsimp only
    split <;> rfl
  case cleanup =>
    unfold cleanupSection
    dsimp only
    split
    · rfl
    · dsimp only
      split <;> rfl
  case select =>
    unfold selectSection
    beta_reduce
    split
    · rfl
    · split <;> rfl
  case next => exact mirror_jumpSection _ _ s
  case previous => exact mirror_jumpSection _ _ s
  case playIndex => exact mirror_jumpSection _ _ s
  case removeTrack =>
    beta_reduce
    split
    · split <;> rfl
    · rfl
  case moveTrack =>
    beta_reduce
    split
    · split <;> rfl
    · rfl
  case setQueue =>
    unfold setQueueSection
    beta_reduce
    split
    · rfl
    · dsimp only
      split <;> rfl
  all_goals rfl

/-! ## The protocol -/

/-- The snapshot that a call delivers. -/
def CoreCall.snapshot? : CoreCall → Option PlaybackState
  | .onStateChanged _ s | .persist _ s => some s
  | .output _ _ _ => none

/-- A task's phase is whether it has recomputed the mirror, and the snapshot it took last. It takes
none before, and delivers none but that. Mirror sections end with the selected node's fields at the
top, the other ones leave the top alone. -/
def mirrorProtocol :
    Protocol Core Sect CoreCall (Except CoreError Unit) (Bool × Option PlaybackState) where
  onSect p lab w _ := (p.1 || lab == .mirror, if lab = .snapshot then some w.state else p.2)
  onCall p _ _ := p
  rely _ _ _ := True
  sectOk p lab w w' :=
    (lab = .snapshot → p.1 = true) ∧
      if lab = .mirror then w'.state.mirror = w'.state.selectedMirror
      else w'.state.mirror = w.state.mirror
  callOk p call := ∀ s ∈ call.snapshot?, p.2 = some s

@[simp] theorem mirrorProtocol_onSect (p : Bool × Option PlaybackState) (lab : Sect) (w w' : Core) :
    mirrorProtocol.onSect p lab w w' =
      (p.1 || lab == .mirror, if lab = .snapshot then some w.state else p.2) := rfl

@[simp] theorem mirrorProtocol_onCall (p : Bool × Option PlaybackState) (call : CoreCall)
    (r : Except CoreError Unit) : mirrorProtocol.onCall p call r = p := rfl

theorem follows_deliverAll {call : Nat → CoreCall} {s : PlaybackState}
    (hcall : ∀ k, (call k).snapshot? = some s) (ks : List Nat) {p : Bool × Option PlaybackState}
    (hp : p.2 = some s) :
    Follows mirrorProtocol (fun p' _ => p'.2 = some s) p (deliverAll call ks) := by
  induction ks with
  | nil => exact hp
  | cons k ks ih =>
    refine (follows_bind _ _).2 (follows_tell.2 ⟨fun s' hs' => ?_, fun _ => ih⟩)
    rw [hcall k, Option.mem_some_iff] at hs'
    rw [hp, hs']

theorem follows_broadcast (p : Bool × Option PlaybackState) :
    Follows mirrorProtocol (fun _ _ => True) p broadcast := by
  refine (follows_bind _ _).2 (follows_sect.2 fun w _ => ⟨?_, ?_⟩)
  · exact ⟨by simp, by simp [mirror_sync, selectedMirror_sync]⟩
  · refine (follows_bind _ _).2 (follows_sect.2 fun w' _ => ⟨⟨by simp [mirrorProtocol], rfl⟩, ?_⟩)
    refine (follows_bind _ _).2 ((follows_deliverAll (fun _ => rfl) _ rfl).mono ?_)
    rintro p' (e | a) hp'
    · trivial
    · exact (follows_deliverAll (fun _ => rfl) _ hp').mono fun _ _ _ => trivial

theorem mirrorDiscipline (op : CoreOp) :
    Discipline mirrorProtocol (fun _ _ => True) (fun _ => True) op where
  weaken := fun _ => trivial
  reads := fun _ _ => trivial
  quiet := fun _ _ hm hs hw _ _ =>
    ⟨⟨fun h => absurd h hs, by simp [hm, hw]⟩, trivial⟩
  write := by
    intro p lab w f _ _ hf hs hm
    refine ⟨⟨fun h => absurd h hs, ?_⟩, trivial⟩
    by_cases hlab : lab = .mirror
    · have hop := hm.1 hlab
      cases hf <;> cases hop
      simp only [hlab, if_true]
      exact (mirror_sync _).trans (selectedMirror_sync _).symm
    · have hop : op.mirrors = false := by simpa using fun h => hlab (hm.2 h)
      simp only [hlab, if_false]
      exact mirror_write hf hop w.state
  output := fun _ => ⟨fun s hs => by simp [CoreCall.snapshot?] at hs, fun _ => trivial⟩
  broadcasts := fun _ => follows_broadcast _

/-! ## Runs -/

section Runs

variable {ι : Type} [DecidableEq ι]

/-- The state that the last recomputation of the mirror has left. -/
def lastMirror : List (CoreEntry ι) → Option PlaybackState
  | [] => none
  | e :: h => if e.act = .sect .mirror then some e.post.state else lastMirror h

/-- The selected node's fields are those that the mirror was last given. -/
def MirrorCurrent (h : List (CoreEntry ι)) (s : PlaybackState) : Prop :=
  ∀ s₀ ∈ lastMirror h, ∀ n ∈ s.selectedNode, s₀.selectedMirror = n.mirror

instance (h : List (CoreEntry ι)) (s : PlaybackState) : Decidable (MirrorCurrent h s) :=
  inferInstanceAs (Decidable (∀ s₀ ∈ lastMirror h, ∀ n ∈ s.selectedNode,
    s₀.selectedMirror = n.mirror))

/-- The history and the state in which task `i` took its last snapshot. -/
def taken (i : ι) : List (CoreEntry ι) → Option (List (CoreEntry ι) × PlaybackState)
  | [] => none
  | e :: h => if e.who = i ∧ e.act = .sect .snapshot then some (h, e.pre.state) else taken i h

/-- The snapshot that a step delivers. -/
def delivered? (e : CoreEntry ι) : Option PlaybackState :=
  match e.act with
  | .sect _ => none
  | .call call _ => call.snapshot?

variable {w : Core} {ops : ι → CoreOp} {h : List (CoreEntry ι)}
  {p : CorePool ι}

/-- The phases that tasks start in. -/
abbrev fresh (_ : ι) : Bool × Option PlaybackState := (false, none)

theorem respects_mirrorProtocol (hr : Pool.Interleaving (corePool w ops) h p) :
    Pool.Respects mirrorProtocol fresh h := by
  have hops : ∀ i, ((corePool w ops).task i).Follows mirrorProtocol (fun _ _ => True) (fresh i) :=
    fun i => (CoreOp.follows (mirrorDiscipline (ops i)) _ trivial).mono fun _ _ _ => trivial
  exact (hr.follows (Q := fun _ _ _ => True) hops fun _ _ _ _ _ _ => trivial).1

/-- Since the last recomputation the top level has been left alone. -/
theorem mirror_eq_lastMirror (hr : Pool.Interleaving (corePool w ops) h p) :
    ∀ s₀ ∈ lastMirror h, p.shared.state.mirror = s₀.selectedMirror := by
  have hresp := respects_mirrorProtocol hr
  induction hr with
  | init => simp [lastMirror]
  | @step h p p' e i r hr hs _ ih =>
    intro s₀ hs₀
    have ih := ih hresp.2
    obtain ⟨lab, upd, next, -, rfl, rfl⟩ | ⟨call, next, -, rfl, rfl⟩ := Pool.step_cases hs
    · have hok := hresp.1.2
      by_cases hlab : lab p.shared = .mirror
      · simp only [lastMirror, hlab, if_true, Option.mem_some_iff] at hs₀
        simp only [hlab, if_true] at hok
        rw [← hs₀]
        exact hok
      · simp only [lastMirror, Act.sect.injEq, hlab, if_false] at hs₀
        simp only [hlab, if_false] at hok
        exact hok.trans (ih s₀ hs₀)
    · exact ih s₀ (by simpa [lastMirror] using hs₀)

/-- A task in the second phase has recomputed the mirror. -/
theorem lastMirror_isSome {i : ι} (hp : (Pool.phase mirrorProtocol fresh i h).1 = true) :
    (lastMirror h).isSome := by
  induction h with
  | nil => cases hp
  | cons e h ih =>
    by_cases hact : e.act = .sect .mirror
    · simp [lastMirror, hact]
    · simp only [lastMirror, hact, if_false]
      refine ih ?_
      simp only [Pool.phase] at hp
      split at hp
      · split at hp
        · rename_i l hl
          rw [hl, Act.sect.injEq] at hact
          simpa [mirrorProtocol, hact] using hp
        · exact hp
      · exact hp

/-- What a task carries is the snapshot it took last. -/
theorem phase_snd_eq_taken (i : ι) (h : List (CoreEntry ι)) :
    (Pool.phase mirrorProtocol fresh i h).2 = (taken i h).map Prod.snd := by
  induction h with
  | nil => rfl
  | cons e h ih =>
    obtain ⟨who, act, pre, post⟩ := e
    by_cases hi : who = i
    · cases act with
      | call call r => simpa [Pool.phase, taken, hi] using ih
      | sect l => by_cases hl : l = .snapshot <;> simp [Pool.phase, taken, hi, hl, ih]
    · simpa [Pool.phase, taken, hi] using ih

/-- A snapshot is consistent exactly when the mirror was current where it was taken. -/
theorem taken_consistent_iff (hr : Pool.Interleaving (corePool w ops) h p) (i : ι) :
    ∀ t ∈ taken i h, Consistent t.2 ↔ MirrorCurrent t.1 t.2 := by
  have hresp := respects_mirrorProtocol hr
  induction hr with
  | init => simp [taken]
  | @step h p p' e j r hr hs _ ih =>
    intro t ht
    by_cases hsnap : e.who = i ∧ e.act = .sect .snapshot
    · simp only [taken, hsnap, and_self, if_true, Option.mem_some_iff] at ht
      obtain ⟨-, hpre, -⟩ := Pool.step_who hs
      have hphase : (Pool.phase mirrorProtocol fresh e.who h).1 = true := by
        have hok := hresp.1
        rw [hsnap.2] at hok
        exact hok.1 rfl
      obtain ⟨s₀, hs₀⟩ := Option.isSome_iff_exists.1 (lastMirror_isSome hphase)
      have htop : e.pre.state.mirror = s₀.selectedMirror := by
        rw [hpre]
        exact mirror_eq_lastMirror hr s₀ hs₀
      rw [← ht]
      simp [Consistent, MirrorCurrent, hs₀, htop]
    · simp only [taken, hsnap, if_false] at ht
      exact ih hresp.2 t ht

/-- In every interleaving: every delivered snapshot is consistent exactly when each was taken with
the mirror current. -/
theorem delivered_consistent_iff (hr : Pool.Interleaving (corePool w ops) h p) :
    Pool.Met (fun _ e => ∀ s ∈ delivered? e, Consistent s) h ↔
      Pool.Met (fun before e => (delivered? e).isSome →
        ∀ t ∈ taken e.who before, MirrorCurrent t.1 t.2) h := by
  have hresp := respects_mirrorProtocol hr
  induction hr with
  | init => exact Iff.rfl
  | @step h p p' e j r hr hs _ ih =>
    refine and_congr ?_ (ih hresp.2)
    obtain ⟨who, act, pre, post⟩ := e
    cases act with
    | sect l => simp [delivered?]
    | call call r =>
      cases hcall : call.snapshot? with
      | none => simp [delivered?, hcall]
      | some s =>
        have hphase : (Pool.phase mirrorProtocol fresh who h).2 = some s := hresp.1 s hcall
        rw [phase_snd_eq_taken] at hphase
        obtain ⟨t, ht, hts⟩ := Option.map_eq_some_iff.1 hphase
        simp [delivered?, hcall, ht, ← hts, taken_consistent_iff hr who t ht]

end Runs

/-- One selected node and one broadcaster; `set_shuffle` and `set_repeat` run together. -/
def twoSettings : CorePool Bool :=
  corePool (runOps allSucceed [.addNode { id := "a" }] (Core.new (fun _ => none) [0] [], ())).1
    fun i => if i then .setRepeat .all else .setShuffle true

/-- The schedule in which the repeat mode changes between mirror and snapshot of the other. -/
def lateRepeat : List (Bool × Except CoreError Unit) :=
  [(false, .ok ()), (false, .ok ()), (true, .ok ()), (false, .ok ()), (false, .ok ())]

theorem delivered_consistent_iff_lateRepeat :
    Pool.Met (fun _ e => ∀ s ∈ delivered? e, Consistent s)
        (Pool.exec lateRepeat ([], twoSettings)).1 ↔
      Pool.Met (fun before e => (delivered? e).isSome →
        ∀ t ∈ taken e.who before, MirrorCurrent t.1 t.2)
        (Pool.exec lateRepeat ([], twoSettings)).1 :=
  delivered_consistent_iff (Pool.exec_run lateRepeat .init)

/-- The broadcaster gets a snapshot whose top level has the old repeat mode. -/
theorem lateRepeat_inconsistent :
    ¬ Pool.Met (fun _ e => ∀ s ∈ delivered? e, Consistent s)
      (Pool.exec lateRepeat ([], twoSettings)).1 := by
  decide

end Kanade

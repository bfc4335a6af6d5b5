import Kanade.Core.Ops

/-!
# Kanade.Core.Writes

The one place where the bodies of the operations are taken apart.

A `Discipline` is a protocol with two stages of its phases: *settled* (`true`), as an operation
starts and should end, and *resting* (`false`), as it may be left by a write. It says what the
pieces of operations do to the stages: looking and calling outputs keep both, the rewrites that
`CoreOp.Writes` lists lead to resting, and `broadcast` leads back. `CoreOp.follows`: every operation
goes from settled to settled, or ends in an error and rests. The lemmas before it follow the
operations bottom up.

`CoreOp.within` is the case without phases: a relation between playback states that holds of the
listed rewrites holds across every section of the operation.
-/

namespace Kanade

open Concur Fallible

/-- The operation whose own section ends by recomputing the mirror. -/
def CoreOp.mirrors : CoreOp → Bool
  | .addNode _ => true
  | _ => false

structure Discipline {φ : Type} (P : Protocol Core Sect CoreCall (Except CoreError Unit) φ)
    (stage : Bool → φ → Prop) (I : PlaybackState → Prop) (op : CoreOp) : Prop where
  weaken : ∀ {p}, stage true p → stage false p
  /-- What is read has `I`. -/
  reads : ∀ {b p lab w}, stage b p → P.rely p lab w → I w.state
  quiet : ∀ {b p lab w w'}, stage b p → P.rely p lab w → lab ≠ .mirror → lab ≠ .snapshot →
    w'.state = w.state → w'.broadcasters = w.broadcasters → w'.persisters = w.persisters →
      P.sectOk p lab w w' ∧ stage b (P.onSect p lab w w')
  write : ∀ {p lab w f}, stage false p → P.rely p lab w → op.Writes I f → lab ≠ .snapshot →
    (lab = .mirror ↔ op.mirrors = true) →
      P.sectOk p lab w { w with state := f w.state } ∧
        stage false (P.onSect p lab w { w with state := f w.state })
  output : ∀ {b p node slot cmd}, stage b p →
    P.callOk p (.output node slot cmd) ∧ ∀ r, stage b (P.onCall p (.output node slot cmd) r)
  broadcasts : ∀ {p}, stage false p → Follows P (fun p' _ => stage true p') p broadcast

namespace Discipline

variable {φ α β : Type} {P : Protocol Core Sect CoreCall (Except CoreError Unit) φ}
  {stage : Bool → φ → Prop} {I : PlaybackState → Prop} {op : CoreOp} {b b' c : Bool}

/-- A task that stays in whichever stage it is started in. -/
def Quiet (P : Protocol Core Sect CoreCall (Except CoreError Unit) φ) (stage : Bool → φ → Prop)
    (t : Op α) : Prop :=
  ∀ b p, stage b p → Follows P (fun p' _ => stage b p') p t

/-- The end of a task: in stage `b`, or resting after an error. -/
def Ends (stage : Bool → φ → Prop) (b : Bool) (p : φ) : Except CoreError α → Prop
  | .ok _ => stage b p
  | .error _ => stage false p

/-- A task that goes from stage `b` to stage `b'`, or ends in an error and rests. -/
def Goes (P : Protocol Core Sect CoreCall (Except CoreError Unit) φ) (stage : Bool → φ → Prop)
    (b b' : Bool) (t : Op α) : Prop :=
  ∀ p, stage b p → Follows P (Ends stage b') p t

theorem Quiet.bind {t : Op α} {f : α → Op β} (ht : Quiet P stage t)
    (hf : ∀ a, Quiet P stage (f a)) : Quiet P stage (t >>= f) := fun b _ hp =>
  Follows.bind (ht b _ hp) fun a p' hp' => hf a b p' hp'

theorem Quiet.attempt {t : Op α} (ht : Quiet P stage t) : Quiet P stage t.attempt :=
  fun b p hp => (follows_attempt t).2 (ht b p hp)

theorem quiet_pure (a : α) : Quiet P stage (pure a : Op α) := fun _ _ hp => hp

theorem Goes.bind {t : Op α} {f : α → Op β} (ht : Goes P stage b c t)
    (hf : ∀ a, Goes P stage c b' (f a)) : Goes P stage b b' (t >>= f) := fun p hp => by
  refine (follows_bind t f).2 ((ht p hp).mono ?_)
  rintro p' (e | a) hp'
  · exact hp'
  · exact hf a p' hp'

theorem Goes.attempt {t : Op α} (ht : Goes P stage false false t) :
    Goes P stage false false t.attempt := fun p hp => by
  refine (follows_attempt t).2 ((ht p hp).mono ?_)
  rintro p' (e | a) hp' <;> exact hp'

variable (d : Discipline P stage I op)
include d

theorem weaken_to {p : φ} (hp : stage b p) : stage false p := by
  cases b with
  | false => exact hp
  | true => exact d.weaken hp

theorem Quiet.goes {t : Op α} (ht : Quiet P stage t) : Goes P stage b b t := fun p hp => by
  refine (ht b p hp).mono ?_
  rintro p' (e | a) hp'
  · exact d.weaken_to hp'
  · exact hp'

/-- A task that only looks and fails goes anywhere. -/
theorem goes_throw (e : CoreError) : Goes P stage b b' (throw e : Op α) := fun _ hp =>
  d.weaken_to hp

/-- A task that only looks goes before any other. -/
theorem Quiet.bind_goes {t : Op α} {f : α → Op β} (ht : Quiet P stage t)
    (hf : ∀ a, Goes P stage b b' (f a)) : Goes P stage b b' (t >>= f) :=
  (Quiet.goes d ht).bind hf

theorem Goes.settled {t : Op α} (ht : Goes P stage false b' t) : Goes P stage true b' t :=
  fun p hp => ht p (d.weaken hp)

theorem Goes.rests {t : Op α} (ht : Goes P stage b true t) : Goes P stage b false t :=
  fun p hp => by
    refine (ht p hp).mono ?_
    rintro p' (e | a) hp'
    · exact hp'
    · exact d.weaken hp'

/-! ## Sections and calls -/

theorem quiet_sect {lab : Core → Except CoreError α → Sect} {f : Core → Except CoreError α × Core}
    (hlab : ∀ w r, lab w r ≠ .mirror ∧ lab w r ≠ .snapshot)
    (hf : ∀ w, (f w).2.state = w.state ∧ (f w).2.broadcasters = w.broadcasters ∧
      (f w).2.persisters = w.persisters) : Quiet P stage (sect lab f : Op α) := fun _ _ hp =>
  follows_sect.2 fun w hr =>
    d.quiet hp hr (hlab w _).1 (hlab w _).2 (hf w).1 (hf w).2.1 (hf w).2.2

theorem quiet_readState (f : PlaybackState → Except CoreError α) :
    Quiet P stage (readState f) :=
  d.quiet_sect (fun _ _ => ⟨by simp, by simp⟩) fun _ => ⟨rfl, rfl, rfl⟩

theorem quiet_lockTransport {lab : Sect} (h : lab ≠ .mirror) (h' : lab ≠ .snapshot)
    (f : (String → Option NodeTransportState) → α × (String → Option NodeTransportState)) :
    Quiet P stage (lockTransport lab f) :=
  d.quiet_sect (fun _ _ => ⟨h, h'⟩) fun _ => ⟨rfl, rfl, rfl⟩

theorem quiet_writeOutputs (f : (String → Option OutputSlot) → String → Option OutputSlot) :
    Quiet P stage (writeOutputs f) :=
  d.quiet_sect (fun _ _ => ⟨by simp, by simp⟩) fun _ => ⟨rfl, rfl, rfl⟩

theorem quiet_eachOutput (id : String) : Quiet P stage (eachOutput id) :=
  d.quiet_sect (fun _ _ => ⟨by simp, by simp⟩) fun w => by
    cases w.outputs id <;> exact ⟨rfl, rfl, rfl⟩

theorem quiet_send (o : OutputHandle) (cmd : OutputCmd) : Quiet P stage (o.send cmd) :=
  fun _ _ hp => follows_call.2 (d.output hp)

/-- A section under `state` that writes one of the listed rewrites, or nothing. -/
theorem goes_lockState {lab : PlaybackState → Except CoreError α → Sect}
    {f : PlaybackState → Except CoreError α × PlaybackState}
    (hlab : ∀ s r, lab s r ≠ .mirror ∧ lab s r ≠ .snapshot) (hop : op.mirrors = false)
    (hf : ∀ s, I s → (f s).2 = s ∨ ∃ g, op.Writes I g ∧ (f s).2 = g s) :
    Goes P stage false false (lockState lab f) := fun p hp => by
  refine follows_sect.2 fun w hr => ?_
  have hl := hlab w.state (f w.state).1
  have hboth : P.sectOk p (lab w.state (f w.state).1) w { w with state := (f w.state).2 } ∧
      stage false (P.onSect p (lab w.state (f w.state).1) w
        { w with state := (f w.state).2 }) := by
    obtain hsame | ⟨g, hg, hfg⟩ := hf w.state (d.reads hp hr)
    · exact d.quiet hp hr hl.1 hl.2 hsame rfl rfl
    · rw [hfg]
      exact d.write hp hr hg hl.2 (iff_of_false hl.1 (by simp [hop]))
  refine ⟨hboth.1, ?_⟩
  dsimp only
  cases hres : (f w.state).1 <;>
    · rw [hres] at hboth
      exact hboth.2

theorem goes_writeState {lab : Sect} {f : PlaybackState → PlaybackState}
    (hlab : lab ≠ .mirror ∧ lab ≠ .snapshot) (hop : op.mirrors = false) (hf : op.Writes I f) :
    Goes P stage false false (writeState lab f) :=
  d.goes_lockState (fun _ _ => hlab) hop fun _ _ => .inr ⟨f, hf, rfl⟩

/-- The section of an operation that recomputes the mirror itself. -/
theorem goes_writeMirror {f : PlaybackState → PlaybackState} (hop : op.mirrors = true)
    (hf : op.Writes I f) : Goes P stage false false (writeState .mirror f) := fun _ hp =>
  follows_sect.2 fun _ hr => d.write hp hr hf (by simp) (iff_of_true rfl hop)

/-- What is read was there in a state with `I`. -/
theorem goes_readState_bind {f : PlaybackState → Except CoreError α} {k : α → Op β}
    (hk : ∀ s, I s → ∀ a, f s = .ok a → Goes P stage b b' (k a)) :
    Goes P stage b b' (readState f >>= k) := fun p hp => by
  refine (follows_bind _ _).2 (follows_sect.2 fun w hr => ?_)
  have hq := d.quiet hp hr (by simp) (by simp) rfl rfl rfl
  refine ⟨hq.1, ?_⟩
  dsimp only
  cases hres : f w.state with
  | error e => exact d.weaken_to hq.2
  | ok a => exact hk w.state (d.reads hp hr) a hres _ hq.2

/-- A section whose result tells whether it has written. -/
theorem goes_lockState_bind {lab : PlaybackState → Except CoreError α → Sect}
    {f : PlaybackState → Except CoreError α × PlaybackState} {k : α → Op β}
    (hlab : ∀ s r, lab s r ≠ .mirror ∧ lab s r ≠ .snapshot) (hop : op.mirrors = false)
    (hf : ∀ s, I s →
      ((f s).2 = s ∧ ∀ a, (f s).1 = .ok a → Goes P stage true b' (k a)) ∨
      (∃ g, op.Writes I g ∧ (f s).2 = g s) ∧ ∀ a, (f s).1 = .ok a → Goes P stage false b' (k a)) :
    Goes P stage true b' (lockState lab f >>= k) := fun p hp => by
  refine (follows_bind _ _).2 (follows_sect.2 fun w hr => ?_)
  have hl := hlab w.state (f w.state).1
  obtain ⟨hsame, hk⟩ | ⟨⟨g, hg, hfg⟩, hk⟩ := hf w.state (d.reads hp hr)
  · have hsame' : ({ w with state := (f w.state).2 } : Core).state = w.state := hsame
    have hq := d.quiet hp hr hl.1 hl.2 hsame' rfl rfl
    refine ⟨hq.1, ?_⟩
    dsimp only
    cases hres : (f w.state).1 with
    | error e =>
      rw [hres] at hq
      exact d.weaken hq.2
    | ok a =>
      rw [hres] at hq
      exact hk a hres _ hq.2
  · have hw := d.write (d.weaken hp) hr hg hl.2 (iff_of_false hl.1 (by simp [hop]))
    dsimp only
    rw [hfg]
    refine ⟨hw.1, ?_⟩
    cases hres : (f w.state).1 with
    | error e =>
      rw [hres] at hw
      exact hw.2
    | ok a =>
      rw [hres] at hw
      exact hk a hres _ hw.2

theorem goes_broadcast : Goes P stage false true broadcast := fun p hp => by
  refine (d.broadcasts hp).mono ?_
  rintro p' (e | a) hp'
  · exact d.weaken hp'
  · exact hp'

/-! ## The pieces of operations -/

theorem quiet_activeNodeId : Quiet P stage activeNodeId := d.quiet_readState _

theorem quiet_activeOutputs : Quiet P stage activeOutputs :=
  d.quiet_activeNodeId.bind fun id => d.quiet_eachOutput id

theorem quiet_maybeActiveOutputs : Quiet P stage maybeActiveOutputs :=
  d.quiet_activeOutputs.attempt.bind fun _ => quiet_pure _

theorem quiet_rebuildProjectionState (id : String) (start : Option Nat) (len : Nat) :
    Quiet P stage (rebuildProjectionState id start len) :=
  d.quiet_lockTransport (by simp) (by simp) _

theorem quiet_playAt (o : OutputHandle) (pos : ℚ) : Quiet P stage (o.playAt pos) := by
  refine (d.quiet_send _ _).bind fun _ => ?_
  split
  · exact d.quiet_send _ _
  · exact quiet_pure ()

theorem quiet_syncOutputToGlobal (id : String) : Quiet P stage (syncOutputToGlobal id) :=
  (d.quiet_readState _).bind fun _ =>
    (d.quiet_rebuildProjectionState _ _ _).bind fun _ =>
      (d.quiet_eachOutput _).bind fun _ =>
        (d.quiet_send _ _).bind fun _ => d.quiet_send _ _

theorem quiet_adjustProjectionActive (f : NodeTransportState → NodeTransportState) :
    Quiet P stage (adjustProjectionActive f) := by
  refine d.quiet_activeNodeId.attempt.bind fun r => ?_
  cases r with
  | error e => exact quiet_pure ()
  | ok id => exact d.quiet_lockTransport (by simp) (by simp) _

theorem quiet_extend (n : Nat) : Quiet P stage (extendProjectionLoadedLenActive n) := by
  unfold extendProjectionLoadedLenActive
  split
  · exact quiet_pure ()
  · exact d.quiet_adjustProjectionActive _

theorem quiet_decrement (n : Nat) : Quiet P stage (decrementProjectionLoadedLenActive n) := by
  unfold decrementProjectionLoadedLenActive
  split
  · exact quiet_pure ()
  · exact d.quiet_adjustProjectionActive _

theorem quiet_applyOutputRuntimeState (id : String) (status : PlaybackStatus) (pos : ℚ) :
    Quiet P stage (applyOutputRuntimeState id status pos) := by
  refine (d.quiet_eachOutput id).bind fun o => ?_
  cases status with
  | stopped => exact d.quiet_send _ _
  | playing => exact d.quiet_playAt o pos
  | paused => exact (d.quiet_playAt o pos).bind fun _ => d.quiet_send _ _
  | loading => exact d.quiet_playAt o pos

theorem quiet_stopPrevious (previous : Option String) : Quiet P stage (stopPrevious previous) := by
  cases previous with
  | none => exact quiet_pure ()
  | some id => exact (d.quiet_eachOutput id).bind fun _ => d.quiet_send _ _

theorem goes_commandNode {id : String} {cmd : OutputCmd} {f : Node → Node} (hop : op.mirrors = false)
    (hf : op.Writes I (·.modifyNode id f)) : Goes P stage false true (commandNode id cmd f) :=
  (d.quiet_eachOutput id).bind_goes d fun _ =>
    (d.quiet_send _ _).bind_goes d fun _ =>
      (d.goes_writeState (by simp) hop hf).bind fun _ => d.goes_broadcast

theorem goes_commandActive {cmd : OutputCmd} {f : Node → Node} (hop : op.mirrors = false)
    (hf : ∀ id, op.Writes I (·.modifyNode id f)) :
    Goes P stage true true (activeNodeId >>= fun id => commandNode id cmd f) :=
  (d.quiet_activeNodeId.bind_goes d fun id => d.goes_commandNode hop (hf id)).settled d

theorem goes_lockSelected {f : Node → Except CoreError (α × (Node → Node))} (hop : op.mirrors = false)
    (hf : ∀ s id node a g, s.selectedNodeId = some id → s.node id = some node →
      f node = .ok (a, g) → ∃ k, op.Writes I k ∧ s.modifyNode id g = k s) :
    Goes P stage false false (lockSelected f) := by
  refine d.goes_lockState (fun s r => ?_) hop fun s hs => ?_
  · cases s.selectedNodeId <;> cases r <;> exact ⟨by simp [editLabel], by simp [editLabel]⟩
  · unfold PlaybackState.selectedNode
    cases hid : s.selectedNodeId with
    | none => exact .inl rfl
    | some id =>
      cases hn : s.node id with
      | none => simp [hn]
      | some node =>
        simp only [Option.bind_some, hn]
        cases hfn : f node with
        | error e => exact .inl rfl
        | ok ag =>
          dsimp only
          rw [node_id hn]
          exact .inr (hf s id node ag.1 ag.2 hid hn hfn)

theorem goes_editLocked {id : String} {f : PlaybackState → Except CoreError α × PlaybackState}
    (hop : op.mirrors = false) (hf : ∀ s, I s → (f s).2 = s ∨ ∃ g, op.Writes I g ∧ (f s).2 = g s) :
    Goes P stage false false (lockState (fun _ => editLabel id) f) :=
  d.goes_lockState (fun s r => by cases r <;> exact ⟨by simp [editLabel], by simp [editLabel]⟩) hop
    hf

theorem goes_jump {target : Node → Except CoreError Nat} (hop : op.mirrors = false)
    (hjump : ∀ id, op.Writes I fun s => (jumpSection id target s).2)
    (hplay : ∀ id, op.Writes I (·.modifyNode id fun n => { n with status := .playing })) :
    Goes P stage false true (jump target) :=
  d.quiet_activeNodeId.bind_goes d fun id =>
    (d.goes_editLocked hop fun s _ => .inr ⟨_, hjump id, rfl⟩).bind fun _ =>
      (d.quiet_rebuildProjectionState _ _ _).bind_goes d fun _ =>
        d.quiet_activeOutputs.bind_goes d fun _ =>
          (d.quiet_send _ _).bind_goes d fun _ =>
            d.quiet_activeOutputs.bind_goes d fun _ =>
              (d.quiet_send _ _).bind_goes d fun _ =>
                (d.goes_writeState (by simp) hop (hplay id)).bind fun _ => d.goes_broadcast

theorem goes_appendToQueue {tracks : List Track} (hop : op.mirrors = false)
    (hadd : ∀ id, op.Writes I (·.modifyNode id fun n => { n with queue := n.queue ++ tracks })) :
    Goes P stage false true (appendToQueue tracks) := by
  refine (d.quiet_readState _).bind_goes d fun id => ?_
  refine (d.goes_editLocked hop fun s _ => ?_).bind fun _ => ?_
  · split
    · exact .inl rfl
    · exact .inr ⟨_, hadd id, rfl⟩
  · refine d.quiet_maybeActiveOutputs.bind_goes d fun o => ?_
    cases o with
    | none => exact d.goes_broadcast
    | some o =>
      exact (d.quiet_send _ _).bind_goes d fun _ => (d.quiet_extend _).bind_goes d fun _ =>
        d.goes_broadcast

theorem goes_syncConnectedNode {id : String} (hop : op.mirrors = false)
    (hstop : op.Writes I
      (·.modifyNode id fun n => { n with status := .stopped, positionSecs := 0 })) :
    Goes P stage b b (syncConnectedNodeToLogicalState id) := by
  have hstopNode : Goes P stage false true (stopNode id) := d.goes_commandNode hop hstop
  refine (d.quiet_readState _).bind_goes d fun r => ?_
  refine (d.quiet_syncOutputToGlobal id).bind_goes d fun _ => ?_
  split
  · exact (d.quiet_applyOutputRuntimeState _ _ _).goes d
  · cases b with
    | true => exact hstopNode.settled d
    | false => exact hstopNode.rests d

theorem goes_resumeSelected {id : String} {status : PlaybackStatus} {pos : ℚ}
    (hop : op.mirrors = false)
    (hresume : ∀ status pos, op.Writes I
      (·.modifyNode id fun n => { n with status := status, positionSecs := pos }))
    (hpos : ∀ pos, op.Writes I (·.modifyNode id fun n => { n with positionSecs := pos })) :
    Goes P stage false false (resumeSelected id status pos) := by
  cases status with
  | stopped => exact d.goes_writeState (by simp) hop (hpos pos)
  | loading => exact d.goes_writeState (by simp) hop (hpos pos)
  | playing =>
    exact (d.quiet_eachOutput id).bind_goes d fun _ =>
      (d.quiet_playAt _ _).bind_goes d fun _ => d.goes_writeState (by simp) hop (hresume _ pos)
  | paused =>
    exact (d.quiet_eachOutput id).bind_goes d fun _ =>
      (d.quiet_playAt _ _).bind_goes d fun _ =>
        (d.quiet_send _ _).bind_goes d fun _ => d.goes_writeState (by simp) hop (hresume _ pos)

theorem goes_lockLocalNode {id : String} {f : PlaybackState → PlaybackState} (hop : op.mirrors = false)
    (hf : op.Writes I f) : Goes P stage false false (lockLocalNode id f) := by
  refine d.goes_lockState (fun s r => ?_) hop fun s _ => ?_
  · cases r <;> exact ⟨by simp, by simp⟩
  · cases s.node id with
    | none => exact .inl rfl
    | some node =>
      dsimp only
      split
      · exact .inl rfl
      · exact .inr ⟨f, hf, rfl⟩

theorem goes_localSession {id : String} {f : PlaybackState → PlaybackState} (hop : op.mirrors = false)
    (hf : op.Writes I f) : Goes P stage true true (do lockLocalNode id f; broadcast) :=
  ((d.goes_lockLocalNode hop hf).bind fun _ => d.goes_broadcast).settled d

end Discipline

open Discipline

/-! ## The operations -/

section Operations

variable {φ : Type} {P : Protocol Core Sect CoreCall (Except CoreError Unit) φ} {stage : Bool → φ → Prop}
  {I : PlaybackState → Prop}

theorem Discipline.goes_syncNodeState {id : String} {status : PlaybackStatus} {pos : ℚ} {volume : UInt8}
    {song : Option Nat} {gen : UInt64}
    (d : Discipline P stage I (.syncNodeState id status pos volume song gen)) :
    Goes P stage true true (CoreOp.task (.syncNodeState id status pos volume song gen)) := by
  refine (d.quiet_lockTransport (by simp) (by simp) _).bind_goes d fun projected => ?_
  refine d.goes_lockState_bind (fun _ _ => ⟨by simp, by simp⟩) rfl fun s _ => ?_
  cases hn : s.node id with
  | none =>
    refine .inl ⟨rfl, ?_⟩
    rintro _ ⟨⟩
    exact (quiet_pure ()).goes d
  | some node =>
    dsimp only
    cases hc : (applyReport status pos volume projected node).2 with
    | true =>
      refine .inr ⟨⟨_, .report id status pos volume song gen projected, rfl⟩, ?_⟩
      rintro _ ⟨⟩
      exact d.goes_broadcast
    | false =>
      refine .inl ⟨modifyNode_state_eq_self_iff.2 fun n hn' => ?_, ?_⟩
      · rw [hn] at hn'
        cases hn'
        exact applyReport_unchanged hc
      · rintro _ ⟨⟩
        exact (quiet_pure ()).goes d

theorem Discipline.goes_handleNodeDisconnected {id : String}
    (d : Discipline P stage I (.handleNodeDisconnected id)) :
    Goes P stage true true (CoreOp.task (.handleNodeDisconnected id)) := by
  refine Goes.settled d ?_
  refine (d.goes_lockState (fun _ _ => ⟨by simp, by simp⟩) rfl
    fun s _ => .inr ⟨_, .disconnect id, rfl⟩).bind fun fallback => ?_
  cases fallback with
  | none => exact d.goes_broadcast
  | some fb =>
    exact (d.goes_syncConnectedNode rfl
      (.disconnectStop id fb)).attempt.bind fun _ => d.goes_broadcast

theorem Discipline.goes_selectNode {id : String} (d : Discipline P stage I (.selectNode id)) :
    Goes P stage true true (CoreOp.task (.selectNode id)) := by
  refine d.goes_lockState_bind (fun _ _ => ⟨by simp, by simp⟩) rfl fun s _ => ?_
  cases hn : s.node id with
  | none =>
    refine .inl ⟨by simp [selectSection, hn], ?_⟩
    intro r hr
    simp [selectSection, hn] at hr
  | some node =>
    by_cases hsel : s.selectedNodeId = some id
    · refine .inl ⟨by simp [selectSection, hn, hsel], ?_⟩
      intro r hr
      simp only [selectSection, hn, hsel, if_true, Except.ok.injEq] at hr
      cases hr
      exact (quiet_pure ()).goes d
    · refine .inr ⟨⟨_, .select id, rfl⟩, ?_⟩
      intro r hr
      simp only [selectSection, hn, hsel, if_false, Except.ok.injEq] at hr
      cases hr
      exact (d.quiet_stopPrevious _).bind_goes d fun _ =>
        (d.quiet_syncOutputToGlobal id).bind_goes d fun _ =>
          (d.goes_resumeSelected rfl (fun status pos => .resume id status pos)
            fun pos => .resumePosition id pos).bind fun _ => d.goes_broadcast

theorem Discipline.goes_localSessionStart {name uuid : String} {deviceId : Option String}
    (d : Discipline P stage I (.localSessionStart name deviceId uuid)) :
    Goes P stage true true (CoreOp.task (.localSessionStart name deviceId uuid)) := by
  refine Goes.bind (c := true) ?_ fun _ => (quiet_pure ()).goes d
  refine Goes.settled d ?_
  refine (d.goes_lockState (fun _ _ => ⟨by simp, by simp⟩) rfl
    fun s _ => .inr ⟨_, .sessionStart name deviceId uuid, rfl⟩).bind fun r => ?_
  obtain ⟨nodeId, ids⟩ := r
  dsimp only
  split
  · exact (d.quiet_lockTransport (by simp) (by simp) _).bind_goes d fun _ =>
      (d.quiet_writeOutputs _).bind_goes d fun _ =>
        d.goes_broadcast.bind fun _ => (quiet_pure _).goes d
  · exact d.goes_broadcast.bind fun _ => (quiet_pure _).goes d

theorem Discipline.goes_handoff {fromId toId : String}
    (d : Discipline P stage I (.handoff fromId toId)) :
    Goes P stage true true (CoreOp.task (.handoff fromId toId)) := by
  refine (d.quiet_readState _).bind_goes d fun _ => ?_
  -- what is copied was read in a state with `I`
  refine d.goes_readState_bind fun s₀ hs₀ r hr => ?_
  split at hr
  · cases hr
  · rename_i node hnode
    cases hr
    refine Goes.settled d ?_
    refine (d.goes_writeState (by simp) rfl (.takeOver fromId toId s₀ node hs₀ hnode)).bind
      fun _ => (d.quiet_readState _).bind_goes d fun t => ?_
    split
    · exact (d.quiet_syncOutputToGlobal _).bind_goes d fun _ =>
        (d.quiet_eachOutput _).bind_goes d fun _ =>
          (d.quiet_playAt _ _).bind_goes d fun _ =>
            (d.goes_writeState (by simp) rfl (.handoffPlaying fromId toId)).bind fun _ =>
              d.goes_broadcast
    · exact d.goes_broadcast

theorem Discipline.goes_cleanupDisconnectedNodes {now maxAge : Int}
    (d : Discipline P stage I (.cleanupDisconnectedNodes now maxAge)) :
    Goes P stage true true (CoreOp.task (.cleanupDisconnectedNodes now maxAge)) := by
  refine d.goes_lockState_bind (fun _ _ => ⟨by simp, by simp⟩) rfl fun s _ => ?_
  by_cases hids : removedIds now maxAge s = []
  · refine .inl ⟨by simp [cleanupSection, hids], ?_⟩
    rintro ids ⟨⟩
    simpa [cleanupSection, hids] using (quiet_pure ()).goes d
  · refine .inr ⟨⟨_, .cleanup now maxAge, rfl⟩, ?_⟩
    rintro ids ⟨⟩
    simp only [cleanupSection, hids, if_false]
    exact (d.quiet_lockTransport (by simp) (by simp) _).bind_goes d fun _ =>
      (d.quiet_writeOutputs _).bind_goes d fun _ => d.goes_broadcast

theorem Discipline.goes_setVolume {volume : UInt8} (d : Discipline P stage I (.setVolume volume)) :
    Goes P stage true true (CoreOp.task (.setVolume volume)) := by
  refine Goes.settled d (d.quiet_activeNodeId.bind_goes d fun id => ?_)
  unfold setNodeVolume
  split
  · exact d.goes_throw _
  · exact d.goes_commandNode rfl (.setVolume id volume)

theorem Discipline.goes_clearQueue (d : Discipline P stage I .clearQueue) :
    Goes P stage true true (CoreOp.task .clearQueue) := by
  refine d.quiet_activeNodeId.attempt.bind_goes d fun r => ?_
  have hclear : Goes P stage true true (do
      lockSelected fun _ => .ok ((), fun node =>
        { node with queue := [], currentIndex := none, positionSecs := 0, status := .stopped })
      broadcast) := by
    refine ((d.goes_lockSelected rfl fun s id node a g _ _ hg => ?_).bind fun _ =>
      d.goes_broadcast).settled d
    cases hg
    exact ⟨_, .clear id, rfl⟩
  cases r with
  | error e => exact hclear
  | ok id =>
    exact (d.quiet_rebuildProjectionState _ _ _).bind_goes d fun _ =>
      (d.quiet_eachOutput _).bind_goes d fun _ => (d.quiet_send _ _).bind_goes d fun _ => hclear

theorem Discipline.goes_removeFromQueue {index : Nat}
    (d : Discipline P stage I (.removeFromQueue index)) :
    Goes P stage true true (CoreOp.task (.removeFromQueue index)) := by
  refine Goes.settled d ((d.goes_lockSelected rfl fun s id node a g hsel hnode hg => ?_).bind
    fun i => d.quiet_maybeActiveOutputs.bind_goes d fun o => ?_)
  · split at hg
    · cases hg
    · rename_i hlt
      cases hg
      exact ⟨_, .removeTrack index, by
        simp [PlaybackState.selectedNode, hsel, hnode, node_id hnode, not_le.1 hlt]⟩
  · cases o with
    | none => exact d.goes_broadcast
    | some o =>
      exact (d.quiet_send _ _).bind_goes d fun _ => (d.quiet_decrement _).bind_goes d fun _ =>
        d.goes_broadcast

theorem Discipline.goes_moveInQueue {src dst : Nat}
    (d : Discipline P stage I (.moveInQueue src dst)) :
    Goes P stage true true (CoreOp.task (.moveInQueue src dst)) := by
  refine Goes.settled d ((d.goes_lockSelected rfl fun s id node a g hsel hnode hg => ?_).bind
    fun i => d.quiet_maybeActiveOutputs.bind_goes d fun o => ?_)
  · split at hg
    · cases hg
    · rename_i hlt
      rw [not_or, not_le, not_le] at hlt
      cases hg
      exact ⟨_, .moveTrack src dst, by
        simp [PlaybackState.selectedNode, hsel, hnode, node_id hnode, hlt.1, hlt.2]⟩
  · cases o with
    | none => exact d.goes_broadcast
    | some o => exact (d.quiet_send _ _).bind_goes d fun _ => d.goes_broadcast

theorem Discipline.goes_setQueue {tracks : List Track} {startIndex : Option Nat}
    (d : Discipline P stage I (.setQueue tracks startIndex)) :
    Goes P stage true true (CoreOp.task (.setQueue tracks startIndex)) := by
  refine (d.quiet_readState _).bind_goes d fun id => ?_
  refine d.quiet_activeNodeId.attempt.bind_goes d fun r => ?_
  have hrest : Goes P stage true true (setQueueRest id r.toOption tracks startIndex) := by
    refine Goes.settled d ((d.goes_editLocked rfl fun s _ =>
      .inr ⟨_, .setQueue id r.toOption tracks startIndex, rfl⟩).bind fun _ => ?_)
    split
    · refine d.quiet_maybeActiveOutputs.bind_goes d fun o => ?_
      cases o with
      | none => exact d.goes_broadcast
      | some o => exact (d.quiet_send _ _).bind_goes d fun _ => d.goes_broadcast
    · exact d.goes_broadcast
  cases r with
  | error e => exact hrest
  | ok activeId =>
    exact (d.quiet_rebuildProjectionState _ _ _).bind_goes d fun _ =>
      (d.quiet_eachOutput _).bind_goes d fun _ => (d.quiet_send _ _).bind_goes d fun _ => hrest

/-- Every operation goes from settled to settled, or ends in an error and rests. -/
theorem CoreOp.follows {op : CoreOp} (d : Discipline P stage I op) : Goes P stage true true op.task := by
  cases op with
  | registerOutput id connectionId output =>
    show Goes P stage true true (Kanade.registerOutput id connectionId output)
    exact (d.quiet_writeOutputs _).goes d
  | unregisterOutput id connectionId =>
    show Goes P stage true true (Kanade.unregisterOutput id connectionId)
    exact (d.quiet_writeOutputs _).goes d
  | syncNodeState id status pos volume song gen => exact d.goes_syncNodeState
  | addNode node =>
    exact ((d.goes_writeMirror rfl (.addNode node)).bind fun _ => d.goes_broadcast).settled d
  | markNodeConnected id connected =>
    exact ((d.goes_writeState (by simp) rfl (.mark id connected)).bind
      fun _ => d.goes_broadcast).settled d
  | handleNodeDisconnected id => exact d.goes_handleNodeDisconnected
  | syncConnectedNode id => exact d.goes_syncConnectedNode rfl (.syncStop id)
  | removeNode id =>
    exact ((d.goes_writeState (by simp) rfl (.remove id)).bind fun _ =>
      (d.quiet_lockTransport (by simp) (by simp) _).bind_goes d fun _ =>
        (d.quiet_writeOutputs _).bind_goes d fun _ => d.goes_broadcast).settled d
  | localSessionStart name deviceId uuid => exact d.goes_localSessionStart
  | localSessionStop id => exact d.goes_localSession rfl (.sessionStop id)
  | localSessionDisconnect id now => exact d.goes_localSession rfl (.sessionDisconnect id now)
  | localSessionUpdate id u => exact d.goes_localSession rfl (.sessionUpdate id u)
  | handoff fromId toId => exact d.goes_handoff
  | cleanupDisconnectedNodes now maxAge => exact d.goes_cleanupDisconnectedNodes
  | selectNode id => exact d.goes_selectNode
  | play => exact d.goes_commandActive rfl .play
  | pause => exact d.goes_commandActive rfl .pause
  | stop => exact d.goes_commandActive rfl .stop
  | seek pos => exact d.goes_commandActive rfl fun id => .seek id pos
  | setVolume volume => exact d.goes_setVolume
  | next =>
    exact (d.goes_jump rfl .next .nextPlaying).settled d
  | previous =>
    exact (d.goes_jump rfl .previous .previousPlaying).settled d
  | playIndex index =>
    exact (d.goes_jump rfl (fun id => .playIndex id index)
      fun id => .playIndexPlaying id index).settled d
  | setShuffle shuffle =>
    refine ((d.goes_lockSelected rfl fun s id node a g _ _ hg => ?_).bind fun _ =>
      d.goes_broadcast).settled d
    cases hg
    exact ⟨_, .setShuffle id shuffle, rfl⟩
  | setRepeat mode =>
    refine ((d.goes_lockSelected rfl fun s id node a g _ _ hg => ?_).bind fun _ =>
      d.goes_broadcast).settled d
    cases hg
    exact ⟨_, .setRepeat id mode, rfl⟩
  | addToQueue track =>
    exact (d.goes_appendToQueue rfl fun id => .add id track).settled d
  | addTracksToQueue tracks =>
    show Goes P stage true true (if tracks.isEmpty then pure () else appendToQueue tracks)
    split
    · exact (quiet_pure ()).goes d
    · exact (d.goes_appendToQueue rfl
        fun id => .addTracks id tracks).settled d
  | clearQueue => exact d.goes_clearQueue
  | removeFromQueue index => exact d.goes_removeFromQueue
  | moveInQueue src dst => exact d.goes_moveInQueue
  | setQueue tracks startIndex => exact d.goes_setQueue

end Operations

/-! ## Without phases -/

/-- A property `I` and a relation `R` of playback states that an argument about sections may use:
on the states with `I`, `R` is a preorder that keeps `I` and allows the mirror to be
recomputed. -/
structure Stable (I : PlaybackState → Prop) (R : PlaybackState → PlaybackState → Prop) :
    Prop where
  refl : ∀ s, I s → R s s
  trans : ∀ s s' s'', R s s' → R s' s'' → R s s''
  keeps : ∀ s s', I s → R s s' → I s'
  sync : ∀ s, I s → R s s.syncTopLevelFromSelectedNode

theorem within_deliverAll {I : Core → Prop} {R : Core → Core → Prop} (call : Nat → CoreCall)
    (ks : List Nat) : Within I R (deliverAll call ks) := by
  induction ks with
  | nil => exact within_pure ()
  | cons k ks ih => exact (within_tell _).bind fun _ => ih

/-- The rewrites listed for an operation are all it does to the playback state: a stable relation
that holds of them holds across every section. -/
theorem CoreOp.within {I : PlaybackState → Prop} {R : PlaybackState → PlaybackState → Prop}
    (h : Stable I R) (op : CoreOp) (hw : ∀ f, op.Writes I f → ∀ s, I s → R s (f s)) :
    Within (fun w => I w.state) (fun w w' => R w.state w'.state) op.task := by
  have d : Discipline (Protocol.within (fun w => I w.state) fun w w' => R w.state w'.state)
      (fun _ _ => True) I op :=
    { weaken := fun _ => trivial
      reads := fun _ hr => hr
      quiet := fun {_ _ _ w w'} _ hr _ _ hs _ _ =>
        have hR : R w.state w'.state := by rw [hs]; exact h.refl w.state hr
        ⟨hR, trivial⟩
      write := fun _ hr hf _ _ => ⟨hw _ hf _ hr, trivial⟩
      output := fun _ => ⟨trivial, fun _ => trivial⟩
      broadcasts := fun _ =>
        Within.bind (within_sect fun w hw => h.sync w.state hw) fun _ =>
          Within.bind (within_sect fun w hw => h.refl w.state hw) fun _ =>
            (within_deliverAll _ _).bind fun _ => within_deliverAll _ _ }
  exact (CoreOp.follows d () trivial).mono fun _ _ _ => trivial

end Kanade

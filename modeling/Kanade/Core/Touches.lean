import Kanade.Core.Roster

/-!
# Kanade.Core.Touches

Which nodes the transport and queue operations write to, whatever sections of other operations
come between theirs.

The phase of an operation is the list of the nodes it has resolved: those it has found selected.
`CoreOp.touches`: every section of such an operation leaves the selection alone and writes to
resolved nodes only; those of the three jumps also reset the position of every node.
-/

namespace Kanade

open Concur Fallible

/-- The sixteen operations that act on the selected node. -/
def CoreOp.isQueueOp : CoreOp → Bool
  | .play | .pause | .stop | .next | .previous | .seek _ | .setVolume _ | .setRepeat _
  | .setShuffle _ | .addToQueue _ | .addTracksToQueue _ | .playIndex _ | .removeFromQueue _
  | .moveInQueue _ _ | .clearQueue | .setQueue _ _ => true
  | _ => false

/-- Those of them that reset positions. -/
def CoreOp.rewinds : CoreOp → Bool
  | .next | .previous | .playIndex _ => true
  | _ => false

/-- Every position reset. -/
def rewindAll (ns : List Node) : List Node := ns.map fun n => { n with positionSecs := 0 }

/-- Writes to nodes with an id in `ids`, and resets of all positions if `rewinds`. -/
inductive Touch (rewinds : Bool) (ids : List String) : List Node → List Node → Prop where
  | refl (ns : List Node) : Touch rewinds ids ns ns
  | write {id : String} {f : Node → Node} (hid : id ∈ ids) (hf : ∀ n, (f n).badge = n.badge)
      (ns : List Node) : Touch rewinds ids ns (modifyNode id f ns)
  | rewind (h : rewinds = true) (ns : List Node) : Touch rewinds ids ns (rewindAll ns)
  | trans {ns ns' ns'' : List Node} (h : Touch rewinds ids ns ns')
      (h' : Touch rewinds ids ns' ns'') : Touch rewinds ids ns ns''

theorem Touch.mono {rewinds : Bool} {ids ids' : List String} {ns ns' : List Node}
    (h : Touch rewinds ids ns ns') (hsub : ∀ id ∈ ids, id ∈ ids') : Touch rewinds ids' ns ns' := by
  induction h with
  | refl ns => exact .refl ns
  | write hid hf ns => exact .write (hsub _ hid) hf ns
  | rewind hr ns => exact .rewind hr ns
  | trans _ _ ih ih' => exact .trans ih ih'

/-- The nodes an operation may write to in a section: those it has resolved and the one it finds
selected. -/
def inReach (resolved : List String) (s : PlaybackState) : List String :=
  s.selectedNodeId.toList ++ resolved

/-- The section writes to nodes. -/
def Sect.writesNodes : Sect → Bool
  | .writeState | .edit _ => true
  | _ => false

/-- It is the section of an edit. -/
def Sect.isEdit : Sect → Bool
  | .edit _ => true
  | _ => false

/-- Those it may write to in a section with this label. -/
def mayTouch (resolved : List String) (l : Sect) (s : PlaybackState) : List String :=
  if l.writesNodes then inReach resolved s else []

theorem mayTouch_subset {resolved : List String} {l : Sect} {s : PlaybackState} {id : String}
    (hid : id ∈ mayTouch resolved l s) : id ∈ inReach resolved s := by
  unfold mayTouch at hid
  split at hid
  · exact hid
  · cases hid

/-- What a section of a queue operation does to the playback state. -/
structure Touches (rewinds : Bool) (ids : List String) (s s' : PlaybackState) : Prop where
  nodes : Touch rewinds ids s.nodes s'.nodes
  selection : s'.selectedNodeId = s.selectedNodeId

theorem Touches.refl (rewinds : Bool) (ids : List String) (s : PlaybackState) :
    Touches rewinds ids s s := ⟨.refl _, rfl⟩

/-- The phase is the list of the nodes resolved so far; a section that reads the state resolves
the node it finds selected. -/
def touchProtocol (rewinds : Bool) :
    Protocol Core Sect CoreCall (Except CoreError Unit) (List String) where
  onSect p lab w _ := if lab = .readState then inReach p w.state else p
  onCall p _ _ := p
  rely _ _ _ := True
  sectOk p l w w' := Touches (rewinds && l.isEdit) (mayTouch p l w.state) w.state w'.state
  callOk _ _ := True

section Pieces

variable {α β : Type} {rewinds : Bool} {A : List String}

/-- At least the nodes of `A` are resolved. -/
def Resolved (A p : List String) : Prop := ∀ id ∈ A, id ∈ p

theorem Resolved.onSect {p : List String} (h : Resolved A p) (lab : Sect) (w w' : Core) :
    Resolved A ((touchProtocol rewinds).onSect p lab w w') := fun id hid => by
  show id ∈ if lab = .readState then inReach p w.state else p
  split
  · exact List.mem_append_right _ (h id hid)
  · exact h id hid

/-- The task touches only what it may, once `A` is resolved. -/
abbrev Confined (rewinds : Bool) (A : List String) (t : Op α) : Prop :=
  Keeps (touchProtocol rewinds) (Resolved A) (fun _ => True) t

theorem Confined.and_then {t : Op α} {f : α → Op β} (ht : Confined rewinds A t)
    (hf : ∀ a, Confined rewinds A (f a)) : Confined rewinds A (t >>= f) :=
  Keeps.bind ht fun a _ => hf a

theorem mayTouch_mono {p : List String} (hp : Resolved A p) {l : Sect} {s : PlaybackState} :
    ∀ id ∈ mayTouch A l s, id ∈ mayTouch p l s := by
  intro id hid
  unfold mayTouch at hid ⊢
  split at hid
  · rename_i hl
    rw [if_pos hl]
    obtain hid | hid := List.mem_append.1 hid
    · exact List.mem_append_left _ hid
    · exact List.mem_append_right _ (hp id hid)
  · cases hid

theorem confined_sect {lab : Core → Except CoreError α → Sect}
    {f : Core → Except CoreError α × Core}
    (h : ∀ w, Touches (rewinds && (lab w (f w).1).isEdit) (mayTouch A (lab w (f w).1) w.state)
      w.state (f w).2.state) : Confined rewinds A (sect lab f : Op α) :=
  fun _ hp => follows_sect.2 fun w _ =>
    ⟨⟨(h w).nodes.mono (mayTouch_mono hp), (h w).selection⟩, hp.onSect _ _ _, fun _ _ => trivial⟩

theorem confined_pure (a : α) : Confined rewinds A (pure a : Op α) := keeps_pure trivial

theorem confined_throw (e : CoreError) : Confined rewinds A (throw e : Op α) :=
  fun _ hp => ⟨hp, fun _ _ => trivial⟩

theorem confined_broadcast : Confined rewinds A broadcast :=
  keeps_broadcast
    (fun p w hp _ => ⟨⟨by rw [syncTopLevel_nodes]; exact .refl _, syncTopLevel_selectedNodeId⟩,
      hp.onSect _ _ _⟩)
    (fun p w hp _ => ⟨.refl _ _ _, hp.onSect _ _ _⟩)
    (fun _ _ _ hp => ⟨trivial, fun _ => hp⟩) fun _ _ _ hp => ⟨trivial, fun _ => hp⟩

/-- The pieces that only look. -/
theorem touchDiscipline (rewinds : Bool) (A : List String) :
    Discipline (touchProtocol rewinds) (fun _ p => Resolved A p) (fun _ => True)
      (.registerOutput "" "" 0) where
  weaken hp := hp
  reads _ _ := trivial
  quiet hp _ _ _ hs _ _ :=
    ⟨⟨by rw [hs]; exact .refl _, congrArg PlaybackState.selectedNodeId hs⟩, hp.onSect _ _ _⟩
  write _ _ hf := nomatch hf
  output hp := ⟨trivial, fun _ => hp⟩
  broadcasts hp := (confined_broadcast _ hp).mono fun _ _ h => h.1

theorem confined_of_quiet {t : Op α}
    (h : Discipline.Quiet (touchProtocol rewinds) (fun _ p => Resolved A p) t) :
    Confined rewinds A t := fun p hp =>
  (h true p hp).mono fun _ _ hp' => ⟨hp', fun _ _ => trivial⟩

/-- A section that reads the state resolves the node it finds selected. -/
theorem Resolved.resolve {p : List String} (h : Resolved A p) {w : Core} {id : String}
    (hid : w.state.selectedNodeId = some id) (w' : Core) :
    Resolved (id :: A) ((touchProtocol rewinds).onSect p .readState w w') := by
  intro id' hid'
  show id' ∈ inReach p w.state
  obtain rfl | hid' := List.mem_cons.1 hid'
  · exact List.mem_append_left _ (by simp [hid])
  · exact List.mem_append_right _ (h id' hid')

/-- What is safe when more is resolved ends with what was resolved before. -/
theorem Confined.follows {B : List String} {t : Op α} (ht : Confined rewinds B t) (hAB : ∀ id ∈ A, id ∈ B)
    {p : List String} (hp : Resolved B p) :
    Follows (touchProtocol rewinds) (fun p' r => Resolved A p' ∧ ∀ a, r = .ok a → True) p t :=
  (ht p hp).mono fun _ _ h => ⟨fun id hid => h.1 id (hAB id hid), fun _ _ => trivial⟩

theorem confined_resolve {g : PlaybackState → Except CoreError String} {f : String → Op β}
    (hg : ∀ s id, g s = .ok id → s.selectedNodeId = some id)
    (hf : ∀ id, Confined rewinds (id :: A) (f id)) : Confined rewinds A (readState g >>= f) := by
  intro p hp
  refine (follows_bind _ _).2 (follows_sect.2 fun w _ => ⟨.refl _ _ _, ?_⟩)
  dsimp only
  cases hid : g w.state with
  | error e => exact ⟨hp.onSect _ _ _, fun _ h => nomatch h⟩
  | ok id => exact (hf id).follows (fun _ h => List.mem_cons_of_mem _ h) (hp.resolve (hg _ _ hid) _)

theorem confined_activeNodeId_bind {f : String → Op β} (hf : ∀ id, Confined rewinds (id :: A) (f id)) :
    Confined rewinds A (activeNodeId >>= f) :=
  confined_resolve (fun _ _ h => (activeId_eq_ok h).1) hf

theorem confined_activeNodeId_attempt {f : Except CoreError String → Op β}
    (hok : ∀ id, Confined rewinds (id :: A) (f (.ok id)))
    (herr : ∀ e, Confined rewinds A (f (.error e))) : Confined rewinds A (activeNodeId.attempt >>= f) := by
  intro p hp
  refine (follows_bind _ _).2 ((follows_attempt _).2 (follows_sect.2 fun w _ => ⟨.refl _ _ _, ?_⟩))
  dsimp only
  cases hid : w.state.activeId with
  | error e => exact herr e _ (hp.onSect _ _ _)
  | ok id =>
    exact (hok id).follows (fun _ h => List.mem_cons_of_mem _ h)
      (hp.resolve (activeId_eq_ok hid).1 _)

/-! ## The sections that write -/

theorem mem_mayTouch {id : String} {l : Sect} {s : PlaybackState} (hl : l.writesNodes = true)
    (hid : id ∈ A) : id ∈ mayTouch A l s := by
  rw [mayTouch, if_pos hl]
  exact List.mem_append_right _ hid

theorem touch_of_mem {id : String} {f : Node → Node} {l : Sect} {s : PlaybackState}
    (hl : l.writesNodes = true) (hid : id ∈ A) (hf : ∀ n, (f n).badge = n.badge) :
    Touches rewinds (mayTouch A l s) s (s.modifyNode id f) :=
  ⟨.write (mem_mayTouch hl hid) hf _, rfl⟩

theorem confined_writeNode {id : String} {f : Node → Node} (hid : id ∈ A)
    (hf : ∀ n, (f n).badge = n.badge) :
    Confined rewinds A (writeState .writeState (·.modifyNode id f)) :=
  confined_sect fun _ => touch_of_mem rfl hid hf

theorem confined_commandNode {id : String} {cmd : OutputCmd} {f : Node → Node} (hid : id ∈ A)
    (hf : ∀ n, (f n).badge = n.badge) : Confined rewinds A (commandNode id cmd f) :=
  (confined_of_quiet ((touchDiscipline rewinds A).quiet_eachOutput id)).and_then fun _ =>
    (confined_of_quiet ((touchDiscipline rewinds A).quiet_send _ _)).and_then fun _ =>
      (confined_writeNode hid hf).and_then fun _ => confined_broadcast

theorem confined_lockSelected {f : Node → Except CoreError (α × (Node → Node))}
    (hf : ∀ n a g, f n = .ok (a, g) → ∀ m, (g m).badge = m.badge) :
    Confined rewinds A (lockSelected f) := by
  refine confined_sect fun w => ?_
  cases hsel : w.state.selectedNode with
  | none =>
    simp only [hsel]
    exact .refl _ _ _
  | some node =>
    obtain ⟨id, hid, hnode⟩ := Option.bind_eq_some_iff.1 hsel
    simp only [hsel, hid]
    cases hfn : f node with
    | error e => exact .refl _ _ _
    | ok ag =>
      refine ⟨.write ?_ (hf node _ _ hfn) _, rfl⟩
      show node.id ∈ w.state.selectedNodeId.toList ++ A
      rw [hid, node_id hnode]
      exact List.mem_append_left _ (List.mem_singleton_self _)

/-- What a jump does after its section: the list and the start of playback. -/
theorem confined_reload {id : String} (hid : id ∈ A) (paths : List String) (start : Option Nat)
    (len : Nat) :
    Confined rewinds A (do
      let projectionGeneration ← rebuildProjectionState id start len
      let o ← activeOutputs
      o.send (.setQueue paths projectionGeneration)
      let o ← activeOutputs
      o.send .play
      writeState .writeState fun s => s.modifyNode id fun node => { node with status := .playing }
      broadcast) := by
  have d := touchDiscipline rewinds A
  exact (confined_of_quiet (d.quiet_rebuildProjectionState _ _ _)).and_then fun _ =>
    (confined_of_quiet d.quiet_activeOutputs).and_then fun _ =>
      (confined_of_quiet (d.quiet_send _ _)).and_then fun _ =>
        (confined_of_quiet d.quiet_activeOutputs).and_then fun _ =>
          (confined_of_quiet (d.quiet_send _ _)).and_then fun _ =>
            (confined_writeNode hid fun _ => by rfl).and_then fun _ => confined_broadcast

theorem confined_jump {target : Node → Except CoreError Nat} (h : rewinds = true) :
    Confined rewinds A (jump target) := by
  refine confined_activeNodeId_bind fun id => ?_
  have hsection : Confined rewinds (id :: A)
      (lockState (fun _ => editLabel id) (jumpSection id target)) := by
    refine confined_sect fun w => ⟨?_, (sameShape_jumpSection id target).2⟩
    cases hn : w.state.node id with
    | none =>
      rw [jumpSection, hn]
      exact .refl _
    | some node =>
      rw [jumpSection_eq hn]
      cases target node with
      | error e => exact .refl _
      | ok i =>
        exact (Touch.write (f := fun node => { node with currentIndex := some i })
          (mem_mayTouch rfl List.mem_cons_self) (fun _ => rfl) _).trans (.rewind (by rw [h]; rfl) _)
  exact hsection.and_then fun _ => confined_reload List.mem_cons_self _ _ _

/-- A resolved node edited if it is there. -/
theorem confined_editNode {id : String} {f : Node → Node} (hid : id ∈ A)
    (hf : ∀ n, (f n).badge = n.badge) :
    Confined rewinds A (lockState (fun _ => editLabel id) fun s =>
      match s.node id with
      | none => (.error .nodeNotFound, s)
      | some _ => (.ok (), s.modifyNode id f)) := by
  refine confined_sect fun w => ?_
  dsimp only
  split
  · exact .refl _ _ _
  · exact touch_of_mem rfl hid hf

theorem confined_appendToQueue (tracks : List Track) : Confined rewinds A (appendToQueue tracks) := by
  refine confined_resolve (fun _ _ => selected_of_asked) fun id => ?_
  have d := touchDiscipline rewinds (id :: A)
  refine (confined_editNode (f := fun node => { node with queue := node.queue ++ tracks })
    List.mem_cons_self fun _ => rfl).and_then fun _ => (confined_of_quiet d.quiet_maybeActiveOutputs).and_then fun o => ?_
  cases o with
  | none => exact confined_broadcast
  | some o =>
    exact (confined_of_quiet (d.quiet_send _ _)).and_then fun _ =>
      (confined_of_quiet (d.quiet_extend _)).and_then fun _ => confined_broadcast

theorem confined_clearQueue : Confined rewinds A clearQueue := by
  have hclear : ∀ B, Confined rewinds B (do
      lockSelected fun _ => .ok ((), fun node =>
        { node with queue := [], currentIndex := none, positionSecs := 0, status := .stopped })
      broadcast) := fun B =>
    (confined_lockSelected fun n a g hg m => by cases hg; rfl).and_then fun _ => confined_broadcast
  refine confined_activeNodeId_attempt (fun id => ?_) fun e => hclear A
  have d := touchDiscipline rewinds (id :: A)
  exact (confined_of_quiet (d.quiet_rebuildProjectionState _ _ _)).and_then fun _ =>
    (confined_of_quiet (d.quiet_eachOutput _)).and_then fun _ =>
      (confined_of_quiet (d.quiet_send _ _)).and_then fun _ => hclear _

theorem confined_removeFromQueue (index : Nat) : Confined rewinds A (removeFromQueue index) := by
  have d := touchDiscipline rewinds A
  refine (confined_lockSelected fun n a g hg m => ?_).and_then fun _ =>
    (confined_of_quiet d.quiet_maybeActiveOutputs).and_then fun o => ?_
  · split at hg
    · cases hg
    · cases hg
      exact (frame_removeTrack index m).1
  · cases o with
    | none => exact confined_broadcast
    | some o =>
      exact (confined_of_quiet (d.quiet_send _ _)).and_then fun _ =>
        (confined_of_quiet (d.quiet_decrement _)).and_then fun _ => confined_broadcast

theorem confined_moveInQueue (src dst : Nat) : Confined rewinds A (moveInQueue src dst) := by
  have d := touchDiscipline rewinds A
  refine (confined_lockSelected fun n a g hg m => ?_).and_then fun _ =>
    (confined_of_quiet d.quiet_maybeActiveOutputs).and_then fun o => ?_
  · split at hg
    · cases hg
    · cases hg
      rfl
  · cases o with
    | none => exact confined_broadcast
    | some o => exact (confined_of_quiet (d.quiet_send _ _)).and_then fun _ => confined_broadcast

/-- Replacing a queue edits the selected node and starts the active one. -/
theorem confined_setQueueRest {id : String} {activeId : Option String} (tracks : List Track)
    (startIndex : Option Nat) (hid : id ∈ A) (hactive : ∀ active ∈ activeId, active ∈ A) :
    Confined rewinds A (setQueueRest id activeId tracks startIndex) := by
  have d := touchDiscipline rewinds A
  have hsection : Confined rewinds A
      (lockState (fun _ => editLabel id) (setQueueSection id activeId tracks startIndex)) := by
    refine confined_sect fun w => ⟨?_, (sameShape_setQueueSection id _ tracks startIndex).2⟩
    dsimp only
    unfold setQueueSection
    split
    · exact .refl _
    · dsimp only
      have hnew : ∀ l : Sect, l.writesNodes = true →
          Touch (rewinds && l.isEdit) (mayTouch A l w.state) w.state.nodes
            (modifyNode id (fun node => { node with queue := tracks, currentIndex := startIndex,
                                                    positionSecs := 0, status := .stopped })
              w.state.nodes) :=
        fun l hl => .write (mem_mayTouch hl hid) (fun _ => by rfl) _
      split
      · rename_i active
        exact (hnew (.edit id) rfl).trans (.write (f := fun node => { node with status := .playing })
          (mem_mayTouch rfl (hactive active rfl)) (fun _ => rfl) _)
      · exact hnew (.edit id) rfl
  refine hsection.and_then fun _ => ?_
  split
  · refine (confined_of_quiet d.quiet_maybeActiveOutputs).and_then fun o => ?_
    cases o with
    | none => exact confined_broadcast
    | some o => exact (confined_of_quiet (d.quiet_send _ _)).and_then fun _ => confined_broadcast
  · exact confined_broadcast

theorem confined_setQueue (tracks : List Track) (startIndex : Option Nat) :
    Confined rewinds A (setQueue tracks startIndex) := by
  refine confined_resolve (fun _ _ => selected_of_asked) fun id => ?_
  refine confined_activeNodeId_attempt (fun active => ?_) fun e => ?_
  · have d := touchDiscipline rewinds (active :: id :: A)
    exact (confined_of_quiet (d.quiet_rebuildProjectionState _ _ _)).and_then fun _ =>
      (confined_of_quiet (d.quiet_eachOutput _)).and_then fun _ =>
        (confined_of_quiet (d.quiet_send _ _)).and_then fun _ =>
          confined_setQueueRest tracks startIndex (by simp) fun a ha => by simp_all [Except.toOption]
  · exact confined_setQueueRest tracks startIndex (by simp) fun a ha => by simp [Except.toOption] at ha

end Pieces

/-- A queue operation touches resolved nodes only, and rewinds only if it is a jump. -/
theorem CoreOp.touches {op : CoreOp} (h : op.isQueueOp = true) (p : List String) :
    Follows (touchProtocol op.rewinds) (fun _ _ => True) p op.task := by
  have hconfined : Confined op.rewinds [] op.task := by
    cases op with
    | play => exact confined_activeNodeId_bind fun id => confined_commandNode List.mem_cons_self fun n => (frame_play n).1
    | pause | stop | seek =>
      exact confined_activeNodeId_bind fun id => confined_commandNode List.mem_cons_self fun _ => rfl
    | setVolume volume =>
      refine confined_activeNodeId_bind fun id => ?_
      unfold setNodeVolume
      split
      · exact confined_throw _
      · exact confined_commandNode List.mem_cons_self fun _ => rfl
    | next | previous | playIndex => exact confined_jump rfl
    | setShuffle | setRepeat =>
      exact (confined_lockSelected fun n a g hg m => by cases hg; rfl).and_then fun _ => confined_broadcast
    | addToQueue track => exact confined_appendToQueue [track]
    | addTracksToQueue tracks =>
      show Confined _ _ (if tracks.isEmpty then pure () else appendToQueue tracks)
      split
      · exact confined_pure ()
      · exact confined_appendToQueue tracks
    | clearQueue => exact confined_clearQueue
    | removeFromQueue index => exact confined_removeFromQueue index
    | moveInQueue src dst => exact confined_moveInQueue src dst
    | setQueue tracks startIndex => exact confined_setQueue tracks startIndex
    | _ => cases h
  exact (hconfined p fun _ hid => nomatch hid).mono fun _ _ _ => trivial

end Kanade

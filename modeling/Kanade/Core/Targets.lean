import Kanade.Core.Runs

/-!
# Kanade.Core.Targets

Where the commands of the queue operations go, over every interleaving.

`next`, `previous`, `play_index`, `add_to_queue`, `add_tracks_to_queue`, `remove_from_queue` and
`move_in_queue` edit a node in one section and resolve the active node again for each command and
for the projection length. `Kept` says that such a look-up has come back to the edited node, or
finds nothing there; `on_target_of_kept`: then commands and lengths are those of the edited node.
-/

namespace Kanade

open Concur Fallible

/-- The operations that edit a node and look the active node up again afterwards. -/
def CoreOp.looksAgain : CoreOp → Bool
  | .next | .previous | .playIndex _ | .addToQueue _ | .addTracksToQueue _ | .removeFromQueue _
  | .moveInQueue _ _ => true
  | _ => false

/-- The commands that change or start an output's list. -/
def OutputCmd.followsQueue : OutputCmd → Bool
  | .setQueue _ _ | .add _ | .remove _ | .moveTrack _ _ | .play => true
  | .pause | .stop | .seek _ | .setVolume _ => false

/-- Queue and index of a node. -/
def PlaybackState.contents (s : PlaybackState) (id : String) : Option (List Track × Option Nat) :=
  (s.node id).map fun n => (n.queue, n.currentIndex)

section Contents

variable {s : PlaybackState} {id id' : String} {f : Node → Node}

theorem contents_modifyNode_of_ne (hid : ∀ n, (f n).id = n.id) (h : id' ≠ id) :
    (s.modifyNode id f).contents id' = s.contents id' := by
  rw [PlaybackState.contents, node_modifyNode_of_ne hid h, PlaybackState.contents]

theorem contents_modifyNode (hid : ∀ n, (f n).id = n.id)
    (hf : ∀ n, (f n).queue = n.queue ∧ (f n).currentIndex = n.currentIndex) :
    (s.modifyNode id f).contents id' = s.contents id' := by
  by_cases h : id' = id
  · rw [h, PlaybackState.contents, node_modifyNode_self hid, Option.map_map,
      PlaybackState.contents]
    exact congrArg (Option.map · _) (funext fun n => Prod.ext (hf n).1 (hf n).2)
  · exact contents_modifyNode_of_ne hid h

theorem contents_modifyNodes (hid : ∀ n, (f n).id = n.id)
    (hf : ∀ n, (f n).queue = n.queue ∧ (f n).currentIndex = n.currentIndex) :
    (s.modifyNodes f).contents id' = s.contents id' := by
  rw [PlaybackState.contents, node_modifyNodes hid, Option.map_map, PlaybackState.contents]
  exact congrArg (Option.map · _) (funext fun n => Prod.ext (hf n).1 (hf n).2)

@[simp] theorem contents_syncTopLevel :
    s.syncTopLevelFromSelectedNode.contents id = s.contents id := by
  rw [PlaybackState.contents, node_syncTopLevel, PlaybackState.contents]

theorem contents_moveTo_of_ne {i : Nat} (h : id' ≠ id) :
    (moveTo id i s).contents id' = s.contents id' := by
  unfold moveTo
  rw [contents_modifyNodes (fun _ => by rfl) fun _ => ⟨by rfl, by rfl⟩,
    contents_modifyNode_of_ne (fun _ => by rfl) h]

end Contents

/-! ## The protocol -/

/-- The node a task has edited, and the active node it has found last. -/
structure Progress where
  edited : Option String := none
  looked : Option String := none
deriving DecidableEq, Repr

def Progress.after (q : Progress) (lab : Sect) (w : Core) : Progress :=
  match lab with
  | .readState => { q with looked := w.state.activeId.toOption }
  | .edit n => { q with edited := some n }
  | _ => q

/-- What a section looks for under node `id` is not there. -/
def missing (lab : Sect) (w : Core) (id : String) : Bool :=
  match lab with
  | .readOutputs => (w.outputs id).isNone
  | .adjust _ => (w.transportState id).isNone
  | _ => true

/-- The active node found last is the edited one, or what is looked for there is missing. -/
def Progress.Kept (q : Progress) (lab : Sect) (w : Core) : Prop :=
  ∀ n ∈ q.edited, ∀ m ∈ q.looked, m = n ∨ missing lab w m = true

instance (q : Progress) (lab : Sect) (w : Core) : Decidable (q.Kept lab w) :=
  inferInstanceAs (Decidable (∀ n ∈ q.edited, ∀ m ∈ q.looked, m = n ∨ missing lab w m = true))

/-- A section changes queue and index of no node but the one it is said to edit, and the projection
of no node but the one that was edited before. -/
def Progress.SectOk (q : Progress) (lab : Sect) (w w' : Core) : Prop :=
  (∀ m, lab ≠ .edit m → w'.state.contents m = w.state.contents m) ∧
    ∀ m, q.edited ≠ some m → w'.transportState m = w.transportState m

/-- The commands in question go to the edited node. -/
def Progress.CallOk (q : Progress) : CoreCall → Prop
  | .output m _ cmd => cmd.followsQueue = true → q.edited = some m
  | .onStateChanged _ _ | .persist _ _ => True

/-- `none` is the phase of tasks of which nothing is asked. -/
def targetProtocol :
    Protocol Core Sect CoreCall (Except CoreError Unit) (Option Progress) where
  onSect p lab w _ := p.map (·.after lab w)
  onCall p _ _ := p
  rely p lab w := ∀ q ∈ p, q.Kept lab w
  sectOk p lab w w' := ∀ q ∈ p, q.SectOk lab w w'
  callOk p call := ∀ q ∈ p, q.CallOk call

@[simp] theorem targetProtocol_onSect (p : Option Progress) (lab : Sect) (w w' : Core) :
    targetProtocol.onSect p lab w w' = p.map (·.after lab w) := rfl

theorem follows_none {α : Type} (t : Task Core Sect CoreCall (Except CoreError Unit) α) :
    t.Follows targetProtocol (fun _ _ => True) none := by
  induction t with
  | done a => trivial
  | sect lab upd next ih => exact fun w _ => ⟨fun _ h => (nomatch h), ih w⟩
  | call e next ih => exact ⟨fun _ h => (nomatch h), ih⟩

section Follows

variable {α β : Type} {n : String} {p : Option Progress}

/-- Before the edit. -/
def Looking (p : Option Progress) : Prop := ∃ q, p = some q ∧ q.edited = none

/-- After it. -/
def Editing (n : String) (p : Option Progress) : Prop := ∃ q, p = some q ∧ q.edited = some n

/-- After the edit of `n`, the task keeps to the protocol. -/
abbrev Safe (n : String) (t : Op α) : Prop :=
  Keeps targetProtocol (Editing n) (fun _ => True) t

/-- So it does, and its result has `R`. -/
abbrev Stays (n : String) (R : α → Prop) (t : Op α) : Prop :=
  Keeps targetProtocol (Editing n) R t

theorem edited_after {q : Progress} {lab : Sect} (hlab : ∀ m, lab ≠ .edit m) (w : Core) :
    (q.after lab w).edited = q.edited := by
  cases lab <;> first | rfl | exact absurd rfl (hlab _)

/-- A section of `state` that leaves all queues and indices alone. -/
theorem stays_lockState {lab : PlaybackState → Except CoreError α → Sect}
    {f : PlaybackState → Except CoreError α × PlaybackState} (hlab : ∀ s r m, lab s r ≠ .edit m)
    (hf : ∀ s m, (f s).2.contents m = s.contents m) :
    Safe n (lockState lab f) := by
  rintro p ⟨q, rfl, hq⟩
  refine follows_sect.2 fun w _ => ⟨?_, ⟨_, rfl, ?_⟩, fun _ _ => trivial⟩
  · rintro _ ⟨⟩
    exact ⟨fun m _ => hf w.state m, fun _ _ => rfl⟩
  · rw [edited_after (hlab _ _), hq]

/-- A section of `transport_state` that leaves the projections of the other nodes alone. -/
theorem stays_lockTransport {lab : Sect}
    {f : (String → Option NodeTransportState) → α × (String → Option NodeTransportState)}
    (hlab : ∀ m, lab ≠ .edit m) (hf : ∀ m id, id ≠ n → (f m).2 id = m id) :
    Safe n (lockTransport lab f) := by
  rintro p ⟨q, rfl, hq⟩
  refine follows_sect.2 fun w _ => ⟨?_, ⟨_, rfl, ?_⟩, fun _ _ => trivial⟩
  · rintro _ ⟨⟩
    refine ⟨fun _ _ => rfl, fun m hm => hf w.transportState m ?_⟩
    rintro rfl
    exact hm hq
  · rw [edited_after hlab, hq]

theorem stays_send {o : OutputHandle} (ho : o.node = n) (cmd : OutputCmd) :
    Safe n (o.send cmd) := by
  rintro p ⟨q, rfl, hq⟩
  refine follows_call.2 ⟨?_, fun r => ⟨⟨q, rfl, hq⟩, fun _ _ => trivial⟩⟩
  rintro _ ⟨⟩ _
  rw [hq, ho]

theorem follows_activeNodeId (hp : Editing n p) :
    Follows targetProtocol
      (fun p' r => ∃ q, p' = some q ∧ q.edited = some n ∧ q.looked = r.toOption) p
      activeNodeId := by
  obtain ⟨q, rfl, hq⟩ := hp
  refine follows_sect.2 fun w _ => ⟨?_, ⟨_, rfl, hq, rfl⟩⟩
  rintro _ ⟨⟩
  exact ⟨fun _ _ => rfl, fun _ _ => rfl⟩

/-- The outputs of the active node are looked up again: those of the edited node, or none. -/
theorem stays_activeOutputs : Stays n (fun o => o.node = n) activeOutputs := fun p hp => by
  refine (follows_bind _ _).2 ((follows_activeNodeId hp).mono ?_)
  rintro p' (e | id) ⟨q, rfl, hq, hlooked⟩
  · exact ⟨⟨q, rfl, hq⟩, fun _ h => by cases h⟩
  · refine follows_sect.2 fun w hkept => ⟨?_, ⟨q, rfl, hq⟩, ?_⟩
    · rintro _ ⟨⟩
      cases w.outputs id <;> exact ⟨fun _ _ => rfl, fun _ _ => rfl⟩
    · have hor := hkept q rfl n hq id hlooked
      cases hout : w.outputs id with
      | none => intro o h; cases h
      | some slot =>
        rintro _ ⟨⟩
        exact hor.resolve_right (by simp [missing, hout])

theorem stays_maybeActiveOutputs :
    Stays n (fun r => ∀ o ∈ r, o.node = n) maybeActiveOutputs :=
  keeps_maybeActiveOutputs stays_activeOutputs

/-- The projection that is patched is that of the edited node, or there is none. -/
theorem stays_adjustProjectionActive (f : NodeTransportState → NodeTransportState) :
    Safe n (adjustProjectionActive f) := fun p hp => by
  refine (follows_bind _ _).2 ((follows_attempt _).2 ((follows_activeNodeId hp).mono ?_))
  rintro p' (e | id) ⟨q, rfl, hq, hlooked⟩
  · exact ⟨⟨q, rfl, hq⟩, fun _ _ => trivial⟩
  · refine follows_sect.2 fun w hkept => ⟨?_, ⟨q, rfl, hq⟩, fun _ _ => trivial⟩
    have hor := hkept q rfl n hq id hlooked
    rintro _ ⟨⟩
    refine ⟨fun _ _ => rfl, fun m hm => ?_⟩
    have hne : m ≠ n := fun h => hm (by rw [hq, h])
    by_cases hid : m = id
    · have hnone := hor.resolve_left (hid ▸ hne)
      simp only [missing, Option.isNone_iff_eq_none] at hnone
      subst hid
      simp [hnone]
    · simp [hid]

theorem stays_extend (k : Nat) :
    Safe n (extendProjectionLoadedLenActive k) := by
  unfold extendProjectionLoadedLenActive
  split
  · exact fun p hp => ⟨hp, fun _ _ => trivial⟩
  · exact stays_adjustProjectionActive _

theorem stays_decrement (k : Nat) :
    Safe n (decrementProjectionLoadedLenActive k) := by
  unfold decrementProjectionLoadedLenActive
  split
  · exact fun p hp => ⟨hp, fun _ _ => trivial⟩
  · exact stays_adjustProjectionActive _

theorem safe_broadcast : Safe n broadcast := by
  refine keeps_broadcast ?_ ?_ ?_ ?_
  · rintro p w ⟨q, rfl, hq⟩ -
    refine ⟨?_, q, rfl, hq⟩
    rintro _ ⟨⟩
    exact ⟨fun _ _ => contents_syncTopLevel, fun _ _ => rfl⟩
  · rintro p w ⟨q, rfl, hq⟩ -
    refine ⟨?_, q, rfl, hq⟩
    rintro _ ⟨⟩
    exact ⟨fun _ _ => rfl, fun _ _ => rfl⟩
  · exact fun _ _ _ hp => ⟨fun _ _ => trivial, fun _ => hp⟩
  · exact fun _ _ _ hp => ⟨fun _ _ => trivial, fun _ => hp⟩

/-! ## The edit -/

theorem follows_look {f : PlaybackState → Except CoreError α} {k : α → Op β} (hp : Looking p)
    (hk : ∀ a p', Looking p' → Follows targetProtocol (fun _ _ => True) p' (k a)) :
    Follows targetProtocol (fun _ _ => True) p (readState f >>= k) := by
  obtain ⟨q, rfl, hq⟩ := hp
  refine (follows_bind _ _).2 (follows_sect.2 fun w _ => ⟨?_, ?_⟩)
  · rintro _ ⟨⟩
    exact ⟨fun _ _ => rfl, fun _ _ => rfl⟩
  · dsimp only
    cases f w.state with
    | error e => trivial
    | ok a => exact hk a _ ⟨_, rfl, hq⟩

/-- The section that edits: what comes after it is about the node it has edited. -/
theorem follows_edit {lab : PlaybackState → Except CoreError α → Sect}
    {f : PlaybackState → Except CoreError α × PlaybackState} {k : α → Op β} (hp : Looking p)
    (hf : ∀ s, (∃ e, (f s).1 = .error e ∧ (f s).2 = s) ∨
      ∃ id a, (f s).1 = .ok a ∧ lab s (.ok a) = .edit id ∧ Safe id (k a) ∧
        ∀ m, m ≠ id → (f s).2.contents m = s.contents m) :
    Follows targetProtocol (fun _ _ => True) p (lockState lab f >>= k) := by
  obtain ⟨q, rfl, hq⟩ := hp
  refine (follows_bind _ _).2 (follows_sect.2 fun w _ => ?_)
  obtain ⟨e, hres, hsame⟩ | ⟨id, a, hres, hlab, hk, hframe⟩ := hf w.state
  · dsimp only
    rw [hres, hsame]
    refine ⟨?_, trivial⟩
    rintro _ ⟨⟩
    exact ⟨fun _ _ => rfl, fun _ _ => rfl⟩
  · dsimp only
    rw [hres, hlab]
    refine ⟨?_, (hk _ ⟨_, rfl, rfl⟩).mono fun _ _ _ => trivial⟩
    rintro _ ⟨⟩
    exact ⟨fun m hm => hframe m fun h => hm (by rw [h]), fun _ _ => rfl⟩

theorem follows_jump {target : Node → Except CoreError Nat} (hp : Looking p) :
    Follows targetProtocol (fun _ _ => True) p (jump target) := by
  refine follows_look hp fun id p' hp' => follows_edit hp' fun s => ?_
  cases hn : s.node id with
  | none => exact .inl ⟨.nodeNotFound, by simp [jumpSection, hn]⟩
  | some node =>
    rw [jumpSection_eq hn]
    cases target node with
    | error e => exact .inl ⟨e, rfl, rfl⟩
    | ok i =>
      refine .inr ⟨id, _, rfl, rfl, ?_, fun m hm => contents_moveTo_of_ne hm⟩
      refine (stays_lockTransport (by simp) fun m id' h => by simp [h]).bind fun _ _ => ?_
      refine stays_activeOutputs.bind fun o ho => ?_
      refine (stays_send ho _).bind fun _ _ => ?_
      refine stays_activeOutputs.bind fun o ho => ?_
      refine (stays_send ho _).bind fun _ _ => ?_
      refine (stays_lockState (fun _ _ _ => by simp) fun s m => ?_).bind fun _ _ =>
        safe_broadcast
      exact contents_modifyNode (fun _ => by rfl) fun _ => ⟨by rfl, by rfl⟩

theorem follows_appendToQueue {tracks : List Track} (hp : Looking p) :
    Follows targetProtocol (fun _ _ => True) p (appendToQueue tracks) := by
  refine follows_look hp fun id p' hp' => follows_edit hp' fun s => ?_
  cases hn : s.node id with
  | none => exact .inl ⟨.nodeNotFound, rfl, rfl⟩
  | some node =>
    refine .inr ⟨id, (), rfl, rfl, ?_, fun m hm => contents_modifyNode_of_ne (fun _ => by rfl) hm⟩
    refine stays_maybeActiveOutputs.bind fun r hr => ?_
    cases r with
    | none => exact safe_broadcast
    | some o =>
      exact (stays_send (hr o rfl) _).bind fun _ _ =>
        (stays_extend _).bind fun _ _ => safe_broadcast

theorem follows_lockSelected {f : Node → Except CoreError (α × (Node → Node))} {k : α → Op β}
    (hp : Looking p) (hf : ∀ node a g, f node = .ok (a, g) → ∀ n, (g n).id = n.id)
    (hk : ∀ id a, Safe id (k a)) :
    Follows targetProtocol (fun _ _ => True) p (lockSelected f >>= k) := by
  refine follows_edit hp fun s => ?_
  unfold PlaybackState.selectedNode
  cases hsel : s.selectedNodeId with
  | none => exact .inl ⟨.noActiveOutput, rfl, rfl⟩
  | some id =>
    simp only [Option.bind_some]
    cases hn : s.node id with
    | none => exact .inl ⟨.noActiveOutput, rfl, rfl⟩
    | some node =>
      dsimp only
      cases hfn : f node with
      | error e => exact .inl ⟨e, rfl, rfl⟩
      | ok ag =>
        refine .inr ⟨id, ag.1, rfl, rfl, hk id ag.1, fun m hm => ?_⟩
        dsimp only
        rw [node_id hn]
        exact contents_modifyNode_of_ne (hf node ag.1 ag.2 hfn) hm

/-- Each of the operations keeps to the protocol. -/
theorem CoreOp.follows_target {op : CoreOp} (hop : op.looksAgain = true) :
    op.task.Follows targetProtocol (fun _ _ => True) (some {}) := by
  have hp : Looking (some {}) := ⟨_, rfl, rfl⟩
  cases op <;> cases hop
  case next => exact follows_jump hp
  case previous => exact follows_jump hp
  case playIndex => exact follows_jump hp
  case addToQueue => exact follows_appendToQueue hp
  case addTracksToQueue tracks =>
    show Follows targetProtocol (fun _ _ => True) _
      (if tracks.isEmpty then pure () else appendToQueue tracks)
    split
    · trivial
    · exact follows_appendToQueue hp
  case removeFromQueue index =>
    refine follows_lockSelected hp (fun node a g hg => ?_) fun id i => ?_
    · split at hg
      · cases hg
      · cases hg
        exact fun n => (removeTrack_frame index n).1
    · refine stays_maybeActiveOutputs.bind fun r hr => ?_
      cases r with
      | none => exact safe_broadcast
      | some o =>
        exact (stays_send (hr o rfl) _).bind fun _ _ =>
          (stays_decrement _).bind fun _ _ => safe_broadcast
  case moveInQueue =>
    refine follows_lockSelected hp (fun node a g hg => ?_) fun id i => ?_
    · split at hg
      · cases hg
      · cases hg
        exact fun _ => rfl
    · refine stays_maybeActiveOutputs.bind fun r hr => ?_
      cases r with
      | none => exact safe_broadcast
      | some o => exact (stays_send (hr o rfl) _).bind fun _ _ => safe_broadcast

end Follows

/-! ## Runs -/

section Runs

variable {ι : Type} [DecidableEq ι] {w : Core} {ops : ι → CoreOp} {h : List (CoreEntry ι)}
  {p : CorePool ι}

/-- What task `i` has edited and found so far. -/
def progress (i : ι) : List (CoreEntry ι) → Progress
  | [] => {}
  | e :: h =>
    match e.act with
    | .sect lab => if e.who = i then (progress i h).after lab e.pre else progress i h
    | .call _ _ => progress i h

/-- `Progress.Kept` of a step. -/
def LooksAtEdited (q : Progress) (e : CoreEntry ι) : Prop :=
  match e.act with
  | .sect lab => q.Kept lab e.pre
  | .call _ _ => True

instance (q : Progress) (e : CoreEntry ι) : Decidable (LooksAtEdited q e) :=
  match e with
  | ⟨_, .sect lab, pre, _⟩ => inferInstanceAs (Decidable (q.Kept lab pre))
  | ⟨_, .call _ _, _, _⟩ => isTrue trivial

/-- What a step should do: its command goes to the edited node, and the length it patches is that
node's. -/
def OnTarget (q : Progress) (e : CoreEntry ι) : Prop :=
  match e.act with
  | .sect lab => q.SectOk lab e.pre e.post
  | .call call _ => q.CallOk call

/-- Only the operations in question are followed. -/
def tracked (ops : ι → CoreOp) (i : ι) : Option Progress :=
  if (ops i).looksAgain then some {} else none

theorem phase_eq_progress (i : ι) (h : List (CoreEntry ι)) :
    Pool.phase targetProtocol (tracked ops) i h =
      if (ops i).looksAgain then some (progress i h) else none := by
  induction h with
  | nil => rfl
  | cons e h ih =>
    obtain ⟨who, act, pre, post⟩ := e
    by_cases hi : who = i
    · cases act with
      | call call r => simpa [Pool.phase, progress, hi, targetProtocol] using ih
      | sect lab =>
        simp only [Pool.phase, progress, hi, if_true, ih, targetProtocol_onSect]
        split <;> rfl
    · cases act <;> simpa [Pool.phase, progress, hi] using ih

/-- In every interleaving: when every look-up after an edit is of the edited node, commands and
lengths are those of the edited node. -/
theorem on_target_of_kept (hr : Pool.Interleaving (corePool w ops) h p)
    (hkept : Pool.Met (fun before e => (ops e.who).looksAgain = true →
      LooksAtEdited (progress e.who before) e) h) :
    Pool.Met (fun before e => (ops e.who).looksAgain = true →
      OnTarget (progress e.who before) e) h := by
  have h0 : ∀ i, ((corePool w ops).task i).Follows targetProtocol (fun _ _ => True)
      (tracked ops i) := fun i => by
    unfold tracked
    split
    · rename_i hop
      exact CoreOp.follows_target hop
    · exact follows_none _
  have hresp := (Pool.Run.follows (Q := fun _ _ _ => True) h0
    (fun {h p p' i r e} _ _ hs hok lab hact => ?_) (Pool.run_iff.2 ⟨hr, hkept⟩)).1
  · clear hr hkept
    induction h with
    | nil => trivial
    | cons e h ih =>
      refine ⟨fun hop => ?_, ih hresp.2⟩
      have hok := hresp.1
      rw [phase_eq_progress, if_pos hop] at hok
      obtain ⟨who, act, pre, post⟩ := e
      cases act with
      | sect lab => exact hok _ rfl
      | call call r => exact hok _ rfl
  · obtain ⟨rfl, hpre, -⟩ := Pool.step_who hs
    rw [phase_eq_progress]
    split
    · rename_i hop
      rintro _ ⟨⟩
      have hlooks := hok hop
      unfold LooksAtEdited at hlooks
      rw [hact] at hlooks
      rwa [hpre] at hlooks
    · exact fun _ h => (nomatch h)

end Runs

/-- Two connected nodes with outputs, `a` selected and playing the first of two tracks. -/
def twoNodes : Core :=
  (runOps allSucceed
    [.registerOutput "a" "" 0, .registerOutput "b" "" 1, .addNode { id := "a" },
      .addNode { id := "b" },
      .setQueue [{ id := "1", filePath := "/1" }, { id := "2", filePath := "/2" }] (some 0)]
    (Core.new (fun _ => none) [] [], ())).1

/-- `next` together with the selection of `b`. -/
def nextOrSelect (selects : Bool) : CoreOp := if selects then .selectNode "b" else .next

/-- `next` is through when `b` is selected. -/
def selectAfterNext : List (Bool × Except CoreError Unit) :=
  List.replicate 12 (false, .ok ()) ++ [(true, .ok ())]

/-- `b` is selected when `next` has edited `a`. -/
def selectInNext : List (Bool × Except CoreError Unit) :=
  List.replicate 2 (false, .ok ()) ++ [(true, .ok ())] ++ List.replicate 4 (false, .ok ())

theorem on_target_of_kept_selectAfterNext :
    Pool.Met (fun before e => (nextOrSelect e.who).looksAgain = true →
        OnTarget (progress e.who before) e)
      (Pool.exec selectAfterNext ([], corePool twoNodes nextOrSelect)).1 :=
  have hkept : Pool.Met (fun before e => (nextOrSelect e.who).looksAgain = true →
      LooksAtEdited (progress e.who before) e)
      (Pool.exec selectAfterNext ([], corePool twoNodes nextOrSelect)).1 := by decide
  on_target_of_kept (Pool.exec_run selectAfterNext .init) hkept

/-- The new list of `a` is sent to `b`. -/
theorem selectInNext_off_target :
    ¬ Pool.Met (fun before e => (nextOrSelect e.who).looksAgain = true →
        OnTarget (progress e.who before) e)
      (Pool.exec selectInNext ([], corePool twoNodes nextOrSelect)).1 :=
  fun h => absurd (h.1 rfl rfl) (by decide)

end Kanade

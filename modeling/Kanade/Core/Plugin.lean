import Kanade.Core.State
import Kanade.Machine.Emits
import Mathlib.Algebra.Order.Ring.Rat

/-!
# Kanade.Core.Plugin

`PluginBridge` of `plugin.rs`: the events that a sequence of snapshots gives rise to.

* `seesChanges_iff`: `TrackChanged` follows the current track through a sequence exactly when no
  other track comes up at the index of the one before.
* `scrobblePoint_iff`: a `ScrobblePoint` is emitted at the first snapshot where it is due, and nowhere
  else.
-/

namespace Kanade

open Machine

inductive PlaybackEvent where
  | trackChanged (previous : Option Track) (current : Track)
  | playbackPaused (track : Option Track) (positionSecs : ℚ)
  | playbackResumed (track : Option Track) (positionSecs : ℚ)
  | playbackStopped (track : Option Track)
  | scrobblePoint (track : Track)
deriving DecidableEq

/-- The current track of the selected node, or else the one at the top level. -/
def PlaybackState.currentTrack (s : PlaybackState) : Option Track :=
  (s.selectedNode.bind fun n => n.currentIndex.bind fun i => n.queue[i]?).or
    (s.currentIndex.bind fun i => s.queue[i]?)

structure PrevState where
  state : PlaybackState
  scrobbledTracks : List String

def PrevState.new : PrevState := ⟨PlaybackState.empty, []⟩

/-- The event of the status of the selected node. -/
def statusEvents (prevNode node : Node) (sameIndex trackChanged : Bool) (track : Option Track) :
    List PlaybackEvent :=
  match prevNode.status, node.status with
  | .playing, .paused => [.playbackPaused track node.positionSecs]
  | .paused, .playing | .stopped, .playing =>
    if sameIndex then [.playbackResumed track node.positionSecs] else []
  | previous, .stopped =>
    if previous ≠ .stopped ∧ trackChanged = false then [.playbackStopped track] else []
  | _, _ => []

/-- The track that has reached its scrobble threshold on this node. -/
def scrobbleTrack (scrobbled : List String) (node : Node) (track : Option Track) : Option Track :=
  if node.status = .playing then do
    let track ← track
    let durationSecs ← track.durationSecs
    if 30 < durationSecs ∧ track.id ∉ scrobbled then
      let thresholdSecs := min (durationSecs / 2) 240
      if thresholdSecs ≤ node.positionSecs then some track else none
    else none
  else none

/-- `diff_events`. -/
def diffEvents (prev : PrevState) (s : PlaybackState) : List PlaybackEvent × PrevState :=
  let track := s.currentTrack
  let sameIndex : Bool := s.currentIndex = prev.state.currentIndex
  let trackChanged := !sameIndex && track.isSome
  let changed : List PlaybackEvent :=
    if sameIndex then []
    else track.toList.map fun t => .trackChanged prev.state.currentTrack t
  match prev.state.selectedNode, s.selectedNode with
  | some prevNode, some node =>
    let status := statusEvents prevNode node sameIndex trackChanged track
    match scrobbleTrack prev.scrobbledTracks node track with
    | some t => (changed ++ status ++ [.scrobblePoint t], ⟨s, t.id :: prev.scrobbledTracks⟩)
    | none => (changed ++ status, ⟨s, prev.scrobbledTracks⟩)
  | _, _ => (changed, ⟨s, prev.scrobbledTracks⟩)

/-- What the bridge emits at the snapshot `s` after others. -/
abbrev eventsAt (before : List PlaybackState) (s : PlaybackState) : List PlaybackEvent :=
  outputsAt diffEvents .new before s

/-- The snapshot before the next one; before the first it is the state of `PrevState::new`. -/
def lastState (before : List PlaybackState) : PlaybackState :=
  before.getLast?.getD PlaybackState.empty

/-! ## Kinds of events -/

def trackChanges : List PlaybackEvent → List (Option Track × Track) :=
  List.filterMap fun
    | .trackChanged previous current => some (previous, current)
    | _ => none

def scrobbles : List PlaybackEvent → List Track :=
  List.filterMap fun
    | .scrobblePoint track => some track
    | _ => none

section Events

variable {prev : PrevState} {s : PlaybackState}

theorem trackChanges_append (es es' : List PlaybackEvent) :
    trackChanges (es ++ es') = trackChanges es ++ trackChanges es' := List.filterMap_append

theorem scrobbles_append (es es' : List PlaybackEvent) :
    scrobbles (es ++ es') = scrobbles es ++ scrobbles es' := List.filterMap_append

/-- The event of the status is of neither kind. -/
theorem statusEvents_kinds (prevNode node : Node) (sameIndex trackChanged : Bool)
    (track : Option Track) :
    trackChanges (statusEvents prevNode node sameIndex trackChanged track) = [] ∧
      scrobbles (statusEvents prevNode node sameIndex trackChanged track) = [] := by
  unfold statusEvents
  split <;> (try split) <;> exact ⟨rfl, rfl⟩

/-- The track that is scrobbled at a snapshot. -/
def dueTrack (prev : PrevState) (s : PlaybackState) : Option Track :=
  prev.state.selectedNode.bind fun _ => s.selectedNode.bind fun node =>
    scrobbleTrack prev.scrobbledTracks node s.currentTrack

/-- What every snapshot does, apart from the event of the status: it changes the track when it has
another index and a track, and scrobbles the track that is due. -/
theorem diffEvents_spec (prev : PrevState) (s : PlaybackState) :
    trackChanges (diffEvents prev s).1 =
        (if s.currentIndex = prev.state.currentIndex then []
          else s.currentTrack.toList.map fun t => (prev.state.currentTrack, t)) ∧
      scrobbles (diffEvents prev s).1 = (dueTrack prev s).toList ∧
      (diffEvents prev s).2 =
        ⟨s, ((dueTrack prev s).map Track.id).toList ++ prev.scrobbledTracks⟩ := by
  -- the list of the change of track
  have hchanged : ∀ c : Bool,
      trackChanges (if c = true then [] else s.currentTrack.toList.map fun t =>
        .trackChanged prev.state.currentTrack t) =
          (if c = true then [] else s.currentTrack.toList.map fun t =>
            (prev.state.currentTrack, t)) ∧
      scrobbles (if c = true then [] else s.currentTrack.toList.map fun t =>
        .trackChanged prev.state.currentTrack t) = [] := by
    intro c
    cases c <;> cases s.currentTrack <;> exact ⟨rfl, rfl⟩
  obtain ⟨hc, hs⟩ := hchanged (s.currentIndex = prev.state.currentIndex : Bool)
  simp only [decide_eq_true_eq] at hc hs
  unfold diffEvents dueTrack
  simp only [decide_eq_true_eq]
  cases hprev : prev.state.selectedNode with
  | none => exact ⟨hc, hs, rfl⟩
  | some prevNode =>
    cases hnode : s.selectedNode with
    | none => exact ⟨hc, hs, rfl⟩
    | some node =>
      obtain ⟨hsc, hss⟩ := statusEvents_kinds prevNode node
        (s.currentIndex = prev.state.currentIndex : Bool)
        (!(s.currentIndex = prev.state.currentIndex : Bool) && s.currentTrack.isSome) s.currentTrack
      dsimp only [Option.bind_some]
      cases scrobbleTrack prev.scrobbledTracks node s.currentTrack with
      | none =>
        refine ⟨?_, ?_, rfl⟩
        · rw [trackChanges_append, hc, hsc, List.append_nil]
        · rw [scrobbles_append, hs, hss]
          rfl
      | some t =>
        refine ⟨?_, ?_, rfl⟩
        · rw [trackChanges_append, trackChanges_append, hc, hsc, List.append_nil]
          exact List.append_nil _
        · rw [scrobbles_append, scrobbles_append, hs, hss]
          rfl

theorem trackChanges_diffEvents (prev : PrevState) (s : PlaybackState) :
    trackChanges (diffEvents prev s).1 =
      if s.currentIndex = prev.state.currentIndex then []
      else s.currentTrack.toList.map fun t => (prev.state.currentTrack, t) :=
  (diffEvents_spec prev s).1

theorem scrobbles_diffEvents (prev : PrevState) (s : PlaybackState) :
    scrobbles (diffEvents prev s).1 = (dueTrack prev s).toList := (diffEvents_spec prev s).2.1

theorem diffEvents_prev (prev : PrevState) (s : PlaybackState) :
    (diffEvents prev s).2 = ⟨s, ((dueTrack prev s).map Track.id).toList ++ prev.scrobbledTracks⟩ :=
  (diffEvents_spec prev s).2.2

theorem after_state (before : List PlaybackState) :
    (after diffEvents .new before).state = lastState before := by
  induction before using List.reverseRecOn with
  | nil => rfl
  | append_singleton before s _ =>
    rw [after_concat, diffEvents_prev, lastState, List.getLast?_concat]
    rfl

end Events

/-! ## Changes of track -/

/-- The snapshot has a current track, and it is not that of the snapshot before. -/
def NewTrack (previous s : PlaybackState) : Prop :=
  ∃ t, s.currentTrack = some t ∧ previous.currentTrack.map Track.id ≠ some t.id

/-- The last current track that there was. -/
def lastTrack (ss : List PlaybackState) : Option Track :=
  (ss.filterMap PlaybackState.currentTrack).getLast?

/-- The track that the last `TrackChanged` is about. -/
def lastChange (ss : List PlaybackState) : Option Track :=
  ((trackChanges (emitted diffEvents .new ss)).getLast?).map Prod.snd

/-- `TrackChanged` follows the current track of the sequence. -/
structure SeesChanges (ss : List PlaybackState) : Prop where
  emits : ∀ before s rest, ss = before ++ s :: rest → NewTrack (lastState before) s →
    ∃ t, s.currentTrack = some t ∧
      trackChanges (eventsAt before s) = [((lastState before).currentTrack, t)]
  quiet : ∀ before s rest, ss = before ++ s :: rest →
    s.currentIndex = (lastState before).currentIndex →
    s.currentTrack.map Track.id = (lastState before).currentTrack.map Track.id →
    trackChanges (eventsAt before s) = []
  follows : ∀ before rest, ss = before ++ rest →
    (lastChange before).map Track.id = (lastTrack before).map Track.id

/-- Another track never comes up at the index of the one before. -/
def MovesIndex (ss : List PlaybackState) : Prop :=
  ∀ before s rest, ss = before ++ s :: rest → NewTrack (lastState before) s →
    s.currentIndex ≠ (lastState before).currentIndex

theorem trackChanges_eventsAt (before : List PlaybackState) (s : PlaybackState) :
    trackChanges (eventsAt before s) =
      if s.currentIndex = (lastState before).currentIndex then []
      else s.currentTrack.toList.map fun t => ((lastState before).currentTrack, t) := by
  rw [eventsAt, outputsAt, trackChanges_diffEvents, after_state]

theorem lastTrack_concat (ss : List PlaybackState) (s : PlaybackState) :
    lastTrack (ss ++ [s]) = s.currentTrack.or (lastTrack ss) := by
  unfold lastTrack
  rw [List.filterMap_append]
  cases h : s.currentTrack with
  | none => simp [h]
  | some t => simp [h]

/-- The last change after one more snapshot. -/
theorem lastChange_concat (ss : List PlaybackState) (s : PlaybackState) :
    lastChange (ss ++ [s]) =
      if s.currentIndex = (lastState ss).currentIndex then lastChange ss
      else s.currentTrack.or (lastChange ss) := by
  unfold lastChange
  rw [emitted_concat, trackChanges_append, trackChanges_eventsAt]
  split
  · rw [List.append_nil]
  · cases s.currentTrack <;> simp

theorem follows_of_movesIndex {ss : List PlaybackState} (h : MovesIndex ss) :
    (lastChange ss).map Track.id = (lastTrack ss).map Track.id := by
  -- the last current track also matters: it is that of the last snapshot, if that has one
  suffices hboth : (lastChange ss).map Track.id = (lastTrack ss).map Track.id ∧
      ((lastState ss).currentTrack = none ∨ (lastState ss).currentTrack = lastTrack ss) from hboth.1
  induction ss using List.reverseRecOn with
  | nil => exact ⟨rfl, .inl rfl⟩
  | append_singleton ss s ih =>
    have hss : MovesIndex ss := fun before s' rest heq =>
      h before s' (rest ++ [s]) (by rw [heq, List.append_assoc]; rfl)
    obtain ⟨hlast, htrack⟩ := ih hss
    have hstate : lastState (ss ++ [s]) = s := by
      rw [lastState, List.getLast?_concat]
      rfl
    rw [lastChange_concat, lastTrack_concat, hstate]
    cases ht : s.currentTrack with
    | none =>
      refine ⟨?_, .inl rfl⟩
      rw [Option.none_or, Option.none_or, ite_self]
      exact hlast
    | some t =>
      refine ⟨?_, .inr rfl⟩
      split
      · -- the index is the same, so the track is
        rename_i hindex
        have hold : ¬ NewTrack (lastState ss) s := fun hnew => h ss s [] rfl hnew hindex
        have hid : (lastState ss).currentTrack.map Track.id = some t.id := by
          by_contra hne
          exact hold ⟨t, ht, hne⟩
        obtain hnone | hsome := htrack
        · rw [hnone] at hid
          cases hid
        · rw [hlast, ← hsome, hid]
          rfl
      · rfl

/-- `TrackChanged` follows the current track exactly when another track never comes up at the index
of the one before. -/
theorem seesChanges_iff (ss : List PlaybackState) : SeesChanges ss ↔ MovesIndex ss := by
  constructor
  · rintro hsees before s rest heq hnew hindex
    obtain ⟨t, -, hevents⟩ := hsees.emits before s rest heq hnew
    rw [trackChanges_eventsAt, if_pos hindex] at hevents
    cases hevents
  · intro hmoves
    refine ⟨fun before s rest heq hnew => ?_, fun before s rest _ hindex _ => ?_,
      fun before rest heq => follows_of_movesIndex fun b s r hb => ?_⟩
    · have hindex := hmoves before s rest heq hnew
      obtain ⟨t, ht, -⟩ := hnew
      refine ⟨t, ht, ?_⟩
      rw [trackChanges_eventsAt, if_neg hindex, ht]
      rfl
    · rw [trackChanges_eventsAt, if_pos hindex]
    · exact hmoves b s (r ++ rest) (by rw [heq, hb, List.append_assoc]; rfl)

/-- A snapshot of one node that plays the first of these tracks. -/
def playingFirst (queue : List Track) : PlaybackState where
  nodes := [{ id := "default", status := .playing, queue := queue, currentIndex := some 0 }]
  selectedNodeId := some "default"
  queue := queue
  currentIndex := some 0
  shuffle := false
  repeatMode := .off

/-- A queue is replaced while its first track plays. -/
theorem replacedQueue_unseen :
    ¬ SeesChanges [playingFirst [{ id := "a", filePath := "/a.flac" }],
      playingFirst [{ id := "b", filePath := "/b.flac" }]] := by
  intro hsees
  obtain ⟨t, -, hevents⟩ := hsees.emits [playingFirst [{ id := "a", filePath := "/a.flac" }]]
    (playingFirst [{ id := "b", filePath := "/b.flac" }]) [] rfl
    ⟨{ id := "b", filePath := "/b.flac" }, by decide, by decide⟩
  have hnone : trackChanges (eventsAt [playingFirst [{ id := "a", filePath := "/a.flac" }]]
      (playingFirst [{ id := "b", filePath := "/b.flac" }])) = [] := by decide +kernel
  rw [hnone] at hevents
  cases hevents

/-! ## Scrobble points -/

/-- The track `id` is to be scrobbled at the snapshot, when it has not been before. -/
def ScrobbleDue (previous s : PlaybackState) (id : String) : Prop :=
  previous.selectedNode.isSome ∧
    ∃ node, s.selectedNode = some node ∧ node.status = .playing ∧
      ∃ track, s.currentTrack = some track ∧ track.id = id ∧
        ∃ d, track.durationSecs = some d ∧ 30 < d ∧ min (d / 2) 240 ≤ node.positionSecs

/-- The track was due at none of the snapshots before. -/
def NeverDue (before : List PlaybackState) (id : String) : Prop :=
  ∀ b s rest, before = b ++ s :: rest → ¬ ScrobbleDue (lastState b) s id

theorem scrobbleTrack_eq_some {scrobbled : List String} {node : Node} {track : Option Track}
    {t : Track} :
    scrobbleTrack scrobbled node track = some t ↔
      node.status = .playing ∧ track = some t ∧ t.id ∉ scrobbled ∧
        ∃ d, t.durationSecs = some d ∧ 30 < d ∧ min (d / 2) 240 ≤ node.positionSecs := by
  unfold scrobbleTrack
  cases track with
  | none => simp
  | some track =>
    cases hd : track.durationSecs with
    | none =>
      simp only [Option.bind_eq_bind, Option.bind_some, hd, Option.bind_none, ite_self, reduceCtorEq,
        Option.some.injEq, false_iff, not_and]
      rintro - rfl - ⟨d, h, -⟩
      rw [hd] at h
      cases h
    | some d =>
      simp only [Option.bind_eq_bind, Option.bind_some, hd, Option.ite_none_right_eq_some,
        Option.some.injEq]
      constructor
      · rintro ⟨hplaying, ⟨hlong, hnew⟩, hpos, rfl⟩
        exact ⟨hplaying, rfl, hnew, d, hd, hlong, hpos⟩
      · rintro ⟨hplaying, rfl, hnew, d', hd', hlong, hpos⟩
        rw [hd] at hd'
        cases hd'
        exact ⟨hplaying, ⟨hlong, hnew⟩, hpos, rfl⟩

theorem dueTrack_eq_some {prev : PrevState} {s : PlaybackState} {t : Track} :
    dueTrack prev s = some t ↔
      s.currentTrack = some t ∧ ScrobbleDue prev.state s t.id ∧ t.id ∉ prev.scrobbledTracks := by
  simp only [dueTrack, Option.bind_eq_some_iff, scrobbleTrack_eq_some]
  constructor
  · rintro ⟨prevNode, hprev, node, hnode, hplaying, ht, hnew, hd⟩
    exact ⟨ht, ⟨by rw [hprev]; rfl, node, hnode, hplaying, t, ht, rfl, hd⟩, hnew⟩
  · rintro ⟨ht, ⟨hprev, node, hnode, hplaying, t', ht', -, hd⟩, hnew⟩
    obtain ⟨prevNode, hprev⟩ := Option.isSome_iff_exists.1 hprev
    rw [ht] at ht'
    cases ht'
    exact ⟨prevNode, hprev, node, hnode, hplaying, ht, hnew, hd⟩

/-- The track that is due is the current one. -/
theorem ScrobbleDue.current {previous s : PlaybackState} {id : String}
    (h : ScrobbleDue previous s id) : ∃ t, s.currentTrack = some t ∧ t.id = id := by
  obtain ⟨-, node, -, -, t, ht, hid, -⟩ := h
  exact ⟨t, ht, hid⟩

theorem neverDue_concat {before : List PlaybackState} {s : PlaybackState} {id : String} :
    NeverDue (before ++ [s]) id ↔ NeverDue before id ∧ ¬ ScrobbleDue (lastState before) s id := by
  constructor
  · intro h
    refine ⟨fun b s' rest heq => h b s' (rest ++ [s]) ?_, h before s [] rfl⟩
    rw [heq, List.append_assoc]
    rfl
  · rintro ⟨hbefore, hs⟩ b s' rest heq
    obtain rfl | ⟨rest', x, rfl⟩ := List.eq_nil_or_concat rest
    · obtain ⟨rfl, rfl⟩ := List.append_inj' heq rfl |>.imp_right List.singleton_inj.1
      exact hs
    · refine hbefore b s' rest' ?_
      rw [List.concat_eq_append, ← List.cons_append, ← List.append_assoc] at heq
      exact (List.append_inj' heq rfl).1

/-- The set of scrobbled tracks is that of the tracks that have been due. -/
theorem mem_scrobbledTracks_iff (before : List PlaybackState) (id : String) :
    id ∈ (after diffEvents .new before).scrobbledTracks ↔ ¬ NeverDue before id := by
  induction before using List.reverseRecOn with
  | nil =>
    refine iff_of_false List.not_mem_nil (not_not.2 fun b s rest heq => ?_)
    simp at heq
  | append_singleton before s ih =>
    rw [after_concat, diffEvents_prev, neverDue_concat, not_and_not_right, List.mem_append,
      Option.mem_toList, Option.map_eq_some_iff, ih]
    constructor
    · rintro (⟨t, ht, rfl⟩ | hdue) hnever
      · rw [dueTrack_eq_some, after_state] at ht
        exact ht.2.1
      · exact absurd hnever hdue
    · intro h
      by_cases hnever : NeverDue before id
      · obtain ⟨t, ht, rfl⟩ := (h hnever).current
        refine .inl ⟨t, dueTrack_eq_some.2 ⟨ht, ?_, ?_⟩, rfl⟩
        · rw [after_state]
          exact h hnever
        · rw [ih]
          exact not_not.2 hnever
      · exact .inr hnever

/-- A snapshot has at most one scrobble point, and it has one for the track `id` exactly when it is the
first snapshot at which that is due. -/
theorem scrobblePoint_iff (before : List PlaybackState) (s : PlaybackState) (id : String) :
    (scrobbles (eventsAt before s)).length ≤ 1 ∧
      ((∃ t ∈ scrobbles (eventsAt before s), t.id = id) ↔
        ScrobbleDue (lastState before) s id ∧ NeverDue before id) := by
  rw [eventsAt, outputsAt, scrobbles_diffEvents]
  refine ⟨by cases dueTrack (after diffEvents .new before) s <;> simp, ?_⟩
  simp only [Option.mem_toList]
  constructor
  · rintro ⟨t, ht, rfl⟩
    rw [dueTrack_eq_some, after_state, mem_scrobbledTracks_iff, not_not] at ht
    exact ht.2
  · rintro ⟨hdue, hnever⟩
    obtain ⟨t, ht, rfl⟩ := hdue.current
    refine ⟨t, dueTrack_eq_some.2 ⟨ht, ?_, ?_⟩, rfl⟩
    · rw [after_state]
      exact hdue
    · rw [mem_scrobbledTracks_iff, not_not]
      exact hnever

end Kanade

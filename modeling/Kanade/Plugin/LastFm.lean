import Mathlib.Data.Rat.Floor
import Mathlib.Data.List.Perm.Basic
import Kanade.Concur.Runs
import Kanade.Core.Plugin

/-!
# Kanade.Plugin.LastFm

`LastFmScrobbler` of `kanade-plugin-lastfm`: the tasks that its events spawn, the pending scrobbles,
and the API.

A run is a list of events: `on_event`, or the next step of a task, which is a lock section or an API
call that succeeds or fails. `scrobbles_conserved`: whatever the order, the scrobbles that the API
has accepted, the pending ones and those the tasks hold are the scrobbles created so far, one for
each `ScrobblePoint` event whose task has got that far.
-/

namespace Kanade

open Concur

structure ScrobbleTrack where
  artist : String
  title : String
  album : Option String
  albumArtist : Option String
  durationSecs : Option UInt32
  trackNumber : Option UInt32
deriving DecidableEq

/-- `as u32` on a float. -/
def truncateUInt32 (q : ℚ) : UInt32 := UInt32.ofNat (min ⌊q⌋.toNat (2 ^ 32 - 1))

def ScrobbleTrack.fromTrack (track : Track) : ScrobbleTrack where
  artist := track.artist.getD "Unknown Artist"
  title := track.title.getD "Unknown Track"
  album := track.albumTitle
  albumArtist := track.albumArtist
  durationSecs := track.durationSecs.map truncateUInt32
  trackNumber := track.trackNumber

/-- A track and the time it was started. -/
abbrev Scrobble : Type := ScrobbleTrack × Int

/-- Where a spawned task is. -/
inductive ScrobbleTask where
  /-- `TrackChanged`, before the lock of `current_track_started`. -/
  | changed (current : Track)
  /-- Before the first lock of `flush_pending_scrobbles`. -/
  | flushing (current : Track)
  /-- In its loop. -/
  | retrying (current : Track) (next : Scrobble) (batch failed : List Scrobble)
  /-- Before its second lock. -/
  | restoring (current : Track) (failed : List Scrobble)
  /-- Before `update_now_playing`. -/
  | announcing (current : Track)
  /-- `ScrobblePoint`, before the lock of `current_track_started`. -/
  | pointed (track : Track)
  /-- Before the first attempt. -/
  | scrobbling (scrobble : Scrobble)
  /-- Before the lock of the pending scrobbles. -/
  | queueing (scrobble : Scrobble)
  | finished

/-- The scrobbler, with what the API has accepted and the scrobbles that have been created. -/
structure Scrobbler where
  currentTrackStarted : Option (String × Int)
  pendingScrobbles : List Scrobble
  accepted : List Scrobble
  created : List Scrobble
  tasks : List ScrobbleTask

def Scrobbler.new : Scrobbler := ⟨none, [], [], [], []⟩

/-- `on_event`: what is spawned. -/
def PlaybackEvent.spawned : PlaybackEvent → List ScrobbleTask
  | .trackChanged _ current => [.changed current]
  | .scrobblePoint track => [.pointed track]
  | .playbackResumed _ _ | .playbackPaused _ _ | .playbackStopped _ => []

/-- The loop over the batch, up to its next call. -/
def retryNext (current : Track) (batch failed : List Scrobble) : ScrobbleTask :=
  match batch with
  | s :: rest => .retrying current s rest failed
  | [] => if failed = [] then .announcing current else .restoring current failed

/-- The time a scrobble is for. -/
def scrobbleTime (started : Option (String × Int)) (track : Track) (now : Int) : Int :=
  match started with
  | some (id, startedAt) => if id = track.id then startedAt else now
  | none => now

/-- The next step of a task: the task it becomes and what it leaves of the scrobbler. `ok` is for an
API call. -/
def ScrobbleTask.step (now : Int) (ok : Bool) (w : Scrobbler) : ScrobbleTask → ScrobbleTask × Scrobbler
  | .changed current => (.flushing current, { w with currentTrackStarted := some (current.id, now) })
  | .flushing current =>
    let count := min w.pendingScrobbles.length 50
    (match w.pendingScrobbles.take count with
      | [] => .announcing current
      | s :: rest => .retrying current s rest [],
      { w with pendingScrobbles := w.pendingScrobbles.drop count })
  | .retrying current s batch failed =>
    if ok then (retryNext current batch failed, { w with accepted := w.accepted ++ [s] })
    else (retryNext current batch (failed ++ [s]), w)
  | .restoring current failed =>
    (.announcing current, { w with pendingScrobbles := failed ++ w.pendingScrobbles })
  | .announcing _ => (.finished, w)
  | .pointed track =>
    let s := (ScrobbleTrack.fromTrack track, scrobbleTime w.currentTrackStarted track now)
    (.scrobbling s, { w with created := w.created ++ [s] })
  | .scrobbling s =>
    if ok then (.finished, { w with accepted := w.accepted ++ [s] }) else (.queueing s, w)
  | .queueing s => (.finished, { w with pendingScrobbles := w.pendingScrobbles ++ [s] })
  | .finished => (.finished, w)

inductive ScrobblerEvent where
  | onEvent (event : PlaybackEvent)
  /-- The next step of the `i`-th task. -/
  | step (i : Nat) (now : Int) (ok : Bool)

def Scrobbler.next (e : ScrobblerEvent) (w : Scrobbler) : Scrobbler :=
  match e with
  | .onEvent event => { w with tasks := w.tasks ++ event.spawned }
  | .step i now ok =>
    match w.tasks[i]? with
    | none => w
    | some t => { (t.step now ok w).2 with tasks := w.tasks.set i (t.step now ok w).1 }

def Scrobbler.run (es : List ScrobblerEvent) : Scrobbler := runAll Scrobbler.next es .new

/-! ## What a task holds -/

def ScrobbleTask.held : ScrobbleTask → List Scrobble
  | .retrying _ s batch failed => s :: batch ++ failed
  | .restoring _ failed => failed
  | .scrobbling s | .queueing s => [s]
  | _ => []

/-- The track whose scrobble is still to be created. -/
def ScrobbleTask.awaited : ScrobbleTask → List ScrobbleTrack
  | .pointed track => [.fromTrack track]
  | _ => []

/-- The tracks of the `ScrobblePoint` events. -/
def scrobblePoints : List ScrobblerEvent → List ScrobbleTrack
  | [] => []
  | .onEvent (.scrobblePoint track) :: es => .fromTrack track :: scrobblePoints es
  | _ :: es => scrobblePoints es

/-- The account of all scrobbles. -/
structure Accounted (points : List ScrobbleTrack) (w : Scrobbler) : Prop where
  conserved : (w.accepted ++ w.pendingScrobbles ++ w.tasks.flatMap ScrobbleTask.held).Perm w.created
  created : (w.created.map Prod.fst ++ w.tasks.flatMap ScrobbleTask.awaited).Perm points

/-! ## One step -/

section Step

theorem held_retryNext (current : Track) (batch failed : List Scrobble) :
    (retryNext current batch failed).held = batch ++ failed := by
  cases batch with
  | cons s rest => rfl
  | nil =>
    by_cases h : failed = []
    · simp [retryNext, h, ScrobbleTask.held]
    · simp [retryNext, h, ScrobbleTask.held]

theorem awaited_retryNext (current : Track) (batch failed : List Scrobble) :
    (retryNext current batch failed).awaited = [] := by
  cases batch with
  | cons s rest => rfl
  | nil => by_cases h : failed = [] <;> simp [retryNext, h, ScrobbleTask.awaited]

variable (t : ScrobbleTask) (now : Int) (ok : Bool) (w : Scrobbler)

/-- What a step takes from one place it puts into another. -/
theorem step_conserves (x : Scrobble) :
    (t.step now ok w).2.accepted.count x + (t.step now ok w).2.pendingScrobbles.count x +
        (t.step now ok w).1.held.count x + w.created.count x =
      w.accepted.count x + w.pendingScrobbles.count x + t.held.count x +
        (t.step now ok w).2.created.count x := by
  cases t with
  | changed current => rfl
  | flushing current =>
    -- the first entries move from the pending list to the task
    have hsplit : w.pendingScrobbles.count x =
        (w.pendingScrobbles.take (min w.pendingScrobbles.length 50)).count x +
          (w.pendingScrobbles.drop (min w.pendingScrobbles.length 50)).count x := by
      rw [← List.count_append, List.take_append_drop]
    simp only [ScrobbleTask.step, ScrobbleTask.held, List.count_nil] at hsplit ⊢
    cases htake : w.pendingScrobbles.take (min w.pendingScrobbles.length 50) with
    | nil =>
      rw [htake, List.count_nil] at hsplit
      simp only [List.count_nil]
      omega
    | cons s rest =>
      rw [htake] at hsplit
      simp only [List.append_nil]
      omega
  | retrying current s batch failed =>
    have hheld : (ScrobbleTask.retrying current s batch failed).held = s :: batch ++ failed := rfl
    cases ok with
    | true =>
      simp only [ScrobbleTask.step, if_true, held_retryNext, hheld, List.count_append,
        List.count_cons, List.count_nil, List.cons_append]
      omega
    | false =>
      simp only [ScrobbleTask.step, Bool.false_eq_true, if_false, held_retryNext, hheld,
        List.count_append, List.count_cons, List.count_nil, List.cons_append]
      omega
  | restoring current failed =>
    simp only [ScrobbleTask.step, ScrobbleTask.held, List.count_append, List.count_nil]
    omega
  | announcing current => rfl
  | pointed track =>
    simp only [ScrobbleTask.step, ScrobbleTask.held, List.count_append, List.count_nil]
    omega
  | scrobbling s =>
    cases ok with
    | true =>
      simp only [ScrobbleTask.step, if_true, ScrobbleTask.held, List.count_append, List.count_nil]
      omega
    | false => rfl
  | queueing s =>
    simp only [ScrobbleTask.step, ScrobbleTask.held, List.count_append, List.count_nil]
    omega
  | finished => rfl

/-- A step creates the scrobble that the task has awaited, and no other. -/
theorem step_creates :
    (t.step now ok w).2.created.map Prod.fst ++ (t.step now ok w).1.awaited =
      w.created.map Prod.fst ++ t.awaited := by
  cases t with
  | flushing current =>
    simp only [ScrobbleTask.step]
    cases w.pendingScrobbles.take (min w.pendingScrobbles.length 50) <;> rfl
  | retrying current s batch failed =>
    cases ok with
    | true => exact congrArg (w.created.map Prod.fst ++ ·) (awaited_retryNext current batch failed)
    | false =>
      exact congrArg (w.created.map Prod.fst ++ ·) (awaited_retryNext current batch (failed ++ [s]))
  | scrobbling s => cases ok <;> rfl
  | pointed track => simp [ScrobbleTask.step, ScrobbleTask.awaited]
  | _ => rfl

end Step

/-! ## Every run -/

section Runs

variable {points : List ScrobbleTrack} {w : Scrobbler}

theorem Accounted.onEvent (h : Accounted points w) (event : PlaybackEvent) :
    Accounted (points ++ scrobblePoints [.onEvent event])
      (Scrobbler.next (.onEvent event) w) := by
  have hheld : event.spawned.flatMap ScrobbleTask.held = [] := by cases event <;> rfl
  have hawaited : event.spawned.flatMap ScrobbleTask.awaited = scrobblePoints [.onEvent event] := by
    cases event <;> rfl
  refine ⟨?_, ?_⟩
  · simp only [Scrobbler.next, List.flatMap_append, hheld, List.append_nil]
    exact h.conserved
  · simp only [Scrobbler.next, List.flatMap_append, hawaited, ← List.append_assoc]
    exact h.created.append_right _

theorem Accounted.step (h : Accounted points w) (i : Nat) (now : Int) (ok : Bool) :
    Accounted points (Scrobbler.next (.step i now ok) w) := by
  rw [Scrobbler.next]
  cases ht : w.tasks[i]? with
  | none => exact h
  | some t =>
    obtain ⟨hi, rfl⟩ := List.getElem?_eq_some_iff.1 ht
    obtain ⟨l₁, l₂, htasks, -, hset⟩ : ∃ l₁ l₂, w.tasks = l₁ ++ w.tasks[i] :: l₂ ∧ _ ∧
        w.tasks.set i (w.tasks[i].step now ok w).1 = l₁ ++ (w.tasks[i].step now ok w).1 :: l₂ :=
      List.exists_of_set hi
    generalize w.tasks[i] = t at htasks hset
    obtain ⟨hconserved, hcreated⟩ := h
    rw [htasks] at hconserved hcreated
    refine ⟨List.perm_iff_count.2 fun x => ?_, ?_⟩
    · have hcount := hconserved.count_eq x
      have hstep := step_conserves t now ok w x
      simp only [hset, List.flatMap_append, List.flatMap_cons, List.count_append] at hcount ⊢
      omega
    · refine List.perm_iff_count.2 fun x => ?_
      have hcount := hcreated.count_eq x
      have hstep := congrArg (List.count x) (step_creates t now ok w)
      simp only [hset, List.flatMap_append, List.flatMap_cons, List.count_append] at hcount hstep ⊢
      omega

theorem scrobblePoints_concat (es : List ScrobblerEvent) (e : ScrobblerEvent) :
    scrobblePoints (es ++ [e]) = scrobblePoints es ++ scrobblePoints [e] := by
  induction es with
  | nil => rfl
  | cons e' es ih =>
    cases e' with
    | step i now ok => exact ih
    | onEvent event =>
      cases event with
      | scrobblePoint track => exact congrArg (ScrobbleTrack.fromTrack track :: ·) ih
      | _ => exact ih

theorem accounted_run (es : List ScrobblerEvent) :
    Accounted (scrobblePoints es) (Scrobbler.run es) := by
  induction es using List.reverseRecOn with
  | nil => exact ⟨.refl _, .refl _⟩
  | append_singleton es e ih =>
    rw [Scrobbler.run, runAll_append, scrobblePoints_concat]
    cases e with
    | onEvent event => exact ih.onEvent event
    | step i now ok =>
      have hnone : scrobblePoints [.step i now ok] = [] := rfl
      rw [hnone, List.append_nil]
      exact ih.step i now ok

/-- At all times the scrobbles that the API has accepted, the pending ones and those of the running
tasks are those created, and with those still awaited there is one for each `ScrobblePoint`. When no
task is running, each is accepted or pending. -/
theorem scrobbles_conserved (es : List ScrobblerEvent) :
    let w := Scrobbler.run es
    (w.accepted ++ w.pendingScrobbles ++ w.tasks.flatMap ScrobbleTask.held).Perm w.created ∧
      (w.created.map Prod.fst ++ w.tasks.flatMap ScrobbleTask.awaited).Perm (scrobblePoints es) ∧
      ((∀ t ∈ w.tasks, t = .finished) → (w.accepted ++ w.pendingScrobbles).Perm w.created ∧
        (w.created.map Prod.fst).Perm (scrobblePoints es)) := by
  intro w
  obtain ⟨hconserved, hcreated⟩ := accounted_run es
  refine ⟨hconserved, hcreated, fun hdone => ?_⟩
  have hnone : ∀ {α : Type} (f : ScrobbleTask → List α), f .finished = [] → w.tasks.flatMap f = [] := by
    intro α f hf
    refine List.flatMap_eq_nil_iff.2 fun t ht => ?_
    rw [hdone t ht, hf]
  have hheld : w.tasks.flatMap ScrobbleTask.held = [] := hnone _ rfl
  have hawaited : w.tasks.flatMap ScrobbleTask.awaited = [] := hnone _ rfl
  constructor
  · have h : (w.accepted ++ w.pendingScrobbles ++ w.tasks.flatMap ScrobbleTask.held).Perm w.created :=
      hconserved
    rwa [hheld, List.append_nil] at h
  · have h : (w.created.map Prod.fst ++ w.tasks.flatMap ScrobbleTask.awaited).Perm
        (scrobblePoints es) := hcreated
    rwa [hawaited, List.append_nil] at h

end Runs

end Kanade

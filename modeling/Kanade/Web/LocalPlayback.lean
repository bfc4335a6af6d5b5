import Mathlib.Data.Option.Basic
import Kanade.Concur.Runs
import Kanade.Core.State

/-!
# Kanade.Web.LocalPlayback

`LocalPlaybackController` (`local-playback.ts`) with its `HlsAudioPlayer` (`hls-player.ts`): the queue
of a browser, and the source that is preloaded while the current one plays.

A run is a list of actions in any order: queue edits, transport calls, events of the audio element,
and the answers to signing requests, each at any later time. Random numbers and the position of the
audio element come with each action. Of the requests only the last one that was not aborted matters;
the answers to the others are ignored. What is only displayed (volume, duration, metadata) is left out.

`preload_agrees_iff`: wherever the source of the player ends, what is shown is what is heard, exactly
if no edit changes the track that is next under a preloaded URL, and no answer preloads another track.
-/

namespace Kanade.Web

open Concur

/-! ## The queue -/

structure LocalQueue where
  tracks : List Track
  currentIndex : Option Nat
  repeatMode : RepeatMode
  shuffleEnabled : Bool
  shuffleOrder : List Nat

/-- `Math.floor(Math.random() * n)` for the swap at `n`. -/
abbrev Random : Type := Nat → Nat

namespace LocalQueue

def empty : LocalQueue := ⟨[], none, .off, false, []⟩

def currentTrack (q : LocalQueue) : Option Track := q.currentIndex.bind fun i => q.tracks[i]?

def currentId (q : LocalQueue) : Option String := q.currentTrack.map Track.id

def swap (l : List Nat) (i j : Nat) : List Nat :=
  match l[i]?, l[j]? with
  | some a, some b => (l.set i b).set j a
  | _, _ => l

/-- The loop of `buildShuffleOrder`, down to the index 2. -/
def shuffleFrom (random : Random) : Nat → List Nat → List Nat
  | n + 2, l => shuffleFrom random (n + 1) (swap l (n + 2) (1 + random (n + 2) % (n + 2)))
  | _, l => l

def buildShuffleOrder (random : Random) (q : LocalQueue) : LocalQueue :=
  if q.shuffleEnabled = false ∨ q.tracks = [] then { q with shuffleOrder := [] }
  else
    let indices := List.range q.tracks.length
    let indices :=
      match indices.idxOf? (q.currentIndex.getD 0) with
      | some currentPosition => if 0 < currentPosition then swap indices 0 currentPosition else indices
      | none => indices
    { q with shuffleOrder := shuffleFrom random (q.tracks.length - 1) indices }

def resolveNextIndex (q : LocalQueue) : Option Nat :=
  match q.currentIndex with
  | none => none
  | some current =>
    if q.shuffleEnabled then
      -- `indexOf` is -1 for an index that is not in the order
      let nextShuffleIndex :=
        match q.shuffleOrder.idxOf? current with
        | some shufflePosition => q.shuffleOrder[shufflePosition + 1]?
        | none => q.shuffleOrder[0]?
      match nextShuffleIndex with
      | some next => some next
      | none => if q.repeatMode = .all then q.shuffleOrder[0]? else none
    else if current + 1 < q.tracks.length then some (current + 1)
    else if q.repeatMode = .all ∧ 0 < q.tracks.length then some 0
    else none

/-- `advance`; `none` for `false`. -/
def advance (q : LocalQueue) : Option LocalQueue :=
  match q.currentIndex with
  | none => none
  | some _ =>
    if q.repeatMode = .one then some q
    else q.resolveNextIndex.map fun next => { q with currentIndex := some next }

def goBack (q : LocalQueue) : Option LocalQueue :=
  match q.currentIndex with
  | none => none
  | some current =>
    if q.shuffleEnabled then
      match q.shuffleOrder.idxOf? current with
      | some (p + 1) => q.shuffleOrder[p]?.map fun i => { q with currentIndex := some i }
      | _ => none
    else if current = 0 then none
    else some { q with currentIndex := some (current - 1) }

def add (random : Random) (ts : List Track) (q : LocalQueue) : LocalQueue :=
  buildShuffleOrder random { q with tracks := q.tracks ++ ts }

/-- `removeFromQueue` of an index in range. -/
def remove (random : Random) (index : Nat) (q : LocalQueue) : LocalQueue :=
  let tracks := q.tracks.eraseIdx index
  let currentIndex := q.currentIndex.bind fun current =>
    if index < current then some (current - 1)
    else if index = current then
      if tracks = [] then none
      else if tracks.length ≤ current then some (tracks.length - 1)
      else some current
    else some current
  buildShuffleOrder random { q with tracks := tracks, currentIndex := currentIndex }

/-- `moveInQueue` between two indices in range. -/
def move (random : Random) (src dst : Nat) (q : LocalQueue) : LocalQueue :=
  match q.tracks[src]? with
  | none => q
  | some track =>
    let currentIndex := q.currentIndex.map fun current =>
      if current = src then dst
      else if src < current ∧ current ≤ dst then current - 1
      else if current < src ∧ dst ≤ current then current + 1
      else current
    buildShuffleOrder random
      { q with tracks := (q.tracks.eraseIdx src).insertIdx dst track, currentIndex := currentIndex }

/-- The index that is next: the current one under repeat one and where nothing follows. -/
def upNext (q : LocalQueue) : Option Nat :=
  if q.repeatMode = .one then q.currentIndex else q.resolveNextIndex.or q.currentIndex

def comesNext (q : LocalQueue) : Option String := (q.upNext.bind fun i => q.tracks[i]?).map Track.id

variable {q q' : LocalQueue}

@[simp] theorem buildShuffleOrder_tracks (random : Random) (q : LocalQueue) :
    (buildShuffleOrder random q).tracks = q.tracks := by
  unfold buildShuffleOrder
  split <;> rfl

@[simp] theorem buildShuffleOrder_currentIndex (random : Random) (q : LocalQueue) :
    (buildShuffleOrder random q).currentIndex = q.currentIndex := by
  unfold buildShuffleOrder
  split <;> rfl

@[simp] theorem buildShuffleOrder_currentId (random : Random) (q : LocalQueue) :
    (buildShuffleOrder random q).currentId = q.currentId := by
  unfold buildShuffleOrder
  split <;> rfl

/-- What is shown after the current track has ended. -/
theorem currentId_advance (q : LocalQueue) : (q.advance.getD q).currentId = q.comesNext := by
  unfold advance comesNext upNext
  cases hc : q.currentIndex with
  | none =>
    have hnext : q.resolveNextIndex = none := by simp [resolveNextIndex, hc]
    simp [currentId, currentTrack, hc, hnext]
  | some current =>
    by_cases hone : q.repeatMode = .one
    · simp [currentId, currentTrack, hc, hone]
    · cases q.resolveNextIndex <;> simp [currentId, currentTrack, hc, hone]

end LocalQueue

/-! ## The player -/

/-- A URL signed for the path of a track. -/
structure MediaUrl where
  trackId : String
  query : String
deriving DecidableEq

structure HlsPlayer where
  status : PlaybackStatus
  playlist : List MediaUrl
  currentSongIndex : Nat
  source : Option MediaUrl
  preloadedNextUrl : Option MediaUrl

/-- What the audio element reports, and a `play` of it that failed. -/
inductive AudioEvent where
  | timeUpdate
  | play
  | pause
  | waiting
  | canPlay (isPaused : Bool)
  | error

namespace HlsPlayer

/-- The status that is emitted after an event of the audio element. -/
def statusAfter (player : HlsPlayer) : AudioEvent → Option PlaybackStatus
  | .timeUpdate => some player.status
  | .play => some .playing
  | .pause => some (if player.status = .stopped then .stopped else .paused)
  | .waiting => some .loading
  | .canPlay isPaused =>
    if player.status = .loading then some (if isPaused then .paused else .playing) else none
  | .error => some .stopped

/-- The URL to which the player goes over when its source ends, if that is the preloaded one. -/
def autoAdvance (player : HlsPlayer) : Option MediaUrl :=
  if player.currentSongIndex + 1 < player.playlist.length then none else player.preloadedNextUrl

end HlsPlayer

/-! ## The controller -/

structure LoadRequest where
  trackId : String
  autoplay : Bool
deriving DecidableEq

structure PreloadRequest where
  nextIndex : Nat
  trackId : String
  expected : Option String
deriving DecidableEq

/-- `load` and `preload` are the requests whose answers still count. -/
structure LocalPlayback where
  queue : LocalQueue
  status : PlaybackStatus
  positionSecs : ℚ
  load : Option LoadRequest
  preload : Option PreloadRequest
  preloadedNextIndex : Option Nat
  player : HlsPlayer

/-- What a step finds outside: the random numbers and the position of the audio element. -/
structure Chance where
  random : Random
  currentTime : ℚ

namespace LocalPlayback

def init : LocalPlayback where
  queue := .empty
  status := .stopped
  positionSecs := 0
  load := none
  preload := none
  preloadedNextIndex := none
  player := ⟨.stopped, [], 0, none, none⟩

def clearPreload (s : LocalPlayback) : LocalPlayback :=
  { s with preload := none, preloadedNextIndex := none,
           player := { s.player with preloadedNextUrl := none } }

def updatePreloadIfNeeded (s : LocalPlayback) : LocalPlayback :=
  if s.status ≠ .playing then clearPreload s
  else
    match s.queue.resolveNextIndex with
    | none => clearPreload s
    | some nextIndex =>
      if s.queue.currentIndex = some nextIndex then clearPreload s
      else if s.preloadedNextIndex = some nextIndex then s
      else
        match s.queue.tracks[nextIndex]? with
        | none => clearPreload s
        | some nextTrack =>
          { clearPreload s with preload := some ⟨nextIndex, nextTrack.id, s.queue.currentId⟩ }

/-- An emission of the player with this status, and `syncFromPlayerState`. -/
def emitStatus (ch : Chance) (status : PlaybackStatus) (s : LocalPlayback) : LocalPlayback :=
  let s := { s with status := status, positionSecs := ch.currentTime,
                    player := { s.player with status := status } }
  if status = .playing then updatePreloadIfNeeded s else s

/-- `stop` of the player: the position is 0 then. -/
def stopPlayer (ch : Chance) (s : LocalPlayback) : LocalPlayback :=
  emitStatus { ch with currentTime := 0 } .stopped
    { s with player := { s.player with preloadedNextUrl := none } }

def stop (ch : Chance) (s : LocalPlayback) : LocalPlayback :=
  { stopPlayer ch { clearPreload s with load := none } with status := .stopped, positionSecs := 0 }

/-- `loadCurrentTrack` up to the request. -/
def loadCurrentTrack (ch : Chance) (autoplay : Bool) (s : LocalPlayback) : LocalPlayback :=
  match s.queue.currentTrack with
  | none => stop ch s
  | some track =>
    { clearPreload s with
        load := some ⟨track.id, autoplay⟩
        status := if autoplay then .loading else .paused
        positionSecs := 0 }

/-- `play` of the player; a playlist that is not empty has a source attached. -/
def playPlayer (ch : Chance) (s : LocalPlayback) : LocalPlayback :=
  if s.player.playlist = [] then s else emitStatus ch .loading s

/-- The rest of `loadCurrentTrack`; `none` is an answer without the URL or an error. -/
def loadSigned (ch : Chance) (query : Option String) (s : LocalPlayback) : LocalPlayback :=
  match s.load with
  | none => s
  | some request =>
    let s := { s with load := none }
    if s.queue.currentId ≠ some request.trackId then s
    else
      match query with
      | none => { s with status := .stopped }
      | some query =>
        let url : MediaUrl := ⟨request.trackId, query⟩
        -- `setQueue([signedUrl], 0)`
        let s := emitStatus ch .loading
          { s with player := { s.player with playlist := [url], currentSongIndex := 0,
                                             source := some url, preloadedNextUrl := none } }
        if request.autoplay then playPlayer ch s else s

/-- The answer to the request of `updatePreloadIfNeeded`. -/
def preloadSigned (query : Option String) (s : LocalPlayback) : LocalPlayback :=
  match s.preload with
  | none => s
  | some request =>
    let s := { s with preload := none }
    if s.queue.currentId ≠ request.expected then s
    else if s.queue.resolveNextIndex ≠ some request.nextIndex then s
    else
      match query with
      | none => s
      | some query =>
        { s with preloadedNextIndex := some request.nextIndex,
                 player := { s.player with preloadedNextUrl := some ⟨request.trackId, query⟩ } }

/-! ### Queue operations -/

def clampIndex (index : Int) (length : Nat) : Option Nat :=
  if length = 0 then none else some (max 0 (min index (length - 1))).toNat

def playTracks (ch : Chance) (tracks : List Track) (startIndex : Int) (s : LocalPlayback) :
    LocalPlayback :=
  loadCurrentTrack ch true
    { s with queue := .buildShuffleOrder ch.random
              { s.queue with tracks := tracks, currentIndex := clampIndex startIndex tracks.length } }

def addToQueue (ch : Chance) (track : Track) (s : LocalPlayback) : LocalPlayback :=
  let queue := s.queue.add ch.random [track]
  if queue.currentTrack = none ∧ queue.tracks.length = 1 then
    loadCurrentTrack ch false { s with queue := { queue with currentIndex := some 0 } }
  else { s with queue := queue }

def addTracksToQueue (ch : Chance) (tracks : List Track) (s : LocalPlayback) : LocalPlayback :=
  let queue := s.queue.add ch.random tracks
  if s.queue.currentTrack = none ∧ 0 < queue.tracks.length then
    loadCurrentTrack ch false { s with queue := { queue with currentIndex := some 0 } }
  else { s with queue := queue }

def removeFromQueue (ch : Chance) (index : Int) (s : LocalPlayback) : LocalPlayback :=
  if index < 0 ∨ (s.queue.tracks.length : Int) ≤ index then s
  else
    let queue := s.queue.remove ch.random index.toNat
    if s.queue.currentIndex = some index.toNat ∧ queue.tracks = [] then
      stop ch { s with queue := queue }
    else if queue.currentId ≠ s.queue.currentId then
      loadCurrentTrack ch (s.status = .playing ∨ s.status = .loading : Bool)
        { s with queue := queue }
    else { s with queue := queue }

def moveInQueue (ch : Chance) (src dst : Int) (s : LocalPlayback) : LocalPlayback :=
  if src = dst ∨ src < 0 ∨ dst < 0 ∨ (s.queue.tracks.length : Int) ≤ src ∨
      (s.queue.tracks.length : Int) ≤ dst then s
  else { s with queue := s.queue.move ch.random src.toNat dst.toNat }

def clearQueue (ch : Chance) (s : LocalPlayback) : LocalPlayback :=
  stop ch { s with queue := { s.queue with tracks := [], currentIndex := none, shuffleOrder := [] } }

def jumpToIndex (ch : Chance) (index : Int) (s : LocalPlayback) : LocalPlayback :=
  if index < 0 ∨ (s.queue.tracks.length : Int) ≤ index then s
  else
    loadCurrentTrack ch true
      { s with queue := .buildShuffleOrder ch.random
                { s.queue with currentIndex := some index.toNat } }

/-! ### Transport -/

def play (ch : Chance) (s : LocalPlayback) : LocalPlayback :=
  if s.queue.tracks = [] then s
  else if s.queue.currentTrack = none then
    loadCurrentTrack ch true
      { s with queue := .buildShuffleOrder ch.random { s.queue with currentIndex := some 0 } }
  else if s.status = .stopped then loadCurrentTrack ch true s
  else playPlayer ch s

/-- `seek`, and `setVolume` with the volume left out: the player emits its state. -/
def seek (ch : Chance) (s : LocalPlayback) : LocalPlayback := emitStatus ch s.player.status s

/-- Load the track of the queue that came out, or stop. -/
def loadAdvanced (ch : Chance) (s : LocalPlayback) : Option LocalQueue → LocalPlayback
  | none => stop ch s
  | some queue => loadCurrentTrack ch true { s with queue := queue.buildShuffleOrder ch.random }

def next (ch : Chance) (s : LocalPlayback) : LocalPlayback := loadAdvanced ch s s.queue.advance

def previous (ch : Chance) (s : LocalPlayback) : LocalPlayback :=
  if 3 < s.positionSecs then seek ch s
  else
    match s.queue.goBack with
    | none => seek ch s
    | some queue => loadCurrentTrack ch true { s with queue := queue.buildShuffleOrder ch.random }

def setRepeat (mode : RepeatMode) (s : LocalPlayback) : LocalPlayback :=
  updatePreloadIfNeeded { s with queue := { s.queue with repeatMode := mode } }

def setShuffle (ch : Chance) (enabled : Bool) (s : LocalPlayback) : LocalPlayback :=
  updatePreloadIfNeeded
    { s with queue := .buildShuffleOrder ch.random { s.queue with shuffleEnabled := enabled } }

/-! ### The end of a source -/

def handlePlaybackFinished (ch : Chance) (s : LocalPlayback) : LocalPlayback :=
  loadAdvanced ch s s.queue.advance

def handleTrackAdvanced (ch : Chance) (s : LocalPlayback) : LocalPlayback :=
  match s.queue.advance with
  | none => stop ch s
  | some queue =>
    updatePreloadIfNeeded
      { s with queue := queue.buildShuffleOrder ch.random, preloadedNextIndex := none,
               positionSecs := 0, status := .loading }

/-- `handleEnded`. -/
def ended (ch : Chance) (s : LocalPlayback) : LocalPlayback :=
  let nextSong := s.player.currentSongIndex + 1
  match s.player.playlist[nextSong]? with
  | some url =>
    emitStatus ch .loading
      { s with player := { s.player with currentSongIndex := nextSong, source := some url } }
  | none =>
    match s.player.preloadedNextUrl with
    | some url =>
      handleTrackAdvanced ch <| emitStatus ch .loading
        { s with player := { s.player with preloadedNextUrl := none, currentSongIndex := nextSong,
                                           source := some url } }
    | none => handlePlaybackFinished ch (emitStatus ch .stopped s)

end LocalPlayback

/-! ## Runs -/

inductive LocalAction where
  | playTracks (tracks : List Track) (startIndex : Int)
  | addToQueue (track : Track)
  | addTracksToQueue (tracks : List Track)
  | removeFromQueue (index : Int)
  | moveInQueue (src dst : Int)
  | clearQueue
  | jumpToIndex (index : Int)
  | play
  | pause
  | stop
  | seek
  | next
  | previous
  | setRepeat (mode : RepeatMode)
  | setShuffle (enabled : Bool)
  | mediaSessionPlay
  | audio (event : AudioEvent)
  | ended
  | loadSigned (query : Option String)
  | preloadSigned (query : Option String)
  | preloadError

namespace LocalPlayback

def step : LocalAction × Chance → LocalPlayback → LocalPlayback
  | (.playTracks tracks startIndex, ch), s => playTracks ch tracks startIndex s
  | (.addToQueue track, ch), s => addToQueue ch track s
  | (.addTracksToQueue tracks, ch), s => addTracksToQueue ch tracks s
  | (.removeFromQueue index, ch), s => removeFromQueue ch index s
  | (.moveInQueue src dst, ch), s => moveInQueue ch src dst s
  | (.clearQueue, ch), s => clearQueue ch s
  | (.jumpToIndex index, ch), s => jumpToIndex ch index s
  | (.play, ch), s => play ch s
  -- the audio element reports the pause as an event
  | (.pause, _), s => s
  | (.stop, ch), s => stop ch s
  | (.seek, ch), s => seek ch s
  | (.next, ch), s => next ch s
  | (.previous, ch), s => previous ch s
  | (.setRepeat mode, _), s => setRepeat mode s
  | (.setShuffle enabled, ch), s => setShuffle ch enabled s
  | (.mediaSessionPlay, ch), s => playPlayer ch s
  | (.audio event, ch), s =>
    match s.player.statusAfter event with
    | some status => emitStatus ch status s
    | none => s
  | (.ended, ch), s => ended ch s
  | (.loadSigned query, ch), s => loadSigned ch query s
  | (.preloadSigned query, _), s => preloadSigned query s
  -- a fatal error of the preloading `Hls`
  | (.preloadError, _), s => { s with player := { s.player with preloadedNextUrl := none } }

abbrev url (s : LocalPlayback) : Option MediaUrl := s.player.preloadedNextUrl

/-- What is shown is what is heard, if the source ends now and the player goes over to the preloaded
URL. -/
def Agrees (s : LocalPlayback) : Prop :=
  ∀ url ∈ s.player.autoAdvance, ∀ ch,
    (ended ch s).player.source = some url ∧ (ended ch s).queue.currentId = some url.trackId

/-- `updatePreloadIfNeeded` returns without a change. -/
def RetainsPreload (s : LocalPlayback) : Prop :=
  s.status = .playing ∧ ∃ i ∈ s.preloadedNextIndex,
    s.queue.resolveNextIndex = some i ∧ s.queue.currentIndex ≠ some i

instance (s : LocalPlayback) : Decidable s.RetainsPreload :=
  inferInstanceAs (Decidable (_ ∧ ∃ i ∈ s.preloadedNextIndex, _))

/-- The queue that an action leaves under the same preloaded URL, if it is one that edits it. -/
def edited (s : LocalPlayback) : LocalAction × Chance → Option LocalQueue
  | (.addToQueue track, ch) =>
    let queue := s.queue.add ch.random [track]
    if queue.currentTrack = none ∧ queue.tracks.length = 1 then none else some queue
  | (.addTracksToQueue tracks, ch) =>
    let queue := s.queue.add ch.random tracks
    if s.queue.currentTrack = none ∧ 0 < queue.tracks.length then none else some queue
  | (.removeFromQueue index, ch) =>
    let queue := s.queue.remove ch.random index.toNat
    if index < 0 ∨ (s.queue.tracks.length : Int) ≤ index then none
    else if s.queue.currentIndex = some index.toNat ∧ queue.tracks = [] then none
    else if queue.currentId ≠ s.queue.currentId then none
    else some queue
  | (.moveInQueue src dst, ch) =>
    if src = dst ∨ src < 0 ∨ dst < 0 ∨ (s.queue.tracks.length : Int) ≤ src ∨
        (s.queue.tracks.length : Int) ≤ dst then none
    else some (s.queue.move ch.random src.toNat dst.toNat)
  | (.setRepeat mode, _) =>
    let s := { s with queue := { s.queue with repeatMode := mode } }
    if s.RetainsPreload then some s.queue else none
  | (.setShuffle enabled, ch) =>
    let s := { s with queue := .buildShuffleOrder ch.random
                        { s.queue with shuffleEnabled := enabled } }
    if s.RetainsPreload then some s.queue else none
  | _ => none

/-- The request that is answered with a URL which is preloaded. -/
def answered (s : LocalPlayback) : LocalAction × Chance → Option PreloadRequest
  | (.preloadSigned (some _), _) =>
    s.preload.filter fun r =>
      s.queue.currentId = r.expected ∧ s.queue.resolveNextIndex = some r.nextIndex
  | _ => none

/-- An edit under a preloaded URL leaves the track that is next, and a URL that arrives is that of the
track that is next. -/
def KeepsNext (a : LocalAction × Chance) (s : LocalPlayback) : Prop :=
  (s.url.isSome → ∀ queue ∈ s.edited a, queue.comesNext = s.queue.comesNext) ∧
    ∀ r ∈ s.answered a, s.queue.comesNext = some r.trackId

/-! ### What a step leaves -/

section Steps

variable {s : LocalPlayback} {ch : Chance}

theorem updatePreload_of_retains (h : s.RetainsPreload) : updatePreloadIfNeeded s = s := by
  obtain ⟨hstatus, i, hi, hnext, hne⟩ := h
  simp [updatePreloadIfNeeded, hstatus, hnext, hne, Option.mem_def.1 hi]

theorem updatePreload_url_of_not_retains (h : ¬ s.RetainsPreload) :
    (updatePreloadIfNeeded s).url = none := by
  unfold updatePreloadIfNeeded
  split
  · rfl
  rename_i hstatus
  split
  · rfl
  rename_i nextIndex hnext
  split
  · rfl
  rename_i hne
  split
  · rename_i hpreloaded
    exact absurd ⟨not_not.1 hstatus, nextIndex, hpreloaded, hnext, hne⟩ h
  split <;> rfl

@[simp] theorem updatePreload_queue (s : LocalPlayback) :
    (updatePreloadIfNeeded s).queue = s.queue := by
  unfold updatePreloadIfNeeded clearPreload
  repeat' split
  all_goals rfl

@[simp] theorem updatePreload_playlist (s : LocalPlayback) :
    (updatePreloadIfNeeded s).player.playlist = s.player.playlist := by
  unfold updatePreloadIfNeeded clearPreload
  repeat' split
  all_goals rfl

@[simp] theorem emitStatus_queue (ch : Chance) (status : PlaybackStatus) (s : LocalPlayback) :
    (emitStatus ch status s).queue = s.queue := by
  unfold emitStatus
  dsimp only
  split
  · rw [updatePreload_queue]
  · rfl

@[simp] theorem emitStatus_playlist (ch : Chance) (status : PlaybackStatus) (s : LocalPlayback) :
    (emitStatus ch status s).player.playlist = s.player.playlist := by
  unfold emitStatus
  dsimp only
  split
  · rw [updatePreload_playlist]
  · rfl

theorem emitStatus_url (ch : Chance) (status : PlaybackStatus) (s : LocalPlayback) :
    (emitStatus ch status s).url = none ∨ (emitStatus ch status s).url = s.url := by
  unfold emitStatus
  dsimp only
  split
  · by_cases h : RetainsPreload { s with status := status, positionSecs := ch.currentTime,
                                         player := { s.player with status := status } }
    · rw [updatePreload_of_retains h]
      exact .inr rfl
    · exact .inl (updatePreload_url_of_not_retains h)
  · exact .inr rfl

@[simp] theorem stop_url (ch : Chance) (s : LocalPlayback) : (stop ch s).url = none := rfl

@[simp] theorem stop_queue (ch : Chance) (s : LocalPlayback) : (stop ch s).queue = s.queue := rfl

@[simp] theorem stop_playlist (ch : Chance) (s : LocalPlayback) :
    (stop ch s).player.playlist = s.player.playlist := rfl

@[simp] theorem loadCurrentTrack_url (ch : Chance) (autoplay : Bool) (s : LocalPlayback) :
    (loadCurrentTrack ch autoplay s).url = none := by
  unfold loadCurrentTrack
  split <;> rfl

@[simp] theorem loadCurrentTrack_playlist (ch : Chance) (autoplay : Bool) (s : LocalPlayback) :
    (loadCurrentTrack ch autoplay s).player.playlist = s.player.playlist := by
  unfold loadCurrentTrack
  split <;> rfl

@[simp] theorem loadCurrentTrack_queue (ch : Chance) (autoplay : Bool) (s : LocalPlayback) :
    (loadCurrentTrack ch autoplay s).queue = s.queue := by
  unfold loadCurrentTrack
  split <;> rfl

@[simp] theorem loadAdvanced_url (ch : Chance) (s : LocalPlayback) (q : Option LocalQueue) :
    (loadAdvanced ch s q).url = none := by
  cases q
  · exact stop_url ch s
  · exact loadCurrentTrack_url ch true _

@[simp] theorem loadAdvanced_playlist (ch : Chance) (s : LocalPlayback) (q : Option LocalQueue) :
    (loadAdvanced ch s q).player.playlist = s.player.playlist := by
  cases q
  · exact stop_playlist ch s
  · exact loadCurrentTrack_playlist ch true _

/-- The preloaded URL is gone, or it is the one before, under the same queue. -/
def Follows (s s' : LocalPlayback) : Prop := s'.url = none ∨ s'.url = s.url ∧ s'.queue = s.queue

theorem Follows.rfl : Follows s s := .inr ⟨Eq.refl _, Eq.refl _⟩

theorem follows_emitStatus (ch : Chance) (status : PlaybackStatus) (s : LocalPlayback) :
    Follows s (emitStatus ch status s) :=
  (emitStatus_url ch status s).imp_right fun h => ⟨h, emitStatus_queue ch status s⟩

theorem follows_playPlayer (ch : Chance) (s : LocalPlayback) : Follows s (playPlayer ch s) := by
  unfold playPlayer
  split
  · exact .rfl
  · exact follows_emitStatus ch .loading s

theorem follows_loadSigned (ch : Chance) (query : Option String) (s : LocalPlayback) :
    Follows s (loadSigned ch query s) := by
  unfold loadSigned
  split
  · exact .rfl
  dsimp only
  split
  · exact .rfl
  split
  · exact .rfl
  split
  · exact .inl rfl
  · exact .inl rfl

theorem handleTrackAdvanced_spec (ch : Chance) (s : LocalPlayback) :
    (handleTrackAdvanced ch s).url = none ∧
      (handleTrackAdvanced ch s).player.source = s.player.source ∧
      (handleTrackAdvanced ch s).player.playlist = s.player.playlist ∧
      (handleTrackAdvanced ch s).queue.currentId = s.queue.comesNext := by
  have hid := s.queue.currentId_advance
  unfold handleTrackAdvanced
  cases hadvance : s.queue.advance with
  | none => exact ⟨rfl, rfl, rfl, by simpa [hadvance] using hid⟩
  | some queue =>
    refine ⟨rfl, rfl, rfl, ?_⟩
    simpa [hadvance] using hid

/-- What is attached and what is shown when the player goes over to the preloaded URL. -/
theorem ended_of_autoAdvance {url : MediaUrl} (h : s.player.autoAdvance = some url) (ch : Chance) :
    (ended ch s).player.source = some url ∧ (ended ch s).queue.currentId = s.queue.comesNext := by
  unfold HlsPlayer.autoAdvance at h
  split at h
  · cases h
  rename_i hlast
  have hsong : s.player.playlist[s.player.currentSongIndex + 1]? = none :=
    List.getElem?_eq_none (Nat.not_lt.1 hlast)
  unfold ended
  simp only [hsong, h]
  obtain ⟨-, hsource, -, hid⟩ := handleTrackAdvanced_spec ch (emitStatus ch .loading
    { s with player := { s.player with preloadedNextUrl := none,
                                       currentSongIndex := s.player.currentSongIndex + 1,
                                       source := some url } })
  exact ⟨hsource, hid⟩

theorem agrees_iff :
    Agrees s ↔ ∀ url ∈ s.player.autoAdvance, s.queue.comesNext = some url.trackId := by
  constructor
  · intro h url hurl
    have ch : Chance := ⟨fun _ => 0, 0⟩
    rw [← (ended_of_autoAdvance hurl ch).2]
    exact (h url hurl ch).2
  · intro h url hurl ch
    obtain ⟨hsource, hid⟩ := ended_of_autoAdvance hurl ch
    exact ⟨hsource, hid.trans (h url hurl)⟩

/-- A playlist of one URL has no second song. -/
theorem ended_follows (h : s.player.playlist.length ≤ 1) (ch : Chance) :
    (ended ch s).url = none ∧ (ended ch s).player.playlist = s.player.playlist := by
  have hsong : s.player.playlist[s.player.currentSongIndex + 1]? = none :=
    List.getElem?_eq_none (by omega)
  unfold ended
  simp only [hsong]
  split
  · obtain ⟨hurl, -, hplaylist, -⟩ := handleTrackAdvanced_spec ch (emitStatus ch .loading
      { s with player := { s.player with preloadedNextUrl := none,
                                         currentSongIndex := s.player.currentSongIndex + 1,
                                         source := some _ } })
    exact ⟨hurl, hplaylist⟩
  · exact ⟨loadAdvanced_url ch _ _, loadAdvanced_playlist ch _ _⟩

/-- What a step does to the URL and the queue: it leaves them or clears the URL, it edits the queue
under the URL, or it preloads the URL for a request. -/
inductive Effect (s s' : LocalPlayback) : Option LocalQueue → Option PreloadRequest → Prop where
  | follows (h : Follows s s') : Effect s s' none none
  | edits (h : s'.url = s.url) : Effect s s' (some s'.queue) none
  | preloads (r : PreloadRequest) (query : String) (hqueue : s'.queue = s.queue)
      (h : s'.url = some ⟨r.trackId, query⟩) : Effect s s' none (some r)

theorem Effect.clears {s' : LocalPlayback} (h : s'.url = none) : Effect s s' none none :=
  .follows (.inl h)

theorem effect_updatePreload (queue : LocalQueue) :
    Effect s (updatePreloadIfNeeded { s with queue := queue })
      (if RetainsPreload { s with queue := queue } then some queue else none) none := by
  split
  · rename_i hretains
    rw [updatePreload_of_retains hretains]
    exact .edits rfl
  · rename_i hretains
    exact .clears (updatePreload_url_of_not_retains hretains)

theorem answered_eq {r : PreloadRequest} (h : s.preload = some r) (query : String) :
    s.answered (.preloadSigned (some query), ch) =
      if s.queue.currentId = r.expected ∧ s.queue.resolveNextIndex = some r.nextIndex then some r
      else none := by
  simp [answered, h, Option.filter_some]

theorem effect_preloadSigned (query : Option String) (ch : Chance) (s : LocalPlayback) :
    Effect s (preloadSigned query s) none (s.answered (.preloadSigned query, ch)) := by
  cases hpreload : s.preload with
  | none =>
    have hanswered : s.answered (.preloadSigned query, ch) = none := by
      cases query <;> simp [answered, hpreload]
    rw [hanswered, preloadSigned, hpreload]
    exact .follows .rfl
  | some request =>
    unfold preloadSigned
    rw [hpreload]
    cases query with
    | none =>
      refine .follows ?_
      dsimp only
      repeat' split
      all_goals exact .inr ⟨rfl, rfl⟩
    | some query =>
      rw [answered_eq hpreload]
      dsimp only
      split
      · rename_i hid
        rw [if_neg fun h => hid h.1]
        exact .follows (.inr ⟨rfl, rfl⟩)
      rename_i hid
      split
      · rename_i hnext
        rw [if_neg fun h => hnext h.2]
        exact .follows (.inr ⟨rfl, rfl⟩)
      rename_i hnext
      rw [if_pos ⟨not_not.1 hid, not_not.1 hnext⟩]
      exact .preloads request query rfl rfl

theorem step_effect (h : s.player.playlist.length ≤ 1) (a : LocalAction × Chance) :
    Effect s (step a s) (s.edited a) (s.answered a) := by
  obtain ⟨action, ch⟩ := a
  cases action with
  | playTracks tracks startIndex => exact .clears (loadCurrentTrack_url ch true _)
  | addToQueue track =>
    simp only [edited, answered, step, addToQueue]
    split
    · exact .clears (loadCurrentTrack_url ch false _)
    · exact .edits rfl
  | addTracksToQueue tracks =>
    simp only [edited, answered, step, addTracksToQueue]
    split
    · exact .clears (loadCurrentTrack_url ch false _)
    · exact .edits rfl
  | removeFromQueue index =>
    simp only [edited, answered, step, removeFromQueue]
    split
    · exact .follows .rfl
    split
    · exact .clears (stop_url ch _)
    split
    · exact .clears (loadCurrentTrack_url ch _ _)
    · exact .edits rfl
  | moveInQueue src dst =>
    simp only [edited, answered, step, moveInQueue]
    split
    · exact .follows .rfl
    · exact .edits rfl
  | clearQueue => exact .clears (stop_url ch _)
  | jumpToIndex index =>
    simp only [edited, answered, step, jumpToIndex]
    split
    · exact .follows .rfl
    · exact .clears (loadCurrentTrack_url ch true _)
  | play =>
    simp only [edited, answered, step, play]
    split
    · exact .follows .rfl
    split
    · exact .clears (loadCurrentTrack_url ch true _)
    split
    · exact .clears (loadCurrentTrack_url ch true _)
    · exact .follows (follows_playPlayer ch s)
  | pause => exact .follows .rfl
  | stop => exact .clears (stop_url ch s)
  | seek => exact .follows (follows_emitStatus ch _ s)
  | next => exact .clears (loadAdvanced_url ch s _)
  | previous =>
    simp only [edited, answered, step, previous]
    split
    · exact .follows (follows_emitStatus ch _ s)
    split
    · exact .follows (follows_emitStatus ch _ s)
    · exact .clears (loadCurrentTrack_url ch true _)
  | setRepeat mode => exact effect_updatePreload _
  | setShuffle enabled => exact effect_updatePreload _
  | mediaSessionPlay => exact .follows (follows_playPlayer ch s)
  | audio event =>
    simp only [edited, answered, step]
    split
    · exact .follows (follows_emitStatus ch _ s)
    · exact .follows .rfl
  | ended => exact .clears (ended_follows h ch).1
  | loadSigned query => exact .follows (follows_loadSigned ch query s)
  | preloadSigned query => exact effect_preloadSigned query ch s
  | preloadError => exact .clears rfl

theorem playlist_loadSigned (h : s.player.playlist.length ≤ 1) (query : Option String) :
    (loadSigned ch query s).player.playlist.length ≤ 1 := by
  unfold loadSigned playPlayer
  repeat' (first | split | dsimp only)
  all_goals simp [h]

/-- The playlist of the player is what `loadCurrentTrack` sets. -/
theorem playlist_step (h : s.player.playlist.length ≤ 1) (a : LocalAction × Chance) :
    (step a s).player.playlist.length ≤ 1 := by
  obtain ⟨action, ch⟩ := a
  cases action with
  | loadSigned query => exact playlist_loadSigned h query
  | ended => exact (ended_follows h ch).2 ▸ h
  | preloadSigned query =>
    simp only [step, preloadSigned]
    repeat' split
    all_goals exact h
  | _ =>
    simp only [step, playTracks, addToQueue, addTracksToQueue, removeFromQueue, moveInQueue,
      clearQueue, jumpToIndex, play, playPlayer, seek, next, previous, setRepeat, setShuffle,
      updatePreload_playlist, emitStatus_playlist, stop_playlist, loadAdvanced_playlist,
      loadCurrentTrack_playlist]
    repeat' split
    all_goals simpa using h

end Steps

/-! ## Every run -/

/-- The preloaded URL is that of the track that is next. -/
structure Matches (s : LocalPlayback) : Prop where
  playlist : s.player.playlist.length ≤ 1
  next : ∀ url ∈ s.url, s.queue.comesNext = some url.trackId

variable {s : LocalPlayback} {a : LocalAction × Chance}

theorem agrees_iff_next (h : s.player.playlist.length ≤ 1) :
    Agrees s ↔ ∀ url ∈ s.url, s.queue.comesNext = some url.trackId := by
  rw [agrees_iff, HlsPlayer.autoAdvance, if_neg (by omega)]

theorem matches_step (h : Matches s) (hkeeps : KeepsNext a s) : Matches (step a s) := by
  refine ⟨playlist_step h.playlist a, fun url hurl => ?_⟩
  obtain ⟨hedits, hanswers⟩ := hkeeps
  have heffect := step_effect h.playlist a
  generalize s.edited a = edited, s.answered a = answered at *
  cases heffect with
  | follows hfollows =>
    rcases hfollows with hnone | ⟨hsame, hqueue⟩
    · rw [hnone] at hurl
      cases hurl
    · rw [hqueue]
      exact h.next url (hsame ▸ hurl)
  | edits hsame =>
    rw [hsame] at hurl
    rw [hedits (Option.isSome_of_mem hurl) _ rfl]
    exact h.next url hurl
  | preloads r query hqueue hnew =>
    rw [hnew] at hurl
    cases hurl
    rw [hqueue]
    exact hanswers r rfl

theorem not_agrees_step (h : Matches s) (hkeeps : ¬ KeepsNext a s) : ¬ Agrees (step a s) := by
  rw [agrees_iff_next (playlist_step h.playlist a)]
  intro hnext
  refine hkeeps ?_
  have heffect := step_effect h.playlist a
  unfold KeepsNext
  generalize s.edited a = edited, s.answered a = answered at *
  cases heffect with
  | follows _ => exact ⟨fun _ _ hq => (nomatch hq), fun _ hr => nomatch hr⟩
  | edits hsame =>
    refine ⟨fun hsome queue hqueue => ?_, fun _ hr => nomatch hr⟩
    cases hqueue
    obtain ⟨url, hurl⟩ := Option.isSome_iff_exists.1 hsome
    rw [hnext url (hsame.trans hurl), h.next url hurl]
  | preloads r query hqueue hnew =>
    refine ⟨fun _ _ hq => (nomatch hq), fun r' hr => ?_⟩
    cases hr
    rw [← hqueue, hnext _ hnew]

/-- What is shown is what is heard at whatever moment of a run the source ends. -/
theorem preload_agrees_iff (es : List (LocalAction × Chance)) :
    (∀ bs, bs <+: es → Agrees (runAll step bs init)) ↔ Each step KeepsNext es init := by
  have hinit : Matches init := ⟨Nat.zero_le 1, fun _ hurl => nomatch hurl⟩
  exact good_prefixes_iff (I := Matches) (G := Agrees)
    (fun s hs => (agrees_iff_next hs.playlist).2 hs.next)
    (fun a s hs _ hkeeps => matches_step hs hkeeps)
    (fun a s hs _ hkeeps => not_agrees_step hs hkeeps) hinit (each_true es init)

/-- Repeat one is set while the URL of the second track is preloaded. -/
def repeatSet : List (LocalAction × Chance) :=
  [.playTracks [{ id := "a", filePath := "" }, { id := "b", filePath := "" }] 0,
    .loadSigned (some ""), .audio .play, .preloadSigned (some ""), .setRepeat .one].map
      fun action => (action, ⟨fun _ => 0, 0⟩)

/-- Then the second track is heard after the first, and the first is shown. -/
theorem repeatSet_disagrees : ¬ ∀ es, Agrees (runAll step es init) := by
  intro h
  have hurl : (runAll step repeatSet init).player.autoAdvance = some ⟨"b", ""⟩ := by decide
  have hnext : (runAll step repeatSet init).queue.comesNext = some "a" := by decide
  have hagrees := agrees_iff.1 (h repeatSet) _ hurl
  rw [hnext] at hagrees
  simp at hagrees

end LocalPlayback

end Kanade.Web

import Kanade.Core.Transport

/-!
# Kanade.Core.Queue

The queue operations of `controller.rs`: adding, clearing, removing, moving and replacing.
-/

namespace Kanade

open Concur

/-- The common body of `add_to_queue` and `add_tracks_to_queue`. -/
def appendToQueue (tracks : List Track) : Op Unit := do
  let filePaths := tracks.map Track.filePath
  let selectedId ← readState fun s =>
    match s.selectedNodeId with
    | some id => .ok id
    | none => .error .noActiveOutput
  lockState (fun _ => editLabel selectedId) fun s =>
    match s.node selectedId with
    | none => (.error .nodeNotFound, s)
    | some _ =>
      (.ok (), s.modifyNode selectedId fun node => { node with queue := node.queue ++ tracks })
  match ← maybeActiveOutputs with
  | some o =>
    o.send (.add filePaths)
    extendProjectionLoadedLenActive filePaths.length
  | none => pure ()
  broadcast

def addToQueue (track : Track) : Op Unit := appendToQueue [track]

def addTracksToQueue (tracks : List Track) : Op Unit :=
  if tracks.isEmpty then pure () else appendToQueue tracks

def clearQueue : Op Unit := do
  match ← activeNodeId.attempt with
  | .ok activeId =>
    let projectionGeneration ← rebuildProjectionState activeId none 0
    let o ← eachOutput activeId
    o.send (.setQueue [] projectionGeneration)
  | .error _ => pure ()
  lockSelected fun _ => .ok ((), fun node =>
    { node with queue := [], currentIndex := none, positionSecs := 0, status := .stopped })
  broadcast

/-- The position an output is told for queue entry `i`, relative to the current entry. -/
def mpdIndex (currentIndex : Option Nat) (i : Nat) : Nat :=
  match currentIndex with
  | some ci => i - ci
  | none => i

/-- The node without queue entry `index`, its index following the current entry. -/
def Node.removeTrack (index : Nat) (node : Node) : Node :=
  let queue := node.queue.eraseIdx index
  match node.currentIndex with
  | some ci =>
    if ci = index ∧ queue = [] then
      { node with queue := queue, currentIndex := none, status := .stopped }
    else if ci = index then { node with queue := queue, currentIndex := some (min ci (queue.length - 1)) }
    else if ci > index then { node with queue := queue, currentIndex := some (ci - 1) }
    else { node with queue := queue }
  | none => { node with queue := queue }

theorem removeTrack_frame (index : Nat) (n : Node) :
    (n.removeTrack index).id = n.id ∧ (n.removeTrack index).connected = n.connected := by
  unfold Node.removeTrack
  dsimp only
  split
  · split
    · exact ⟨rfl, rfl⟩
    · split
      · exact ⟨rfl, rfl⟩
      · split <;> exact ⟨rfl, rfl⟩
  · exact ⟨rfl, rfl⟩

theorem removeTrack_queue (index : Nat) (n : Node) :
    (n.removeTrack index).queue = n.queue.eraseIdx index := by
  unfold Node.removeTrack
  dsimp only
  split
  · split
    · rfl
    · split
      · rfl
      · split <;> rfl
  · rfl

theorem removeTrack_ne {index : Nat} {n : Node} (h : index < n.queue.length) :
    n.removeTrack index ≠ n := fun heq => by
  have hlen := congrArg (fun n => n.queue.length) heq
  simp only [removeTrack_queue, List.length_eraseIdx_of_lt h] at hlen
  omega

def removeFromQueue (index : Nat) : Op Unit := do
  let mpdIndex ← lockSelected fun node =>
    if index ≥ node.queue.length then .error .queueIndexOutOfBounds
    else .ok (mpdIndex node.currentIndex index, Node.removeTrack index)
  match ← maybeActiveOutputs with
  | some o =>
    o.send (.remove mpdIndex)
    decrementProjectionLoadedLenActive 1
  | none => pure ()
  broadcast

/-- Entry `src` of a list taken out and put back at `dst`. -/
def moveEntry {α : Type} (src dst : Nat) (l : List α) : List α :=
  match l[src]? with
  | some a => (l.eraseIdx src).insertIdx dst a
  | none => l

/-- Where the entry at `ci` is after `moveEntry src dst`. -/
def movedIndex (src dst ci : Nat) : Nat :=
  if ci = src then dst
  else if src < ci ∧ ci ≤ dst then ci - 1
  else if dst ≤ ci ∧ ci < src then ci + 1
  else ci

section Entry

variable {α : Type} {l : List α} {src dst : Nat}

theorem movedIndex_lt {n k : Nat} (hsrc : src < n) (hdst : dst < n) (hk : k < n) :
    movedIndex src dst k < n := by
  unfold movedIndex
  split_ifs <;> omega

theorem movedIndex_src (src dst : Nat) : movedIndex src dst src = dst := if_pos rfl

theorem movedIndex_self (src k : Nat) : movedIndex src src k = k := by
  unfold movedIndex
  split_ifs <;> omega

/-- Moving back is undone by moving. -/
theorem movedIndex_movedIndex (src dst k : Nat) : movedIndex dst src (movedIndex src dst k) = k := by
  unfold movedIndex
  split_ifs <;> omega

/-- Nothing past both positions is moved. -/
theorem movedIndex_of_lt {k : Nat} (hsrc : src < k) (hdst : dst < k) : movedIndex src dst k = k := by
  unfold movedIndex
  split_ifs <;> omega

/-- What comes to `k` is what moving back takes away from it. -/
theorem getElem?_moveEntry (hsrc : src < l.length) (hdst : dst < l.length) (k : Nat) :
    (moveEntry src dst l)[k]? = l[movedIndex dst src k]? := by
  have hlen : (l.eraseIdx src).length = l.length - 1 := List.length_eraseIdx_of_lt hsrc
  rw [moveEntry, List.getElem?_eq_getElem hsrc]
  dsimp only
  rw [List.getElem?_insertIdx, List.getElem?_eraseIdx, List.getElem?_eraseIdx, hlen, movedIndex]
  grind

theorem moveEntry_self (hsrc : src < l.length) : moveEntry src src l = l := by
  refine List.ext_getElem? fun k => ?_
  rw [getElem?_moveEntry hsrc hsrc, movedIndex_self]

theorem length_moveEntry (hsrc : src < l.length) (hdst : dst < l.length) :
    (moveEntry src dst l).length = l.length := by
  have hlen : (l.eraseIdx src).length = l.length - 1 := List.length_eraseIdx_of_lt hsrc
  rw [moveEntry, List.getElem?_eq_getElem hsrc]
  dsimp only
  rw [List.length_insertIdx, hlen, if_pos (by omega)]
  omega

/-- The entry at `k` goes where the index that follows it goes. -/
theorem getElem?_moveEntry_movedIndex (hsrc : src < l.length) (hdst : dst < l.length) (k : Nat) :
    (moveEntry src dst l)[movedIndex src dst k]? = l[k]? := by
  rw [getElem?_moveEntry hsrc hdst, movedIndex_movedIndex]

end Entry

/-- The node with queue entry `src` moved to `dst`, its index following the current entry. -/
def Node.moveTrack (src dst : Nat) (node : Node) : Node :=
  { node with
    queue := moveEntry src dst node.queue
    currentIndex := node.currentIndex.map (movedIndex src dst) }

def moveInQueue (src dst : Nat) : Op Unit := do
  let (mpdFrom, mpdTo) ← lockSelected fun node =>
    if src ≥ node.queue.length ∨ dst ≥ node.queue.length then .error .queueIndexOutOfBounds
    else .ok ((mpdIndex node.currentIndex src, mpdIndex node.currentIndex dst),
      Node.moveTrack src dst)
  match ← maybeActiveOutputs with
  | some o => o.send (.moveTrack mpdFrom mpdTo)
  | none => pure ()
  broadcast

/-! ## Replacing the queue -/

/-- The paths sent for a new queue: from the start index on. -/
def rotatedPaths (tracks : List Track) (startIndex : Option Nat) : List String :=
  let start := startIndex.getD 0
  let head :=
    match tracks[start]? with
    | some t => [t.filePath]
    | none => []
  head ++ (tracks.drop (usizeSucc start)).map Track.filePath

/-- The state section of `set_queue`. -/
def setQueueSection (selectedId : String) (activeId : Option String) (tracks : List Track)
    (startIndex : Option Nat) (s : PlaybackState) : Except CoreError Unit × PlaybackState :=
  match s.node selectedId with
  | none => (.error .nodeNotFound, s)
  | some _ =>
    let s := s.modifyNode selectedId fun node =>
      { node with queue := tracks, currentIndex := startIndex, positionSecs := 0,
                  status := .stopped }
    match startIndex, activeId with
    | some _, some activeId =>
      (.ok (), s.modifyNode activeId fun node => { node with status := .playing })
    | _, _ => (.ok (), s)

/-- The state section of `set_queue` on the active node, started at `i`. -/
theorem setQueueSection_eq {id : String} {tracks : List Track} {i : Nat} {s : PlaybackState}
    {node : Node} (hn : s.node id = some node) :
    setQueueSection id (some id) tracks (some i) s =
      (.ok (), s.modifyNode id fun n =>
        { n with queue := tracks, currentIndex := some i, positionSecs := 0,
                 status := .playing }) := by
  unfold setQueueSection
  rw [hn]
  dsimp only
  rw [modifyNode_state_modifyNode fun _ => by rfl]

/-- `set_queue` from its state section on. -/
def setQueueRest (selectedId : String) (activeId : Option String) (tracks : List Track)
    (startIndex : Option Nat) : Op Unit := do
  lockState (fun _ => editLabel selectedId) (setQueueSection selectedId activeId tracks startIndex)
  if startIndex.isSome then
    match ← maybeActiveOutputs with
    | some o => o.send .play
    | none => pure ()
  broadcast

def setQueue (tracks : List Track) (startIndex : Option Nat) : Op Unit := do
  let selectedId ← readState fun s =>
    match s.selectedNodeId with
    | some id => .ok id
    | none => .error .noActiveOutput
  let activeId := (← activeNodeId.attempt).toOption
  let rotated := rotatedPaths tracks startIndex
  let projectionStart := if rotated = [] then none else startIndex
  match activeId with
  | some activeId =>
    let projectionGeneration ← rebuildProjectionState activeId projectionStart rotated.length
    let o ← eachOutput activeId
    o.send (.setQueue rotated projectionGeneration)
  | none => pure ()
  setQueueRest selectedId activeId tracks startIndex

/-- What adding to a queue and replacing one find selected. -/
theorem selected_of_asked {s : PlaybackState} {id : String}
    (h : (match s.selectedNodeId with
      | some id => .ok id
      | none => .error CoreError.noActiveOutput) = Except.ok id) : s.selectedNodeId = some id := by
  cases hsel : s.selectedNodeId with
  | none =>
    rw [hsel] at h
    cases h
  | some id' =>
    rw [hsel] at h
    cases h
    rfl

end Kanade

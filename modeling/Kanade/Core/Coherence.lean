import Kanade.Core.Bounds
import Kanade.Core.Player

/-!
# Kanade.Core.Coherence

The projection and the list its output holds, over runs of the operations that load the output,
the output's own advances, and its reports.

`Coherent` is what a report relies on: the loaded length is that of the list, and the index a
report comes to is that of the path being played. `Loaded` is the invariant behind it: the list is
the queue from the projection's start on. `set_queue` without a start index, appending to an empty
queue and a sync away from the first track leave it, and are then incoherent at once;
`coherent_run_iff` says that runs without these are exactly the coherent ones.
-/

namespace Kanade

open Concur

/-- The loaded length is the length of the list, and a report about the path being played makes
the current index point to an entry with that path. -/
def Coherent (id : String) (c : Core × (String → Device)) : Prop :=
  ((c.1.transportState id).getD {}).loadedLen = (c.2 id).list.length ∧
    ∀ path, (c.2 id).playing = some path → ∀ status positionSecs volume,
      ∃ node i track,
        ((PlayerStep.report status positionSecs volume).take id c).1.state.node id = some node ∧
          node.currentIndex = some i ∧ node.queue[i]? = some track ∧ track.filePath = path

namespace Player

/-- `Coherent`, on the player. -/
def Coherent (p : Player) : Prop :=
  (p.projection.getD {}).loadedLen = p.device.list.length ∧
    ∀ path, p.device.playing = some path → ∀ status positionSecs volume,
      ∃ i track, (p.report status positionSecs volume).node.currentIndex = some i ∧
        p.node.queue[i]? = some track ∧ track.filePath = path

/-- The list is the queue from the start of the projection on. -/
structure Loaded (p : Player) (start : Nat) : Prop where
  start_lt : start < p.node.queue.length
  fits : p.node.queue.length < 2 ^ 63
  projection : ∃ gen, p.projection = some ⟨gen, some start, p.device.list.length⟩
  list : p.device.list = (p.node.queue.drop start).map Track.filePath
  index : ∃ i, p.node.currentIndex = some i ∧ i < p.node.queue.length

/-- Nothing is loaded. -/
structure Empty (p : Player) : Prop where
  queue : p.node.queue = []
  index : p.node.currentIndex = none
  list : p.device.list = []
  pos : p.device.pos = 0
  loadedLen : (p.projection.getD {}).loadedLen = 0
  start : (p.projection.getD {}).projectionStartIndex = none

/-- The projection, the queue and the list fit together. -/
def InStep (p : Player) : Prop := p.Empty ∨ ∃ start, p.Loaded start

end Player

/-- What a run may contain: a start index in range, and queues that fit in memory (a `Vec` has
fewer than `2 ^ 63` elements). -/
def PlayerStep.Admissible (step : PlayerStep) (node : Node) : Prop :=
  match step with
  | .setQueue tracks startIndex =>
    (∀ i ∈ startIndex, i < tracks.length) ∧ tracks.length < 2 ^ 63
  | .addToQueue _ => node.queue.length + 1 < 2 ^ 63
  | .addTracksToQueue tracks => node.queue.length + tracks.length < 2 ^ 63
  | _ => True

/-- The step keeps the projection right: a queue is set with a start index or is empty, tracks are
added to a queue with tracks in it, and a sync finds the node at its first track. -/
def PlayerStep.KeepsProjection (step : PlayerStep) (node : Node) : Prop :=
  match step with
  | .setQueue tracks none => tracks = []
  | .addToQueue _ => node.queue ≠ []
  | .addTracksToQueue tracks => tracks = [] ∨ node.queue ≠ []
  | .sync => node.queue = [] ∨ node.currentIndex = some 0
  | _ => True

instance (step : PlayerStep) (node : Node) : Decidable (step.Admissible node) :=
  match step with
  | .setQueue tracks startIndex =>
    inferInstanceAs (Decidable ((∀ i ∈ startIndex, i < tracks.length) ∧ tracks.length < 2 ^ 63))
  | .addToQueue _ => inferInstanceAs (Decidable (node.queue.length + 1 < 2 ^ 63))
  | .addTracksToQueue tracks =>
    inferInstanceAs (Decidable (node.queue.length + tracks.length < 2 ^ 63))
  | .play | .playIndex _ | .next | .previous | .clearQueue | .sync | .advance | .report _ _ _ =>
    isTrue trivial

/-! ## The paths that are sent -/

theorem headTail_eq_drop (q : List Track) {i : Nat} (hi : i < usizeMax) :
    (match q[i]? with
      | some t => [t.filePath]
      | none => []) ++ (q.drop (usizeSucc i)).map Track.filePath =
      (q.drop i).map Track.filePath := by
  rw [usizeSucc_of_lt hi]
  by_cases hlt : i < q.length
  · rw [List.getElem?_eq_getElem hlt, List.drop_eq_getElem_cons hlt]
    rfl
  · have hlen : q.length ≤ i := not_lt.1 hlt
    rw [List.getElem?_eq_none hlen, List.drop_of_length_le hlen,
      List.drop_of_length_le (Nat.le_succ_of_le hlen)]
    rfl

theorem buildQueueFilePaths_some (q : List Track) {i : Nat} (hi : i < usizeMax) :
    buildQueueFilePaths q (some i) = (q.drop i).map Track.filePath := headTail_eq_drop q hi

theorem rotatedPaths_eq_drop (q : List Track) {i : Option Nat} (hi : i.getD 0 < usizeMax) :
    rotatedPaths q i = (q.drop (i.getD 0)).map Track.filePath := headTail_eq_drop q hi

/-! ## Reports -/

theorem applyReport_currentIndex (status : PlaybackStatus) (pos : ℚ) (volume : UInt8) (i : Nat)
    (n : Node) :
    (applyReport status pos volume (some i) n).1.currentIndex =
      if i < n.queue.length then some i else n.currentIndex := by
  unfold applyReport
  dsimp only
  by_cases hlt : i < n.queue.length
  · by_cases hi : n.currentIndex = some i
    · split <;> split <;> split <;> simp [hlt, hi]
    · split <;> split <;> split <;> simp [hlt, hi]
  · split <;> split <;> split <;> simp [hlt]

namespace Player

variable {p : Player} {start : Nat}

theorem Loaded.coherent (h : p.Loaded start) : p.Coherent := by
  obtain ⟨gen, hproj⟩ := h.projection
  refine ⟨by simp [hproj], fun path hplay status pos volume => ?_⟩
  have hlen : p.device.list.length = p.node.queue.length - start := by simp [h.list]
  have hpos : p.device.pos < p.device.list.length := (List.getElem?_eq_some_iff.1 hplay).1
  have hfits := h.fits
  have hprojected : projectedCurrentIndex p.projection
      (p.device.playing.map fun _ => p.device.pos) (p.projection.getD {}).projectionGeneration =
      some (start + p.device.pos) := by
    have hmax : start + p.device.pos ≤ usizeMax := by unfold usizeMax; omega
    simp [projectedCurrentIndex, hproj, hplay, hpos, hmax]
  have hlt : start + p.device.pos < p.node.queue.length := by omega
  refine ⟨start + p.device.pos, p.node.queue[start + p.device.pos], ?_, by simp [hlt], ?_⟩
  · rw [report, hprojected, applyReport_currentIndex, if_pos hlt]
  · have hpath : p.device.list[p.device.pos]? = some path := hplay
    rw [h.list, List.getElem?_map, List.getElem?_drop, List.getElem?_eq_getElem hlt] at hpath
    simpa using hpath

theorem Empty.coherent (h : p.Empty) : p.Coherent := by
  refine ⟨by rw [h.loadedLen, h.list]; rfl, fun path hplay => ?_⟩
  simp [Device.playing, h.list] at hplay

theorem InStep.coherent (h : p.InStep) : p.Coherent := by
  obtain h | ⟨start, h⟩ := h
  · exact h.coherent
  · exact h.coherent

/-! ## Steps that keep the projection right -/

/-- A list sent from queue entry `i` on, with its length and that start. -/
theorem inStep_load {node : Node} {i : Nat} {gen : UInt64} (hi : i < node.queue.length)
    (hfits : node.queue.length < 2 ^ 63) (hnode : node.currentIndex = some i) :
    InStep ⟨node, some ⟨gen, some i, ((node.queue.drop i).map Track.filePath).length⟩,
      ⟨(node.queue.drop i).map Track.filePath, 0⟩⟩ :=
  .inr ⟨i, hi, hfits, ⟨gen, rfl⟩, rfl, i, hnode, hi⟩

theorem InStep.fits (h : p.InStep) : p.node.queue.length < 2 ^ 63 := by
  obtain h | ⟨start, h⟩ := h
  · simp [h.queue]
  · exact h.fits

theorem InStep.index (h : p.InStep) : p.node.IndexWithin 0 := by
  obtain h | ⟨start, h⟩ := h
  · simp [Node.IndexWithin, h.index]
  · obtain ⟨i, hi, hlt⟩ := h.index
    simpa [Node.IndexWithin, hi] using hlt

theorem InStep.jump {target : Node → Except CoreError Nat} (h : p.InStep)
    (htarget : ∀ i, target p.node = .ok i → i < p.node.queue.length) :
    (p.jump target).InStep := by
  unfold Player.jump
  cases ht : target p.node with
  | error e => exact h
  | ok i =>
    have hi := htarget i ht
    have hfits := h.fits
    dsimp only [load, nextProjection]
    rw [buildQueueFilePaths_some _ (by unfold usizeMax; omega)]
    exact inStep_load hi hfits rfl

theorem empty_of_nil {node : Node} {gen : UInt64} (hq : node.queue = [])
    (hi : node.currentIndex = none) : InStep ⟨node, some ⟨gen, none, 0⟩, ⟨[], 0⟩⟩ :=
  .inl ⟨hq, hi, rfl, rfl, rfl, rfl⟩

theorem InStep.setQueue {tracks : List Track} {startIndex : Option Nat}
    (hrange : ∀ i ∈ startIndex, i < tracks.length) (hfits : tracks.length < 2 ^ 63)
    (hkeep : startIndex = none → tracks = []) : (p.setQueue tracks startIndex).InStep := by
  unfold Player.setQueue
  cases startIndex with
  | none =>
    rw [hkeep rfl]
    exact empty_of_nil rfl rfl
  | some i =>
    have hi : i < tracks.length := hrange i rfl
    have hne : (tracks.drop i).map Track.filePath ≠ [] := by simpa using hi
    dsimp only [load, nextProjection]
    rw [rotatedPaths_eq_drop _ (by simp only [Option.getD_some]; unfold usizeMax; omega),
      Option.getD_some, if_neg hne]
    exact inStep_load hi hfits rfl

theorem InStep.append {tracks : List Track} (h : p.InStep) (hq : p.node.queue ≠ [])
    (hfits : p.node.queue.length + tracks.length < 2 ^ 63) : (p.append tracks).InStep := by
  obtain h | ⟨start, h⟩ := h
  · exact absurd h.queue hq
  · obtain ⟨gen, hproj⟩ := h.projection
    have hlt := h.start_lt
    have hlen : p.device.list.length = p.node.queue.length - start := by simp [h.list]
    have hmin : min (p.device.list.length + tracks.length) usizeMax =
        p.device.list.length + tracks.length := by unfold usizeMax; omega
    obtain ⟨i, hi, hilt⟩ := h.index
    refine .inr ⟨start, ?_, ?_, ⟨gen, ?_⟩, ?_, i, hi, ?_⟩
    · simp only [Player.append, List.length_append]; omega
    · simpa [Player.append] using hfits
    · simp [Player.append, hproj, NodeTransportState.extend, hmin]
    · simp [Player.append, h.list, List.drop_append_of_le_length hlt.le]
    · simp only [Player.append, List.length_append]; omega

theorem InStep.sync (h : p.InStep)
    (hkeep : p.node.queue = [] ∨ p.node.currentIndex = some 0) : p.sync.InStep := by
  unfold Player.sync
  obtain h | ⟨start, h⟩ := h
  · dsimp only [load, nextProjection]
    rw [h.queue, h.index]
    exact empty_of_nil h.queue h.index
  · have hlt := h.start_lt
    have hi : p.node.currentIndex = some 0 :=
      hkeep.resolve_left fun hq => by simp [hq] at hlt
    have hpaths : buildQueueFilePaths p.node.queue (some 0) = p.node.queue.map Track.filePath :=
      buildQueueFilePaths_some _ (by decide)
    have hlen : p.node.queue.length = (p.node.queue.map Track.filePath).length := by simp
    dsimp only [load, nextProjection]
    rw [hi, hpaths, hlen]
    exact inStep_load (by omega) h.fits hi

theorem InStep.report (h : p.InStep) (status : PlaybackStatus) (pos : ℚ) (volume : UInt8) :
    (p.report status pos volume).InStep := by
  obtain h | ⟨start, h⟩ := h
  · have hplaying : p.device.playing = none := by simp [Device.playing, h.list]
    have hprojected : projectedCurrentIndex p.projection
        (p.device.playing.map fun _ => p.device.pos)
        (p.projection.getD {}).projectionGeneration = none := by
      rw [hplaying]
      cases p.projection <;> simp [projectedCurrentIndex]
    refine .inl ⟨?_, ?_, h.list, h.pos, h.loadedLen, h.start⟩
    · exact (applyReport_frame _ _ _ _ p.node).2.2.trans h.queue
    · rw [Player.report, hprojected]
      exact (applyReport_none_currentIndex _ _ _ p.node).trans h.index
  · obtain ⟨i, hi, hilt⟩ := h.index
    have hq : (p.report status pos volume).node.queue = p.node.queue :=
      (applyReport_frame _ _ _ _ p.node).2.2
    refine .inr ⟨start, by rw [hq]; exact h.start_lt, by rw [hq]; exact h.fits, h.projection,
      by rw [hq]; exact h.list, ?_⟩
    rw [hq, Player.report]
    cases projectedCurrentIndex p.projection (p.device.playing.map fun _ => p.device.pos)
      (p.projection.getD {}).projectionGeneration with
    | none => exact ⟨i, (applyReport_none_currentIndex _ _ _ p.node).trans hi, hilt⟩
    | some j =>
      dsimp only
      rw [applyReport_currentIndex]
      split
      · rename_i hj
        exact ⟨j, rfl, hj⟩
      · exact ⟨i, hi, hilt⟩

theorem InStep.play (h : p.InStep) : InStep { p with node := p.node.play } := by
  obtain h | ⟨start, h⟩ := h
  · refine .inl ⟨?_, ?_, h.list, h.pos, h.loadedLen, h.start⟩ <;> simp [Node.play, h.queue, h.index]
  · obtain ⟨i, hi, hilt⟩ := h.index
    have hplay : p.node.play = { p.node with status := .playing } := by simp [Node.play, hi]
    rw [hplay]
    exact .inr ⟨start, h.start_lt, h.fits, h.projection, h.list, i, hi, hilt⟩

theorem InStep.advance (h : p.InStep) : InStep { p with device := p.device.advance } := by
  obtain h | ⟨start, h⟩ := h
  · have hstay : p.device.advance = p.device := by simp [Device.advance, h.list]
    rw [hstay]
    exact .inl h
  · have hlist : p.device.advance.list = p.device.list := by
      unfold Device.advance
      split <;> rfl
    obtain ⟨gen, hproj⟩ := h.projection
    exact .inr ⟨start, h.start_lt, h.fits, ⟨gen, by rw [hlist]; exact hproj⟩,
      hlist.trans h.list, h.index⟩

theorem InStep.effect {step : PlayerStep} (h : p.InStep) (hadm : step.Admissible p.node)
    (hkeep : step.KeepsProjection p.node) : (step.effect p).InStep := by
  cases step with
  | setQueue tracks startIndex =>
    refine InStep.setQueue hadm.1 hadm.2 ?_
    rintro rfl
    exact hkeep
  | play => exact h.play
  | playIndex index =>
    exact h.jump fun i hi => (indexTarget_lt hi).resolve_left (Nat.not_lt_zero i)
  | next => exact h.jump fun i hi => (nextIndex_lt h.index hi).resolve_left (Nat.not_lt_zero i)
  | previous =>
    exact h.jump fun i hi => (previousIndex_lt h.index hi).resolve_left (Nat.not_lt_zero i)
  | clearQueue => exact empty_of_nil rfl rfl
  | addToQueue track => exact h.append hkeep hadm
  | addTracksToQueue tracks =>
    cases tracks with
    | nil => exact h
    | cons t ts => exact h.append (hkeep.resolve_left (by simp)) hadm
  | sync => exact h.sync hkeep
  | advance => exact h.advance
  | report status pos volume => exact h.report status pos volume

/-! ## Steps that spoil it -/

/-- A projection without a start maps no report. -/
theorem not_coherent_of_start_none (hstart : (p.projection.getD {}).projectionStartIndex = none)
    (hindex : p.node.currentIndex = none) (hplay : p.device.playing.isSome) : ¬ p.Coherent := by
  rintro ⟨-, h⟩
  obtain ⟨path, hpath⟩ := Option.isSome_iff_exists.1 hplay
  obtain ⟨i, -, hi, -⟩ := h path hpath .playing 0 0
  have hprojected : projectedCurrentIndex p.projection
      (p.device.playing.map fun _ => p.device.pos)
      (p.projection.getD {}).projectionGeneration = none := by
    cases hproj : p.projection with
    | none => rfl
    | some projection =>
      rw [hproj, Option.getD_some] at hstart
      simp [projectedCurrentIndex, hstart, hpath]
  rw [report, hprojected, applyReport_none_currentIndex, hindex] at hi
  cases hi

/-- Appending to an empty queue extends a projection without a start, or there is none to
extend. -/
theorem Empty.not_coherent_append {tracks : List Track} (h : p.Empty) (hne : tracks ≠ []) :
    ¬ (p.append tracks).Coherent := by
  refine not_coherent_of_start_none ?_ h.index ?_
  · have hstart := h.start
    cases hproj : p.projection with
    | none => simp [append, hproj]
    | some projection => simpa [append, hproj, NodeTransportState.extend] using hstart
  · cases tracks with
    | nil => exact absurd rfl hne
    | cons t ts => simp [append, Device.playing, h.list, h.pos]

theorem not_coherent_setQueue {tracks : List Track} (hne : tracks ≠ []) :
    ¬ (p.setQueue tracks none).Coherent := by
  refine not_coherent_of_start_none ?_ rfl ?_
  · simp [setQueue, load, nextProjection]
  · cases tracks with
    | nil => exact absurd rfl hne
    | cons t ts => simp [setQueue, load, Device.playing, rotatedPaths]

/-- A sync away from the first track counts the whole queue as loaded. -/
theorem Loaded.not_coherent_sync {i : Nat} (h : p.Loaded start)
    (hi : p.node.currentIndex = some i) (hpos : i ≠ 0) (hlt : i < p.node.queue.length) :
    ¬ p.sync.Coherent := by
  rintro ⟨hlen, -⟩
  have hfits := h.fits
  simp only [sync, load, nextProjection, Option.getD_some, hi,
    buildQueueFilePaths_some p.node.queue (show i < usizeMax by unfold usizeMax; omega),
    List.length_map, List.length_drop] at hlen
  omega

theorem InStep.not_coherent_effect {step : PlayerStep} (h : p.InStep)
    (hkeep : ¬ step.KeepsProjection p.node) : ¬ (step.effect p).Coherent := by
  cases step with
  | setQueue tracks startIndex =>
    cases startIndex with
    | none => exact not_coherent_setQueue hkeep
    | some i => exact absurd trivial hkeep
  | addToQueue track =>
    obtain h | ⟨start, h⟩ := h
    · exact h.not_coherent_append (by simp)
    · exact absurd (fun hq => by simpa [hq] using h.start_lt) hkeep
  | addTracksToQueue tracks =>
    rw [PlayerStep.KeepsProjection, not_or] at hkeep
    obtain h | ⟨start, h⟩ := h
    · simpa [PlayerStep.effect, hkeep.1] using h.not_coherent_append hkeep.1
    · exact absurd (fun hq => by simpa [hq] using h.start_lt) hkeep.2
  | sync =>
    rw [PlayerStep.KeepsProjection, not_or] at hkeep
    obtain h | ⟨start, h⟩ := h
    · exact absurd h.queue hkeep.1
    · obtain ⟨i, hi, hlt⟩ := h.index
      exact h.not_coherent_sync hi (fun h0 => hkeep.2 (h0 ▸ hi)) hlt
  | play | playIndex | next | previous | clearQueue | advance | report =>
    exact absurd trivial hkeep

end Player

/-! ## Runs -/

/-- The player decides whether the core and the devices are coherent. -/
theorem coherent_iff_player {id : String} {c : Core × (String → Device)} {p : Player}
    (h : Shows id c p) : Coherent id c ↔ p.Coherent := by
  unfold Coherent Player.Coherent
  rw [h.projection, h.device]
  refine and_congr Iff.rfl (forall₅_congr fun path _ status pos volume => ?_)
  have hnode := (shows_step (.report status pos volume) h).node
  have hq : (p.report status pos volume).node.queue = p.node.queue :=
    (applyReport_frame _ _ _ _ p.node).2.2
  constructor
  · rintro ⟨node, i, track, hn, hi, htrack, hpath⟩
    rw [hnode] at hn
    cases hn
    exact ⟨i, track, hi, hq ▸ htrack, hpath⟩
  · rintro ⟨i, track, hi, htrack, hpath⟩
    exact ⟨_, i, track, hnode, hi, hq.symm ▸ htrack, hpath⟩

/-- Node `id` is selected and connected, and nothing has been loaded. -/
def NothingLoaded (id : String) (c : Core × (String → Device)) : Prop :=
  ∃ p, Shows id c p ∧ p.Empty

/-- Runs from a node with nothing loaded: every state on the way is coherent exactly when every
step keeps the projection right. -/
theorem coherent_run_iff {id : String} {c : Core × (String → Device)} {steps : List PlayerStep}
    (hstart : NothingLoaded id c)
    (hadm : Each (PlayerStep.take id)
      (fun step c => ∀ node ∈ c.1.state.node id, step.Admissible node) steps c) :
    (∀ before, before <+: steps → Coherent id (runAll (PlayerStep.take id) before c)) ↔
      Each (PlayerStep.take id)
        (fun step c => ∀ node ∈ c.1.state.node id, step.KeepsProjection node) steps c := by
  refine good_prefixes_iff (I := fun c => ∃ p, Shows id c p ∧ p.InStep) ?_ ?_ ?_ ?_ hadm
  · rintro c ⟨p, hshows, hp⟩
    exact (coherent_iff_player hshows).2 hp.coherent
  · rintro step c ⟨p, hshows, hp⟩ hadm hkeep
    exact ⟨step.effect p, shows_step step hshows,
      hp.effect (hadm _ hshows.node) (hkeep _ hshows.node)⟩
  · rintro step c ⟨p, hshows, hp⟩ - hkeep
    rw [coherent_iff_player (shows_step step hshows)]
    refine hp.not_coherent_effect fun hk => hkeep fun node hnode => ?_
    rw [hshows.node, Option.mem_some_iff] at hnode
    exact hnode ▸ hk
  · obtain ⟨p, hshows, hp⟩ := hstart
    exact ⟨p, hshows, .inl hp⟩

/-- A fresh node `a` with its output. -/
def freshNode : Core × (String → Device) :=
  runOps devices [.registerOutput "a" "c" 0, .addNode { id := "a" }]
    (Core.new (fun _ => none) [] [], fun _ => {})

theorem nothingLoaded_freshNode : NothingLoaded "a" freshNode :=
  ⟨⟨{ id := "a" }, none, {}⟩, ⟨by decide, by decide, rfl, by decide, by decide, by decide⟩,
    ⟨rfl, rfl, rfl, rfl, rfl, rfl⟩⟩

/-- A queue is started at its second track, a third is added, and the output goes on to it and
reports. -/
theorem coherent_run_iff_short :
    let steps : List PlayerStep :=
      [.setQueue [{ id := "1", filePath := "/1" }, { id := "2", filePath := "/2" }] (some 1),
        .addToQueue { id := "3", filePath := "/3" }, .advance, .report .playing 3 50]
    (∀ before, before <+: steps →
      Coherent "a" (runAll (PlayerStep.take "a") before freshNode)) ↔
      Each (PlayerStep.take "a")
        (fun step c => ∀ node ∈ c.1.state.node "a", step.KeepsProjection node) steps freshNode :=
  coherent_run_iff nothingLoaded_freshNode (by decide +kernel)

/-- A sync of a queue started at its second track: two entries count as loaded, one is. -/
theorem sync_incoherent :
    ¬ Coherent "a" (runAll (PlayerStep.take "a")
      [.setQueue [{ id := "1", filePath := "/1" }, { id := "2", filePath := "/2" }] (some 1), .sync]
      freshNode) :=
  fun h => absurd h.1 (by decide)

end Kanade

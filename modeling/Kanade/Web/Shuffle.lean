import Kanade.Shuffle.FisherYates
import Kanade.Web.QueueEdits

/-!
# Kanade.Web.Shuffle

Shuffled playback in the browser. The order is rebuilt after every advance, with the new current track
first and all others behind it in any order.

* `Ordered`: what holds of the order in every run.
* `shuffle_once_iff`: playback comes by every other track once and stops only if there is no other.
-/

namespace Kanade.Web

open Concur

namespace LocalQueue

/-! ## The order -/

theorem swap_eq (l : List Nat) (i j : Nat) : swap l i j = l.swap i j := by
  unfold swap
  rcases Nat.lt_or_ge i l.length with hi | hi
  · rcases Nat.lt_or_ge j l.length with hj | hj
    · rw [List.getElem?_eq_getElem hi, List.getElem?_eq_getElem hj, List.swap_eq_of_lt hi hj]
    · rw [List.getElem?_eq_none hj, List.swap_eq_of_ge_right hj]
      cases l[i]? <;> rfl
  · rw [List.getElem?_eq_none hi, List.swap_eq_of_ge_left hi]

/-- The first position is no part of what is shuffled. -/
theorem shuffleFrom_eq (random : Random) (k : Nat) (l : List Nat) :
    shuffleFrom random (k + 1) l = FisherYates.shuffle 1 (fun i => random i % i) k l := by
  induction k generalizing l with
  | zero => rfl
  | succ k ih =>
    rw [shuffleFrom, ih, FisherYates.shuffle, swap_eq]
    have hindex : 1 + k + 1 = k + 2 := by omega
    rw [hindex]

theorem fair_mod (random : Random) : FisherYates.Fair 1 fun i => random i % i := by
  intro i hi
  have hlt := Nat.mod_lt (random i) (Nat.lt_trans one_pos hi)
  dsimp only
  omega

/-- The loop leaves the first position alone. -/
theorem shuffleFrom_spec (random : Random) (n : Nat) (l : List Nat) :
    (shuffleFrom random n l).Perm l ∧ (shuffleFrom random n l)[0]? = l[0]? := by
  cases n with
  | zero => exact ⟨List.Perm.refl l, rfl⟩
  | succ k =>
    rw [shuffleFrom_eq]
    exact ⟨FisherYates.shuffle_perm k l, FisherYates.getElem?_shuffle (fair_mod random) (.inl one_pos)⟩

/-- The current index is in the queue, and with shuffling on the order names as many tracks, the current
one first. -/
structure Ordered (q : LocalQueue) : Prop where
  inside : ∀ i ∈ q.currentIndex, i < q.tracks.length
  length : q.shuffleEnabled → q.shuffleOrder.length = q.tracks.length
  first : q.shuffleEnabled → q.tracks ≠ [] → q.shuffleOrder[0]? = some (q.currentIndex.getD 0)
  indices : ∀ i ∈ q.shuffleOrder, i < q.tracks.length

variable {q : LocalQueue}

@[simp] theorem buildShuffleOrder_shuffleEnabled (random : Random) (q : LocalQueue) :
    (buildShuffleOrder random q).shuffleEnabled = q.shuffleEnabled := by
  unfold buildShuffleOrder
  split <;> rfl

@[simp] theorem buildShuffleOrder_repeatMode (random : Random) (q : LocalQueue) :
    (buildShuffleOrder random q).repeatMode = q.repeatMode := by
  unfold buildShuffleOrder
  split <;> rfl

theorem idxOf?_range {n k : Nat} (hk : k < n) : (List.range n).idxOf? k = some k := by
  rw [List.idxOf?, List.findIdx?_eq_some_iff_getElem]
  refine ⟨by rwa [List.length_range], by simp, fun j hj => ?_⟩
  simp only [List.getElem_range, beq_iff_eq]
  omega

theorem idxOf?_first {l : List Nat} {k : Nat} (h : l[0]? = some k) : l.idxOf? k = some 0 := by
  obtain ⟨hzero, hat⟩ := List.getElem?_eq_some_iff.1 h
  rw [List.idxOf?, List.findIdx?_eq_some_iff_getElem]
  exact ⟨hzero, by simp [hat], fun j hj => absurd hj (Nat.not_lt_zero j)⟩

/-- All indices, the current one brought to the front. -/
def frontOrder (n current : Nat) : List Nat :=
  if 0 < current then swap (List.range n) 0 current else List.range n

theorem frontOrder_perm (n current : Nat) : (frontOrder n current).Perm (List.range n) := by
  unfold frontOrder
  split
  · rw [swap_eq]
    exact List.swap_perm _ _ _
  · exact List.Perm.refl _

theorem frontOrder_first {n current : Nat} (h : current < n) : (frontOrder n current)[0]? = some current := by
  unfold frontOrder
  split
  · rw [swap, List.getElem?_range (by omega), List.getElem?_range h]
    dsimp only
    rw [List.getElem?_set_ne (by omega), List.getElem?_set_self (by rw [List.length_range]; omega)]
  · rw [List.getElem?_range (by omega)]
    exact congrArg some (by omega)

theorem buildShuffleOrder_eq (random : Random) (henabled : q.shuffleEnabled)
    (hcurrent : q.currentIndex.getD 0 < q.tracks.length) :
    (buildShuffleOrder random q).shuffleOrder =
      shuffleFrom random (q.tracks.length - 1)
        (frontOrder q.tracks.length (q.currentIndex.getD 0)) := by
  have htracks : q.tracks ≠ [] := List.ne_nil_of_length_pos (by omega)
  rw [buildShuffleOrder, if_neg (by simp [henabled, htracks])]
  dsimp only
  rw [idxOf?_range hcurrent]
  rfl

theorem ordered_buildShuffleOrder (random : Random)
    (h : ∀ i ∈ q.currentIndex, i < q.tracks.length) : Ordered (buildShuffleOrder random q) := by
  by_cases hempty : q.shuffleEnabled = false ∨ q.tracks = []
  · have hnone : (buildShuffleOrder random q).shuffleOrder = [] := by
      rw [buildShuffleOrder, if_pos hempty]
    refine ⟨by simpa using h, ?_, ?_, ?_⟩
    · intro henabled
      rcases hempty with hoff | hnil
      · simp [hoff] at henabled
      · simp [hnone, hnil]
    · intro henabled hne
      rcases hempty with hoff | hnil
      · simp [hoff] at henabled
      · simp [hnil] at hne
    · simp [hnone]
  · obtain ⟨henabled, htracks⟩ := not_or.1 hempty
    have hcurrent : q.currentIndex.getD 0 < q.tracks.length := by
      cases hc : q.currentIndex with
      | none => exact List.length_pos_iff.2 htracks
      | some i => exact h i hc
    obtain ⟨hperm, hfirst⟩ :=
      shuffleFrom_spec random (q.tracks.length - 1)
        (frontOrder q.tracks.length (q.currentIndex.getD 0))
    rw [← buildShuffleOrder_eq random (by simpa using henabled) hcurrent] at hperm hfirst
    have hperm := hperm.trans (frontOrder_perm _ _)
    refine ⟨by simpa using h, ?_, ?_, ?_⟩
    · intro _
      rw [buildShuffleOrder_tracks, hperm.length_eq, List.length_range]
    · intro _ _
      rw [buildShuffleOrder_currentIndex]
      exact hfirst.trans (frontOrder_first hcurrent)
    · intro i hi
      rw [buildShuffleOrder_tracks]
      exact List.mem_range.1 (hperm.mem_iff.1 hi)

/-! ## What a step does to it -/

/-- The next index is in the queue. -/
theorem Ordered.resolveNextIndex_lt (h : Ordered q) {i : Nat} (hnext : q.resolveNextIndex = some i) :
    i < q.tracks.length := by
  unfold resolveNextIndex at hnext
  cases hc : q.currentIndex with
  | none => simp [hc] at hnext
  | some current =>
    rw [hc] at hnext
    dsimp only at hnext
    split at hnext
    · split at hnext
      · rename_i next hat
        cases hnext
        split at hat
        · exact h.indices _ (List.mem_of_getElem? hat)
        · exact h.indices _ (List.mem_of_getElem? hat)
      · split at hnext
        · exact h.indices _ (List.mem_of_getElem? hnext)
        · cases hnext
    · split at hnext
      · cases hnext
        assumption
      · split at hnext
        · rename_i hall
          cases hnext
          exact hall.2
        · cases hnext

theorem Ordered.advance_inside (h : Ordered q) {q' : LocalQueue} (hq' : q.advance = some q') :
    ∀ i ∈ q'.currentIndex, i < q'.tracks.length := by
  unfold advance at hq'
  split at hq'
  · cases hq'
  split at hq'
  · cases hq'
    exact h.inside
  · obtain ⟨next, hnext, rfl⟩ := Option.map_eq_some_iff.1 hq'
    intro i hi
    cases hi
    exact h.resolveNextIndex_lt hnext

theorem Ordered.goBack_inside (h : Ordered q) {q' : LocalQueue} (hq' : q.goBack = some q') :
    ∀ i ∈ q'.currentIndex, i < q'.tracks.length := by
  unfold goBack at hq'
  cases hc : q.currentIndex with
  | none => simp [hc] at hq'
  | some current =>
    rw [hc] at hq'
    dsimp only at hq'
    split at hq'
    · split at hq'
      · obtain ⟨i, hi, rfl⟩ := Option.map_eq_some_iff.1 hq'
        intro k hk
        cases hk
        exact h.indices _ (List.mem_of_getElem? hi)
      · cases hq'
    · split at hq'
      · cases hq'
      · cases hq'
        have hlt := h.inside current hc
        intro k hk
        cases hk
        dsimp only
        omega

theorem Ordered.index_none (h : Ordered q) (hnone : q.currentTrack = none) :
    q.currentIndex = none := by
  cases hc : q.currentIndex with
  | none => rfl
  | some i =>
    rw [currentTrack, hc, Option.bind_some, List.getElem?_eq_getElem (h.inside i hc)] at hnone
    cases hnone

/-- Without a current track the order begins with the first one. -/
theorem Ordered.start (h : Ordered q) (hnone : q.currentIndex = none) (htracks : q.tracks ≠ []) :
    Ordered { q with currentIndex := some 0 } := by
  refine ⟨fun i hi => ?_, h.length, fun henabled _ => ?_, h.indices⟩
  · cases hi
    exact List.length_pos_iff.2 htracks
  · rw [h.first henabled htracks, hnone]
    rfl

/-- The index follows its entry into the rest of the queue. -/
theorem Ordered.remove (h : Ordered q) (random : Random) {index : Nat}
    (hindex : index < q.tracks.length) : Ordered (q.remove random index) := by
  refine ordered_buildShuffleOrder random fun i hi => ?_
  have hlen : (q.tracks.eraseIdx index).length = q.tracks.length - 1 :=
    List.length_eraseIdx_of_lt hindex
  obtain ⟨current, hc, hcurrent⟩ := Option.mem_bind_iff.1 hi
  have hlt := h.inside current hc
  dsimp only
  split_ifs at hcurrent with hbefore hsame hnil hlast
  · cases hcurrent
    omega
  · cases hcurrent
  · have hpos := List.length_pos_iff.2 hnil
    cases hcurrent
    omega
  · cases hcurrent
    omega
  · cases hcurrent
    omega

theorem Ordered.move (h : Ordered q) (random : Random) {src dst : Nat}
    (hsrc : src < q.tracks.length) (hdst : dst < q.tracks.length) :
    Ordered (q.move random src dst) := by
  have hcursor : (q.move random src dst).cursor =
      ⟨moveEntry src dst q.tracks, q.currentIndex.map (movedIndex src dst)⟩ :=
    cursor_move random hsrc
  have htracks : (q.move random src dst).tracks = moveEntry src dst q.tracks :=
    congrArg Cursor.list hcursor
  have hindex : (q.move random src dst).currentIndex = q.currentIndex.map (movedIndex src dst) :=
    congrArg Cursor.index hcursor
  have hinside : ∀ i ∈ (q.move random src dst).currentIndex,
      i < (q.move random src dst).tracks.length := by
    intro i hi
    rw [hindex] at hi
    obtain ⟨current, hc, rfl⟩ := Option.mem_map.1 hi
    rw [htracks, length_moveEntry hsrc hdst]
    exact movedIndex_lt hsrc hdst (h.inside current hc)
  unfold LocalQueue.move at hinside ⊢
  rw [List.getElem?_eq_getElem hsrc] at hinside ⊢
  exact ordered_buildShuffleOrder random (by simpa using hinside)

end LocalQueue

namespace LocalPlayback

open LocalQueue (Ordered ordered_buildShuffleOrder)

variable {s : LocalPlayback}

theorem playPlayer_queue (ch : Chance) (s : LocalPlayback) : (playPlayer ch s).queue = s.queue := by
  unfold playPlayer
  split
  · rfl
  · exact emitStatus_queue ch _ s

theorem loadSigned_queue (ch : Chance) (query : Option String) (s : LocalPlayback) :
    (loadSigned ch query s).queue = s.queue := by
  unfold loadSigned
  split
  · rfl
  dsimp only
  split
  · rfl
  split
  · rfl
  split
  · rw [playPlayer_queue, emitStatus_queue]
  · rw [emitStatus_queue]

theorem preloadSigned_queue (query : Option String) (s : LocalPlayback) :
    (preloadSigned query s).queue = s.queue := by
  unfold preloadSigned
  repeat' (first | rfl | split | dsimp only)

theorem ordered_add (h : Ordered s.queue) (random : Random) (ts : List Track) :
    Ordered (s.queue.add random ts) := by
  refine ordered_buildShuffleOrder random fun i hi => ?_
  rw [List.length_append]
  exact Nat.lt_add_right _ (h.inside i hi)

theorem ordered_loadAdvanced (h : Ordered s.queue) (ch : Chance) :
    Ordered (loadAdvanced ch s s.queue.advance).queue := by
  cases hadvance : s.queue.advance with
  | none => exact h
  | some q =>
    rw [loadAdvanced, loadCurrentTrack_queue]
    exact ordered_buildShuffleOrder _ (h.advance_inside hadvance)

theorem ordered_handleTrackAdvanced (h : Ordered s.queue) (ch : Chance) :
    Ordered (handleTrackAdvanced ch s).queue := by
  unfold handleTrackAdvanced
  cases hadvance : s.queue.advance with
  | none => exact h
  | some q =>
    rw [updatePreload_queue]
    exact ordered_buildShuffleOrder _ (h.advance_inside hadvance)

theorem ordered_step (h : Ordered s.queue) (a : LocalAction × Chance) :
    Ordered (step a s).queue := by
  obtain ⟨action, ch⟩ := a
  cases action with
  | playTracks tracks startIndex =>
    simp only [step, playTracks, loadCurrentTrack_queue]
    refine ordered_buildShuffleOrder _ fun i hi => ?_
    simp only [clampIndex, Option.mem_def] at hi
    split at hi
    · cases hi
    · cases hi
      dsimp only
      omega
  | addToQueue track =>
    have hadd := ordered_add h ch.random [track]
    simp only [step, addToQueue]
    split
    · rename_i hfirst
      rw [loadCurrentTrack_queue]
      exact hadd.start (hadd.index_none hfirst.1) (List.ne_nil_of_length_pos (by omega))
    · exact hadd
  | addTracksToQueue tracks =>
    have hadd := ordered_add h ch.random tracks
    simp only [step, addTracksToQueue]
    split
    · rename_i hfirst
      rw [loadCurrentTrack_queue]
      refine hadd.start ?_ (List.ne_nil_of_length_pos hfirst.2)
      rw [LocalQueue.add, LocalQueue.buildShuffleOrder_currentIndex]
      exact h.index_none hfirst.1
    · exact hadd
  | removeFromQueue index =>
    simp only [step]
    by_cases hindex : index < 0 ∨ (s.queue.tracks.length : Int) ≤ index
    · rw [removeFromQueue, if_pos hindex]
      exact h
    · obtain ⟨i, rfl⟩ := Int.eq_ofNat_of_zero_le (by omega : 0 ≤ index)
      rw [queue_removeFromQueue ch (by omega)]
      exact h.remove ch.random (by omega)
  | moveInQueue src dst =>
    simp only [step, moveInQueue]
    split
    · exact h
    · exact h.move ch.random (by omega) (by omega)
  | clearQueue =>
    exact ⟨fun i hi => absurd hi (Option.not_mem_none i), fun _ => rfl, fun _ hne => absurd rfl hne,
      fun i hi => absurd hi List.not_mem_nil⟩
  | jumpToIndex index =>
    simp only [step, jumpToIndex]
    split
    · exact h
    · rw [loadCurrentTrack_queue]
      refine ordered_buildShuffleOrder _ fun i hi => ?_
      cases hi
      dsimp only
      omega
  | play =>
    simp only [step, play]
    split
    · exact h
    split
    · rename_i hne _
      rw [loadCurrentTrack_queue]
      refine ordered_buildShuffleOrder _ fun i hi => ?_
      cases hi
      exact List.length_pos_iff.2 hne
    split
    · rw [loadCurrentTrack_queue]
      exact h
    · rw [playPlayer_queue]
      exact h
  | next => exact ordered_loadAdvanced h ch
  | previous =>
    simp only [step, previous, seek]
    split
    · rw [emitStatus_queue]
      exact h
    split
    · rw [emitStatus_queue]
      exact h
    · rename_i q hback
      rw [loadCurrentTrack_queue]
      exact ordered_buildShuffleOrder _ (h.goBack_inside hback)
  | setRepeat mode =>
    simp only [step, setRepeat, updatePreload_queue]
    exact ⟨h.inside, h.length, h.first, h.indices⟩
  | setShuffle enabled =>
    simp only [step, setShuffle, updatePreload_queue]
    exact ordered_buildShuffleOrder _ h.inside
  | ended =>
    simp only [step, ended]
    split
    · rw [emitStatus_queue]
      exact h
    split
    · exact ordered_handleTrackAdvanced (by rw [emitStatus_queue]; exact h) ch
    · exact ordered_loadAdvanced (by rw [emitStatus_queue]; exact h) ch
  | loadSigned query =>
    rw [step, loadSigned_queue]
    exact h
  | preloadSigned query =>
    rw [step, preloadSigned_queue]
    exact h
  | audio event =>
    simp only [step]
    split
    · rw [emitStatus_queue]
      exact h
    · exact h
  | mediaSessionPlay =>
    rw [step, playPlayer_queue]
    exact h
  | seek =>
    rw [step, seek, emitStatus_queue]
    exact h
  | stop => exact h
  | pause => exact h
  | preloadError => exact h

theorem ordered_init : Ordered init.queue :=
  ⟨fun _ hi => (nomatch hi), fun _ => rfl, fun _ hne => absurd rfl hne, fun _ hi => nomatch hi⟩

/-! ## Shuffled playback -/

/-- What `next` goes on with when the order has more than one track in it: it never ends. -/
structure Shuffling (s : LocalPlayback) : Prop where
  ordered : Ordered s.queue
  enabled : s.queue.shuffleEnabled
  repeats : s.queue.repeatMode = .off
  current : s.queue.currentIndex.isSome
  several : 2 ≤ s.queue.tracks.length

/-- The second of the order is next. -/
theorem Shuffling.advance (h : Shuffling s) :
    ∃ i, s.queue.shuffleOrder[1]? = some i ∧ i < s.queue.tracks.length ∧
      s.queue.advance = some { s.queue with currentIndex := some i } := by
  obtain ⟨current, hcurrent⟩ := Option.isSome_iff_exists.1 h.current
  have htracks : s.queue.tracks ≠ [] := List.ne_nil_of_length_pos (by have := h.several; omega)
  have hfirst := h.ordered.first h.enabled htracks
  have hlength := h.ordered.length h.enabled
  rw [hcurrent, Option.getD_some] at hfirst
  have hone : 1 < s.queue.shuffleOrder.length := by
    have := h.several
    omega
  have hidx := LocalQueue.idxOf?_first hfirst
  refine ⟨s.queue.shuffleOrder[1], List.getElem?_eq_getElem hone,
    h.ordered.indices _ (List.getElem_mem hone), ?_⟩
  have hnext : s.queue.resolveNextIndex = some s.queue.shuffleOrder[1] := by
    simp [LocalQueue.resolveNextIndex, hcurrent, h.enabled, hidx, List.getElem?_eq_getElem hone]
  simp [LocalQueue.advance, hcurrent, h.repeats, hnext]

theorem Shuffling.next (h : Shuffling s) (ch : Chance) :
    Shuffling (next ch s) ∧ (LocalPlayback.next ch s).status = .loading := by
  obtain ⟨i, -, hi, hadvance⟩ := h.advance
  have hordered := ordered_loadAdvanced h.ordered ch
  rw [hadvance] at hordered
  rw [LocalPlayback.next, hadvance]
  have htrack : (LocalQueue.buildShuffleOrder ch.random
      { s.queue with currentIndex := some i }).currentTrack = some s.queue.tracks[i] := by
    simp [LocalQueue.currentTrack, List.getElem?_eq_getElem hi]
  refine ⟨⟨hordered, ?_, ?_, ?_, ?_⟩, ?_⟩
  · simpa [loadAdvanced] using h.enabled
  · simpa [loadAdvanced] using h.repeats
  · simp [loadAdvanced]
  · simpa [loadAdvanced] using h.several
  · simp [loadAdvanced, loadCurrentTrack, htrack]

/-- As many calls of `next` as there are tracks: all but the last come by every track but the current
one once, and the last one stops. -/
def PlaysEachOnce (chs : List Chance) (s : LocalPlayback) : Prop :=
  (((List.range (chs.length - 1)).map fun i =>
      (runAll next (chs.take (i + 1)) s).queue.currentTrack).Perm
    ((s.queue.tracks.eraseIdx (s.queue.currentIndex.getD 0)).map some)) ∧
    (runAll next chs s).status = .stopped

/-- The only track. -/
theorem next_single (h : Ordered s.queue) (henabled : s.queue.shuffleEnabled)
    (hoff : s.queue.repeatMode = .off) (hcurrent : s.queue.currentIndex = some 0)
    (hone : s.queue.tracks.length = 1) (ch : Chance) : (next ch s).status = .stopped := by
  have hfirst := h.first henabled (List.ne_nil_of_length_pos (by omega))
  have hlength := h.length henabled
  rw [hcurrent, Option.getD_some] at hfirst
  have hlast : s.queue.shuffleOrder[0 + 1]? = none := List.getElem?_eq_none (by omega)
  have hnext : s.queue.resolveNextIndex = none := by
    simp [LocalQueue.resolveNextIndex, hcurrent, henabled, hoff, LocalQueue.idxOf?_first hfirst,
      hlast]
  have hadvance : s.queue.advance = none := by simp [LocalQueue.advance, hcurrent, hoff, hnext]
  rw [next, hadvance]
  rfl

/-- In every state of a run with shuffling on and repeat off, for all random numbers. -/
theorem shuffle_once_iff (es : List (LocalAction × Chance)) (chs : List Chance)
    (hshuffle : (runAll step es init).queue.shuffleEnabled)
    (hoff : (runAll step es init).queue.repeatMode = .off)
    (hcurrent : (runAll step es init).queue.currentIndex.isSome)
    (hlen : chs.length = (runAll step es init).queue.tracks.length) :
    PlaysEachOnce chs (runAll step es init) ↔ (runAll step es init).queue.tracks.length = 1 := by
  have hordered : Ordered (runAll step es init).queue :=
    runAll_keeps (I := fun s : LocalPlayback => Ordered s.queue) (fun a _ h => ordered_step h a) es
      ordered_init
  generalize runAll step es init = s at *
  obtain ⟨current, hc⟩ := Option.isSome_iff_exists.1 hcurrent
  have hinside := hordered.inside current hc
  constructor
  · rintro ⟨-, hstopped⟩
    by_contra hne
    have hshuffling : Shuffling s := ⟨hordered, hshuffle, hoff, hcurrent, by omega⟩
    have hchs : chs ≠ [] := List.ne_nil_of_length_pos (by omega)
    rw [← List.dropLast_append_getLast hchs, runAll_append] at hstopped
    have hbefore : Shuffling (runAll next chs.dropLast s) :=
      runAll_keeps (fun ch _ h => (h.next ch).1) chs.dropLast hshuffling
    have hloading := (hbefore.next (chs.getLast hchs)).2
    exact PlaybackStatus.noConfusion (hloading.symm.trans hstopped)
  · intro hone
    obtain ⟨ch, rfl⟩ := List.length_eq_one_iff.1 (hlen.trans hone)
    obtain ⟨track, htrack⟩ := List.length_eq_one_iff.1 hone
    obtain rfl : current = 0 := by omega
    refine ⟨?_, next_single hordered hshuffle hoff hc hone ch⟩
    simp [hc, htrack]

/-- Shuffling is turned on, and `n` tracks are played. -/
def shuffled (n : Nat) : List (LocalAction × Chance) :=
  [.setShuffle true, .playTracks (threeQueued.take n) 0].map fun action => (action, ⟨fun _ => 0, 0⟩)

theorem shuffle_once_iff_single : PlaysEachOnce [⟨fun _ => 0, 0⟩] (runAll step (shuffled 1) init) :=
  (shuffle_once_iff (shuffled 1) [⟨fun _ => 0, 0⟩] (by decide) (by decide) (by decide)
    (by decide)).2 (by decide)

/-- Three tracks: the third comes second, then the first again, and playback goes on. -/
theorem shuffled_again :
    ((List.range 3).map fun i =>
        (runAll next (List.replicate (i + 1) ⟨fun _ => 0, 0⟩)
          (runAll step (shuffled 3) init)).queue.currentIndex) = [some 2, some 0, some 2] ∧
      ¬ PlaysEachOnce (List.replicate 3 ⟨fun _ => 0, 0⟩) (runAll step (shuffled 3) init) := by
  refine ⟨by decide, ?_⟩
  rintro ⟨-, hstopped⟩
  exact absurd hstopped (by decide)

end LocalPlayback

end Kanade.Web

import Mathlib.Data.List.InsertIdx
import Mathlib.Data.List.Nodup
import Kanade.Core.Player

/-!
# Kanade.Core.Removal

`remove_from_queue` on a node and its output, which has loaded some stretch of the queue and plays one
of it.

The songs of an output have ids, so that two entries with one path are told apart; the output deletes
the position it is told, and nothing if there is none.

`removesSame_iff`: when the output loses the entry that the queue loses. The core tells it the distance
from the current entry, and the position is the distance from the first entry loaded.
-/

namespace Kanade

open Concur Fallible

/-! ## Outputs that delete -/

structure Song where
  id : Nat
  path : String
deriving DecidableEq, Repr

structure Deck where
  songs : List Song
  pos : Nat
deriving DecidableEq, Repr

/-- The song being played keeps playing, or the one after it takes its place. -/
def Deck.remove (d : Deck) (index : Nat) : Deck where
  songs := d.songs.eraseIdx index
  pos := if index < d.pos then d.pos - 1 else d.pos

theorem Deck.length_remove {d : Deck} {index : Nat} (h : index < d.songs.length) :
    (d.remove index).songs.length = d.songs.length - 1 := List.length_eraseIdx_of_lt h

/-- All calls succeed. -/
def decks : Outputs (String → Deck) := fun x call =>
  match call with
  | .output node _ (.remove index) => (.ok (), Function.update x node ((x node).remove index))
  | .output _ _ _ | .onStateChanged _ _ | .persist _ _ => (.ok (), x)

section Run

variable {id : String} {w : Core} {x : String → Deck} {node : Node} {index : Nat}

@[simp] theorem run_broadcast_decks (w : Core) (x : String → Deck) :
    broadcast.run decks w x = (.ok (), { w with state := w.state.syncTopLevelFromSelectedNode }, x) :=
  run_broadcast_quiet decks w (fun _ _ => rfl) fun _ _ => rfl

/-- An index in the queue: the removal succeeds, and this is what it leaves. -/
theorem run_removeFromQueue (h : Serves id w node) (hindex : index < node.queue.length) :
    ∃ w', (removeFromQueue index).run decks w x =
        (.ok (), w', Function.update x id ((x id).remove (mpdIndex node.currentIndex index))) ∧
      Serves id w' (node.removeTrack index) ∧
      w'.transportState id = (w.transportState id).map (.decrement 1) := by
  obtain ⟨slot, -, hout⟩ := h.activeOutput
  have hframe := removeTrack_frame index
  unfold removeFromQueue
  simp only [run_bind, lockSelected, run_lockState, PlaybackState.selectedNode, h.selected,
    Option.bind_some, h.found, ge_iff_le, not_le.2 hindex, if_false, run_maybeActiveOutputs]
  rw [activeOutput_modifyNode (fun n => (hframe n).1) fun n => (hframe n).2, hout]
  simp only [Except.toOption, run_bind, run_send, decks, decrementProjectionLoadedLenActive,
    Nat.one_ne_zero, if_false, adjustProjectionActive, run_attempt, run_activeNodeId]
  rw [activeId_modifyNode (fun n => (hframe n).1) fun n => (hframe n).2, h.activeId]
  simp only [run_lockTransport]
  rw [run_broadcast_decks]
  refine ⟨_, rfl, ⟨?_, ?_, ?_, h.output⟩, by simp⟩
  · exact syncTopLevel_selectedNodeId.trans h.selected
  · rw [node_syncTopLevel, node_id h.found, node_modifyNode_self fun n => (hframe n).1, h.found]
    rfl
  · rw [(hframe node).2]
    exact h.connected

/-- Where the removal leaves the current entry. -/
theorem removeTrack_currentIndex {ci : Nat} (h : node.currentIndex = some ci) :
    (node.removeTrack index).currentIndex =
      if ci = index then
        if node.queue.eraseIdx index = [] then none
        else some (min ci ((node.queue.eraseIdx index).length - 1))
      else some (if ci > index then ci - 1 else ci) := by
  unfold Node.removeTrack
  rw [h]
  dsimp only
  by_cases hci : ci = index
  · by_cases hq : node.queue.eraseIdx index = []
    · simp [hci, hq]
    · simp [hci, hq]
  · by_cases hgt : ci > index
    · simp [hci, hgt]
    · simp [hci, hgt]

end Run

/-! ## Stretches of a list -/

section Stretch

variable {α : Type} {l : List α} {start n index j : Nat}

/-- An entry of the stretch is one of the list. -/
theorem stretch_eraseIdx (hj : j < n) :
    ((l.drop start).take n).eraseIdx j = ((l.eraseIdx (start + j)).drop start).take (n - 1) := by
  refine List.ext_getElem? fun k => ?_
  simp only [List.getElem?_eraseIdx, List.getElem?_take, List.getElem?_drop]
  grind

/-- An entry past the stretch does not matter to it. -/
theorem stretch_of_le (hindex : start + n ≤ index) :
    ((l.eraseIdx index).drop start).take (n - 1) = ((l.drop start).take n).take (n - 1) := by
  refine List.ext_getElem? fun k => ?_
  simp only [List.getElem?_eraseIdx, List.getElem?_take, List.getElem?_drop]
  grind

/-- In a list without repetition the entry that is missing is known. -/
theorem eraseIdx_inj {i : Nat} (hl : l.Nodup) (hi : i < l.length)
    (h : l.eraseIdx i = l.eraseIdx j) : i = j := by
  by_contra hne
  have hmem : l[i] ∈ l.eraseIdx i := h ▸ List.mem_eraseIdx_iff_getElem.2 ⟨i, hi, hne, rfl⟩
  obtain ⟨k, hk, hki, heq⟩ := List.mem_eraseIdx_iff_getElem.1 hmem
  exact hki (hl.getElem_inj_iff.1 heq)

end Stretch

/-! ## The node and its output -/

/-- The output has loaded the stretch of the queue from `start` on, as many entries as it has songs, and
the current entry is the one it plays. -/
structure InLine (node : Node) (projection : NodeTransportState) (deck : Deck) (start : Nat) :
    Prop where
  ids : (deck.songs.map Song.id).Nodup
  fits : start + deck.songs.length ≤ node.queue.length
  songs : deck.songs.map Song.path =
    ((node.queue.map Track.filePath).drop start).take deck.songs.length
  loadedLen : projection.loadedLen = deck.songs.length
  startIndex : deck.songs ≠ [] → projection.projectionStartIndex = some start
  current : deck.pos < deck.songs.length → node.currentIndex = some (start + deck.pos)

/-- The output loses what the queue loses, and the two fit together again. -/
structure RemovesSame (start index : Nat) (before : Deck) (node' : Node)
    (projection' : NodeTransportState) (after : Deck) : Prop where
  inside : ∀ j < before.songs.length, index = start + j → after.songs = before.songs.eraseIdx j
  ahead : index < start → after.songs = before.songs
  inLine : ∃ start', InLine node' projection' after start'

/-- The entry is among those loaded, and the first of them is being played or removed. The other case is
an accident: the output has gone on, the entry is past those loaded, and the one that is deleted is as
good as the last. -/
def TellsSame (start index : Nat) (deck : Deck) : Prop :=
  (start ≤ index ∧ index < start + deck.songs.length ∧ (deck.pos = 0 ∨ index = start)) ∨
    (start + deck.songs.length ≤ index ∧ 0 < deck.pos ∧
      deck.pos ≤ index - (start + deck.pos) ∧ index - (start + deck.pos) < deck.songs.length ∧
        (deck.songs.map Song.path).eraseIdx (index - (start + deck.pos)) =
          (deck.songs.map Song.path).dropLast)

instance (start index : Nat) (deck : Deck) : Decidable (TellsSame start index deck) :=
  inferInstanceAs (Decidable (_ ∨ _))

section InLine

variable {node : Node} {projection : NodeTransportState} {deck : Deck} {start index : Nat}

/-- A report of a song comes to the place of the queue it was loaded from. -/
theorem InLine.reported {o : Option NodeTransportState} {j : Nat}
    (h : InLine node (o.getD {}) deck start) (hj : j < deck.songs.length)
    (hfits : node.queue.length ≤ usizeMax) :
    projectedCurrentIndex o (some j) (o.getD {}).projectionGeneration = some (start + j) := by
  have hlen := h.loadedLen
  have hle := h.fits
  have hsongs : deck.songs ≠ [] := fun hnil => by simp [hnil] at hj
  have hstart := h.startIndex hsongs
  cases o with
  | none => simp only [Option.getD_none] at hlen; omega
  | some p =>
    simp only [Option.getD_some] at hlen hstart
    have hmax : start + j ≤ usizeMax := by omega
    simp [projectedCurrentIndex, hlen, hstart, hmax, hj]

/-- And that entry has its path. -/
theorem InLine.getElem?_songs {j : Nat} (h : InLine node projection deck start)
    (hj : j < deck.songs.length) :
    (deck.songs[j]?).map Song.path = (node.queue[start + j]?).map Track.filePath := by
  rw [← List.getElem?_map, ← List.getElem?_map, h.songs, List.getElem?_take, if_pos hj,
    List.getElem?_drop]

/-- What the output is told is the distance from the current entry. -/
theorem InLine.told (h : InLine node projection deck start) (hplays : deck.pos < deck.songs.length) :
    mpdIndex node.currentIndex index = index - (start + deck.pos) := by
  rw [h.current hplays]
  rfl

theorem InLine.ids_remove (h : InLine node projection deck start) :
    ((deck.remove index).songs.map Song.id).Nodup := by
  rw [Deck.remove, ← List.eraseIdx_map]
  exact h.ids.sublist (List.eraseIdx_sublist _ _)

theorem InLine.loadedLen_remove (h : InLine node projection deck start)
    (hin : index < deck.songs.length) :
    (projection.decrement 1).loadedLen = (deck.remove index).songs.length := by
  rw [Deck.length_remove hin, ← h.loadedLen]
  rfl

/-- The start stays as long as a song is left. -/
theorem InLine.startIndex_remove (h : InLine node projection deck start)
    (hin : index < deck.songs.length) (hne : (deck.remove index).songs ≠ []) :
    (projection.decrement 1).projectionStartIndex = some start := by
  have hlen : projection.loadedLen - 1 = (deck.remove index).songs.length := h.loadedLen_remove hin
  have hpos := List.length_pos_iff.2 hne
  have hleft : projection.loadedLen - 1 ≠ 0 := by omega
  rw [NodeTransportState.decrement, if_neg hleft]
  exact h.startIndex fun hnil => by simp [hnil] at hin

/-- Told the position of the entry, the output fits again. -/
theorem InLine.remove_inside (h : InLine node projection deck start)
    (hplays : deck.pos < deck.songs.length) {j : Nat} (hj : j < deck.songs.length)
    (hfirst : deck.pos = 0 ∨ j = 0) :
    InLine (node.removeTrack (start + j)) (projection.decrement 1) (deck.remove j) start where
  ids := h.ids_remove
  fits := by
    have hle := h.fits
    have hlt : start + j < node.queue.length := by omega
    rw [removeTrack_queue, Deck.length_remove hj, List.length_eraseIdx_of_lt hlt]
    omega
  songs := by
    rw [removeTrack_queue, Deck.length_remove hj, Deck.remove, ← List.eraseIdx_map,
      ← List.eraseIdx_map, h.songs]
    exact stretch_eraseIdx hj
  loadedLen := h.loadedLen_remove hj
  startIndex := h.startIndex_remove hj
  current := by
    intro hpos
    have hle := h.fits
    have hlt : start + j < node.queue.length := by omega
    simp only [Deck.remove, List.length_eraseIdx_of_lt hj] at hpos ⊢
    rw [removeTrack_currentIndex (h.current hplays)]
    have hrest : (node.queue.eraseIdx (start + j)).length = node.queue.length - 1 :=
      List.length_eraseIdx_of_lt hlt
    have hqueue : node.queue.eraseIdx (start + j) ≠ [] := by
      intro hnil
      rw [hnil, List.length_nil] at hrest
      split at hpos <;> omega
    rw [if_neg hqueue, hrest]
    rcases hfirst with hzero | rfl
    · grind
    · grind

/-- Past what is loaded: the output deletes an entry that the queue keeps. -/
theorem InLine.remove_past (h : InLine node projection deck start)
    (hplays : deck.pos < deck.songs.length) (hpast : start + deck.songs.length ≤ index)
    (hindex : index < node.queue.length) :
    (∃ start', InLine (node.removeTrack index) (projection.decrement 1)
        (deck.remove (index - (start + deck.pos))) start') ↔
      0 < deck.pos ∧ deck.pos ≤ index - (start + deck.pos) ∧
        index - (start + deck.pos) < deck.songs.length ∧
          (deck.songs.map Song.path).eraseIdx (index - (start + deck.pos)) =
            (deck.songs.map Song.path).dropLast := by
  generalize htold : index - (start + deck.pos) = told
  have hcurrent : (node.removeTrack index).currentIndex = some (start + deck.pos) := by
    rw [removeTrack_currentIndex (h.current hplays), if_neg (by omega), if_neg (by omega)]
  have hsongs : (((node.removeTrack index).queue.map Track.filePath).drop start).take
      (deck.songs.length - 1) = (deck.songs.map Song.path).dropLast := by
    rw [removeTrack_queue, ← List.eraseIdx_map, stretch_of_le hpast, ← h.songs,
      List.dropLast_eq_take, List.length_map]
  constructor
  · rintro ⟨start', hagain⟩
    have hlen := hagain.loadedLen
    have hloaded := h.loadedLen
    have hin : told < deck.songs.length := by
      by_contra hout
      simp only [NodeTransportState.decrement, Deck.remove,
        List.eraseIdx_of_length_le (not_lt.1 hout)] at hlen
      omega
    have hpos : 0 < deck.pos := by omega
    have hne : (deck.remove told).songs ≠ [] := by
      rw [← List.length_pos_iff, Deck.length_remove hin]
      omega
    have hstart : start' = start :=
      Option.some.inj ((hagain.startIndex hne).symm.trans (h.startIndex_remove hin hne))
    subst hstart
    refine ⟨hpos, ?_, hin, ?_⟩
    · by_contra hlt
      have hat := hagain.current
      simp only [Deck.remove, List.length_eraseIdx_of_lt hin, if_pos (not_le.1 hlt), hcurrent] at hat
      have heq := Option.some.inj (hat (by omega))
      omega
    · have hpaths := hagain.songs
      rw [Deck.remove, List.length_eraseIdx_of_lt hin, hsongs] at hpaths
      rw [List.eraseIdx_map]
      exact hpaths
  · rintro ⟨hpos, hle, hin, hpaths⟩
    have hfits := h.fits
    refine ⟨start, h.ids_remove, ?_, ?_, h.loadedLen_remove hin, h.startIndex_remove hin, ?_⟩
    · rw [removeTrack_queue, Deck.length_remove hin, List.length_eraseIdx_of_lt hindex]
      omega
    · rw [Deck.length_remove hin, hsongs, Deck.remove, ← List.eraseIdx_map]
      exact hpaths
    · intro _
      rw [hcurrent, Deck.remove, if_neg (by omega)]

/-- When the output loses the entry that the queue loses. -/
theorem InLine.remove_same (h : InLine node projection deck start)
    (hplays : deck.pos < deck.songs.length) (hindex : index < node.queue.length) :
    RemovesSame start index deck (node.removeTrack index) (projection.decrement 1)
        (deck.remove (index - (start + deck.pos))) ↔ TellsSame start index deck := by
  have hids : deck.songs.Nodup := h.ids.of_map
  unfold TellsSame
  rcases Nat.lt_or_ge index start with hahead | hahead
  · -- the first song is deleted, and none should be
    refine iff_of_false (fun hsame => ?_) (by omega)
    have hlen := congrArg List.length (hsame.ahead hahead)
    rw [Deck.remove, List.length_eraseIdx_of_lt (by omega)] at hlen
    omega
  rcases Nat.lt_or_ge index (start + deck.songs.length) with hinside | hpast
  · obtain ⟨j, rfl⟩ := Nat.exists_eq_add_of_le hahead
    have hj : j < deck.songs.length := by omega
    have htold : start + j - (start + deck.pos) = j - deck.pos := by omega
    rw [htold]
    constructor
    · intro hsame
      have heq := eraseIdx_inj hids (by omega) (hsame.inside j hj rfl)
      exact .inl ⟨by omega, hinside, by omega⟩
    · intro htells
      have hfirst : deck.pos = 0 ∨ j = 0 := by omega
      have heq : j - deck.pos = j := by omega
      rw [heq]
      exact ⟨fun k _ hk => by rw [Nat.add_left_cancel hk]; rfl, by omega, start,
        h.remove_inside hplays hj hfirst⟩
  · rw [or_iff_right (by omega), and_iff_right hpast, ← h.remove_past hplays hpast hindex]
    exact ⟨fun hsame => hsame.inLine, fun hagain => ⟨by omega, by omega, hagain⟩⟩

end InLine

theorem getD_decrement (o : Option NodeTransportState) (removed : Nat) :
    (o.map (.decrement removed)).getD {} = (o.getD {}).decrement removed := by
  cases o with
  | none => simp [NodeTransportState.decrement]
  | some p => rfl

/-- For a selected connected node and an output that fit together: the removal succeeds, and the output
loses the entry that the queue loses exactly if the core tells it its position. -/
theorem removesSame_iff {id : String} {w : Core} {x : String → Deck} {node : Node} {start index : Nat}
    (hserves : Serves id w node) (hline : InLine node ((w.transportState id).getD {}) (x id) start)
    (hplays : (x id).pos < (x id).songs.length) (hindex : index < node.queue.length) :
    ∃ w' x', (removeFromQueue index).run decks w x = (.ok (), w', x') ∧
      Serves id w' (node.removeTrack index) ∧
      (RemovesSame start index (x id) (node.removeTrack index) ((w'.transportState id).getD {})
          (x' id) ↔
        TellsSame start index (x id)) := by
  obtain ⟨w', hrun, hserves', htransport⟩ := run_removeFromQueue (x := x) hserves hindex
  refine ⟨w', _, hrun, hserves', ?_⟩
  rw [htransport, getD_decrement, Function.update_self, hline.told hplays]
  exact hline.remove_same hplays hindex

/-- Three tracks, all loaded. -/
def threeQueued : List Track :=
  [{ id := "1", filePath := "/1" }, { id := "2", filePath := "/2" }, { id := "3", filePath := "/3" }]

/-- The output of `amp` plays entry `pos` of them, and has reported it. -/
def threeLoaded (pos : Nat) : Core × (String → Deck) :=
  ((runOps allSucceed [.registerOutput "amp" "c" 0, .addNode { id := "amp" },
      .setQueue threeQueued (some 0), .syncNodeState "amp" .playing 0 50 (some pos) 1]
    (Core.new (fun _ => none) [] [], ())).1,
    fun _ => ⟨[⟨1, "/1"⟩, ⟨2, "/2"⟩, ⟨3, "/3"⟩], pos⟩)

def threeNode (pos : Nat) : Node :=
  { id := "amp", status := .playing, queue := threeQueued, currentIndex := some pos }

theorem serves_threeLoaded :
    Serves "amp" (threeLoaded 0).1 (threeNode 0) ∧ Serves "amp" (threeLoaded 1).1 (threeNode 1) :=
  ⟨⟨by decide +kernel, by decide +kernel, rfl, by decide +kernel⟩,
    by decide +kernel, by decide +kernel, rfl, by decide +kernel⟩

theorem inLine_threeLoaded :
    InLine (threeNode 0) (((threeLoaded 0).1.transportState "amp").getD {}) ((threeLoaded 0).2 "amp")
        0 ∧
      InLine (threeNode 1) (((threeLoaded 1).1.transportState "amp").getD {}) ((threeLoaded 1).2 "amp")
        0 :=
  ⟨⟨by decide, by decide, by decide, by decide +kernel, by decide +kernel, by decide⟩,
    by decide, by decide, by decide, by decide +kernel, by decide +kernel, by decide⟩

/-- The second track is removed while the first is played. -/
theorem removesSame_iff_first :
    ∃ w' y, (removeFromQueue 1).run decks (threeLoaded 0).1 (threeLoaded 0).2 = (.ok (), w', y) ∧
      RemovesSame 0 1 ((threeLoaded 0).2 "amp") ((threeNode 0).removeTrack 1)
        ((w'.transportState "amp").getD {}) (y "amp") := by
  obtain ⟨w', y, hrun, -, hiff⟩ :=
    removesSame_iff serves_threeLoaded.1 inLine_threeLoaded.1 (by decide) (show 1 < _ by decide)
  exact ⟨w', y, hrun, hiff.2 (by decide)⟩

/-- The third track is removed while the second is played: the output deletes the second. -/
theorem removal_after_advance :
    InLine (threeNode 1) (((threeLoaded 1).1.transportState "amp").getD {}) ((threeLoaded 1).2 "amp")
        0 ∧
      ∃ w' y, (removeFromQueue 2).run decks (threeLoaded 1).1 (threeLoaded 1).2 = (.ok (), w', y) ∧
        (y "amp").songs = [⟨1, "/1"⟩, ⟨3, "/3"⟩] ∧
        ((threeNode 1).removeTrack 2).queue = threeQueued.take 2 ∧
        ¬ RemovesSame 0 2 ((threeLoaded 1).2 "amp") ((threeNode 1).removeTrack 2)
          ((w'.transportState "amp").getD {}) (y "amp") := by
  refine ⟨inLine_threeLoaded.2, ?_⟩
  obtain ⟨w', hrun, -, -⟩ :=
    run_removeFromQueue (x := (threeLoaded 1).2) serves_threeLoaded.2 (show 2 < _ by decide)
  have hsongs : (Function.update (threeLoaded 1).2 "amp" (((threeLoaded 1).2 "amp").remove
      (mpdIndex (threeNode 1).currentIndex 2)) "amp").songs = [⟨1, "/1"⟩, ⟨3, "/3"⟩] := by
    rw [Function.update_self]
    decide
  refine ⟨w', _, hrun, hsongs, by decide, fun hsame => ?_⟩
  have hlost := hsame.inside 2 (by decide) rfl
  rw [hsongs] at hlost
  exact absurd hlost (by decide)

end Kanade

import Kanade.Core.Moving
import Kanade.Core.Snapshots
import Kanade.Web.LocalPlayback

/-!
# Kanade.Web.QueueEdits

Moving and removing in a queue, written three times: for a node of the core, for the queue of a browser
and for the playlist of its player.

A `Cursor` is a list with the index of its current entry. `Moved` and `Removed` say what an edit makes
of one; `queue_edits_agree`: the three do the same, and do that.
-/

namespace Kanade.Web

open Concur Fallible

/-! ## Lists with a current entry -/

@[ext] structure Cursor (α : Type) where
  list : List α
  index : Option Nat

namespace Cursor

variable {α : Type}

/-- Which entry is which is told by their numbers: entry `i` is the one at `i'` now. -/
structure Moved (src dst : Nat) (c c' : Cursor α) : Prop where
  list : c'.list = moveEntry src dst c.list
  none : c.index = none → c'.index = none
  entry : ∀ i ∈ c.index, ∃ i' ∈ c'.index, c'.list[i']? = c.list[i]? ∧
    (moveEntry src dst (List.range c.list.length))[i']? = some i

structure Removed (index : Nat) (c c' : Cursor α) : Prop where
  list : c'.list = c.list.eraseIdx index
  none : c.index = none → c'.index = none
  other : ∀ i ∈ c.index, i ≠ index → ∃ i' ∈ c'.index, c'.list[i']? = c.list[i]? ∧
    ((List.range c.list.length).eraseIdx index)[i']? = some i
  same : index ∈ c.index →
    c'.index = if c'.list = [] then Option.none else some (min index (c'.list.length - 1))

variable {c : Cursor α} {src dst index : Nat}

theorem moved (hinside : ∀ i ∈ c.index, i < c.list.length) (hsrc : src < c.list.length)
    (hdst : dst < c.list.length) :
    Moved src dst c ⟨moveEntry src dst c.list, c.index.map (movedIndex src dst)⟩ where
  list := rfl
  none h := by rw [h, Option.map_none]
  entry i hi := by
    refine ⟨movedIndex src dst i, Option.mem_map_of_mem _ hi, ?_, ?_⟩
    · exact getElem?_moveEntry_movedIndex hsrc hdst i
    · rw [getElem?_moveEntry_movedIndex (by rwa [List.length_range]) (by rwa [List.length_range]),
        List.getElem?_range (hinside i hi)]

/-- The entries behind the one that is removed come one forward. -/
theorem getElem?_eraseIdx_of_ne {l : List α} {i : Nat} (h : i ≠ index) :
    (l.eraseIdx index)[if i > index then i - 1 else i]? = l[i]? := by
  rw [List.getElem?_eraseIdx]
  grind

/-- Where entry `i` is in the rest of the list; if it is the one removed, what takes its place. -/
def removedIndex (rest : List α) (index i : Nat) : Option Nat :=
  if i = index then if rest = [] then none else some (min i (rest.length - 1))
  else some (if i > index then i - 1 else i)

theorem removed (hinside : ∀ i ∈ c.index, i < c.list.length) :
    Removed index c ⟨c.list.eraseIdx index,
      c.index.bind (removedIndex (c.list.eraseIdx index) index)⟩ where
  list := rfl
  none h := by rw [h, Option.bind_none]
  other i hi hne := by
    refine ⟨if i > index then i - 1 else i, ?_, getElem?_eraseIdx_of_ne hne, ?_⟩
    · rw [Option.mem_def.1 hi, Option.bind_some, removedIndex, if_neg hne]
      rfl
    · rw [getElem?_eraseIdx_of_ne hne, List.getElem?_range (hinside i hi)]
  same hi := by rw [Option.mem_def.1 hi, Option.bind_some, removedIndex, if_pos rfl]

end Cursor

open Cursor

/-! ## The core -/

section Core

variable {η : Type} {w : Core} {node : Node} {src dst index : Nat}

def nodeCursor (node : Node) : Cursor Track := ⟨node.queue, node.currentIndex⟩

theorem nodeCursor_removeTrack : nodeCursor (node.removeTrack index) =
    ⟨node.queue.eraseIdx index,
      node.currentIndex.bind (removedIndex (node.queue.eraseIdx index) index)⟩ := by
  refine Cursor.ext (removeTrack_queue index node) ?_
  dsimp only [nodeCursor]
  cases hci : node.currentIndex with
  | none => simp [Node.removeTrack, hci]
  | some ci => exact removeTrack_currentIndex hci

theorem selectedNode_modifyNode (h : w.state.selectedNode = some node) {f : Node → Node}
    (hf : ∀ n, (f n).id = n.id) :
    (w.state.modifyNode node.id f).selectedNode = some (f node) := by
  obtain ⟨id, hsel, hnode⟩ := Option.bind_eq_some_iff.1 h
  rw [PlaybackState.selectedNode, node_id hnode]
  exact (congrArg (Option.bind · _) hsel).trans
    ((node_modifyNode_self hf).trans (by rw [hnode]; rfl))

/-- Tasks that leave the selected node as it is, whatever the outputs answer. -/
def KeepsSelected {α : Type} (env : Outputs η) (t : Op α) : Prop :=
  ∀ w x, (t.run env w x).2.1.state.selectedNode = w.state.selectedNode

theorem KeepsSelected.bind {α β : Type} {env : Outputs η} {t : Op α} {f : α → Op β}
    (ht : KeepsSelected env t) (hf : ∀ a, KeepsSelected env (f a)) : KeepsSelected env (t >>= f) := by
  intro w x
  have hfirst := ht w x
  rw [run_bind]
  generalize t.run env w x = r at hfirst ⊢
  obtain ⟨_ | a, w', x'⟩ := r
  · exact hfirst
  · exact (hf a w' x').trans hfirst

theorem keepsSelected_broadcast (env : Outputs η) : KeepsSelected env broadcast := by
  intro w x
  rw [broadcast_state, selectedNode_sync]

theorem keepsSelected_send (env : Outputs η) (o : OutputHandle) (cmd : OutputCmd) :
    KeepsSelected env (o.send cmd) := by
  intro w x
  rw [run_send]

theorem keepsSelected_decrement (env : Outputs η) (removedLen : Nat) :
    KeepsSelected env (decrementProjectionLoadedLenActive removedLen) := by
  intro w x
  unfold decrementProjectionLoadedLenActive
  split
  · rfl
  · simp only [adjustProjectionActive, run_bind, run_attempt, run_activeNodeId]
    cases w.state.activeId <;> rfl

theorem selectedNode_moveInQueue (env : Outputs η) (x : η) (h : w.state.selectedNode = some node)
    (hsrc : src < node.queue.length) (hdst : dst < node.queue.length) :
    ((moveInQueue src dst).run env w x).2.1.state.selectedNode = some (node.moveTrack src dst) := by
  have hin : ¬ (src ≥ node.queue.length ∨ dst ≥ node.queue.length) := by omega
  rw [← selectedNode_modifyNode h (f := Node.moveTrack src dst) fun _ => rfl]
  unfold moveInQueue
  rw [run_bind]
  simp only [lockSelected, run_lockState, h, hin, if_false]
  rw [run_bind, run_maybeActiveOutputs]
  generalize Except.toOption (Core.activeOutput _) = active
  cases active with
  | none => exact keepsSelected_broadcast env _ x
  | some o => exact ((keepsSelected_send env o _).bind fun _ => keepsSelected_broadcast env) _ x

theorem selectedNode_removeFromQueue (env : Outputs η) (x : η)
    (h : w.state.selectedNode = some node) (hindex : index < node.queue.length) :
    ((removeFromQueue index).run env w x).2.1.state.selectedNode =
      some (node.removeTrack index) := by
  rw [← selectedNode_modifyNode h (f := Node.removeTrack index) fun n => (removeTrack_frame index n).1]
  unfold removeFromQueue
  rw [run_bind]
  simp only [lockSelected, run_lockState, h, ge_iff_le, not_le.2 hindex, if_false]
  rw [run_bind, run_maybeActiveOutputs]
  generalize Except.toOption (Core.activeOutput _) = active
  cases active with
  | none => exact keepsSelected_broadcast env _ x
  | some o =>
    exact ((keepsSelected_send env o _).bind fun _ =>
      (keepsSelected_decrement env 1).bind fun _ => keepsSelected_broadcast env) _ x

end Core

/-! ## The browser -/

namespace LocalQueue

def cursor (q : LocalQueue) : Cursor Track := ⟨q.tracks, q.currentIndex⟩

variable {q : LocalQueue} {src dst index : Nat}

theorem cursor_move (random : Random) (hsrc : src < q.tracks.length) :
    (q.move random src dst).cursor =
      ⟨moveEntry src dst q.tracks, q.currentIndex.map (movedIndex src dst)⟩ := by
  unfold move moveEntry
  rw [List.getElem?_eq_getElem hsrc]
  refine Cursor.ext (buildShuffleOrder_tracks _ _) ((buildShuffleOrder_currentIndex _ _).trans ?_)
  refine congrArg (Option.map · q.currentIndex) (funext fun current => ?_)
  -- the two comparisons are written the other way round
  unfold movedIndex
  grind

theorem cursor_remove (random : Random) (hinside : ∀ i ∈ q.currentIndex, i < q.tracks.length)
    (hindex : index < q.tracks.length) :
    (q.remove random index).cursor =
      ⟨q.tracks.eraseIdx index,
        q.currentIndex.bind (removedIndex (q.tracks.eraseIdx index) index)⟩ := by
  unfold remove
  refine Cursor.ext (buildShuffleOrder_tracks _ _) ((buildShuffleOrder_currentIndex _ _).trans ?_)
  dsimp only
  cases hcurrent : q.currentIndex with
  | none => rfl
  | some current =>
    have hlen : (q.tracks.eraseIdx index).length = q.tracks.length - 1 :=
      List.length_eraseIdx_of_lt hindex
    have hlt := hinside current hcurrent
    simp only [Option.bind_some, removedIndex]
    grind

end LocalQueue

namespace LocalPlayback

variable {s : LocalPlayback} {src dst index : Nat}

theorem queue_removeFromQueue (ch : Chance) (hindex : index < s.queue.tracks.length) :
    (removeFromQueue ch index s).queue = s.queue.remove ch.random index := by
  unfold removeFromQueue
  rw [if_neg (by omega), Int.toNat_natCast]
  dsimp only
  split
  · exact stop_queue ch _
  split
  · exact loadCurrentTrack_queue ch _ _
  · rfl

theorem cursor_moveInQueue (ch : Chance) (hsrc : src < s.queue.tracks.length)
    (hdst : dst < s.queue.tracks.length) :
    (moveInQueue ch src dst s).queue.cursor =
      ⟨moveEntry src dst s.queue.tracks, s.queue.currentIndex.map (movedIndex src dst)⟩ := by
  unfold moveInQueue
  by_cases heq : src = dst
  · subst heq
    have hsame : movedIndex src src = id := funext (movedIndex_self src)
    rw [if_pos (.inl rfl), moveEntry_self hsrc, hsame, Option.map_id]
    rfl
  · rw [if_neg (by omega), Int.toNat_natCast, Int.toNat_natCast]
    exact LocalQueue.cursor_move ch.random hsrc

end LocalPlayback

namespace HlsPlayer

/-- `moveTrack`; what it emits is left out. -/
def moveTrack (src dst : Int) (player : HlsPlayer) : HlsPlayer :=
  if src < 0 ∨ dst < 0 ∨ (player.playlist.length : Int) ≤ src ∨
      (player.playlist.length : Int) ≤ dst ∨ src = dst then player
  else
    let player := { player with playlist := moveEntry src.toNat dst.toNat player.playlist }
    let current : Int := player.currentSongIndex
    if current = src then { player with currentSongIndex := dst.toNat }
    else if src < current ∧ current ≤ dst then
      { player with currentSongIndex := player.currentSongIndex - 1 }
    else if current < src ∧ dst ≤ current then
      { player with currentSongIndex := player.currentSongIndex + 1 }
    else player

variable {player : HlsPlayer} {src dst : Nat}

theorem moveTrack_eq (hsrc : src < player.playlist.length) (hdst : dst < player.playlist.length) :
    (player.moveTrack src dst).playlist = moveEntry src dst player.playlist ∧
      (player.moveTrack src dst).currentSongIndex = movedIndex src dst player.currentSongIndex := by
  unfold moveTrack
  by_cases heq : src = dst
  · subst heq
    rw [if_pos (by omega), moveEntry_self hsrc, movedIndex_self]
    exact ⟨rfl, rfl⟩
  · rw [if_neg (by omega)]
    simp only [Int.toNat_natCast, movedIndex]
    grind

end HlsPlayer

/-! ## The three together -/

theorem map_moveEntry {α β : Type} (f : α → β) {l : List α} {src dst : Nat} (hsrc : src < l.length)
    (hdst : dst < l.length) : (moveEntry src dst l).map f = moveEntry src dst (l.map f) := by
  refine List.ext_getElem? fun k => ?_
  rw [List.getElem?_map, getElem?_moveEntry hsrc hdst,
    getElem?_moveEntry (by rwa [List.length_map]) (by rwa [List.length_map]), List.getElem?_map]

/-- For a queue of the core, of a browser and of its player, with one current entry: every move and
every removal gives the three the same list and the same current entry. The index of a player is never
missing; it counts where there is one. -/
theorem queue_edits_agree {η : Type} (env : Outputs η) (w : Core) (x : η) {node : Node}
    (hselected : w.state.selectedNode = some node)
    (hinside : ∀ i ∈ node.currentIndex, i < node.queue.length) (s : LocalPlayback)
    (hs : s.queue.cursor = nodeCursor node) (player : HlsPlayer) (url : Track → MediaUrl)
    (hplaylist : player.playlist = node.queue.map url)
    (hcurrent : ∀ i ∈ node.currentIndex, player.currentSongIndex = i) (ch : Chance) :
    (∀ src < node.queue.length, ∀ dst < node.queue.length, ∃ node',
      ((moveInQueue src dst).run env w x).2.1.state.selectedNode = some node' ∧
      (s.moveInQueue ch src dst).queue.cursor = nodeCursor node' ∧
      (player.moveTrack src dst).playlist = node'.queue.map url ∧
      (∀ i ∈ node'.currentIndex, (player.moveTrack src dst).currentSongIndex = i) ∧
      Moved src dst (nodeCursor node) (nodeCursor node')) ∧
    ∀ index < node.queue.length, ∃ node',
      ((removeFromQueue index).run env w x).2.1.state.selectedNode = some node' ∧
      (s.removeFromQueue ch index).queue.cursor = nodeCursor node' ∧
      Removed index (nodeCursor node) (nodeCursor node') := by
  have htracks : s.queue.tracks = node.queue := congrArg Cursor.list hs
  have hindex : s.queue.currentIndex = node.currentIndex := congrArg Cursor.index hs
  constructor
  · intro src hsrc dst hdst
    have hsrc' : src < player.playlist.length := by rwa [hplaylist, List.length_map]
    have hdst' : dst < player.playlist.length := by rwa [hplaylist, List.length_map]
    have hplayer := player.moveTrack_eq hsrc' hdst'
    refine ⟨node.moveTrack src dst, selectedNode_moveInQueue env x hselected hsrc hdst, ?_, ?_, ?_,
      ?_⟩
    · rw [LocalPlayback.cursor_moveInQueue ch (htracks ▸ hsrc) (htracks ▸ hdst), htracks, hindex]
      rfl
    · rw [hplayer.1, hplaylist, ← map_moveEntry url hsrc hdst]
      rfl
    · intro i hi
      obtain ⟨current, hmem, rfl⟩ := Option.mem_map.1 hi
      rw [hplayer.2, hcurrent current hmem]
    · exact moved hinside hsrc hdst
  · intro index hlt
    refine ⟨node.removeTrack index, selectedNode_removeFromQueue env x hselected hlt, ?_, ?_⟩
    · rw [LocalPlayback.queue_removeFromQueue ch (htracks ▸ hlt),
        LocalQueue.cursor_remove ch.random (by rwa [htracks, hindex]) (htracks ▸ hlt), htracks, hindex,
        nodeCursor_removeTrack]
    · rw [nodeCursor_removeTrack]
      exact removed hinside

def threeLocal : LocalPlayback :=
  { LocalPlayback.init with
    queue := { LocalQueue.empty with tracks := threeQueued, currentIndex := some 1 } }

/-- The second of three tracks is played; the first goes to the end, or the second is removed. -/
theorem queue_edits_agree_three :
    (∃ node',
      ((moveInQueue 0 2).run decks (threeLoaded 1).1 (threeLoaded 1).2).2.1.state.selectedNode =
          some node' ∧
        (threeLocal.moveInQueue ⟨fun _ => 0, 0⟩ (0 : Nat) (2 : Nat)).queue.cursor =
          nodeCursor node') ∧
      ∃ node',
        ((removeFromQueue 1).run decks (threeLoaded 1).1 (threeLoaded 1).2).2.1.state.selectedNode =
            some node' ∧
          (threeLocal.removeFromQueue ⟨fun _ => 0, 0⟩ (1 : Nat)).queue.cursor = nodeCursor node' := by
  have hselected : (threeLoaded 1).1.state.selectedNode = some (threeNode 1) := by
    rw [PlaybackState.selectedNode, serves_threeLoaded.2.selected, Option.bind_some,
      serves_threeLoaded.2.found]
  obtain ⟨hmoves, hremovals⟩ := queue_edits_agree decks (threeLoaded 1).1 (threeLoaded 1).2 hselected
    (by decide) threeLocal rfl ⟨.stopped, threeQueued.map fun t => ⟨t.id, ""⟩, 1, none, none⟩
    (fun t => ⟨t.id, ""⟩) rfl (by decide) ⟨fun _ => 0, 0⟩
  obtain ⟨moved, hmoved, hmovedLocal, -⟩ := hmoves 0 (by decide) 2 (by decide)
  obtain ⟨rest, hrest, hrestLocal, -⟩ := hremovals 1 (by decide)
  exact ⟨⟨moved, hmoved, hmovedLocal⟩, rest, hrest, hrestLocal⟩

end Kanade.Web

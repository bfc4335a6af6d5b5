import Kanade.Core.Removal

/-!
# Kanade.Core.Moving

`move_in_queue` on a node and its output, which has loaded the queue from some entry on and plays one of
it. The output is told the distances from the current entry, none for what lies before it, and the
projection stays as it is.

`movesSame_iff`: when the output still reports the entries it plays.
-/

namespace Kanade

open Concur Fallible

/-! ## Outputs that move -/

/-- The song being played keeps playing, wherever it goes. -/
def Deck.move (src dst : Nat) (d : Deck) : Deck :=
  if src < d.songs.length ∧ dst < d.songs.length then
    { songs := moveEntry src dst d.songs, pos := movedIndex src dst d.pos }
  else d

/-- All calls succeed. -/
def movingDecks : Outputs (String → Deck) := fun x call =>
  match call with
  | .output node _ (.moveTrack src dst) => (.ok (), Function.update x node ((x node).move src dst))
  | .output _ _ _ | .onStateChanged _ _ | .persist _ _ => (.ok (), x)

section Run

variable {id : String} {w : Core} {x : String → Deck} {node : Node} {src dst : Nat}

/-- Two indices in the queue: the move succeeds, and this is what it leaves. -/
theorem run_moveInQueue (h : Serves id w node) (hsrc : src < node.queue.length)
    (hdst : dst < node.queue.length) :
    ∃ w', (moveInQueue src dst).run movingDecks w x =
        (.ok (), w', Function.update x id
          ((x id).move (mpdIndex node.currentIndex src) (mpdIndex node.currentIndex dst))) ∧
      Serves id w' (node.moveTrack src dst) ∧ w'.transportState = w.transportState := by
  obtain ⟨slot, -, hout⟩ := h.activeOutput
  have hin : ¬ (src ≥ node.queue.length ∨ dst ≥ node.queue.length) := by omega
  unfold moveInQueue
  simp only [run_bind, lockSelected, run_lockState, PlaybackState.selectedNode, h.selected,
    Option.bind_some, h.found, hin, if_false, run_maybeActiveOutputs]
  rw [activeOutput_modifyNode (fun _ => by rfl) fun _ => by rfl, hout]
  simp only [Except.toOption, run_bind, run_send, movingDecks]
  rw [run_broadcast_quiet movingDecks _ (fun _ _ => rfl) fun _ _ => rfl]
  refine ⟨_, rfl, ⟨?_, ?_, h.connected, h.output⟩, rfl⟩
  · exact syncTopLevel_selectedNodeId.trans h.selected
  · rw [node_syncTopLevel, node_id h.found, node_modifyNode_self fun _ => by rfl, h.found]
    rfl

end Run

/-! ## The node and its output -/

/-- What the output plays, and whatever it may go on to, it reports as an entry of the queue with that
path; and the current entry is the one it plays. -/
structure MovesSame (node' : Node) (projection : Option NodeTransportState) (after : Deck) : Prop where
  reports : ∀ j, after.pos ≤ j → j < after.songs.length → ∃ k,
    projectedCurrentIndex projection (some j) (projection.getD {}).projectionGeneration = some k ∧
      k < node'.queue.length ∧
      (node'.queue[k]?).map Track.filePath = (after.songs[j]?).map Song.path
  current : ∃ k, node'.currentIndex = some k ∧ k < node'.queue.length ∧
    after.pos < after.songs.length ∧
    (node'.queue[k]?).map Track.filePath = (after.songs[after.pos]?).map Song.path

/-- Both indices are before the entry being played, or the first of the loaded entries is played and
what is moved lies behind it; or it is played and moved itself, and stays among them. -/
def TellsMove (start pos src dst : Nat) : Prop :=
  src = dst ∨ (src < start + pos ∧ dst < start + pos) ∨
    (pos = 0 ∧ (start < src ∨ (src = start ∧ start ≤ dst)))

/-- The accident: to every place from the playing one on, the move and what the output is told of it
bring entries with one path. -/
def MovesAlike (start pos src dst : Nat) (paths : List String) : Prop :=
  ∀ k < paths.length,
    start + movedIndex (src - (start + pos)) (dst - (start + pos)) pos ≤ k →
      paths[movedIndex dst src k]? =
        paths[start + movedIndex (dst - (start + pos)) (src - (start + pos)) (k - start)]?

instance (start pos src dst : Nat) : Decidable (TellsMove start pos src dst) :=
  inferInstanceAs (Decidable (_ ∨ _))

instance (start pos src dst : Nat) (paths : List String) :
    Decidable (MovesAlike start pos src dst paths) :=
  inferInstanceAs (Decidable (∀ k < paths.length, _))

/-- Told the distances, the output makes the move. -/
theorem TellsMove.places {start pos src dst k : Nat} (h : TellsMove start pos src dst)
    (hk : start + movedIndex (src - (start + pos)) (dst - (start + pos)) pos ≤ k) :
    start + movedIndex (dst - (start + pos)) (src - (start + pos)) (k - start) =
      movedIndex dst src k := by
  have hstart : start ≤ k := by omega
  rcases h with rfl | ⟨hsrc, hdst⟩ | ⟨rfl, hmoved⟩
  · rw [movedIndex_self, movedIndex_self]
    omega
  · rw [Nat.sub_eq_zero_of_le (Nat.le_of_lt hsrc), Nat.sub_eq_zero_of_le (Nat.le_of_lt hdst),
      movedIndex_self] at *
    rw [movedIndex_of_lt (by omega) (by omega)]
    omega
  · rw [Nat.add_zero] at *
    rcases hmoved with hlater | ⟨rfl, hdst⟩
    · -- the song being played makes room if the other one goes ahead of it
      rcases Nat.lt_or_ge start dst with hdst | hdst
      · unfold movedIndex
        split_ifs <;> omega
      · rw [Nat.sub_eq_zero_of_le hdst] at *
        have hroom : movedIndex (src - start) 0 0 = 1 := by
          unfold movedIndex
          rw [if_neg (by omega), if_neg (by omega), if_pos (by omega)]
        rw [hroom] at hk
        unfold movedIndex
        split_ifs <;> omega
    · rw [Nat.sub_self] at *
      unfold movedIndex
      split_ifs <;> omega

/-- Otherwise the later of the two places shows the difference. -/
theorem exists_place {start pos src dst n : Nat} (h : ¬ TellsMove start pos src dst)
    (hsrc : src < n) (hdst : dst < n) :
    ∃ k < n, start + movedIndex (src - (start + pos)) (dst - (start + pos)) pos ≤ k ∧
      start + movedIndex (dst - (start + pos)) (src - (start + pos)) (k - start) ≠
        movedIndex dst src k := by
  unfold TellsMove at h
  rcases Nat.lt_trichotomy src dst with hlt | rfl | hgt
  · refine ⟨dst, hdst, ?_, ?_⟩
    · unfold movedIndex
      split_ifs <;> omega
    · rw [movedIndex_src]
      unfold movedIndex
      split_ifs <;> omega
  · exact absurd (.inl rfl) h
  · have hback : movedIndex dst src src = src - 1 := by
      rw [movedIndex, if_neg (by omega), if_pos (by omega)]
    refine ⟨src, hsrc, ?_, ?_⟩
    · unfold movedIndex
      split_ifs <;> omega
    · rw [hback]
      unfold movedIndex
      split_ifs <;> omega

theorem movesAlike_of_tellsMove {start pos src dst : Nat} {paths : List String}
    (h : TellsMove start pos src dst) : MovesAlike start pos src dst paths := fun k _ hpos => by
  rw [h.places hpos]

/-- Without a path twice there is no accident. -/
theorem tellsMove_of_movesAlike {start pos src dst : Nat} {paths : List String}
    (hnodup : paths.Nodup) (hsrc : src < paths.length) (hdst : dst < paths.length)
    (h : MovesAlike start pos src dst paths) : TellsMove start pos src dst := by
  by_contra hnot
  obtain ⟨k, hk, hpos, hne⟩ := exists_place hnot hsrc hdst
  have hlt : movedIndex dst src k < paths.length := movedIndex_lt hdst hsrc hk
  have heq := h k hk hpos
  rw [List.getElem?_eq_getElem hlt] at heq
  obtain ⟨hlt', hpath⟩ := List.getElem?_eq_some_iff.1 heq.symm
  exact hne (hnodup.getElem_inj_iff.1 hpath)

section InLine

variable {node : Node} {o : Option NodeTransportState} {deck : Deck} {start src dst : Nat}

theorem Deck.move_of_lt {mpdFrom mpdTo : Nat} (hfrom : mpdFrom < deck.songs.length)
    (hto : mpdTo < deck.songs.length) :
    deck.move mpdFrom mpdTo =
      ⟨moveEntry mpdFrom mpdTo deck.songs, movedIndex mpdFrom mpdTo deck.pos⟩ :=
  if_pos ⟨hfrom, hto⟩

/-- A song after a move of the output has the path of the entry that the song in that place was loaded
from. -/
theorem InLine.getElem?_move {projection : NodeTransportState} {mpdFrom mpdTo j : Nat}
    (h : InLine node projection deck start) (hfrom : mpdFrom < deck.songs.length)
    (hto : mpdTo < deck.songs.length) (hj : j < deck.songs.length) :
    ((moveEntry mpdFrom mpdTo deck.songs)[j]?).map Song.path =
      (node.queue.map Track.filePath)[start + movedIndex mpdTo mpdFrom j]? := by
  rw [getElem?_moveEntry hfrom hto, h.getElem?_songs (movedIndex_lt hto hfrom hj), List.getElem?_map]

/-- When every report that the output may still make is of the entry it plays then. -/
theorem InLine.moves_same (h : InLine node (o.getD {}) deck start)
    (hend : start + deck.songs.length = node.queue.length) (hplays : deck.pos < deck.songs.length)
    (hfits : node.queue.length ≤ usizeMax) (hsrc : src < node.queue.length)
    (hdst : dst < node.queue.length) :
    MovesSame (node.moveTrack src dst) o
        (deck.move (src - (start + deck.pos)) (dst - (start + deck.pos))) ↔
      MovesAlike start deck.pos src dst (node.queue.map Track.filePath) := by
  have hfrom : src - (start + deck.pos) < deck.songs.length := by omega
  have hto : dst - (start + deck.pos) < deck.songs.length := by omega
  have hlength : (moveEntry (src - (start + deck.pos)) (dst - (start + deck.pos)) deck.songs).length =
      deck.songs.length := length_moveEntry hfrom hto
  have hqueue : ∀ k, ((node.moveTrack src dst).queue[k]?).map Track.filePath =
      (node.queue.map Track.filePath)[movedIndex dst src k]? := by
    intro k
    rw [Node.moveTrack, getElem?_moveEntry hsrc hdst, List.getElem?_map]
  rw [Deck.move_of_lt hfrom hto]
  constructor
  · intro hsame k hk hpos
    rw [List.length_map] at hk
    have hj : k - start < deck.songs.length := by omega
    obtain ⟨k', hreport, -, hpath⟩ :=
      hsame.reports (k - start) (by dsimp only; omega) (hj.trans_eq hlength.symm)
    rw [h.reported hj hfits] at hreport
    have hk' : k' = k := by
      have := Option.some.inj hreport
      omega
    rw [hqueue, h.getElem?_move hfrom hto hj, hk'] at hpath
    exact hpath
  · intro halike
    refine ⟨?_, ?_⟩
    · intro j hpos hj
      dsimp only at hpos hj ⊢
      rw [hlength] at hj
      refine ⟨start + j, h.reported hj hfits, ?_, ?_⟩
      · rw [Node.moveTrack, length_moveEntry hsrc hdst]
        omega
      · have hk := halike (start + j) (by rw [List.length_map]; omega) (by omega)
        rw [Nat.add_sub_cancel_left] at hk
        rw [hqueue, h.getElem?_move hfrom hto hj, hk]
    · refine ⟨movedIndex src dst (start + deck.pos), ?_, ?_, ?_, ?_⟩
      · rw [Node.moveTrack, h.current hplays]
        rfl
      · rw [Node.moveTrack, length_moveEntry hsrc hdst]
        exact movedIndex_lt hsrc hdst (by omega)
      · dsimp only
        rw [hlength]
        exact movedIndex_lt hfrom hto hplays
      · dsimp only
        rw [getElem?_moveEntry_movedIndex hfrom hto, h.getElem?_songs hplays, Node.moveTrack,
          getElem?_moveEntry_movedIndex hsrc hdst]

/-- With no path twice in the queue the distances have to be the move. -/
theorem InLine.moves_same_of_nodup (h : InLine node (o.getD {}) deck start)
    (hend : start + deck.songs.length = node.queue.length) (hplays : deck.pos < deck.songs.length)
    (hfits : node.queue.length ≤ usizeMax) (hsrc : src < node.queue.length)
    (hdst : dst < node.queue.length) (hnodup : (node.queue.map Track.filePath).Nodup) :
    MovesSame (node.moveTrack src dst) o
        (deck.move (src - (start + deck.pos)) (dst - (start + deck.pos))) ↔
      TellsMove start deck.pos src dst := by
  rw [h.moves_same hend hplays hfits hsrc hdst]
  constructor
  · exact tellsMove_of_movesAlike hnodup (by rwa [List.length_map]) (by rwa [List.length_map])
  · exact movesAlike_of_tellsMove

end InLine

/-- For a selected connected node and an output that has loaded the queue from `start` to its end: the
move succeeds, and the output reports what it plays from then on exactly if the distances it is told
are the move, or the paths happen to agree; where no path is there twice, exactly if they are the move. -/
theorem movesSame_iff {id : String} {w : Core} {x : String → Deck} {node : Node}
    {start src dst : Nat} (hserves : Serves id w node)
    (hline : InLine node ((w.transportState id).getD {}) (x id) start)
    (hend : start + (x id).songs.length = node.queue.length)
    (hplays : (x id).pos < (x id).songs.length) (hfits : node.queue.length ≤ usizeMax)
    (hsrc : src < node.queue.length) (hdst : dst < node.queue.length) :
    ∃ w' x', (moveInQueue src dst).run movingDecks w x = (.ok (), w', x') ∧
      Serves id w' (node.moveTrack src dst) ∧
      (MovesSame (node.moveTrack src dst) (w'.transportState id) (x' id) ↔
        TellsMove start (x id).pos src dst ∨
          MovesAlike start (x id).pos src dst (node.queue.map Track.filePath)) ∧
      ((node.queue.map Track.filePath).Nodup →
        (MovesSame (node.moveTrack src dst) (w'.transportState id) (x' id) ↔
          TellsMove start (x id).pos src dst)) := by
  obtain ⟨w', hrun, hserves', htransport⟩ := run_moveInQueue (x := x) hserves hsrc hdst
  refine ⟨w', _, hrun, hserves', ?_, ?_⟩
  · rw [htransport, Function.update_self, hline.told hplays, hline.told hplays,
      hline.moves_same hend hplays hfits hsrc hdst]
    constructor
    · exact Or.inr
    · rintro (htells | halike)
      · exact movesAlike_of_tellsMove htells
      · exact halike
  · intro hnodup
    rw [htransport, Function.update_self, hline.told hplays, hline.told hplays]
    exact hline.moves_same_of_nodup hend hplays hfits hsrc hdst hnodup

/-- The second track is moved behind the third while the first is played. -/
theorem movesSame_iff_first :
    ∃ w' y, (moveInQueue 1 2).run movingDecks (threeLoaded 0).1 (threeLoaded 0).2 = (.ok (), w', y) ∧
      MovesSame ((threeNode 0).moveTrack 1 2) (w'.transportState "amp") (y "amp") := by
  obtain ⟨w', y, hrun, -, hiff, -⟩ :=
    movesSame_iff serves_threeLoaded.1 inLine_threeLoaded.1 (by decide) (by decide) (by decide)
      (show 1 < _ by decide) (show 2 < _ by decide)
  exact ⟨w', y, hrun, hiff.2 (.inl (by decide))⟩

/-- The second track is played and moved behind the third: the output moves the first behind the
second, and reports the first. -/
theorem move_of_played :
    InLine (threeNode 1) (((threeLoaded 1).1.transportState "amp").getD {}) ((threeLoaded 1).2 "amp")
        0 ∧
      ∃ w' y, (moveInQueue 1 2).run movingDecks (threeLoaded 1).1 (threeLoaded 1).2 =
          (.ok (), w', y) ∧
        ((threeNode 1).moveTrack 1 2).queue.map Track.filePath = ["/1", "/3", "/2"] ∧
        y "amp" = ⟨[⟨2, "/2"⟩, ⟨1, "/1"⟩, ⟨3, "/3"⟩], 0⟩ ∧
        ¬ MovesSame ((threeNode 1).moveTrack 1 2) (w'.transportState "amp") (y "amp") := by
  refine ⟨inLine_threeLoaded.2, ?_⟩
  obtain ⟨w', hrun, -, htransport⟩ :=
    run_moveInQueue (x := (threeLoaded 1).2) serves_threeLoaded.2 (show 1 < _ by decide)
      (show 2 < _ by decide)
  have hdeck : Function.update (threeLoaded 1).2 "amp" (((threeLoaded 1).2 "amp").move
      (mpdIndex (threeNode 1).currentIndex 1) (mpdIndex (threeNode 1).currentIndex 2)) "amp" =
      ⟨[⟨2, "/2"⟩, ⟨1, "/1"⟩, ⟨3, "/3"⟩], 0⟩ := by
    rw [Function.update_self]
    decide
  refine ⟨w', _, hrun, by decide, hdeck, ?_⟩
  rw [hdeck, htransport]
  intro hsame
  obtain ⟨k, hreport, -, hpath⟩ := hsame.reports 0 (by decide) (by decide)
  have hk : projectedCurrentIndex ((threeLoaded 1).1.transportState "amp") (some 0)
      (((threeLoaded 1).1.transportState "amp").getD {}).projectionGeneration = some 0 := by
    decide +kernel
  rw [hk] at hreport
  rw [← Option.some.inj hreport] at hpath
  exact absurd hpath (by decide)

end Kanade

import Kanade.Core.Bounds
import Kanade.Core.Identity
import Kanade.Db.Persist

/-!
# Kanade.Db.Reload

Whether what was persisted loads again.

An index of 2⁶³ or more is written as a negative number, and a negative number fails the load: that
of the state as a whole, which ends the server, or that of all nodes, which are then forgotten.
`reloads_of_run`: the states of the runs whose steps bring no such index and make no node under a
taken id load again, with the row of every node.
-/

namespace Kanade

open Concur Keyed

variable {json : Json} {state : PlaybackState} {db : Database}

/-- The row for the state as a whole has a volume. -/
def Database.GlobalVolume (db : Database) : Prop :=
  ∀ row ∈ db.playbackState.get globalId, 0 ≤ row.volume ∧ row.volume ≤ 255

/-- The databases that persists leave behind, whatever becomes of the tracks in between. -/
inductive Written (json : Json) : Database → Prop where
  | new (tracks : Tracks) : Written json ⟨Table.empty Row.nodeId, tracks⟩
  | persist {db : Database} (h : Written json db) (state : PlaybackState) :
    Written json (Kanade.persist json state db).2
  | scan {db : Database} (h : Written json db) (tracks : Tracks) :
    Written json { db with tracks := tracks }

theorem get_persist_global (json : Json) (state : PlaybackState) (db : Database) :
    (persist json state db).2.playbackState.get globalId =
      some (match lastNode globalId state.nodes with
        | some n => n.row json state.selectedNodeId
        | none => state.row json (db.playbackState.get globalId)) := by
  have hprune : ∀ (db : Database) (keep : List String),
      (db.pruneNodeStatesExcept keep).2.playbackState.get globalId =
        db.playbackState.get globalId := by
    intro db keep
    unfold Database.pruneNodeStatesExcept
    split
    · exact (Table.get_restrict _).trans (by simp)
    · split
      · rfl
      · exact (Table.get_restrict _).trans (by simp)
  unfold persist
  rw [hprune, get_saveNodes, get_savePlaybackState, if_pos rfl]
  cases lastNode globalId state.nodes <;> rfl

theorem Written.globalVolume (h : Written json db) : db.GlobalVolume := by
  induction h with
  | new tracks => exact fun row hrow => nomatch hrow
  | @persist db h state ih =>
    intro row hrow
    rw [get_persist_global] at hrow
    cases hrow
    cases lastNode globalId state.nodes with
    | some n =>
      have hlt : n.volume.toNat < 256 := n.volume.toNat_lt
      simp only [Node.row]
      omega
    | none =>
      cases hold : db.playbackState.get globalId with
      | none => simp [PlaybackState.row]
      | some old => exact ih old hold
  | scan h tracks ih => exact ih

/-- No index is too large for `i64`. -/
structure IndicesFit (state : PlaybackState) : Prop where
  nodes : ∀ n ∈ state.nodes, ∀ i ∈ n.currentIndex, i < 2 ^ 63
  top : ∀ i ∈ state.currentIndex, i < 2 ^ 63

/-- The rows that a persist leaves. -/
theorem mem_rows_persist (h : (persist json state db).1 = .ok ()) {row : Row}
    (hrow : row ∈ (persist json state db).2.playbackState.rows) :
    (∃ n ∈ state.nodes, row = n.row json (keptOutputId state db n.id)) ∨
      row = state.row json (db.playbackState.get globalId) := by
  have hget := Table.mem_rows_iff.1 hrow
  rw [get_persist h] at hget
  cases hlast : lastNode row.nodeId state.nodes with
  | some n =>
    rw [hlast] at hget
    obtain ⟨hn, hid⟩ := lastNode_mem hlast
    exact .inl ⟨n, hn, by rw [hid]; exact (Option.some.inj hget).symm⟩
  | none =>
    rw [hlast] at hget
    dsimp only at hget
    split at hget
    · rename_i hid
      rw [hid] at hget
      exact .inr (Option.some.inj hget).symm
    · cases hget

theorem exists_loadAllNodeStates (h : (persist json state db).1 = .ok ()) (hfit : IndicesFit state)
    (hvolume : db.GlobalVolume) :
    ∃ saved, (persist json state db).2.loadAllNodeStates json = .ok saved := by
  refine Database.loadAllNodeStates_ok json fun row hrow => ?_
  obtain ⟨n, hn, rfl⟩ | rfl := mem_rows_persist h hrow
  · exact ⟨_, loadRow_node (hfit.nodes n hn) _⟩
  · obtain ⟨s, hs, -⟩ := loadRow_state hfit.top hvolume
    exact ⟨s, hs⟩

theorem exists_loadPlaybackState (json : Json) (state : PlaybackState) (db : Database)
    (hfit : IndicesFit state) :
    ∃ s, (persist json state db).2.loadPlaybackState json = .ok (some s) ∧
      s.activeOutputId = state.selectedNodeId := by
  have hload : ∀ {row : Row} {paths : List String} {index : Option Nat},
      (persist json state db).2.playbackState.get globalId = some row →
      json.decode row.queue = .ok paths → Database.loadIndex row.currentIndex = .ok index →
      row.activeOutputId = state.selectedNodeId →
      ∃ s, (persist json state db).2.loadPlaybackState json = .ok (some s) ∧
        s.activeOutputId = state.selectedNodeId := by
    intro row paths index hget hqueue hindex hselected
    rw [Database.loadPlaybackState, hget]
    dsimp only
    rw [hqueue, hindex]
    exact ⟨_, rfl, hselected⟩
  have hget := get_persist_global json state db
  cases hlast : lastNode globalId state.nodes with
  | some n =>
    rw [hlast] at hget
    exact hload hget (json.decode_encode _)
      (Database.loadIndex_asI64 (hfit.nodes n (lastNode_mem hlast).1)) rfl
  | none =>
    rw [hlast] at hget
    exact hload hget (json.decode_encode _) (Database.loadIndex_asI64 hfit.top) rfl

/-- Both loads succeed, and that of the nodes has the row of every node. -/
def Reloads (json : Json) (state : PlaybackState) (db : Database) : Prop :=
  (∃ s, db.loadPlaybackState json = .ok (some s)) ∧
    ∃ saved, db.loadAllNodeStates json = .ok saved ∧
      ∀ n ∈ state.nodes, ∃ activeOutputId, n.saved activeOutputId ∈ saved

theorem reloads_persist (h : (persist json state db).1 = .ok ()) (hfit : IndicesFit state)
    (hids : (state.nodes.map Node.id).Nodup) (hvolume : db.GlobalVolume) :
    Reloads json state (persist json state db).2 := by
  obtain ⟨saved, hsaved⟩ := exists_loadAllNodeStates h hfit hvolume
  obtain ⟨s, hs, -⟩ := exists_loadPlaybackState json state db hfit
  refine ⟨⟨s, hs⟩, saved, hsaved, fun n hn => ?_⟩
  have hget : (persist json state db).2.playbackState.get n.id =
      some (n.row json (keptOutputId state db n.id)) := by
    rw [get_persist h, lastNode_of_nodup hids hn]
  exact ⟨_, (Database.mem_loadAllNodeStates json hsaved).2
    ⟨_, Table.mem_of_get hget, loadRow_node (hfit.nodes n hn) _⟩⟩

/-- The queues are as long as a `Vec` can be. -/
def PlaybackState.Vecs (s : PlaybackState) : Prop :=
  (∀ n ∈ s.nodes, n.queue.length < 2 ^ 63) ∧ s.queue.length < 2 ^ 63

instance (s : PlaybackState) : Decidable s.Vecs := inferInstanceAs (Decidable (_ ∧ _))

theorem Bounded.indicesFit (h : Bounded (2 ^ 63) state) (hvecs : state.Vecs) : IndicesFit state where
  nodes n hn i hi := (h.nodes n hn i hi).elim id fun hlt => hlt.trans (hvecs.1 n hn)
  top i hi := (h.top i hi).elim id fun hlt => hlt.trans hvecs.2

/-- The states of the runs whose steps bring no index of 2⁶³ or more, and in which every session
start finds the id it makes free, load again after a persist. -/
theorem reloads_of_run {η : Type} (json : Json) (env : Outputs η)
    (outputs : String → Option OutputSlot) (broadcasters persisters : List Nat) (x : η)
    (ops : List CoreOp)
    (hindex : EachOp env (CoreOp.KeepsIndex (2 ^ 63) env) ops
      (Core.new outputs broadcasters persisters, x))
    (hfree : EachOp env CoreOp.SessionIdFree ops (Core.new outputs broadcasters persisters, x))
    (hvecs : (runOps env ops (Core.new outputs broadcasters persisters, x)).1.state.Vecs)
    (db : Database) (hdb : Written json db)
    (h : (persist json (runOps env ops (Core.new outputs broadcasters persisters, x)).1.state
      db).1 = .ok ()) :
    Reloads json (runOps env ops (Core.new outputs broadcasters persisters, x)).1.state
      (persist json (runOps env ops (Core.new outputs broadcasters persisters, x)).1.state db).2 := by
  have hbounded := bounded_of_run env outputs broadcasters persisters x ops hindex
  have hids := runAll_invariant (I := fun c : Core × η => c.1.state.ids.Nodup)
    (fun _ _ hop hI => nodup_ids_after hI hop) hfree List.nodup_nil
  exact reloads_persist h (hbounded.indicesFit hvecs) hids hdb.globalVolume

/-- No database yet, and no track. -/
def freshDatabase : Database := ⟨Table.empty Row.nodeId, ⟨fun _ => .ok none, fun _ _ h => nomatch h⟩⟩

/-- A node that is told to play from an index. -/
def playedFrom (index : Nat) : List CoreOp :=
  [.registerOutput "a" "c" 0, .addNode { id := "a" },
    .setQueue [{ id := "1", filePath := "/1" }] (some index)]

theorem reloads_of_run_playedFrom_zero :
    Reloads plainJson (runOps allSucceed (playedFrom 0) (Core.new (fun _ => none) [] [], ())).1.state
      (persist plainJson
        (runOps allSucceed (playedFrom 0) (Core.new (fun _ => none) [] [], ())).1.state
        freshDatabase).2 :=
  reloads_of_run plainJson allSucceed (fun _ => none) [] [] () (playedFrom 0)
    ⟨trivial, fun _ => by decide, fun _ => by decide, trivial⟩ ⟨trivial, trivial, trivial, trivial⟩
    (by decide) freshDatabase (.new _) (by decide)

/-- Played from 2⁶³, neither the state as a whole nor the node loads again. -/
theorem playedFrom_not_reloads :
    (persist plainJson (runOps allSucceed (playedFrom (2 ^ 63))
        (Core.new (fun _ => none) [] [], ())).1.state freshDatabase).1 = .ok () ∧
      ¬ Reloads plainJson
        (runOps allSucceed (playedFrom (2 ^ 63)) (Core.new (fun _ => none) [] [], ())).1.state
        (persist plainJson (runOps allSucceed (playedFrom (2 ^ 63))
          (Core.new (fun _ => none) [] [], ())).1.state freshDatabase).2 := by
  refine ⟨by decide, fun ⟨⟨s, hs⟩, _⟩ => ?_⟩
  have hnone : ((persist plainJson (runOps allSucceed (playedFrom (2 ^ 63))
      (Core.new (fun _ => none) [] [], ())).1.state freshDatabase).2.loadPlaybackState
        plainJson).toOption = none := by decide
  rw [hs] at hnone
  cases hnone

end Kanade

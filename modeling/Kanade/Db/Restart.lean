import Kanade.Core.Mortal
import Kanade.Db.Restore

/-!
# Kanade.Db.Restart

Local nodes over a restart.

The restore takes the connection of every node away and leaves the time of disconnection as it was
persisted. A session that was connected at shutdown has none, and comes back as a node that no
cleanup removes. `mortal_of_restart`: where every node that comes back as local has one, and the
later steps find one where they need it, every local node that is not connected can be removed.
-/

namespace Kanade

open Concur Keyed

variable {json : Json} {state : PlaybackState} {db : Database} {η : Type}

/-- Every node that comes back as a local one has a time of disconnection. -/
def PlaybackState.DatedForRestart (state : PlaybackState) : Prop :=
  ∀ n ∈ state.nodes, n.id ≠ globalId → n.nodeType = .localNode ∨ (stripLocal n.id).isSome →
    n.disconnectedAt.isSome

instance (state : PlaybackState) : Decidable state.DatedForRestart :=
  inferInstanceAs (Decidable (∀ n ∈ state.nodes, _ → _ → _))

/-- What a row that loads has of the columns that are not converted. -/
theorem loadRow_plain {row : Row} {s : SavedNodeState} (h : Database.loadRow json row = .ok s) :
    s.nodeId = row.nodeId ∧ s.nodeType = (if row.nodeType = "local" then .localNode else .remote) ∧
      s.disconnectedAt = row.disconnectedAt := by
  obtain ⟨paths, index, volume, hqueue, hindex, hvolume⟩ := Database.loadRow_inv json h
  rw [Database.loadRow_ok json hqueue hindex hvolume] at h
  cases h
  exact ⟨rfl, rfl, rfl⟩

/-- The nodes a restore brings back, whether their rows convert or not. -/
theorem dated_restoreNodes (hcount : state.nodes.length ≤ maxVariableNumber)
    (hdated : state.DatedForRestart) :
    ∀ n ∈ restoreNodes json (persist json state db).2, n.Dated := by
  intro n hn
  cases hload : (persist json state db).2.loadAllNodeStates json with
  | error e =>
    rw [restoreNodes, hload] at hn
    cases hn
  | ok saved =>
    rw [restoreNodes, hload] at hn
    obtain ⟨s, hs, rfl⟩ := List.mem_map.1 hn
    obtain ⟨hs, hid⟩ := List.mem_filter.1 hs
    have hid : s.nodeId ≠ globalId := by simpa using hid
    obtain ⟨row, hrow, hok⟩ := (Database.mem_loadAllNodeStates json hload).1 hs
    obtain ⟨hrowId, hrowType, hrowTime⟩ := loadRow_plain hok
    obtain ⟨m, hm, rfl⟩ | rfl := mem_rows_persist (persist_ok hcount) hrow
    · intro hlocal
      have htype : s.nodeType = .localNode ∨ (stripLocal s.nodeId).isSome := by
        by_contra hnot
        simp only [restoreNode, if_neg hnot] at hlocal
        cases hlocal
      have hmtype : s.nodeType = m.nodeType := by
        rw [hrowType]
        cases hmt : m.nodeType <;> simp [Node.row, hmt, NodeType.text]
      rw [hmtype, hrowId] at htype
      rw [hrowId] at hid
      show s.disconnectedAt.isSome
      rw [hrowTime]
      exact hdated m hm hid htype
    · exact absurd hrowId hid

/-- After a restart, in every state that the run reaches, each local node that is not connected has a
time of disconnection, and a cleanup late enough removes it. -/
theorem mortal_of_restart (json : Json) (env : Outputs η) (state : PlaybackState) (db : Database)
    (hcount : state.nodes.length ≤ maxVariableNumber) (hdated : state.DatedForRestart)
    (restored : PlaybackState) (h : restore json (persist json state db).2 = .ok restored)
    (w : Core) (x : η) (ops : List CoreOp)
    (hops : EachOp env CoreOp.KeepsMortal ops ({ w with state := restored }, x)) :
    ∀ n ∈ (runOps env ops ({ w with state := restored }, x)).1.state.nodes,
      n.nodeType = .localNode → n.connected = false →
        ∃ t, n.disconnectedAt = some t ∧ ∀ now maxAge, t ≤ now - maxAge →
          n.id ∉ ((CoreOp.cleanupDisconnectedNodes now maxAge).after env
            (runOps env ops ({ w with state := restored }, x))).1.state.ids := by
  have hnodes : restored.nodes = restoreNodes json (persist json state db).2 := by
    unfold restore at h
    cases hload : (persist json state db).2.loadPlaybackState json with
    | error e =>
      rw [hload] at h
      cases h
    | ok saved =>
      rw [hload] at h
      cases saved with
      | none => cases h; rfl
      | some s => cases h; rfl
  have hrestored : restored.Mortal := fun n hn _ =>
    dated_restoreNodes hcount hdated n (hnodes ▸ hn)
  have hmortal := mortal_of_run (c := ({ w with state := restored }, x)) hrestored hops
  intro n hn hlocal hc
  obtain ⟨t, ht⟩ := Option.isSome_iff_exists.1 (hmortal n hn hc hlocal)
  exact ⟨t, ht, fun now maxAge hlate => not_mem_after_cleanup hn hlocal hc ht hlate⟩

/-- A session starts, and its device goes away. -/
def leftBehind : PlaybackState :=
  (runOps allSucceed [.localSessionStart "Phone" (some "d") "u", .localSessionDisconnect "local-d" 5]
    (Core.new (fun _ => none) [] [], ())).1.state

theorem mortal_of_restart_leftBehind :
    ∃ restored : PlaybackState, ∀ n ∈ (runOps allSucceed [.addNode { id := "a" },
        .localSessionStart "Phone" (some "d") "u", .localSessionDisconnect "local-d" 9]
        ({ Core.new (fun _ => none) [] [] with state := restored }, ())).1.state.nodes,
      n.nodeType = .localNode → n.connected = false →
        ∃ t, n.disconnectedAt = some t ∧ ∀ now maxAge, t ≤ now - maxAge →
          n.id ∉ ((CoreOp.cleanupDisconnectedNodes now maxAge).after allSucceed
            (runOps allSucceed [.addNode { id := "a" }, .localSessionStart "Phone" (some "d") "u",
              .localSessionDisconnect "local-d" 9]
              ({ Core.new (fun _ => none) [] [] with state := restored }, ()))).1.state.ids :=
  ⟨_, mortal_of_restart plainJson allSucceed leftBehind freshDatabase (by decide) (by decide) _ rfl
    (Core.new (fun _ => none) [] []) () _ ⟨(nomatch ·), trivial, trivial, trivial⟩⟩

/-- A session that is connected at shutdown comes back without a connection and without a time, and
is never removed. -/
theorem connected_at_shutdown_not_mortal :
    ∃ restored, restore plainJson (persist plainJson
        (runOps allSucceed [.localSessionStart "Phone" (some "d") "u"]
          (Core.new (fun _ => none) [] [], ())).1.state freshDatabase).2 = .ok restored ∧
      (∃ n ∈ restored.nodes, n.nodeType = .localNode ∧ n.connected = false ∧
        n.disconnectedAt = none) ∧
      ∀ now maxAge, removedIds now maxAge restored = [] :=
  ⟨_, rfl, by decide, fun _ _ => rfl⟩

end Kanade

import Kanade.Db.Reload

/-!
# Kanade.Db.Restore

What the restore makes of a persisted state.

`restore_persist`: with all tracks still in the library, the nodes come back as they were but for
their connection and playback, and those with an id that begins with `local-` as local nodes.

`current_kept_iff`: with a library that has shrunk, the current track stays the current one exactly
if it is gone itself, or no track before it is.
-/

namespace Kanade

open Keyed

variable {json : Json} {state : PlaybackState} {db : Database}

/-! ## Nothing has changed -/

/-- What a restart makes of a node: it is not connected and does not play, and the prefix `local-` of
an id is taken as the sign of a local node, with the rest as its device. -/
def Node.restarted (node : Node) : Node :=
  { node with
    name := ""
    connected := false
    status := .stopped
    positionSecs := 0
    nodeType :=
      if node.nodeType = .localNode ∨ (stripLocal node.id).isSome then .localNode else .remote
    deviceId := node.deviceId.or (stripLocal node.id) }

@[simp] theorem persist_tracks (state : PlaybackState) (db : Database) :
    (persist json state db).2.tracks = db.tracks := by
  have hsave : ∀ (ns : List Node) (db : Database),
      (ns.foldl (saveNode json) db).tracks = db.tracks := by
    intro ns
    induction ns with
    | nil => intro db; rfl
    | cons n ns ih => intro db; exact ih _
  have hprune : ∀ (db : Database) (keep : List String),
      (db.pruneNodeStatesExcept keep).2.tracks = db.tracks := by
    intro db keep
    unfold Database.pruneNodeStatesExcept
    split
    · rfl
    · split <;> rfl
  unfold persist
  rw [hprune, hsave]
  rfl

/-- A persist of not too many nodes succeeds. -/
theorem persist_ok (h : state.nodes.length ≤ maxVariableNumber) :
    (persist json state db).1 = .ok () := by
  unfold persist Database.pruneNodeStatesExcept
  split
  · rfl
  · rw [if_neg (by simpa using h)]

theorem restoreQueue_of_present {queue : List Track}
    (h : ∀ t ∈ queue, db.getTrackByPath t.filePath = .ok (some t)) :
    restoreQueue db (queue.map Track.filePath) = queue := by
  induction queue with
  | nil => rfl
  | cons t queue ih =>
    obtain ⟨ht, hrest⟩ := List.forall_mem_cons.1 h
    have hcons : restoreQueue db ((t :: queue).map Track.filePath) =
        t :: restoreQueue db (queue.map Track.filePath) := by
      rw [restoreQueue, List.map_cons, List.filterMap_cons, ht]
      rfl
    rw [hcons, ih hrest]

theorem restoreNode_saved {node : Node} (hindex : node.IndexInQueue)
    (htracks : ∀ t ∈ node.queue, db.getTrackByPath t.filePath = .ok (some t))
    (activeOutputId : Option String) :
    restoreNode db (node.saved activeOutputId) = node.restarted := by
  have hkept : node.currentIndex.filter (· < node.queue.length) = node.currentIndex := by
    cases hc : node.currentIndex with
    | none => rfl
    | some i => simpa using hindex i hc
  unfold restoreNode
  simp only [Node.saved, restoreQueue_of_present htracks, hkept, restoreRepeat_text, Node.restarted]
  rfl

/-- The rows after a persist of nodes with different ids, none of them reserved. -/
theorem rows_persist_perm (h : (persist json state db).1 = .ok ())
    (hids : (state.nodes.map Node.id).Nodup) (hglobal : globalId ∉ state.nodes.map Node.id) :
    (persist json state db).2.playbackState.rows.Perm
      (state.row json (db.playbackState.get globalId) ::
        state.nodes.map fun n => n.row json (keptOutputId state db n.id)) := by
  have hkeys : ((state.row json (db.playbackState.get globalId) ::
      state.nodes.map fun n => n.row json (keptOutputId state db n.id)).map Row.nodeId).Nodup := by
    rw [List.map_cons, List.map_map]
    exact List.nodup_cons.2 ⟨hglobal, hids⟩
  refine (List.perm_ext_iff_of_nodup (Table.nodup _).of_map hkeys.of_map).2 fun row => ?_
  rw [Table.mem_rows_iff, get_persist h, List.mem_cons, List.mem_map]
  constructor
  · intro hget
    cases hlast : lastNode row.nodeId state.nodes with
    | some n =>
      rw [hlast] at hget
      obtain ⟨hn, hid⟩ := lastNode_mem hlast
      exact .inr ⟨n, hn, by rw [hid]; exact Option.some.inj hget⟩
    | none =>
      rw [hlast] at hget
      dsimp only at hget
      split at hget
      · rename_i hid
        rw [hid] at hget
        exact .inl (Option.some.inj hget).symm
      · cases hget
  · rintro (rfl | ⟨n, hn, rfl⟩)
    · have hid : (state.row json (db.playbackState.get globalId)).nodeId = globalId := rfl
      rw [hid, lastNode_eq_none_iff.2 hglobal]
      exact if_pos rfl
    · have hid : (n.row json (keptOutputId state db n.id)).nodeId = n.id := rfl
      rw [hid, lastNode_of_nodup hids hn]

/-- What a load finds after such a persist. -/
theorem loadAllNodeStates_persist (hids : (state.nodes.map Node.id).Nodup)
    (hglobal : globalId ∉ state.nodes.map Node.id)
    (hcount : state.nodes.length ≤ maxVariableNumber) (hfit : IndicesFit state)
    (hvolume : db.GlobalVolume) :
    ∃ saved, (persist json state db).2.loadAllNodeStates json = .ok saved ∧
      (saved.filter fun s => s.nodeId ≠ globalId).Perm
        (state.nodes.map fun n => n.saved (keptOutputId state db n.id)) := by
  have hok : (persist json state db).1 = .ok () := persist_ok hcount
  obtain ⟨saved, hsaved⟩ := exists_loadAllNodeStates hok hfit hvolume
  refine ⟨saved, hsaved, ?_⟩
  have hperm := (Database.loadAllNodeStates_perm json hsaved).trans
    ((rows_persist_perm hok hids hglobal).filterMap _)
  obtain ⟨top, htop, hid⟩ : ∃ top, Database.loadRow json
      (state.row json (db.playbackState.get globalId)) = .ok top ∧ top.nodeId = globalId :=
    loadRow_state hfit.top hvolume
  have hnodes : ((state.nodes.map fun n => n.row json (keptOutputId state db n.id)).filterMap
      fun row => (Database.loadRow json row).toOption) =
      state.nodes.map fun n => n.saved (keptOutputId state db n.id) := by
    rw [List.filterMap_map, ← List.filterMap_eq_map]
    refine List.filterMap_congr fun n hn => ?_
    show (Database.loadRow json (n.row json _)).toOption = _
    rw [loadRow_node (hfit.nodes n hn)]
    rfl
  rw [List.filterMap_cons, htop, hnodes] at hperm
  refine (hperm.filter _).trans (List.Perm.of_eq ?_)
  show List.filter (fun s => decide (s.nodeId ≠ globalId)) (top :: _) = _
  rw [List.filter_cons_of_neg (by simpa using hid), List.filter_eq_self]
  intro s hs
  obtain ⟨n, hn, rfl⟩ := List.mem_map.1 hs
  have hne : n.id ≠ globalId := fun h => hglobal (h ▸ List.mem_map_of_mem hn)
  exact decide_eq_true hne

/-- Persist, then restore: the nodes are back as a restart makes them, no one is lost and no one
gained, and the selection is the same. -/
theorem restore_persist (json : Json) (state : PlaybackState) (db : Database)
    (hids : (state.nodes.map Node.id).Nodup) (hglobal : globalId ∉ state.nodes.map Node.id)
    (hcount : state.nodes.length ≤ maxVariableNumber)
    (hindex : (∀ n ∈ state.nodes, n.IndexInQueue) ∧
      ∀ i ∈ state.currentIndex, i < state.queue.length)
    (hvecs : state.Vecs) (hvolume : db.GlobalVolume)
    (htracks : ∀ n ∈ state.nodes, ∀ t ∈ n.queue, db.getTrackByPath t.filePath = .ok (some t)) :
    ∃ restored, restore json (persist json state db).2 = .ok restored ∧
      restored.nodes.Perm (state.nodes.map Node.restarted) ∧
      restored.selectedNodeId = state.selectedNodeId := by
  have hfit : IndicesFit state :=
    ⟨fun n hn i hi => (hindex.1 n hn i hi).trans (hvecs.1 n hn),
      fun i hi => (hindex.2 i hi).trans hvecs.2⟩
  obtain ⟨saved, hsaved, hperm⟩ : ∃ saved,
      (persist json state db).2.loadAllNodeStates json = .ok saved ∧ _ :=
    loadAllNodeStates_persist hids hglobal hcount hfit hvolume
  have hnodes : (restoreNodes json (persist json state db).2).Perm
      (state.nodes.map Node.restarted) := by
    rw [restoreNodes, hsaved]
    refine (hperm.map _).trans (List.Perm.of_eq ?_)
    rw [List.map_map]
    refine List.map_congr_left fun n hn => restoreNode_saved (hindex.1 n hn) ?_ _
    intro t ht
    rw [Database.getTrackByPath, persist_tracks]
    exact htracks n hn t ht
  obtain ⟨s, hs, hselected⟩ := exists_loadPlaybackState json state db hfit
  have hrestore : restore json (persist json state db).2 = .ok
      { nodes := restoreNodes json (persist json state db).2
        selectedNodeId := s.activeOutputId
        queue := restoreQueue (persist json state db).2 s.queueFilePaths
        currentIndex := s.currentIndex.filter
          (· < (restoreQueue (persist json state db).2 s.queueFilePaths).length)
        shuffle := s.shuffle
        repeatMode := restoreRepeat s.repeatMode } := by
    rw [restore, hs]
    rfl
  exact ⟨_, hrestore, hnodes, hselected⟩

/-- The library with these tracks. -/
def library (tracks : List Track) : Tracks where
  row path := .ok (tracks.find? fun t => t.filePath = path)
  filePath_of_row path track h := by
    have hfound := List.find?_some (Except.ok.inj h)
    simpa using hfound

def threeTracks : List Track :=
  [{ id := "1", filePath := "/1" }, { id := "2", filePath := "/2" }, { id := "3", filePath := "/3" }]

/-- `a` is at the second of three tracks, and selected. -/
def atSecond : PlaybackState :=
  { PlaybackState.empty with
    nodes := [{ id := "a", queue := threeTracks, currentIndex := some 1 }]
    selectedNodeId := some "a"
    queue := threeTracks
    currentIndex := some 1 }

theorem restore_persist_atSecond :
    ∃ restored, restore plainJson (persist plainJson atSecond
        { freshDatabase with tracks := library threeTracks }).2 = .ok restored ∧
      restored.nodes.Perm (atSecond.nodes.map Node.restarted) ∧
      restored.selectedNodeId = atSecond.selectedNodeId :=
  restore_persist plainJson atSecond _ (by decide) (by decide) (by decide) (by decide) (by decide)
    (fun _ hrow => nomatch hrow) (by decide)

/-- A remote node comes back as a local one. -/
theorem remote_restored_as_local :
    ¬ ∃ restored, restore plainJson (persist plainJson
        { PlaybackState.empty with nodes := [{ id := "local-x" }] } freshDatabase).2 = .ok restored ∧
      (restored.nodes.map fun n => (n.id, n.nodeType)).Perm [("local-x", .remote)] := by
  rintro ⟨restored, hrestore, hperm⟩
  have htypes : (restore plainJson (persist plainJson
      { PlaybackState.empty with nodes := [{ id := "local-x" }] } freshDatabase).2).toOption.map
        (fun s => s.nodes.map fun n => (n.id, n.nodeType)) = some [("local-x", .localNode)] := by
    decide
  rw [hrestore] at htypes
  have hlocal : (restored.nodes.map fun n => (n.id, n.nodeType)) = [("local-x", .localNode)] :=
    Option.some.inj htypes
  rw [hlocal] at hperm
  exact absurd hperm.eq_singleton (by decide)

/-! ## The library has shrunk -/

/-- The track at the path is there. -/
def Database.has (db : Database) (path : String) : Bool :=
  (db.getTrackByPath path).toOption.join.isSome

/-- The current track of what was saved, if it is there, is the current one of what is restored, and
the tracks that are there keep their order. -/
def CurrentKept (db : Database) (s : SavedNodeState) (queue : List Track)
    (currentIndex : Option Nat) : Prop :=
  queue.map Track.filePath = s.queueFilePaths.filter db.has ∧
    ∀ i ∈ s.currentIndex, ∀ path, s.queueFilePaths[i]? = some path → db.has path = true →
      currentIndex = some ((s.queueFilePaths.take i).countP db.has) ∧
        (queue[(s.queueFilePaths.take i).countP db.has]?).map Track.filePath = some path

/-- The current track is not there, or all tracks before it are. -/
def NoneMissingBefore (db : Database) (s : SavedNodeState) : Prop :=
  ∀ i ∈ s.currentIndex, ∀ path, s.queueFilePaths[i]? = some path → db.has path = true →
    ∀ p ∈ s.queueFilePaths.take i, db.has p = true

theorem map_restoreQueue (paths : List String) :
    (restoreQueue db paths).map Track.filePath = paths.filter db.has := by
  induction paths with
  | nil => rfl
  | cons path paths ih =>
    unfold restoreQueue at ih ⊢
    cases hrow : (db.getTrackByPath path).toOption.join with
    | none =>
      have hhas : db.has path = false := by rw [Database.has, hrow]; rfl
      rw [List.filterMap_cons, hrow, List.filter_cons_of_neg (by simp [hhas])]
      exact ih
    | some t =>
      have hhas : db.has path = true := by rw [Database.has, hrow]; rfl
      have hpath : t.filePath = path := by
        refine db.tracks.filePath_of_row path t ?_
        cases hget : db.getTrackByPath path with
        | error e =>
          rw [hget] at hrow
          cases hrow
        | ok found =>
          rw [hget] at hrow
          rw [← hrow]
          exact hget
      rw [List.filterMap_cons, hrow, List.filter_cons_of_pos hhas, ← ih, ← hpath]
      rfl

/-- The track at a position that is kept, among those that are. -/
theorem getElem?_filter_countP {α : Type} {p : α → Bool} {l : List α} {i : Nat} {a : α}
    (h : l[i]? = some a) (ha : p a = true) : (l.filter p)[(l.take i).countP p]? = some a := by
  induction l generalizing i with
  | nil => cases h
  | cons b l ih =>
    cases i with
    | zero =>
      cases h
      simp [ha]
    | succ i =>
      have hrest := ih (i := i) h
      by_cases hb : p b = true
      · simpa [hb] using hrest
      · simpa [hb] using hrest

/-- An index that is only bounded by the length of what is restored keeps the current track if nothing
before it is missing. -/
theorem restoreQueue_kept_iff (s : SavedNodeState) :
    CurrentKept db s (restoreQueue db s.queueFilePaths)
        (s.currentIndex.filter (· < (restoreQueue db s.queueFilePaths).length)) ↔
      NoneMissingBefore db s := by
  refine (and_iff_right (map_restoreQueue _)).trans ?_
  refine forall₂_congr fun i hi => forall₂_congr fun path hpath => forall_congr' fun hhas => ?_
  have hget := getElem?_filter_countP hpath hhas
  have hplace : ((restoreQueue db s.queueFilePaths)[(s.queueFilePaths.take i).countP db.has]?).map
      Track.filePath = some path := by
    rw [← List.getElem?_map, map_restoreQueue, hget]
  have hlen : (restoreQueue db s.queueFilePaths).length =
      (s.queueFilePaths.filter db.has).length := by
    rw [← map_restoreQueue, List.length_map]
  have hi' : s.currentIndex = some i := hi
  have hshort : (s.queueFilePaths.take i).length = i := by
    have hlt := (List.getElem?_eq_some_iff.1 hpath).1
    exact List.length_take_of_le hlt.le
  have hbefore : (s.queueFilePaths.take i).countP db.has <
      (restoreQueue db s.queueFilePaths).length := by
    rw [hlen]
    exact (List.getElem?_eq_some_iff.1 hget).1
  rw [and_iff_left hplace, hi', ← List.countP_eq_length, hshort]
  by_cases hlt : i < (restoreQueue db s.queueFilePaths).length
  · simp only [Option.filter, hlt, decide_true, if_true, Option.some.injEq]
    exact eq_comm
  · simp only [Option.filter, hlt, decide_false]
    refine iff_of_false (by simp) fun heq => hlt ?_
    rwa [heq] at hbefore

/-- Every saved node, and the state as a whole, keep their current track over a restart exactly if it
is gone or none before it is, whatever the library has lost. -/
theorem current_kept_iff (json : Json) (db : Database) (restored : PlaybackState)
    (saved : List SavedNodeState) (h : restore json db = .ok restored)
    (hsaved : db.loadAllNodeStates json = .ok saved) :
    restored.nodes = (saved.filter fun s => s.nodeId ≠ globalId).map (restoreNode db) ∧
      (∀ s ∈ saved,
        (CurrentKept db s (restoreNode db s).queue (restoreNode db s).currentIndex ↔
          NoneMissingBefore db s)) ∧
      ∀ s, db.loadPlaybackState json = .ok (some s) →
        (CurrentKept db s restored.queue restored.currentIndex ↔ NoneMissingBefore db s) := by
  have hnodes : restoreNodes json db =
      (saved.filter fun s => s.nodeId ≠ globalId).map (restoreNode db) := by
    rw [restoreNodes, hsaved]
    rfl
  cases hload : db.loadPlaybackState json with
  | error e =>
    rw [restore, hload] at h
    cases h
  | ok top =>
    rw [restore, hload] at h
    cases top with
    | none =>
      cases h
      exact ⟨hnodes, fun s _ => restoreQueue_kept_iff s, fun s hs => nomatch hs⟩
    | some s =>
      cases h
      refine ⟨hnodes, fun s _ => restoreQueue_kept_iff s, fun s' hs' => ?_⟩
      cases hs'
      exact restoreQueue_kept_iff s

/-- `atSecond` persisted; then the last track is gone. -/
def withoutLast : Database :=
  { (persist plainJson atSecond freshDatabase).2 with tracks := library (threeTracks.take 2) }

/-- `atSecond` persisted; then the first track is gone. -/
def withoutFirst : Database :=
  { (persist plainJson atSecond freshDatabase).2 with tracks := library (threeTracks.drop 1) }

/-- What is saved of the node. -/
def savedSecond : SavedNodeState :=
  { nodeId := "a", queueFilePaths := ["/1", "/2", "/3"], currentIndex := some 1
    activeOutputId := none, volume := 50, shuffle := false, repeatMode := "off"
    nodeType := .remote, deviceId := none, disconnectedAt := none }

theorem current_kept_iff_withoutLast :
    ∃ (restored : PlaybackState) (saved : List SavedNodeState), restored.nodes =
        (saved.filter fun s => s.nodeId ≠ globalId).map (restoreNode withoutLast) ∧
      (∀ s ∈ saved, (CurrentKept withoutLast s (restoreNode withoutLast s).queue
          (restoreNode withoutLast s).currentIndex ↔ NoneMissingBefore withoutLast s)) ∧
      ∀ s, withoutLast.loadPlaybackState plainJson = .ok (some s) →
        (CurrentKept withoutLast s restored.queue restored.currentIndex ↔
          NoneMissingBefore withoutLast s) :=
  ⟨_, _, current_kept_iff plainJson withoutLast _ _ rfl rfl⟩

/-- The first track gone, the index designates the third instead of the second. -/
theorem withoutFirst_not_kept :
    savedSecond ∈ (withoutFirst.loadAllNodeStates plainJson).toOption.getD [] ∧
      restoreNode withoutFirst savedSecond ∈
        ((restore plainJson withoutFirst).toOption.map PlaybackState.nodes).getD [] ∧
      ¬ CurrentKept withoutFirst savedSecond (restoreNode withoutFirst savedSecond).queue
        (restoreNode withoutFirst savedSecond).currentIndex := by
  refine ⟨by decide, by decide +kernel, fun h => ?_⟩
  exact absurd (h.2 1 rfl "/2" rfl (by decide)).1 (by decide)

end Kanade

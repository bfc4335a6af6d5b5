import Kanade.Concur.Stages
import Kanade.Db.Restore

/-!
# Kanade.Db.Stages

A persist that stops halfway, at a statement that fails or with the process.

`persist` is a run of statements (`persist_eq_runAll`), each of them atomic, so what is left is the
database after some of them. What is restored from it is made of the state as a whole and the rows
(`restoredPart`, `restore_congr`). A persist that changes no more than one of these is all or nothing, and for
rows that load and nodes with ids of their own only such a one is (`allOrNothing_iff`).
-/

namespace Kanade

open Concur Keyed

/-- The statements of a persist. -/
inductive PersistStatement where
  | savePlaybackState (state : PlaybackState)
  | saveNodeState (node : Node)
  | pruneNodeStatesExcept (keepNodeIds : List String)

namespace PersistStatement

def run (json : Json) (db : Database) : PersistStatement → Except String Unit × Database
  | .savePlaybackState state =>
    (.ok (), db.savePlaybackState json (state.queue.map Track.filePath) state.currentIndex
      state.selectedNodeId state.shuffle state.repeatMode.text)
  | .saveNodeState node => (.ok (), saveNode json db node)
  | .pruneNodeStatesExcept keepNodeIds => db.pruneNodeStatesExcept keepNodeIds

/-- The database after the statement. -/
def after (json : Json) (statement : PersistStatement) (db : Database) : Database :=
  (statement.run json db).2

end PersistStatement

def PlaybackState.statements (state : PlaybackState) : List PersistStatement :=
  .savePlaybackState state :: (state.nodes.map .saveNodeState ++
    [.pruneNodeStatesExcept (state.nodes.map Node.id)])

section Statements

variable {json : Json} {state : PlaybackState} {db : Database}

theorem persist_eq_runAll (json : Json) (state : PlaybackState) (db : Database) :
    (persist json state db).2 = runAll (PersistStatement.after json) state.statements db := by
  have hnodes : ∀ (ns : List Node) (db : Database),
      runAll (PersistStatement.after json) (ns.map .saveNodeState) db =
        ns.foldl (saveNode json) db := by
    intro ns
    induction ns with
    | nil => intro db; rfl
    | cons n ns ih => intro db; exact ih _
  show _ = runAll _ (_ ++ _) _
  rw [runAll_append, hnodes]
  rfl

end Statements

/-! ## What is restored -/

/-- What the restore makes of a row. -/
inductive RowImage where
  | unreadable
  | reserved
  | node (node : Node)

def rowImage (json : Json) (db : Database) (row : Row) : RowImage :=
  match Database.loadRow json row with
  | .error _ => .unreadable
  | .ok s => if s.nodeId = globalId then .reserved else .node (restoreNode db s)

/-- The restored state but for its nodes. -/
def restoreTop (json : Json) (db : Database) : Except String PlaybackState := do
  let saved ← db.loadPlaybackState json
  match saved with
  | some s =>
    let queue := restoreQueue db s.queueFilePaths
    .ok
      { nodes := []
        selectedNodeId := s.activeOutputId
        queue := queue
        currentIndex := s.currentIndex.filter (· < queue.length)
        shuffle := s.shuffle
        repeatMode := restoreRepeat s.repeatMode }
  | none => .ok PlaybackState.empty

/-- A part of what is restored. -/
inductive Shown where
  | top (state : Except String PlaybackState)
  | row (image : Option RowImage)

/-- The parts of what is restored: the state as a whole, and what is made of the rows. -/
def restoredPart (json : Json) (db : Database) : Option String → Shown
  | none => .top (restoreTop json db)
  | some id => .row ((db.playbackState.get id).map (rowImage json db))

/-- The nodes in the images of all rows, if all rows are readable. -/
def nodesOf : List RowImage → Option (List Node)
  | [] => some []
  | .unreadable :: _ => none
  | .reserved :: images => nodesOf images
  | .node n :: images => (nodesOf images).map (n :: ·)

section Shown

variable {json : Json} {db db' : Database}

theorem restore_eq (json : Json) (db : Database) :
    restore json db = (restoreTop json db).map fun top => { top with nodes := restoreNodes json db } := by
  unfold restore restoreTop
  cases hload : db.loadPlaybackState json with
  | error e => rfl
  | ok saved => cases saved <;> rfl

/-- The ids of the rows, in the order in which they are loaded. -/
def sortedIds (db : Database) : List String :=
  (db.playbackState.rows.insertionSort fun r r' => r.nodeId ≤ r'.nodeId).map Row.nodeId

theorem mem_sortedIds {id : String} : id ∈ sortedIds db ↔ (db.playbackState.get id).isSome := by
  rw [sortedIds, List.mem_map]
  constructor
  · rintro ⟨row, hrow, rfl⟩
    rw [Table.mem_rows_iff.1 ((List.mem_insertionSort _).1 hrow)]
    rfl
  · intro h
    obtain ⟨row, hrow⟩ := Option.isSome_iff_exists.1 h
    exact ⟨row, (List.mem_insertionSort _).2 (Table.mem_of_get hrow), Table.key_of_get hrow⟩

theorem nodup_sortedIds (db : Database) : (sortedIds db).Nodup :=
  (((List.perm_insertionSort _ _).map Row.nodeId).nodup_iff).2 db.playbackState.nodup

theorem pairwise_sortedIds (db : Database) : (sortedIds db).Pairwise (· ≤ ·) := by
  rw [sortedIds, List.pairwise_map]
  have : Std.Total fun r r' : Row => r.nodeId ≤ r'.nodeId := ⟨fun _ _ => String.le_total _ _⟩
  have : IsTrans Row fun r r' => r.nodeId ≤ r'.nodeId := ⟨fun _ _ _ h h' => String.le_trans h h'⟩
  exact List.pairwise_insertionSort _ _

theorem sortedIds_congr
    (h : ∀ id, (db.playbackState.get id).isSome = (db'.playbackState.get id).isSome) :
    sortedIds db = sortedIds db' := by
  have hperm : (sortedIds db).Perm (sortedIds db') := by
    refine (List.perm_ext_iff_of_nodup (nodup_sortedIds db) (nodup_sortedIds db')).2 fun id => ?_
    rw [mem_sortedIds, mem_sortedIds, h]
  exact hperm.eq_of_pairwise' (pairwise_sortedIds db) (pairwise_sortedIds db')

/-- The nodes of the rows that a load finds. -/
theorem nodesOf_map_rowImage (rows : List Row) :
    nodesOf (rows.map (rowImage json db)) = (Database.loadRows json rows).toOption.map fun saved =>
      (saved.filter fun s => s.nodeId ≠ globalId).map (restoreNode db) := by
  induction rows with
  | nil => rfl
  | cons row rows ih =>
    rw [List.map_cons, rowImage, Database.loadRows]
    cases hrow : Database.loadRow json row with
    | error e => rfl
    | ok s =>
      by_cases hid : s.nodeId = globalId
      · simp only [hid, if_true, nodesOf, ih]
        cases Database.loadRows json rows with
        | error e => rfl
        | ok out => simp [bind, Except.bind, Except.toOption, hid]
      · simp only [hid, if_false, nodesOf, ih]
        cases Database.loadRows json rows with
        | error e => rfl
        | ok out => simp [bind, Except.bind, Except.toOption, hid]

theorem restoreNodes_eq (json : Json) (db : Database) :
    restoreNodes json db = (nodesOf ((sortedIds db).filterMap fun id =>
      (db.playbackState.get id).map (rowImage json db))).getD [] := by
  have himages : ((sortedIds db).filterMap fun id =>
      (db.playbackState.get id).map (rowImage json db)) =
      (db.playbackState.rows.insertionSort fun r r' => r.nodeId ≤ r'.nodeId).map
        (rowImage json db) := by
    rw [sortedIds, List.filterMap_map, ← List.filterMap_eq_map]
    refine List.filterMap_congr fun row hrow => ?_
    have hget := Table.mem_rows_iff.1 ((List.mem_insertionSort _).1 hrow)
    show (db.playbackState.get row.nodeId).map _ = _
    rw [hget]
    rfl
  rw [himages, nodesOf_map_rowImage, restoreNodes, Database.loadAllNodeStates]
  cases Database.loadRows json _ <;> rfl

/-- What is restored is made of its parts. -/
theorem restore_congr (h : restoredPart json db = restoredPart json db') : restore json db = restore json db' := by
  have htop : restoreTop json db = restoreTop json db' := Shown.top.inj (congrFun h none)
  have hrow : ∀ id, (db.playbackState.get id).map (rowImage json db) =
      (db'.playbackState.get id).map (rowImage json db') :=
    fun id => Shown.row.inj (congrFun h (some id))
  have hids : sortedIds db = sortedIds db' := sortedIds_congr fun id => by
    rw [← Option.isSome_map (f := rowImage json db), hrow, Option.isSome_map]
  have hnodes : restoreNodes json db = restoreNodes json db' := by
    rw [restoreNodes_eq, restoreNodes_eq, hids]
    congr 2
    exact List.filterMap_congr fun id _ => hrow id
  rw [restore_eq, restore_eq, htop, hnodes]

end Shown

/-! ## What the statements change -/

/-- The parts that a statement may change. -/
def PersistStatement.Owns : PersistStatement → Option String → Prop
  | .savePlaybackState _, i => i = none ∨ i = some globalId
  | .saveNodeState node, i => i = some node.id ∨ node.id = globalId ∧ i = none
  | .pruneNodeStatesExcept keepNodeIds, i => ∃ id, i = some id ∧ id ≠ globalId ∧ id ∉ keepNodeIds

section Frame

variable {json : Json} {db db' : Database} {id : String}

theorem restoreQueue_congr (h : db'.tracks = db.tracks) : restoreQueue db' = restoreQueue db := by
  funext paths
  unfold restoreQueue Database.getTrackByPath
  rw [h]

theorem rowImage_congr (h : db'.tracks = db.tracks) : rowImage json db' = rowImage json db := by
  have hnode : restoreNode db' = restoreNode db := by
    funext s
    unfold restoreNode
    rw [restoreQueue_congr h]
  funext row
  rw [rowImage, hnode, rowImage]

theorem restoreTop_congr (h : db'.tracks = db.tracks)
    (hget : db'.playbackState.get globalId = db.playbackState.get globalId) :
    restoreTop json db' = restoreTop json db := by
  unfold restoreTop Database.loadPlaybackState
  rw [hget, restoreQueue_congr h]

@[simp] theorem PersistStatement.after_tracks (json : Json) (statement : PersistStatement)
    (db : Database) : (statement.after json db).tracks = db.tracks := by
  cases statement with
  | savePlaybackState state => rfl
  | saveNodeState node => rfl
  | pruneNodeStatesExcept keepNodeIds =>
    show (db.pruneNodeStatesExcept keepNodeIds).2.tracks = _
    unfold Database.pruneNodeStatesExcept
    split
    · rfl
    · split <;> rfl

theorem get_prune_kept {keep : List String} (h : id = globalId ∨ id ∈ keep) :
    (db.pruneNodeStatesExcept keep).2.playbackState.get id = db.playbackState.get id := by
  unfold Database.pruneNodeStatesExcept
  split
  · rename_i hempty
    have hid : id = globalId := by
      rcases h with h | h
      · exact h
      · rw [List.isEmpty_iff.1 hempty] at h
        cases h
    exact (Table.get_restrict _).trans (by simp [hid])
  · split
    · rfl
    · exact (Table.get_restrict _).trans (by simp [h])

theorem prune_fst {keep : List String} (h : keep.length ≤ maxVariableNumber) :
    (db.pruneNodeStatesExcept keep).1 = .ok () := by
  unfold Database.pruneNodeStatesExcept
  split
  · rfl
  · rw [if_neg (not_lt.2 h)]

theorem get_prune_other {keep : List String} (hid : id ≠ globalId) (hkeep : id ∉ keep) :
    (db.pruneNodeStatesExcept keep).2.playbackState.get id =
      if keep.length ≤ maxVariableNumber then none else db.playbackState.get id := by
  split
  · rename_i hfew
    rw [get_pruneNodeStatesExcept (prune_fst hfew), if_neg (not_or.2 ⟨hid, hkeep⟩)]
  · rename_i hmany
    have hne : keep ≠ [] := by
      rintro rfl
      exact hmany (Nat.zero_le _)
    rw [Database.pruneNodeStatesExcept, if_neg (by simpa using hne), if_pos (not_le.1 hmany)]

/-- A statement changes no other row. -/
theorem PersistStatement.get_after {statement : PersistStatement} (h : ¬ statement.Owns (some id)) :
    (statement.after json db).playbackState.get id = db.playbackState.get id := by
  cases statement with
  | savePlaybackState state =>
    exact get_savePlaybackState.trans (if_neg fun hid => h (.inr (congrArg some hid)))
  | saveNodeState node =>
    exact get_saveNode.trans (if_neg fun hid => h (.inl (congrArg some hid)))
  | pruneNodeStatesExcept keepNodeIds =>
    refine get_prune_kept ?_
    by_contra hnot
    obtain ⟨hid, hkeep⟩ := not_or.1 hnot
    exact h ⟨id, rfl, hid, hkeep⟩

theorem PersistStatement.shown_after (json : Json) (statement : PersistStatement) (db : Database)
    (i : Option String) (h : ¬ statement.Owns i) :
    restoredPart json (statement.after json db) i = restoredPart json db i := by
  cases i with
  | some id =>
    simp only [restoredPart, rowImage_congr (statement.after_tracks json db), get_after h]
  | none =>
    have hglobal : ¬ statement.Owns (some globalId) := by
      intro howns
      cases statement with
      | savePlaybackState state => exact h (.inl rfl)
      | saveNodeState node =>
        rcases howns with hid | ⟨-, hid⟩
        · exact h (.inr ⟨(Option.some.inj hid).symm, rfl⟩)
        · cases hid
      | pruneNodeStatesExcept keepNodeIds =>
        obtain ⟨id, hid, hne, -⟩ := howns
        exact hne (Option.some.inj hid).symm
    simp only [restoredPart, restoreTop_congr (statement.after_tracks json db) (get_after hglobal)]

end Frame

/-! ## Rows that load -/

/-- Every row loads, and there is one for the state as a whole. -/
structure Database.Readable (json : Json) (db : Database) : Prop where
  rows : ∀ id, ∀ row ∈ db.playbackState.get id, ∃ s, Database.loadRow json row = .ok s
  top : (db.playbackState.get globalId).isSome

/-- The statement writes a row that loads, and that of a node under an id that is not reserved. -/
def PersistStatement.Fits : PersistStatement → Prop
  | .savePlaybackState state => ∀ i ∈ state.currentIndex, i < 2 ^ 63
  | .saveNodeState node => node.id ≠ globalId ∧ ∀ i ∈ node.currentIndex, i < 2 ^ 63
  | .pruneNodeStatesExcept _ => True

section Readable

variable {json : Json} {db db' : Database} {id : String} {statement : PersistStatement}

theorem rowImage_of_loadRow {row : Row} {s : SavedNodeState}
    (h : Database.loadRow json row = .ok s) :
    rowImage json db row = if s.nodeId = globalId then .reserved else .node (restoreNode db s) := by
  rw [rowImage, h]

theorem nodeId_of_loadRow {row : Row} {s : SavedNodeState} (h : Database.loadRow json row = .ok s) :
    s.nodeId = row.nodeId := by
  obtain ⟨paths, index, volume, hqueue, hindex, hvolume⟩ := Database.loadRow_inv json h
  rw [Database.loadRow_ok json hqueue hindex hvolume] at h
  cases h
  rfl

/-- The row of a node, whatever column it takes over. -/
theorem rowImage_node {node : Node} (h : (PersistStatement.saveNodeState node).Fits)
    (activeOutputId : Option String) :
    rowImage json db (node.row json activeOutputId) = .node (restoreNode db (node.saved none)) := by
  have hload : Database.loadRow json (node.row json activeOutputId) = .ok (node.saved activeOutputId) :=
    loadRow_node h.2 activeOutputId
  rw [rowImage_of_loadRow hload]
  exact if_neg h.1

theorem Database.Readable.volume (h : db.Readable json) :
    ∀ row ∈ db.playbackState.get globalId, 0 ≤ row.volume ∧ row.volume ≤ 255 := by
  intro row hrow
  obtain ⟨s, hs⟩ := h.rows globalId row hrow
  obtain ⟨-, -, volume, -, -, hvolume⟩ := Database.loadRow_inv json hs
  by_contra hout
  rw [Database.loadVolume, if_neg hout] at hvolume
  cases hvolume

theorem Database.Readable.loadRow_top (h : db.Readable json) {state : PlaybackState}
    (hfits : (PersistStatement.savePlaybackState state).Fits) :
    ∃ s, Database.loadRow json (state.row json (db.playbackState.get globalId)) = .ok s ∧
      s.nodeId = globalId := loadRow_state hfits h.volume

theorem Database.Readable.after (h : db.Readable json) (hfits : statement.Fits) :
    (statement.after json db).Readable json := by
  cases statement with
  | savePlaybackState state =>
    constructor
    · intro id row hrow
      rw [show (PersistStatement.after json (.savePlaybackState state) db).playbackState.get id = _
        from get_savePlaybackState] at hrow
      split at hrow
      · rename_i hid
        subst hid
        obtain ⟨s, hs, -⟩ := h.loadRow_top hfits
        exact ⟨s, Option.some.inj hrow ▸ hs⟩
      · exact h.rows id row hrow
    · rw [show (PersistStatement.after json (.savePlaybackState state) db).playbackState.get
        globalId = _ from get_savePlaybackState, if_pos rfl]
      rfl
  | saveNodeState node =>
    constructor
    · intro id row hrow
      rw [show (PersistStatement.after json (.saveNodeState node) db).playbackState.get id = _
        from get_saveNode] at hrow
      split at hrow
      · exact ⟨_, Option.some.inj hrow ▸ loadRow_node hfits.2 _⟩
      · exact h.rows id row hrow
    · rw [show (PersistStatement.after json (.saveNodeState node) db).playbackState.get
        globalId = _ from get_saveNode, if_neg fun hid => hfits.1 hid.symm]
      exact h.top
  | pruneNodeStatesExcept keep =>
    constructor
    · intro id row hrow
      by_cases hkept : id = globalId ∨ id ∈ keep
      · rw [show (PersistStatement.after json (.pruneNodeStatesExcept keep) db).playbackState.get
          id = _ from get_prune_kept hkept] at hrow
        exact h.rows id row hrow
      · obtain ⟨hid, hkeep⟩ := not_or.1 hkept
        rw [show (PersistStatement.after json (.pruneNodeStatesExcept keep) db).playbackState.get
          id = _ from get_prune_other hid hkeep] at hrow
        split at hrow
        · cases hrow
        · exact h.rows id row hrow
    · rw [show (PersistStatement.after json (.pruneNodeStatesExcept keep) db).playbackState.get
        globalId = _ from get_prune_kept (.inl rfl)]
      exact h.top

/-- What a statement makes of its parts depends on these parts alone. -/
theorem PersistStatement.shown_after_congr (h : db.Readable json) (h' : db'.Readable json)
    (htracks : db'.tracks = db.tracks) (hfits : statement.Fits) {i : Option String}
    (howns : statement.Owns i) (hi : restoredPart json db i = restoredPart json db' i) :
    restoredPart json (statement.after json db) i = restoredPart json (statement.after json db') i := by
  have himage : rowImage json (statement.after json db') = rowImage json (statement.after json db) :=
    rowImage_congr (by simp [htracks])
  cases statement with
  | savePlaybackState state =>
    have hget : ∀ db : Database, (after json (.savePlaybackState state) db).playbackState.get
        globalId = some (state.row json (db.playbackState.get globalId)) :=
      fun db => get_savePlaybackState.trans (if_pos rfl)
    rcases howns with rfl | rfl
    · have htop : restoreTop json (after json (.savePlaybackState state) db) =
          restoreTop json (after json (.savePlaybackState state) db') := by
        unfold restoreTop Database.loadPlaybackState
        have htracks' : (after json (.savePlaybackState state) db').tracks =
            (after json (.savePlaybackState state) db).tracks := by simp [htracks]
        rw [hget, hget, restoreQueue_congr htracks']
        rfl
      exact congrArg Shown.top htop
    · have hreserved : ∀ {db : Database}, db.Readable json →
          restoredPart json (after json (.savePlaybackState state) db) (some globalId) =
            .row (some .reserved) := by
        intro db hread
        obtain ⟨s, hs, hid⟩ := hread.loadRow_top hfits
        rw [restoredPart, hget, Option.map_some, rowImage_of_loadRow hs, if_pos hid]
      rw [hreserved h, hreserved h']
  | saveNodeState node =>
    rcases howns with rfl | ⟨hid, -⟩
    · have hget : ∀ db : Database, ∃ x, (after json (.saveNodeState node) db).playbackState.get
          node.id = some (node.row json x) :=
        fun db => ⟨_, get_saveNode.trans (if_pos rfl)⟩
      obtain ⟨x, hx⟩ := hget db
      obtain ⟨y, hy⟩ := hget db'
      simp only [restoredPart, hx, hy, Option.map_some, himage, rowImage_node hfits]
    · exact absurd hid hfits.1
  | pruneNodeStatesExcept keep =>
    obtain ⟨id, rfl, hid, hkeep⟩ := howns
    have hget : ∀ db : Database, (after json (.pruneNodeStatesExcept keep) db).playbackState.get id =
        if keep.length ≤ maxVariableNumber then none else db.playbackState.get id :=
      fun db => get_prune_other hid hkeep
    simp only [restoredPart, hget]
    split
    · rfl
    · have hsame : ∀ db : Database,
          rowImage json (after json (.pruneNodeStatesExcept keep) db) = rowImage json db :=
        fun db => rowImage_congr (after_tracks json _ db)
      rw [hsame, hsame]
      exact hi

/-! ## What a restore tells -/

theorem mem_nodesOf {images : List RowImage} {nodes : List Node} {n : Node}
    (h : nodesOf images = some nodes) : n ∈ nodes ↔ .node n ∈ images := by
  induction images generalizing nodes with
  | nil =>
    cases h
    simp
  | cons image images ih =>
    cases image with
    | unreadable => cases h
    | reserved =>
      rw [ih h]
      simp
    | node m =>
      obtain ⟨nodes, hnodes, rfl⟩ := Option.map_eq_some_iff.1 h
      rw [List.mem_cons, List.mem_cons, ih hnodes, RowImage.node.injEq]

theorem exists_nodesOf {images : List RowImage} (h : ∀ image ∈ images, image ≠ .unreadable) :
    ∃ nodes, nodesOf images = some nodes := by
  induction images with
  | nil => exact ⟨[], rfl⟩
  | cons image images ih =>
    obtain ⟨himage, himages⟩ := List.forall_mem_cons.1 h
    obtain ⟨nodes, hnodes⟩ := ih himages
    cases image with
    | unreadable => exact absurd rfl himage
    | reserved => exact ⟨nodes, hnodes⟩
    | node m => exact ⟨m :: nodes, congrArg (Option.map (m :: ·)) hnodes⟩

/-- The image of a row that loads. -/
theorem Database.Readable.image (h : db.Readable json) {row : Row}
    (hrow : db.playbackState.get id = some row) :
    rowImage json db row = .reserved ∧ id = globalId ∨
      ∃ n : Node, rowImage json db row = .node n ∧ n.id = id ∧ id ≠ globalId := by
  obtain ⟨s, hs⟩ := h.rows id row hrow
  have hid : s.nodeId = id := (nodeId_of_loadRow hs).trans (Table.key_of_get hrow)
  rw [rowImage_of_loadRow hs, hid]
  by_cases hglobal : id = globalId
  · exact .inl ⟨if_pos hglobal, hglobal⟩
  · exact .inr ⟨_, if_neg hglobal, hid, hglobal⟩

/-- The restored nodes are the images of the rows. -/
theorem Database.Readable.mem_restoreNodes (h : db.Readable json) {n : Node} :
    n ∈ restoreNodes json db ↔
      (db.playbackState.get n.id).map (rowImage json db) = some (.node n) := by
  have hreadable : ∀ image ∈ (sortedIds db).filterMap fun id =>
      (db.playbackState.get id).map (rowImage json db), image ≠ .unreadable := by
    intro image himage
    obtain ⟨id, -, hmap⟩ := List.mem_filterMap.1 himage
    obtain ⟨row, hrow, rfl⟩ := Option.map_eq_some_iff.1 hmap
    obtain ⟨himg, -⟩ | ⟨m, himg, -⟩ := h.image hrow
    · rw [himg]
      nofun
    · rw [himg]
      nofun
  obtain ⟨nodes, hnodes⟩ := exists_nodesOf hreadable
  rw [restoreNodes_eq, hnodes, Option.getD_some, mem_nodesOf hnodes, List.mem_filterMap]
  constructor
  · rintro ⟨id, -, hmap⟩
    obtain ⟨row, hrow, himg⟩ := Option.map_eq_some_iff.1 hmap
    obtain ⟨hres, -⟩ | ⟨m, hm, hid, -⟩ := h.image hrow
    · rw [hres] at himg
      cases himg
    · rw [hm] at himg
      cases himg
      rw [hid]
      exact hmap
  · intro hmap
    refine ⟨n.id, mem_sortedIds.2 ?_, hmap⟩
    obtain ⟨row, hrow, -⟩ := Option.map_eq_some_iff.1 hmap
    rw [hrow]
    rfl

theorem Database.Readable.exists_top (h : db.Readable json) :
    ∃ top : PlaybackState, restoreTop json db = .ok top ∧ top.nodes = [] := by
  obtain ⟨row, hrow⟩ := Option.isSome_iff_exists.1 h.top
  obtain ⟨s, hs⟩ := h.rows globalId row hrow
  obtain ⟨paths, index, -, hqueue, hindex, -⟩ := Database.loadRow_inv json hs
  have hload : ∃ s, db.loadPlaybackState json = .ok (some s) := by
    simp only [Database.loadPlaybackState, hrow, hqueue, hindex]
    exact ⟨_, rfl⟩
  obtain ⟨s, hs⟩ := hload
  rw [restoreTop, hs]
  exact ⟨_, rfl, rfl⟩

/-- Where all rows load, nothing of the parts is lost. -/
theorem shown_of_restore (h : db.Readable json) (h' : db'.Readable json)
    (heq : restore json db = restore json db') : restoredPart json db = restoredPart json db' := by
  obtain ⟨top, htop, hnil⟩ := h.exists_top
  obtain ⟨top', htop', hnil'⟩ := h'.exists_top
  rw [restore_eq, restore_eq, htop, htop'] at heq
  have hfields := Except.ok.inj heq
  have hnodes : restoreNodes json db = restoreNodes json db' := congrArg PlaybackState.nodes hfields
  have htops : top = top' := by
    obtain ⟨nodes, selected, queue, index, shuffle, mode⟩ := top
    obtain ⟨nodes', selected', queue', index', shuffle', mode'⟩ := top'
    simp only [PlaybackState.mk.injEq] at hfields hnil hnil' ⊢
    exact ⟨hnil.trans hnil'.symm, hfields.2⟩
  have hpart : ∀ {db db' : Database}, db.Readable json → db'.Readable json →
      restoreNodes json db = restoreNodes json db' → ∀ id image,
      (db.playbackState.get id).map (rowImage json db) = some image →
      (db'.playbackState.get id).map (rowImage json db') = some image := by
    intro db db' h h' hnodes id image hmap
    obtain ⟨row, hrow, rfl⟩ := Option.map_eq_some_iff.1 hmap
    obtain ⟨himg, rfl⟩ | ⟨n, himg, rfl, -⟩ := h.image hrow
    · obtain ⟨row', hrow'⟩ := Option.isSome_iff_exists.1 h'.top
      obtain ⟨himg', -⟩ | ⟨-, -, -, hne⟩ := h'.image hrow'
      · rw [hrow', Option.map_some, himg', himg]
      · exact absurd rfl hne
    · rw [himg] at hmap ⊢
      exact h'.mem_restoreNodes.1 (hnodes ▸ h.mem_restoreNodes.2 hmap)
  funext i
  cases i with
  | none => exact congrArg Shown.top (by rw [htop, htop', htops])
  | some id =>
    refine congrArg Shown.row (Option.ext fun image => ?_)
    exact ⟨hpart h h' hnodes id image, hpart h' h hnodes.symm id image⟩

end Readable

/-! ## All or nothing -/

/-- After any part of the statements, what is restored is what was restored before, or what the
completed persist restores. -/
def AllOrNothing (json : Json) (state : PlaybackState) (db : Database) : Prop :=
  ∀ done, done <+: state.statements →
    restore json (runAll (PersistStatement.after json) done db) = restore json db ∨
      (persist json state db).1 = .ok () ∧
        restore json (runAll (PersistStatement.after json) done db) =
          restore json (persist json state db).2

/-- At most one of the statements, in its turn, changes a part of what is restored, and none if there
are too many nodes for the last one. -/
def PersistChangesOnce (json : Json) (state : PlaybackState) (db : Database) : Prop :=
  ChangesOnce (PersistStatement.after json) (restoredPart json) state.statements db ∧
    (maxVariableNumber < state.nodes.length →
      Each (PersistStatement.after json)
        (fun statement db => restoredPart json (statement.after json db) = restoredPart json db)
        state.statements db)

/-- The same of the statements by themselves, each on the database before the persist. -/
def OneChange (json : Json) (state : PlaybackState) (db : Database) : Prop :=
  state.statements.Pairwise (fun a b =>
      restoredPart json (a.after json db) = restoredPart json db ∨
        restoredPart json (b.after json db) = restoredPart json db) ∧
    (maxVariableNumber < state.nodes.length →
      ∀ a ∈ state.statements, restoredPart json (a.after json db) = restoredPart json db)

section AllOrNothing

variable {json : Json} {state : PlaybackState} {db : Database}

theorem persist_fst_iff :
    (persist json state db).1 = .ok () ↔ state.nodes.length ≤ maxVariableNumber := by
  constructor
  · intro h
    by_contra hmany
    have hne : ¬ (state.nodes.map Node.id).isEmpty = true := by
      intro hempty
      rw [List.isEmpty_iff, List.map_eq_nil_iff] at hempty
      rw [hempty] at hmany
      exact hmany (Nat.zero_le _)
    rw [persist, Database.pruneNodeStatesExcept, if_neg hne,
      if_pos (by rw [List.length_map]; exact not_le.1 hmany)] at h
    cases h
  · intro h
    exact prune_fst (by rw [List.length_map]; exact h)

theorem allOrNothing_of_changesOnce (h : PersistChangesOnce json state db) :
    AllOrNothing json state db := by
  intro done hdone
  rw [persist_fst_iff, persist_eq_runAll]
  by_cases hcount : state.nodes.length ≤ maxVariableNumber
  · obtain hfirst | hlast := stage_of_changesOnce h.1 done hdone
    · exact .inl (restore_congr hfirst)
    · exact .inr ⟨hcount, restore_congr hlast⟩
  · exact .inl (restore_congr (obs_of_unchanged (h.2 (not_le.1 hcount)) done hdone))

/-! ### Nodes with ids of their own -/

theorem fits_of_mem_statements (hfit : IndicesFit state) (hglobal : globalId ∉ state.nodes.map Node.id) :
    ∀ statement ∈ state.statements, statement.Fits := by
  intro statement h
  rcases List.mem_cons.1 h with rfl | h
  · exact hfit.top
  · rcases List.mem_append.1 h with h | h
    · obtain ⟨n, hn, rfl⟩ := List.mem_map.1 h
      exact ⟨fun hid => hglobal (List.mem_map.2 ⟨n, hn, hid⟩), hfit.nodes n hn⟩
    · rw [List.mem_singleton.1 h]
      trivial

/-- The statements have different parts. -/
theorem statements_parts (hids : (state.nodes.map Node.id).Nodup)
    (hglobal : globalId ∉ state.nodes.map Node.id) :
    state.statements.Pairwise fun a b => ∀ i, a.Owns i → ¬ b.Owns i := by
  have hne : ∀ n ∈ state.nodes, n.id ≠ globalId := fun n hn hid =>
    hglobal (List.mem_map.2 ⟨n, hn, hid⟩)
  refine List.pairwise_cons.2 ⟨?_, List.pairwise_append.2 ⟨?_, List.pairwise_singleton _ _, ?_⟩⟩
  · intro b hb i hi howns
    rcases List.mem_append.1 hb with hb | hb
    · obtain ⟨n, hn, rfl⟩ := List.mem_map.1 hb
      obtain rfl | ⟨hid, -⟩ := howns
      · obtain hi | hi := hi
        · cases hi
        · exact hne n hn (Option.some.inj hi)
      · exact hne n hn hid
    · rw [List.mem_singleton.1 hb] at howns
      obtain ⟨id, rfl, hid, -⟩ := howns
      obtain hi | hi := hi
      · cases hi
      · exact hid (Option.some.inj hi)
  · rw [List.pairwise_map]
    refine (List.pairwise_map.1 hids).imp_of_mem ?_
    intro n m hn hm hnm i hi howns
    obtain rfl | ⟨hid, -⟩ := hi
    · obtain h | ⟨hid, -⟩ := howns
      · exact hnm (Option.some.inj h)
      · exact hne m hm hid
    · exact hne n hn hid
  · intro a ha b hb i hi howns
    obtain ⟨n, hn, rfl⟩ := List.mem_map.1 ha
    rw [List.mem_singleton.1 hb] at howns
    obtain ⟨id, rfl, -, hkeep⟩ := howns
    obtain h | ⟨hid, -⟩ := hi
    · exact hkeep (List.mem_map.2 ⟨n, hn, (Option.some.inj h).symm⟩)
    · exact hne n hn hid

/-- Every stage has rows that load. -/
theorem readable_run {done : List PersistStatement} (hfits : ∀ statement ∈ done, statement.Fits)
    (h : db.Readable json) : (runAll (PersistStatement.after json) done db).Readable json := by
  induction done generalizing db with
  | nil => exact h
  | cons statement done ih =>
    exact ih (fun s hs => hfits s (List.mem_cons_of_mem _ hs)) (h.after (hfits statement (by simp)))

/-- For rows that load and nodes with ids of their own, a persist is all or nothing exactly if no more
than one of its statements, each by itself on the database before, changes a part of what is
restored. -/
theorem allOrNothing_iff (h : db.Readable json) (hfit : IndicesFit state)
    (hids : (state.nodes.map Node.id).Nodup) (hglobal : globalId ∉ state.nodes.map Node.id) :
    AllOrNothing json state db ↔ OneChange json state db := by
  have hfits := fits_of_mem_statements hfit hglobal
  have hparts := statements_parts hids hglobal
  have hframe := PersistStatement.shown_after json
  let I : Database → Prop := fun db' => db'.Readable json ∧ db'.tracks = db.tracks
  have hI : I db := ⟨h, rfl⟩
  have hkeep : ∀ (a : PersistStatement) db', a.Fits → I db' → I (a.after json db') :=
    fun a db' ha hdb' => ⟨hdb'.1.after ha, (a.after_tracks json db').trans hdb'.2⟩
  have hlocal : ∀ (a : PersistStatement) db₁ db₂ i, a.Fits → I db₁ → I db₂ → a.Owns i →
      restoredPart json db₁ i = restoredPart json db₂ i →
      restoredPart json (a.after json db₁) i = restoredPart json (a.after json db₂) i :=
    fun a db₁ db₂ i ha h₁ h₂ hi heq =>
      PersistStatement.shown_after_congr h₁.1 h₂.1 (h₂.2.trans h₁.2.symm) ha hi heq
  have honce := changesOnce_iff_pairwise hframe hlocal hkeep hI hI hfits (fun _ _ _ _ => rfl) hparts
  have heach := each_unchanged_iff hframe hlocal hkeep hI hI hfits (fun _ _ _ _ => rfl) hparts
  constructor
  · intro hall
    have hstage : ∀ done, done <+: state.statements →
        restoredPart json (runAll (PersistStatement.after json) done db) = restoredPart json db ∨
          state.nodes.length ≤ maxVariableNumber ∧
            restoredPart json (runAll (PersistStatement.after json) done db) =
              restoredPart json (runAll (PersistStatement.after json) state.statements db) := by
      intro done hdone
      have hread := readable_run (fun s hs => hfits s (hdone.subset hs)) h
      obtain hfirst | ⟨hok, hlast⟩ := hall done hdone
      · exact .inl (shown_of_restore hread h hfirst)
      · rw [persist_eq_runAll] at hlast
        exact .inr ⟨persist_fst_iff.1 hok, shown_of_restore hread (readable_run hfits h) hlast⟩
    constructor
    · refine honce.1 (changesOnce_of_stages hframe hparts fun done hdone => ?_)
      exact (hstage done hdone).imp_right And.right
    · intro hmany
      refine heach.1 (unchanged_of_obs fun done hdone => ?_)
      exact (hstage done hdone).resolve_right fun hfew => not_lt.2 hfew.1 hmany
  · intro hone
    exact allOrNothing_of_changesOnce ⟨honce.2 hone.1, fun hmany => heach.2 (hone.2 hmany)⟩

end AllOrNothing

/-- What a persist leaves loads. -/
theorem readable_persist {json : Json} {state : PlaybackState} {db : Database} (h : Written json db)
    (hcount : state.nodes.length ≤ maxVariableNumber) (hfit : IndicesFit state) :
    (persist json state db).2.Readable json where
  rows id row hrow := by
    obtain ⟨n, hn, rfl⟩ | rfl := mem_rows_persist (persist_ok hcount) (Table.mem_of_get hrow)
    · exact ⟨_, loadRow_node (hfit.nodes n hn) _⟩
    · obtain ⟨s, hs, -⟩ := loadRow_state hfit.top h.globalVolume
      exact ⟨s, hs⟩
  top := by
    rw [get_persist_global]
    rfl

/-- A persist of `next` over a persisted `state` that stops halfway. It is all or nothing if no more
than one of its statements changes a part of what is restored; and only then if the rows load and
the nodes of `next` have ids of their own. -/
theorem persist_allOrNothing (json : Json) (state next : PlaybackState) (db : Database) :
    (PersistChangesOnce json next (persist json state db).2 →
      AllOrNothing json next (persist json state db).2) ∧
    (Written json db → state.nodes.length ≤ maxVariableNumber → IndicesFit state →
      IndicesFit next → (next.nodes.map Node.id).Nodup → globalId ∉ next.nodes.map Node.id →
      (AllOrNothing json next (persist json state db).2 ↔
        OneChange json next (persist json state db).2)) :=
  ⟨allOrNothing_of_changesOnce, fun hwritten hcount hfit hnext hids hglobal =>
    allOrNothing_iff (readable_persist hwritten hcount hfit) hnext hids hglobal⟩

/-- Before `atSecond`: `a` is at the first of its tracks. -/
def atFirst : PlaybackState :=
  { atSecond with
    nodes := [{ id := "a", queue := threeTracks, currentIndex := some 0 }]
    currentIndex := some 0 }

/-- A new library. -/
def scanned : Database := { freshDatabase with tracks := library threeTracks }

theorem persist_allOrNothing_atSecond :
    AllOrNothing plainJson atSecond (persist plainJson atFirst scanned).2 ↔
      OneChange plainJson atSecond (persist plainJson atFirst scanned).2 :=
  (persist_allOrNothing plainJson atFirst atSecond scanned).2 (.new _) (by decide)
    ⟨by decide, by decide⟩ ⟨by decide, by decide⟩ (by decide) (by decide)

/-- Stopped after its first statement, the persist of the next track leaves the state at the second
track and the node at the first. -/
theorem persist_atSecond_not_allOrNothing :
    ¬ AllOrNothing plainJson atSecond (persist plainJson atFirst scanned).2 := by
  intro h
  have hview : ∀ db db' : Database, restore plainJson db = restore plainJson db' →
      (restore plainJson db).toOption.map (fun s => (s.currentIndex, s.nodes.map Node.currentIndex)) =
        (restore plainJson db').toOption.map
          fun s => (s.currentIndex, s.nodes.map Node.currentIndex) :=
    fun db db' heq => by rw [heq]
  obtain hfirst | ⟨-, hlast⟩ := h [.savePlaybackState atSecond] ⟨_, rfl⟩
  · exact absurd (hview _ _ hfirst) (by decide +kernel)
  · exact absurd (hview _ _ hlast) (by decide +kernel)

end Kanade

import Kanade.Core.Runs

/-!
# Kanade.Core.Roster

Which nodes there are, and which one is selected.

The badge of a node is its id, its type and its device; the roster of a state is the badges of its
nodes, in order. `Writes.reshapes` is the inversion of the rewrites of all operations for it: a
rewrite leaves roster and selection alone, or is one of the seven that `Reshapes` lists.

`SelectionIn` is the first invariant proved with it: the selection names a node, in every
interleaving of the operations (`selection_in_of_interleaving`).
-/

namespace Kanade

open Concur

/-- What makes a node the node it is. -/
def Node.badge (n : Node) : String × NodeType × Option String := (n.id, n.nodeType, n.deviceId)

/-- What the cleanup of disconnected nodes looks at. -/
def Node.link (n : Node) : NodeType × Bool × Option Int := (n.nodeType, n.connected, n.disconnectedAt)

def PlaybackState.roster (s : PlaybackState) : List (String × NodeType × Option String) :=
  s.nodes.map Node.badge

def PlaybackState.ids (s : PlaybackState) : List String := s.nodes.map Node.id

variable {s s' : PlaybackState} {id : String} {f : Node → Node}

theorem ids_eq_roster (s : PlaybackState) : s.ids = s.roster.map Prod.fst := by
  simp only [PlaybackState.ids, PlaybackState.roster, List.map_map]
  rfl

theorem ids_of_roster (h : s'.roster = s.roster) : s'.ids = s.ids := by
  rw [ids_eq_roster, ids_eq_roster, h]

theorem mem_ids : id ∈ s.ids ↔ ∃ n ∈ s.nodes, n.id = id := List.mem_map

theorem mem_ids_iff_node : id ∈ s.ids ↔ ∃ n, s.node id = some n := by
  rw [mem_ids]
  constructor
  · rintro ⟨n, hn, rfl⟩
    have : (s.node n.id).isSome := List.find?_isSome.2 ⟨n, hn, by simp⟩
    exact Option.isSome_iff_exists.1 this
  · rintro ⟨n, hn⟩
    exact ⟨n, node_mem hn, node_id hn⟩

theorem not_mem_ids_iff : id ∉ s.ids ↔ s.node id = none := by
  rw [mem_ids_iff_node, Option.eq_none_iff_forall_ne_some, not_exists]

/-- A write that keeps `g` of the node it is made to keeps it all over. -/
theorem map_modifyNode {β : Type} {g : Node → β} {ns : List Node}
    (h : ∀ n, findNode id ns = some n → g (f n) = g n) :
    (modifyNode id f ns).map g = ns.map g := by
  induction ns with
  | nil => rfl
  | cons n ns ih =>
    by_cases hn : n.id = id
    · simp only [modifyNode, hn, if_true, List.map_cons]
      rw [h n (by simp [findNode, hn])]
    · simp only [modifyNode, hn, if_false, List.map_cons]
      rw [ih fun m hm => h m (by simpa [findNode, hn] using hm)]

theorem roster_modifyNode (h : ∀ n, s.node id = some n → (f n).badge = n.badge) :
    (s.modifyNode id f).roster = s.roster :=
  map_modifyNode h

theorem roster_modifyNodes (h : ∀ n, (f n).badge = n.badge) :
    (s.modifyNodes f).roster = s.roster := by
  simp only [PlaybackState.roster, modifyNodes_nodes, List.map_map, Function.comp_def, h]

@[simp] theorem roster_syncTopLevel : s.syncTopLevelFromSelectedNode.roster = s.roster := by
  rw [PlaybackState.roster, syncTopLevel_nodes, PlaybackState.roster]

@[simp] theorem ids_syncTopLevel : s.syncTopLevelFromSelectedNode.ids = s.ids :=
  ids_of_roster roster_syncTopLevel

/-! ## What the rewrites do to it -/

/-- The rewrites that may add or remove nodes or change the selection. -/
inductive CoreOp.Reshapes : CoreOp → (PlaybackState → PlaybackState) → Prop where
  | addNode (node : Node) : Reshapes (.addNode node) (addNodeSection node)
  | disconnect (id : String) :
    Reshapes (.handleNodeDisconnected id) fun s => (disconnectSection id s).2
  | remove (id : String) :
    Reshapes (.removeNode id) fun s =>
      let s := { s with nodes := s.nodes.filter fun n => n.id ≠ id }
      if s.selectedNodeId = some id then { s with selectedNodeId := s.nodes.head?.map Node.id }
      else s
  | sessionStart (name : String) (deviceId : Option String) (uuid : String) :
    Reshapes (.localSessionStart name deviceId uuid)
      fun s => (sessionStartSection name deviceId uuid s).2
  | sessionStop (id : String) :
    Reshapes (.localSessionStop id) fun s =>
      let s := { s with nodes := s.nodes.filter fun n => n.id ≠ id }
      if s.selectedNodeId = some id then { s with selectedNodeId := firstConnectedId s } else s
  | cleanup (now maxAge : Int) :
    Reshapes (.cleanupDisconnectedNodes now maxAge) fun s => (cleanupSection now maxAge s).2
  | select (id : String) : Reshapes (.selectNode id) fun s => (selectSection id s).2

/-- Roster and selection are as they were. -/
def SameShape (s s' : PlaybackState) : Prop :=
  s'.roster = s.roster ∧ s'.selectedNodeId = s.selectedNodeId

theorem sameShape_modifyNode (hf : ∀ n, (f n).badge = n.badge) :
    SameShape s (s.modifyNode id f) :=
  ⟨roster_modifyNode fun n _ => hf n, rfl⟩

theorem frame_applyReport (status : PlaybackStatus) (pos : ℚ) (volume : UInt8)
    (projected : Option Nat) (n : Node) :
    (applyReport status pos volume projected n).1.badge = n.badge ∧
      (applyReport status pos volume projected n).1.link = n.link := by
  unfold applyReport
  cases projected with
  | none => dsimp only; split <;> split <;> split <;> exact ⟨rfl, rfl⟩
  | some i => dsimp only; split <;> split <;> split <;> split <;> exact ⟨rfl, rfl⟩

theorem frame_play (n : Node) : n.play.badge = n.badge ∧ n.play.link = n.link := by
  unfold Node.play
  split <;> dsimp only <;> split <;> exact ⟨rfl, rfl⟩

theorem frame_removeTrack (index : Nat) (n : Node) :
    (n.removeTrack index).badge = n.badge ∧ (n.removeTrack index).link = n.link := by
  unfold Node.removeTrack
  dsimp only
  split
  · split
    · exact ⟨rfl, rfl⟩
    · split
      · exact ⟨rfl, rfl⟩
      · split <;> exact ⟨rfl, rfl⟩
  · exact ⟨rfl, rfl⟩

theorem sameShape_moveTo (id : String) (i : Nat) : SameShape s (moveTo id i s) :=
  ⟨(roster_modifyNodes (f := fun node => { node with positionSecs := 0 }) fun _ => rfl).trans
    (roster_modifyNode (f := fun node => { node with currentIndex := some i }) fun _ _ => rfl), rfl⟩

theorem sameShape_jumpSection (id : String) (target : Node → Except CoreError Nat) :
    SameShape s (jumpSection id target s).2 := by
  cases hn : s.node id with
  | none => rw [jumpSection, hn]; exact ⟨rfl, rfl⟩
  | some node =>
    rw [jumpSection_eq hn]
    cases target node with
    | error e => exact ⟨rfl, rfl⟩
    | ok i => exact sameShape_moveTo id i

theorem sameShape_setQueueSection (id : String) (activeId : Option String) (tracks : List Track)
    (startIndex : Option Nat) :
    SameShape s (setQueueSection id activeId tracks startIndex s).2 := by
  have hset : SameShape s (s.modifyNode id fun node =>
      { node with queue := tracks, currentIndex := startIndex, positionSecs := 0,
                  status := .stopped }) := sameShape_modifyNode fun _ => rfl
  unfold setQueueSection
  split
  · exact ⟨rfl, rfl⟩
  · split
    · exact ⟨(sameShape_modifyNode (f := fun node => { node with status := .playing })
        fun _ => rfl).1.trans hset.1, rfl⟩
    · exact hset

/-- The inversion: a rewrite keeps the shape or is one of the seven. -/
theorem CoreOp.Writes.reshapes {I : PlaybackState → Prop} {op : CoreOp}
    {g : PlaybackState → PlaybackState} (h : op.Writes I g) :
    (∀ s, SameShape s (g s)) ∨ op.Reshapes g := by
  cases h with
  | addNode => exact .inr (.addNode _)
  | disconnect => exact .inr (.disconnect _)
  | remove => exact .inr (.remove _)
  | sessionStart => exact .inr (.sessionStart _ _ _)
  | sessionStop => exact .inr (.sessionStop _)
  | cleanup => exact .inr (.cleanup _ _)
  | select => exact .inr (.select _)
  | report => exact .inl fun s => sameShape_modifyNode fun n => (frame_applyReport _ _ _ _ n).1
  | mark => exact .inl fun s => sameShape_modifyNode fun n => by dsimp only; split <;> rfl
  | play => exact .inl fun s => sameShape_modifyNode fun n => (frame_play n).1
  | next | previous | playIndex => exact .inl fun s => sameShape_jumpSection _ _
  | setQueue => exact .inl fun s => sameShape_setQueueSection _ _ _ _
  | removeTrack index =>
    refine .inl fun s => ?_
    dsimp only
    split
    · split
      · exact sameShape_modifyNode fun n => (frame_removeTrack index n).1
      · exact ⟨rfl, rfl⟩
    · exact ⟨rfl, rfl⟩
  | moveTrack src dst =>
    refine .inl fun s => ?_
    dsimp only
    split
    · split
      · exact sameShape_modifyNode fun _ => rfl
      · exact ⟨rfl, rfl⟩
    · exact ⟨rfl, rfl⟩
  | _ => exact .inl fun s => sameShape_modifyNode fun _ => rfl

/-! ### The seven -/

theorem addNodeSection_shape (node : Node) (s : PlaybackState) :
    (addNodeSection node s).roster =
      (if (s.node node.id).isSome then s.roster else s.roster ++ [node.badge]) ∧
    (addNodeSection node s).selectedNodeId =
      if (s.nodes.isEmpty ∨ s.selectedNodeId = none) ∧ node.connected then some node.id
      else s.selectedNodeId := by
  have hmigrate : ∀ s' : PlaybackState, (migrateQueue node.id s').roster = s'.roster ∧
      (migrateQueue node.id s').selectedNodeId = s'.selectedNodeId := fun s' => by
    unfold migrateQueue
    split
    · exact ⟨(roster_modifyNode (s := { s' with queue := [], currentIndex := none })
        (f := fun n => { n with queue := s'.queue, currentIndex := s'.currentIndex,
                                shuffle := s'.shuffle, repeatMode := s'.repeatMode })
        fun _ _ => rfl), rfl⟩
    · exact ⟨rfl, rfl⟩
  have hpick : ∀ (c : Prop) [Decidable c] (s' : PlaybackState),
      (if c then migrateQueue node.id { s' with selectedNodeId := some node.id }
        else s').roster = s'.roster ∧
      (if c then migrateQueue node.id { s' with selectedNodeId := some node.id }
        else s').selectedNodeId = if c then some node.id else s'.selectedNodeId := fun c _ s' => by
    by_cases hc : c
    · simp only [if_pos hc]
      exact hmigrate { s' with selectedNodeId := some node.id }
    · simp [hc]
  unfold addNodeSection
  rw [roster_syncTopLevel, syncTopLevel_selectedNodeId]
  cases hn : s.node node.id with
  | some _ =>
    have hroster : (s.modifyNode node.id fun e =>
        { e with name := node.name, connected := node.connected }).roster = s.roster :=
      roster_modifyNode fun _ _ => rfl
    exact ⟨(hpick _ _).1.trans hroster, (hpick _ _).2⟩
  | none =>
    have hroster : ({ s with nodes := s.nodes ++ [node] } : PlaybackState).roster =
        s.roster ++ [node.badge] := List.map_append
    exact ⟨(hpick _ _).1.trans hroster, (hpick _ _).2⟩

theorem disconnectSection_shape (id : String) (s : PlaybackState) :
    (disconnectSection id s).2.roster = s.roster ∧
      (disconnectSection id s).2.selectedNodeId = (fallbackNodeId id s).or s.selectedNodeId := by
  have hmod : ∀ f : Node → Node, (∀ n, (f n).badge = n.badge) →
      (s.modifyNode id f).roster = s.roster := fun f hf => roster_modifyNode fun n _ => hf n
  unfold disconnectSection
  cases hfb : fallbackNodeId id s with
  | none =>
    dsimp only
    split
    · rename_i hsel
      exact ⟨hmod _ fun n => by split <;> rfl, by rw [Option.none_or, hsel]⟩
    · exact ⟨hmod _ fun n => by split <;> rfl, rfl⟩
  | some fb =>
    refine ⟨(roster_modifyNodes fun n => ?_).trans (hmod _ fun n => by split <;> rfl), rfl⟩
    split
    · rfl
    · split <;> rfl

theorem selectSection_shape (id : String) (s : PlaybackState) :
    (selectSection id s).2.roster = s.roster ∧
      (selectSection id s).2.selectedNodeId =
        if id ∈ s.ids then some id else s.selectedNodeId := by
  unfold selectSection
  cases hn : s.node id with
  | none =>
    rw [if_neg (not_mem_ids_iff.2 hn)]
    exact ⟨rfl, rfl⟩
  | some n =>
    rw [if_pos (mem_ids_iff_node.2 ⟨n, hn⟩)]
    dsimp only
    split
    · rename_i hsel
      exact ⟨rfl, hsel⟩
    · refine ⟨roster_modifyNodes (s := { s with selectedNodeId := some id }) fun n => ?_, rfl⟩
      split <;> rfl

/-- The loop that removes the duplicates of `canonical`, in closed form. -/
theorem foldl_dropDuplicate {canonical : String} {dups : List String} (h : canonical ∉ dups)
    (s : PlaybackState) :
    dups.foldl (dropDuplicate canonical) s =
      { s with
        nodes := s.nodes.filter fun n => n.id ∉ dups
        selectedNodeId :=
          if s.selectedNodeId.any (· ∈ dups) then some canonical else s.selectedNodeId } := by
  induction dups generalizing s with
  | nil => simp
  | cons d dups ih =>
    rw [List.mem_cons, not_or] at h
    rw [List.foldl_cons, ih h.2]
    unfold dropDuplicate
    congr 1
    · rw [List.filter_filter]
      refine List.filter_congr fun n _ => ?_
      by_cases hd : n.id = d <;> simp [hd]
    · cases hsel : s.selectedNodeId with
      | none => rfl
      | some id =>
        by_cases hd : id = d
        · subst hd
          simp [h.2]
        · simp [hd]

/-- Nodes whose ids are filtered. -/
theorem mem_ids_filter {p : String → Bool} {o : Option String} :
    id ∈ ({ s with nodes := s.nodes.filter fun n => p n.id, selectedNodeId := o }
      : PlaybackState).ids ↔ id ∈ s.ids ∧ p id := by
  rw [mem_ids, mem_ids]
  constructor
  · rintro ⟨n, hn, rfl⟩
    obtain ⟨hn, hkeep⟩ := List.mem_filter.1 hn
    exact ⟨⟨n, hn, rfl⟩, hkeep⟩
  · rintro ⟨⟨n, hn, rfl⟩, hkeep⟩
    exact ⟨n, List.mem_filter.2 ⟨hn, hkeep⟩, rfl⟩

/-! ## The selection -/

/-- The selection names a node. -/
def PlaybackState.SelectionIn (s : PlaybackState) : Prop := ∀ id ∈ s.selectedNodeId, id ∈ s.ids

/-- The operations that may select a node where none is selected. -/
def CoreOp.selects : CoreOp → Bool
  | .addNode _ | .selectNode _ => true
  | _ => false

/-- What a section may do to the selection: keep it on a node, and make one where there is none
only if it may. -/
structure Reselects (may : Bool) (s s' : PlaybackState) : Prop where
  inside : s'.SelectionIn
  created : may = false → s.selectedNodeId = none → s'.selectedNodeId = none

theorem SameShape.selectionIn (h : SameShape s s') (hs : s.SelectionIn) : s'.SelectionIn := by
  intro id hid
  rw [ids_of_roster h.1]
  exact hs id (h.2 ▸ hid)

theorem SameShape.reselects (h : SameShape s s') (may : Bool) (hs : s.SelectionIn) :
    Reselects may s s' :=
  ⟨h.selectionIn hs, fun _ hnone => h.2.trans hnone⟩

theorem selectionIn_empty : PlaybackState.empty.SelectionIn := fun _ h => nomatch h

theorem firstConnectedId_mem {id : String} (h : firstConnectedId s = some id) : id ∈ s.ids := by
  obtain ⟨n, hn, rfl⟩ := Option.map_eq_some_iff.1 h
  exact mem_ids.2 ⟨n, List.mem_of_find?_eq_some hn, rfl⟩

/-- A selection among the nodes that are left, made only where there was one. -/
theorem Reselects.filter {p : String → Bool} {o : Option String}
    (hin : ∀ id ∈ o, id ∈ s.ids ∧ p id) (hnone : s.selectedNodeId = none → o = none) :
    Reselects false s { s with nodes := s.nodes.filter fun n => p n.id, selectedNodeId := o } :=
  ⟨fun id hid => mem_ids_filter.2 (hin id hid), fun _ h => hnone h⟩

/-- `remove_node` and `local_session_stop`. -/
theorem Reselects.remove (id : String) {p : PlaybackState → Option String}
    (hpick : ∀ s' : PlaybackState, ∀ id ∈ p s', id ∈ s'.ids) (hs : s.SelectionIn) :
    Reselects false s
      (let s := { s with nodes := s.nodes.filter fun n => n.id ≠ id }
       if s.selectedNodeId = some id then { s with selectedNodeId := p s } else s) := by
  dsimp only
  split
  · rename_i hsel
    refine Reselects.filter (p := fun id' => id' ≠ id) (fun id' hid' => ?_) fun hnone => ?_
    · exact (mem_ids_filter (p := fun id' => id' ≠ id) (o := s.selectedNodeId)).1
        (hpick _ id' hid')
    · rw [hsel] at hnone
      cases hnone
  · rename_i hsel
    refine Reselects.filter (p := fun id' => id' ≠ id) (fun id' hid' => ⟨hs id' hid', ?_⟩)
      fun h => h
    have hne : id' ≠ id := fun h => hsel (h ▸ hid')
    simpa using hne

theorem Reselects.cleanup (now maxAge : Int) (hs : s.SelectionIn) :
    Reselects false s (cleanupSection now maxAge s).2 := by
  unfold cleanupSection
  dsimp only
  split
  · exact ⟨hs, fun _ hnone => hnone⟩
  dsimp only
  split
  · rename_i hsel
    refine Reselects.filter (p := fun id => id ∉ removedIds now maxAge s) (fun id hid => ?_)
      fun hnone => ?_
    · exact (mem_ids_filter (p := fun id => id ∉ removedIds now maxAge s)
        (o := s.selectedNodeId)).1 (firstConnectedId_mem hid)
    · rw [hnone] at hsel
      cases hsel
  · rename_i hsel
    refine Reselects.filter (p := fun id => id ∉ removedIds now maxAge s)
      (fun id hid => ⟨hs id hid, ?_⟩) fun h => h
    have hid' : s.selectedNodeId = some id := hid
    simpa [hid'] using hsel

theorem Reselects.addNode (node : Node) (hs : s.SelectionIn) :
    Reselects true s (addNodeSection node s) := by
  obtain ⟨hroster, hsel⟩ := addNodeSection_shape node s
  have hids : ∀ id, id ∈ s.ids ∨ id = node.id → id ∈ (addNodeSection node s).ids := by
    intro id hid
    rw [ids_eq_roster, hroster]
    split
    · rename_i hn
      rw [← ids_eq_roster]
      exact hid.elim (fun h => h) fun h => h ▸ mem_ids_iff_node.2 (Option.isSome_iff_exists.1 hn)
    · rw [List.map_append, ← ids_eq_roster]
      exact hid.elim (List.mem_append_left _) fun h => h ▸ List.mem_append_right _ (by simp [Node.badge])
  refine ⟨fun id hid => ?_, fun h => nomatch h⟩
  rw [hsel] at hid
  split at hid
  · exact hids id (.inr (Option.some.inj hid).symm)
  · exact hids id (.inl (hs id hid))

theorem Reselects.disconnect (id : String) (hs : s.SelectionIn) :
    Reselects false s (disconnectSection id s).2 := by
  obtain ⟨hroster, hsel⟩ := disconnectSection_shape id s
  have hfb : ∀ fb, fallbackNodeId id s = some fb → fb ∈ s.ids ∧ s.selectedNodeId = some id := by
    intro fb hfb
    unfold fallbackNodeId at hfb
    split at hfb
    · rename_i hsel
      obtain ⟨n, hn, rfl⟩ := Option.map_eq_some_iff.1 hfb
      exact ⟨mem_ids.2 ⟨n, List.mem_of_find?_eq_some hn, rfl⟩, hsel⟩
    · cases hfb
  refine ⟨fun id' hid' => ?_, fun _ hnone => ?_⟩
  · rw [ids_of_roster hroster]
    rw [hsel] at hid'
    cases hf : fallbackNodeId id s with
    | none => exact hs id' (by simpa [hf] using hid')
    | some fb =>
      rw [hf, Option.some_or, Option.mem_some_iff] at hid'
      exact hid' ▸ (hfb fb hf).1
  · cases hf : fallbackNodeId id s with
    | none => rw [hsel, hf, Option.none_or, hnone]
    | some fb => exact absurd (hfb fb hf).2 (by simp [hnone])

theorem Reselects.select (id : String) (hs : s.SelectionIn) :
    Reselects true s (selectSection id s).2 := by
  obtain ⟨hroster, hsel⟩ := selectSection_shape id s
  refine ⟨fun id' hid' => ?_, fun h => nomatch h⟩
  rw [ids_of_roster hroster]
  rw [hsel] at hid'
  split at hid'
  · rename_i hid
    exact Option.some.inj hid' ▸ hid
  · exact hs id' hid'

/-- A device that comes back: its other nodes go, and a selection on one of them moves to the one
that stays. -/
theorem Reselects.dropDuplicates {canonical : String} {dups : List String}
    (hdup : canonical ∉ dups) (hin : canonical ∈ s.ids) (hs : s.SelectionIn) :
    Reselects false s (dups.foldl (dropDuplicate canonical) s) := by
  rw [foldl_dropDuplicate hdup]
  have hkeep : ∀ id, id ∈ s.ids → id ∉ dups → id ∈
      ({ s with nodes := s.nodes.filter fun n => n.id ∉ dups } : PlaybackState).ids :=
    fun id hid hnot => (mem_ids_filter (p := fun id => id ∉ dups)
      (o := s.selectedNodeId)).2 ⟨hid, by simpa using hnot⟩
  refine ⟨fun id hid => ?_, fun _ hnone => by simp [hnone]⟩
  dsimp only at hid
  split at hid
  · exact Option.some.inj hid ▸ hkeep canonical hin hdup
  · rename_i hsel
    have hid' : s.selectedNodeId = some id := hid
    exact hkeep id (hs id hid) (by simpa [hid'] using hsel)

theorem canonicalId_mem {ids : List String} {canonical : String}
    (h : canonicalId ids s = some canonical) : canonical ∈ ids := by
  unfold canonicalId at h
  cases hf : ids.find? fun id => (s.node id).any Node.connected with
  | none =>
    rw [hf, Option.none_or] at h
    exact List.mem_of_mem_head? h
  | some id =>
    rw [hf, Option.some_or] at h
    exact Option.some.inj h ▸ List.mem_of_find?_eq_some hf

theorem matchingIds_subset {deviceId : String} : id ∈ matchingIds deviceId s → id ∈ s.ids := by
  unfold matchingIds
  intro h
  obtain ⟨n, hn, rfl⟩ := List.mem_map.1 h
  exact mem_ids.2 ⟨n, (List.mem_filter.1 hn).1, rfl⟩

theorem Reselects.sessionStart (name : String) (deviceId : Option String) (uuid : String)
    (hs : s.SelectionIn) : Reselects false s (sessionStartSection name deviceId uuid s).2 := by
  have hnew : ∀ node : Node, Reselects false s { s with nodes := s.nodes ++ [node] } := by
    intro node
    refine ⟨fun id hid => ?_, fun _ hnone => hnone⟩
    obtain ⟨n, hn, rfl⟩ := mem_ids.1 (hs id hid)
    exact mem_ids.2 ⟨n, List.mem_append_left _ hn, rfl⟩
  unfold sessionStartSection
  split
  · exact hnew _
  · rename_i did
    dsimp only
    split
    · exact hnew _
    · rename_i canonical hc
      have hdrop : Reselects false s (((matchingIds did s).filter fun id => id ≠ canonical).foldl
          (dropDuplicate canonical) s) :=
        Reselects.dropDuplicates (by simp) (matchingIds_subset (canonicalId_mem hc)) hs
      refine ⟨fun id hid => ?_, hdrop.created⟩
      rw [PlaybackState.ids, modifyNode_nodes, map_modifyNode fun _ _ => by rfl]
      exact hdrop.inside id hid

/-- Every rewrite of every operation. -/
theorem CoreOp.Writes.reselects {I : PlaybackState → Prop} {op : CoreOp}
    {g : PlaybackState → PlaybackState} (h : op.Writes I g) (hs : s.SelectionIn) :
    Reselects op.selects s (g s) := by
  obtain hsame | hshape := h.reshapes
  · exact (hsame s).reselects _ hs
  cases hshape with
  | addNode node => exact Reselects.addNode node hs
  | disconnect id => exact Reselects.disconnect id hs
  | sessionStart => exact Reselects.sessionStart _ _ _ hs
  | select id => exact Reselects.select id hs
  | cleanup now maxAge => exact Reselects.cleanup now maxAge hs
  | sessionStop id => exact Reselects.remove id (fun _ _ h => firstConnectedId_mem h) hs
  | remove id =>
    refine Reselects.remove id (p := fun s => s.nodes.head?.map Node.id) (fun s' id' hid' => ?_) hs
    obtain ⟨n, hn, rfl⟩ := Option.map_eq_some_iff.1 hid'
    exact mem_ids.2 ⟨n, List.mem_of_mem_head? hn, rfl⟩

/-- In every interleaving of any operations from the empty state, the selection names a node, and
only `add_node` and `select_node` select one where there is none. -/
theorem selection_in_of_interleaving {ι : Type} [DecidableEq ι] (ops : ι → CoreOp)
    (outputs : String → Option OutputSlot) (broadcasters persisters : List Nat)
    {h : List (CoreEntry ι)} {p : CorePool ι}
    (hr : Pool.Interleaving (corePool (Core.new outputs broadcasters persisters) ops) h p) :
    p.shared.state.SelectionIn ∧
      ∀ e ∈ h, (ops e.who).selects = false → e.pre.state.selectedNodeId = none →
        e.post.state.selectedNodeId = none := by
  have hstable : ∀ may, Stable PlaybackState.SelectionIn (Reselects may) := fun may =>
    { refl := fun _ hs => ⟨hs, fun _ hnone => hnone⟩
      trans := fun _ _ _ h h' => ⟨h'.inside, fun hm hn => h'.created hm (h.created hm hn)⟩
      keeps := fun _ _ _ h => h.inside
      sync := fun _ hs =>
        SameShape.reselects ⟨roster_syncTopLevel, syncTopLevel_selectedNodeId⟩ may hs }
  obtain ⟨hin, hall⟩ := corePool_rel (fun i => hstable (ops i).selects)
    (fun i f hf s hs => hf.reselects hs) selectionIn_empty hr
  exact ⟨hin, fun e he hmay hnone => (hall e he).2.created hmay hnone⟩

/-- A node comes and goes. -/
def addOrRemove (removes : Bool) : CoreOp := if removes then .removeNode "a" else .addNode { id := "a" }

/-- The node goes while its registration is still broadcasting. -/
def removedEarly : List (Bool × Except CoreError Unit) := [(false, .ok ()), (true, .ok ()), (false, .ok ())]

theorem selection_in_of_interleaving_removedEarly :
    let c := Pool.exec removedEarly ([], corePool (Core.new (fun _ => none) [] []) addOrRemove)
    c.2.shared.state.SelectionIn ∧
      ∀ e ∈ c.1, (addOrRemove e.who).selects = false → e.pre.state.selectedNodeId = none →
        e.post.state.selectedNodeId = none :=
  selection_in_of_interleaving addOrRemove (fun _ => none) [] [] (Pool.exec_run removedEarly .init)

end Kanade

import Kanade.Core.Touches

/-!
# Kanade.Core.Isolation

Per-node isolation: what the transport and queue operations do to the nodes that are not selected.

`others_unchanged_iff`: an operation run alone, from any state and against outputs that behave in
any way, leaves every other node as it is, unless it is a jump that goes somewhere while another
node has a position.
-/

namespace Kanade

open Concur Fallible

/-- The nodes apart from the selected one. -/
def othersOf (selected : Option String) (ns : List Node) : List Node :=
  match selected with
  | none => ns
  | some id => ns.eraseP fun n => n.id = id

def PlaybackState.others (s : PlaybackState) : List Node := othersOf s.selectedNodeId s.nodes

variable {selected : Option String} {ns ns' : List Node} {ids : List String} {rewinds : Bool}

theorem othersOf_modifyNode {id : String} {f : Node → Node} (hid : selected = some id)
    (hf : ∀ n, (f n).id = n.id) : othersOf selected (modifyNode id f ns) = othersOf selected ns := by
  subst hid
  induction ns with
  | nil => rfl
  | cons n ns ih =>
    by_cases hn : n.id = id
    · simp [othersOf, modifyNode, hn, hf]
    · simpa [othersOf, modifyNode, hn] using ih

theorem othersOf_rewindAll : othersOf selected (rewindAll ns) = rewindAll (othersOf selected ns) := by
  cases selected with
  | none => rfl
  | some id => exact List.eraseP_map

theorem rewindAll_rewindAll : rewindAll (rewindAll ns) = rewindAll ns := by
  simp [rewindAll, Function.comp_def]

theorem rewindAll_eq_self_iff : rewindAll ns = ns ↔ ∀ n ∈ ns, n.positionSecs = 0 := by
  induction ns with
  | nil => simp [rewindAll]
  | cons n ns ih =>
    rw [List.forall_mem_cons, ← ih, rewindAll, List.map_cons, List.cons.injEq, ← rewindAll]
    refine and_congr_left fun _ => ⟨fun h => ?_, fun h => ?_⟩
    · exact (congrArg Node.positionSecs h).symm
    · rw [← h]

/-- Touching the selected node leaves the others alone or rewinds them. -/
theorem Touch.others (h : Touch rewinds ids ns ns') (hids : ∀ id ∈ ids, selected = some id) :
    othersOf selected ns' = othersOf selected ns ∨
      rewinds = true ∧ othersOf selected ns' = rewindAll (othersOf selected ns) := by
  induction h with
  | refl ns => exact .inl rfl
  | write hid hf ns =>
    exact .inl (othersOf_modifyNode (hids _ hid) fun n => congrArg Prod.fst (hf n))
  | rewind hr ns => exact .inr ⟨hr, othersOf_rewindAll⟩
  | trans _ _ ih ih' =>
    obtain h | ⟨hr, h⟩ := ih <;> obtain h' | ⟨hr', h'⟩ := ih'
    · exact .inl (h'.trans h)
    · exact .inr ⟨hr', h'.trans (by rw [h])⟩
    · exact .inr ⟨hr, h'.trans h⟩
    · exact .inr ⟨hr, h'.trans (by rw [h, rewindAll_rewindAll])⟩

/-- With the selection at `selected` and no other node resolved, the others are `O`. -/
structure Apart (selected : Option String) (O : List Node) (p : List String) (w : Core) : Prop where
  selection : w.state.selectedNodeId = selected
  resolved : ∀ id ∈ p, selected = some id
  others : othersOf selected w.state.nodes = O

/-- A run that starts with the others at `O`, where a reset changes nothing, ends with them
there. -/
theorem others_of_follows {α η : Type} {O : List Node} {p : List String} {t : Op α}
    {Q : List String → Except CoreError α → Prop} (hfollows : Follows (touchProtocol rewinds) Q p t)
    (hO : rewinds = true → rewindAll O = O) {w : Core} (hw : Apart selected O p w)
    (env : Outputs η) (x : η) :
    othersOf selected (t.run env w x).2.1.state.nodes = O := by
  have hreach : ∀ {p : List String} {w : Core}, Apart selected O p w →
      ∀ id ∈ inReach p w.state, selected = some id := by
    intro p w h id hid
    obtain hid | hid := List.mem_append.1 hid
    · rw [h.selection] at hid
      exact Option.mem_toList.1 hid
    · exact h.resolved id hid
  have hsect : ∀ p l (w w' : Core), Apart selected O p w →
      Touches (rewinds && l.isEdit) (mayTouch p l w.state) w.state w'.state →
      Apart selected O ((touchProtocol rewinds).onSect p l w w') w' := by
    intro p l w w' h htouch
    have hmay : ∀ id ∈ mayTouch p l w.state, selected = some id := fun id hid =>
      hreach h id (mayTouch_subset hid)
    refine ⟨htouch.selection.trans h.selection, fun id hid => ?_, ?_⟩
    · have hid' : id ∈ if l = .readState then inReach p w.state else p := hid
      split at hid'
      · exact hreach h id hid'
      · exact h.resolved id hid'
    · obtain hsame | ⟨hr, hre⟩ := htouch.nodes.others hmay
      · exact hsame.trans h.others
      · rw [hre, h.others, hO (Bool.and_eq_true_iff.1 hr).1]
  obtain ⟨p', hend, -⟩ := Task.Follows.run (J := Apart selected O) (fun _ _ _ _ => trivial) hsect
    (fun _ _ _ _ h _ => h) env x hfollows hw
  exact hend.others

/-! ## The jumps -/

/-- The jump goes nowhere, or finds every other node at position 0. -/
def JumpsQuietly (target : Node → Except CoreError Nat) (s : PlaybackState) : Prop :=
  ∀ id, s.activeId = .ok id → ∀ node, s.node id = some node → ∀ i, target node = .ok i →
    ∀ n ∈ s.others, n.positionSecs = 0

/-- What the operation needs to leave the other nodes alone. -/
def CoreOp.LeavesOthers (op : CoreOp) (s : PlaybackState) : Prop :=
  match op with
  | .next => JumpsQuietly nextIndex s
  | .previous => JumpsQuietly previousIndex s
  | .playIndex index => JumpsQuietly (indexTarget index) s
  | _ => True

theorem jump_others_iff {η : Type} (target : Node → Except CoreError Nat) (env : Outputs η)
    (w : Core) (x : η) :
    othersOf w.state.selectedNodeId ((jump target).run env w x).2.1.state.nodes = w.state.others ↔
      JumpsQuietly target w.state := by
  rw [jump, Fallible.run_bind, run_activeNodeId]
  cases hact : w.state.activeId with
  | error e => exact iff_of_true rfl fun id hid => by rw [hact] at hid; cases hid
  | ok id =>
    obtain ⟨hsel, node, hn, -⟩ := activeId_eq_ok hact
    dsimp only
    rw [Fallible.run_bind, run_lockState, jumpSection_eq hn]
    cases htarget : target node with
    | error e =>
      refine iff_of_true rfl fun id' hid node' hnode i hi => ?_
      rw [hact] at hid
      cases hid
      rw [hn] at hnode
      cases hnode
      rw [htarget] at hi
      cases hi
    | ok i =>
      dsimp only
      have hmoved : othersOf w.state.selectedNodeId (moveTo id i w.state).nodes =
          rewindAll w.state.others := by
        have hmodify : othersOf w.state.selectedNodeId (modifyNode id
            (fun node => { node with currentIndex := some i }) w.state.nodes) = w.state.others :=
          othersOf_modifyNode hsel fun _ => rfl
        exact othersOf_rewindAll.trans (congrArg rewindAll hmodify)
      have hapart : Apart w.state.selectedNodeId (rewindAll w.state.others) [id]
          { w with state := moveTo id i w.state } :=
        ⟨rfl, fun id' hid' => by rw [List.mem_singleton.1 hid', hsel], hmoved⟩
      have hrest := others_of_follows
        (confined_reload (List.mem_singleton_self id) (buildQueueFilePaths node.queue (some i)) (some i)
          (buildQueueFilePaths node.queue (some i)).length [id] fun _ h => h)
        (fun _ : true = true => rewindAll_rewindAll) hapart env x
      rw [hrest, rewindAll_eq_self_iff]
      refine ⟨fun h id' hid node' hnode i' hi => h, fun h => h id hact node hn i htarget⟩

/-- A queue operation leaves all nodes but the selected one alone exactly if it is not a jump, or is
one that goes nowhere or finds the other nodes at position 0. -/
theorem others_unchanged_iff {η : Type} (env : Outputs η) (op : CoreOp)
    (hop : op.isQueueOp = true) (c : Core × η) :
    othersOf c.1.state.selectedNodeId (op.after env c).1.state.nodes = c.1.state.others ↔
      op.LeavesOthers c.1.state := by
  by_cases hr : op.rewinds = true
  · cases op with
    | next | previous | playIndex => exact jump_others_iff _ env c.1 c.2
    | _ => cases hr
  · refine iff_of_true ?_ ?_
    · exact others_of_follows (CoreOp.touches hop []) (fun h => absurd h hr)
        ⟨rfl, fun _ h => (nomatch h), rfl⟩ env c.2
    · cases op with
      | next | previous | playIndex => exact absurd rfl hr
      | _ => trivial

/-- `a` with its only track is selected; a local session has got to some position. -/
def besides (positionSecs : ℚ) : Core × Unit :=
  runOps allSucceed [.registerOutput "a" "c" 0, .addNode { id := "a" },
    .addToQueue { id := "1", filePath := "/1" }, .localSessionStart "phone" (some "x") "",
    .localSessionUpdate "local-x" { positionSecs := positionSecs }]
    (Core.new (fun _ => none) [] [], ())

theorem others_unchanged_iff_rested :
    othersOf (besides 0).1.state.selectedNodeId
        (CoreOp.next.after allSucceed (besides 0)).1.state.nodes = (besides 0).1.state.others ↔
      CoreOp.next.LeavesOthers (besides 0).1.state :=
  others_unchanged_iff allSucceed .next rfl (besides 0)

/-- `next` on `a` resets the position of the session. -/
theorem next_rewinds_other :
    othersOf (besides 30).1.state.selectedNodeId
        (CoreOp.next.after allSucceed (besides 30)).1.state.nodes ≠
      (besides 30).1.state.others := by
  decide +kernel

end Kanade

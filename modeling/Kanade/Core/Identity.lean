import Mathlib.Data.List.Nodup
import Kanade.Core.Alone
import Kanade.Core.Roster

/-!
# Kanade.Core.Identity

Who is who among the nodes: ids are pairwise different, and a device has at most one local node.

Node registrations and local sessions share one list of nodes and one kind of id. The one rewrite
that adds a node without looking for its id is `local_session_start`; `identified_run_iff` says
that the runs in which it never meets a taken id are the ones that keep the nodes apart.
-/

namespace Kanade

open Concur

/-- Ids are pairwise different, and no device has two local nodes. -/
structure Identified (s : PlaybackState) : Prop where
  ids : s.ids.Nodup
  devices : ∀ did, (matchingIds did s).length ≤ 1

variable {s s' : PlaybackState}

theorem identified_empty : Identified .empty := ⟨List.nodup_nil, fun _ => Nat.zero_le _⟩

theorem matchingIds_eq_roster (did : String) (s : PlaybackState) :
    matchingIds did s =
      (s.roster.filter fun b => b.2.1 = .localNode ∧ b.2.2 = some did).map Prod.fst := by
  simp only [matchingIds, PlaybackState.roster, List.filter_map, List.map_map]
  rfl

theorem Identified.of_sublist (h : Identified s) (hsub : s'.roster.Sublist s.roster) :
    Identified s' := by
  refine ⟨?_, fun did => ?_⟩
  · rw [ids_eq_roster]
    exact (hsub.map Prod.fst).nodup (ids_eq_roster s ▸ h.ids)
  · rw [matchingIds_eq_roster]
    refine Nat.le_trans ((hsub.filter _).map Prod.fst).length_le ?_
    rw [← matchingIds_eq_roster]
    exact h.devices did

theorem Identified.of_roster_eq (h : Identified s) (heq : s'.roster = s.roster) : Identified s' :=
  h.of_sublist (heq ▸ List.Sublist.refl _)

theorem Identified.filter (h : Identified s) (keep : Node → Bool) (selected : Option String) :
    Identified { s with nodes := s.nodes.filter keep, selectedNodeId := selected } :=
  h.of_sublist (List.filter_sublist.map _)

/-- A node with a new id whose device, if it is a local one, has no node yet. -/
theorem Identified.append {n : Node} (h : Identified s)
    (hroster : s'.roster = s.roster ++ [n.badge]) (hid : n.id ∉ s.ids)
    (hdev : ∀ did, n.nodeType = .localNode → n.deviceId = some did → matchingIds did s = []) :
    Identified s' := by
  refine ⟨?_, fun did => ?_⟩
  · rw [ids_eq_roster, hroster, List.map_append, ← ids_eq_roster]
    exact List.Nodup.append h.ids (List.nodup_singleton _) (List.disjoint_singleton.2 hid)
  · have happ : matchingIds did s' = matchingIds did s ++
        ([n.badge].filter fun b => b.2.1 = .localNode ∧ b.2.2 = some did).map Prod.fst := by
      rw [matchingIds_eq_roster, hroster, List.filter_append, List.map_append,
        ← matchingIds_eq_roster]
    rw [happ, List.length_append, List.length_map]
    by_cases hn : n.nodeType = .localNode ∧ n.deviceId = some did
    · rw [hdev did hn.1 hn.2]
      exact Nat.zero_add _ ▸ List.length_filter_le _ _
    · have hno : [n.badge].filter (fun b => b.2.1 = .localNode ∧ b.2.2 = some did) = [] := by
        simp [Node.badge, hn]
      rw [hno]
      exact h.devices did

/-! ## The operations -/

theorem Identified.addNode {node : Node} (h : Identified s) (hremote : node.nodeType = .remote) :
    Identified (addNodeSection node s) := by
  have hroster := (addNodeSection_shape node s).1
  cases hn : s.node node.id with
  | some _ => exact h.of_roster_eq (by simpa [hn] using hroster)
  | none =>
    refine h.append (n := node) (by simpa [hn] using hroster) (not_mem_ids_iff.2 hn) ?_
    intro did hlocal
    rw [hremote] at hlocal
    cases hlocal

theorem Identified.cleanup (h : Identified s) (now maxAge : Int) :
    Identified (cleanupSection now maxAge s).2 := by
  unfold cleanupSection
  dsimp only
  split
  · exact h
  · dsimp only
    split <;> exact h.filter _ _

theorem Identified.remove (h : Identified s) (id : String) (pick : PlaybackState → Option String) :
    Identified (
      let s := { s with nodes := s.nodes.filter fun n => n.id ≠ id }
      if s.selectedNodeId = some id then { s with selectedNodeId := pick s } else s) := by
  dsimp only
  split <;> exact h.filter _ _

/-- A device that has no node gets a new one. -/
theorem sessionStartSection_new {deviceId : Option String}
    (hnew : ∀ did ∈ deviceId, matchingIds did s = []) (name uuid : String) :
    (sessionStartSection name deviceId uuid s).2 =
      { s with nodes := s.nodes ++
          [newLocalNode ("local-" ++ deviceId.getD uuid) name deviceId] } := by
  unfold sessionStartSection
  cases deviceId with
  | none => rfl
  | some did =>
    dsimp only
    rw [hnew did rfl]
    rfl

theorem roster_sessionStart_new {deviceId : Option String}
    (hnew : ∀ did ∈ deviceId, matchingIds did s = []) (name uuid : String) :
    (sessionStartSection name deviceId uuid s).2.roster =
      s.roster ++ [(newLocalNode ("local-" ++ deviceId.getD uuid) name deviceId).badge] := by
  rw [sessionStartSection_new hnew]
  exact List.map_append

/-- A device that has a node goes on with it, and the roster stays as it is. -/
theorem roster_sessionStart_resume (h : Identified s) {did : String}
    (hmatch : matchingIds did s ≠ []) (name uuid : String) :
    (sessionStartSection name (some did) uuid s).2.roster = s.roster := by
  obtain ⟨canonical, hone⟩ : ∃ canonical, matchingIds did s = [canonical] := by
    have hpos := List.length_pos_iff.2 hmatch
    exact List.length_eq_one_iff.1 (Nat.le_antisymm (h.devices did) hpos)
  have hcanonical : canonicalId [canonical] s = some canonical := by
    unfold canonicalId
    by_cases hc : (s.node canonical).any Node.connected = true <;> simp [hc]
  have hbadge : ∀ n, s.node canonical = some n → n.deviceId = some did := by
    intro n hn
    have hmem : canonical ∈ matchingIds did s := hone ▸ List.mem_singleton_self _
    obtain ⟨m, hm, hid⟩ := List.mem_map.1 hmem
    obtain ⟨hm, hlocal⟩ := List.mem_filter.1 hm
    have hnm : n = m := List.inj_on_of_nodup_map h.ids (node_mem hn) hm
      ((node_id hn).trans hid.symm)
    have hlocal : m.nodeType = .localNode ∧ m.deviceId = some did := by simpa using hlocal
    exact hnm ▸ hlocal.2
  unfold sessionStartSection
  dsimp only
  rw [hone, hcanonical]
  dsimp only
  rw [List.filter_cons_of_neg (by simp), List.filter_nil, List.foldl_nil]
  exact roster_modifyNode fun n hn => by simp [Node.badge, hbadge n hn]

theorem canonicalId_eq_none_iff {ids : List String} : canonicalId ids s = none ↔ ids = [] := by
  unfold canonicalId
  constructor
  · intro h
    cases ids with
    | nil => rfl
    | cons id ids => simp at h
  · rintro rfl
    rfl

/-- The session of a device that has a node, and its result. -/
theorem sessionStartSection_canonical {did canonical : String} (name uuid : String)
    (h : canonicalId (matchingIds did s) s = some canonical) :
    (sessionStartSection name (some did) uuid s).1.1 = canonical ∧
      (sessionStartSection name (some did) uuid s).2.nodes =
        modifyNode canonical
          (fun node => { node with connected := true, name := name, deviceId := some did,
                                   disconnectedAt := none })
          (s.nodes.filter fun n => n.id ∉ (matchingIds did s).filter fun id => id ≠ canonical) := by
  unfold sessionStartSection
  dsimp only
  rw [h]
  dsimp only
  rw [foldl_dropDuplicate (by simp)]
  exact ⟨rfl, rfl⟩

/-! ## Runs -/

section Runs

variable {η : Type}

/-- The operations that make nodes and unmake them, as they are called: a registration brings a
node of its own making, and the id drawn for a device without one is fresh. -/
def CoreOp.Lifecycle (op : CoreOp) (c : Core × η) : Prop :=
  match op with
  | .addNode node => ∃ id name, node = { id := id, name := name }
  | .localSessionStart _ none uuid => "local-" ++ uuid ∉ c.1.state.ids
  | .localSessionStart _ (some _) _ | .localSessionStop _ | .localSessionDisconnect _ _
  | .localSessionUpdate _ _ | .removeNode _ | .cleanupDisconnectedNodes _ _ => True
  | _ => False

/-- A session for a device without a node finds the id it makes for it free. -/
def CoreOp.FindsIdFree (op : CoreOp) (c : Core × η) : Prop :=
  match op with
  | .localSessionStart _ (some did) _ =>
    matchingIds did c.1.state ≠ [] ∨ "local-" ++ did ∉ c.1.state.ids
  | _ => True

theorem Identified.after {env : Outputs η} {op : CoreOp} {c : Core × η}
    (h : Identified c.1.state) (hop : op.Lifecycle c) (hfree : op.FindsIdFree c) :
    Identified (op.after env c).1.state := by
  have hrel : (∀ f, op.Reshapes f → ∀ s, Identified s → Identified (f s)) →
      Identified (op.after env c).1.state := fun hf =>
    CoreOp.after_rel (I := Identified) (R := fun _ s' => Identified s')
      ⟨fun _ hs => hs, fun _ _ _ _ h => h, fun _ _ _ h => h,
        fun _ hs => hs.of_roster_eq roster_syncTopLevel⟩
      (fun f hw s hs => hw.reshapes.elim (fun hsame => hs.of_roster_eq (hsame s).1)
        fun hre => hf f hre s hs) env h
  cases op with
  | addNode node =>
    obtain ⟨id, name, rfl⟩ := hop
    refine hrel ?_
    rintro _ ⟨⟩ s hs
    exact hs.addNode rfl
  | localSessionStart name deviceId uuid =>
    rw [after_localSessionStart]
    refine Identified.of_roster_eq (s := (sessionStartSection name deviceId uuid c.1.state).2) ?_
      roster_syncTopLevel
    have happend : (∀ did ∈ deviceId, matchingIds did c.1.state = []) →
        "local-" ++ deviceId.getD uuid ∉ c.1.state.ids →
        Identified (sessionStartSection name deviceId uuid c.1.state).2 := fun hnew hid =>
      h.append (roster_sessionStart_new hnew name uuid) hid fun did _ hdid => hnew did hdid
    cases deviceId with
    | none => exact happend (fun _ hdid => nomatch hdid) hop
    | some did =>
      by_cases hmatch : matchingIds did c.1.state = []
      · exact happend (fun _ hdid => Option.some.inj hdid ▸ hmatch)
          (hfree.resolve_left fun hne => hne hmatch)
      · exact h.of_roster_eq (roster_sessionStart_resume h hmatch name uuid)
  | removeNode id =>
    refine hrel ?_
    rintro _ ⟨⟩ s hs
    exact hs.remove id fun s => s.nodes.head?.map Node.id
  | localSessionStop id =>
    refine hrel ?_
    rintro _ ⟨⟩ s hs
    exact hs.remove id firstConnectedId
  | cleanupDisconnectedNodes now maxAge =>
    refine hrel ?_
    rintro _ ⟨⟩ s hs
    exact hs.cleanup now maxAge
  | localSessionDisconnect | localSessionUpdate =>
    refine hrel ?_
    rintro _ ⟨⟩
  | _ => cases hop

/-- A session that meets its id taken makes a second node with it. -/
theorem not_identified_after {env : Outputs η} {op : CoreOp} {c : Core × η}
    (hfree : ¬ op.FindsIdFree c) : ¬ Identified (op.after env c).1.state := by
  cases op with
  | localSessionStart name deviceId uuid =>
    cases deviceId with
    | none => exact absurd trivial hfree
    | some did =>
      obtain ⟨hnone, htaken⟩ := not_or.1 hfree
      rw [not_not] at hnone htaken
      rw [after_localSessionStart]
      intro h
      have hids := h.ids
      rw [ids_syncTopLevel, ids_eq_roster, roster_sessionStart_new fun d hd =>
        Option.some.inj hd ▸ hnone, List.map_append, ← ids_eq_roster] at hids
      exact List.disjoint_of_nodup_append hids htaken (List.mem_singleton_self _)
  | _ => exact absurd trivial hfree

/-- The runs from the empty state that keep the nodes apart all along are those in which no
session meets the id it makes taken. -/
theorem identified_run_iff (env : Outputs η) (outputs : String → Option OutputSlot)
    (broadcasters persisters : List Nat) (x : η) (ops : List CoreOp)
    (h : EachOp env CoreOp.Lifecycle ops (Core.new outputs broadcasters persisters, x)) :
    (∀ before, before <+: ops →
      Identified (runOps env before (Core.new outputs broadcasters persisters, x)).1.state) ↔
    EachOp env CoreOp.FindsIdFree ops (Core.new outputs broadcasters persisters, x) :=
  good_prefixes_iff (I := fun c => Identified c.1.state) (G := fun c => Identified c.1.state)
    (fun _ h => h) (fun _ _ h hop hfree => h.after hop hfree)
    (fun _ _ _ _ hfree => not_identified_after hfree) identified_empty h

/-- The same device twice: its session goes on with the node it has. -/
theorem identified_run_iff_twice :
    (∀ before, before <+: [CoreOp.addNode { id := "a", name := "A" },
        .localSessionStart "phone" (some "x") "", .localSessionStart "phone" (some "x") ""] →
      Identified (runOps allSucceed before (Core.new (fun _ => none) [] [], ())).1.state) ↔
    EachOp allSucceed CoreOp.FindsIdFree [.addNode { id := "a", name := "A" },
      .localSessionStart "phone" (some "x") "", .localSessionStart "phone" (some "x") ""]
      (Core.new (fun _ => none) [] [], ()) :=
  identified_run_iff allSucceed (fun _ => none) [] [] () _
    ⟨⟨"a", "A", rfl⟩, trivial, trivial, trivial⟩

/-- A node registers under the id that a device's session will make for itself. -/
theorem registered_then_session_not_identified :
    ¬ Identified (runOps allSucceed [.addNode { id := "local-x", name := "local-x" },
      .localSessionStart "phone" (some "x") ""] (Core.new (fun _ => none) [] [], ())).1.state :=
  fun h => absurd h.ids (by decide)

/-! ### Ids alone -/

/-- A session start that makes a node finds its id free. -/
def CoreOp.SessionIdFree (op : CoreOp) (c : Core × η) : Prop :=
  match op with
  | .localSessionStart _ deviceId uuid => (∃ did ∈ deviceId, matchingIds did c.1.state ≠ []) ∨
      "local-" ++ deviceId.getD uuid ∉ c.1.state.ids
  | _ => True

theorem nodup_ids_sessionStart {name : String} {deviceId : Option String} {uuid : String}
    (h : s.ids.Nodup) (hfree : (∃ did ∈ deviceId, matchingIds did s ≠ []) ∨
      "local-" ++ deviceId.getD uuid ∉ s.ids) :
    (sessionStartSection name deviceId uuid s).2.ids.Nodup := by
  by_cases hmatch : ∃ did ∈ deviceId, matchingIds did s ≠ []
  · obtain ⟨did, rfl, hne⟩ := hmatch
    obtain ⟨canonical, hc⟩ := Option.ne_none_iff_exists'.1 (mt canonicalId_eq_none_iff.1 hne)
    rw [PlaybackState.ids, (sessionStartSection_canonical name uuid hc).2,
      map_modifyNode fun _ _ => by rfl]
    exact (List.filter_sublist.map Node.id).nodup h
  · have hnew : ∀ did ∈ deviceId, matchingIds did s = [] := fun did hdid => by
      by_contra hne
      exact hmatch ⟨did, hdid, hne⟩
    rw [PlaybackState.ids, sessionStartSection_new hnew, List.map_append]
    exact h.append (List.nodup_singleton _)
      (List.disjoint_singleton.2 (hfree.resolve_left hmatch))

/-- Any operation keeps the ids different, a session start where it finds its id free. -/
theorem nodup_ids_after {env : Outputs η} {op : CoreOp} {c : Core × η} (h : c.1.state.ids.Nodup)
    (hfree : op.SessionIdFree c) : (op.after env c).1.state.ids.Nodup := by
  have hroster : ∀ {s s' : PlaybackState}, s'.roster = s.roster → s.ids.Nodup → s'.ids.Nodup :=
    fun hs hn => by rwa [ids_of_roster hs]
  have hrel : (∀ f, op.Reshapes f → ∀ s : PlaybackState, s.ids.Nodup → (f s).ids.Nodup) →
      (op.after env c).1.state.ids.Nodup := fun hf =>
    CoreOp.after_rel (I := fun s => s.ids.Nodup) (R := fun _ s' => s'.ids.Nodup)
      ⟨fun _ hs => hs, fun _ _ _ _ h => h, fun _ _ _ h => h, fun _ => hroster roster_syncTopLevel⟩
      (fun f hw s hs => hw.reshapes.elim (fun hsame => hroster (hsame s).1 hs)
        fun hre => hf f hre s hs) env h
  have hfilter : ∀ (s : PlaybackState) (keep : Node → Bool), s.ids.Nodup →
      ((s.nodes.filter keep).map Node.id).Nodup :=
    fun s keep hs => (List.filter_sublist.map Node.id).nodup hs
  cases op with
  | localSessionStart name deviceId uuid =>
    rw [after_localSessionStart, ids_syncTopLevel]
    exact nodup_ids_sessionStart h hfree
  | addNode node =>
    refine hrel ?_
    rintro _ ⟨⟩ s hs
    rw [ids_eq_roster, (addNodeSection_shape node s).1]
    split
    · rwa [← ids_eq_roster]
    · rename_i hnone
      rw [List.map_append, ← ids_eq_roster]
      refine hs.append (List.nodup_singleton _) (List.disjoint_singleton.2 ?_)
      exact not_mem_ids_iff.2 (Option.not_isSome_iff_eq_none.1 hnone)
  | handleNodeDisconnected id =>
    refine hrel ?_
    rintro _ ⟨⟩ s hs
    exact hroster (disconnectSection_shape id s).1 hs
  | selectNode id =>
    refine hrel ?_
    rintro _ ⟨⟩ s hs
    exact hroster (selectSection_shape id s).1 hs
  | removeNode id =>
    refine hrel ?_
    rintro _ ⟨⟩ s hs
    dsimp only
    split <;> exact hfilter s _ hs
  | localSessionStop id =>
    refine hrel ?_
    rintro _ ⟨⟩ s hs
    dsimp only
    split <;> exact hfilter s _ hs
  | cleanupDisconnectedNodes now maxAge =>
    refine hrel ?_
    rintro _ ⟨⟩ s hs
    unfold cleanupSection
    dsimp only
    split
    · exact hs
    · dsimp only
      split <;> exact hfilter s _ hs
  | _ =>
    refine hrel ?_
    rintro _ ⟨⟩

end Runs

end Kanade

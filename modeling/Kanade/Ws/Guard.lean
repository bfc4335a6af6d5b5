import Kanade.Concur.Pool
import Kanade.Core.Touches
import Kanade.Ws.Sessions

/-!
# Kanade.Ws.Guard

What the guard of `dispatch_command` is for: a connection does not drive a local node other than its
own.

`spares_of_guarded`: in every interleaving of any number of connections, a section of a transport or
queue operation leaves all local nodes but the connection's own as they are, unless it writes to one
of them because it is, or at an earlier look was, the selected node, or is the section of a jump and
finds one of them at a position.
-/

namespace Kanade

open Concur Fallible

def AppSect.isCore : AppSect → Bool
  | .core _ _ => true
  | _ => false

/-- The nodes that the command of connection `c` has found selected, and what its sections do: those
of queue operations touch these and the selected node only. -/
def guardProtocol (_c : String) :
    Protocol AppState AppSect CoreCall (Except CoreError Unit) (List String) where
  onSect p l s _ :=
    match l with
    | .guardSelected => []
    | .core op l => if op.isQueueOp = true ∧ l = .readState then inReach p s.core.state else p
    | _ => p
  onCall p _ _ := p
  rely _ _ _ := True
  sectOk p l s s' :=
    match l with
    | .core op l => op.isQueueOp = true →
      Touches (op.rewinds && l.isEdit) (mayTouch p l s.core.state) s.core.state s'.core.state
    | _ => True
  callOk _ _ := True

section Follows

variable {c : String} {α β : Type}

/-- The task keeps to it whatever has been found. -/
abbrev Guards (c : String) (t : AppOp α) : Prop :=
  Keeps (guardProtocol c) (fun _ => True) (fun _ => True) t

theorem Guards.and_then {t : AppOp α} {f : α → AppOp β} (ht : Guards c t)
    (hf : ∀ a, Guards c (f a)) : Guards c (t >>= f) :=
  Keeps.bind ht fun a _ => hf a

theorem Guards.attempt_then {t : AppOp α} {f : Except CoreError α → AppOp β} (ht : Guards c t)
    (hf : ∀ r, Guards c (f r)) : Guards c (t.attempt >>= f) :=
  Keeps.bind ht.attempt fun r _ => hf r

theorem guards_pure (a : α) : Guards c (pure a) := keeps_pure trivial

theorem guards_throw (e : CoreError) : Guards c (throw e : AppOp α) :=
  fun _ _ => ⟨trivial, fun _ _ => trivial⟩

/-- A section outside the operations of the core. -/
theorem guards_appSect {l : AppSect} {f : AppState → α × AppState}
    (hl : l.isCore = false) : Guards c (appSect l f) := by
  refine fun p _ => follows_appSect.2 fun s _ => ⟨?_, trivial, fun _ _ => trivial⟩
  cases l with
  | core op l' => cases hl
  | _ => trivial

/-- An operation that is none of the sixteen. -/
theorem guards_inApp {op : CoreOp} (hop : op.isQueueOp = false) (t : Op α) :
    Guards c (inApp op t) := fun _ _ =>
  (follows_inApp (P := guardProtocol c) (I := fun _ => True) (within_true (fun _ => True) t)
    (fun _ _ _ _ _ _ => ⟨(fun h => by rw [hop] at h; cases h), trivial⟩)
    (fun _ _ _ => ⟨trivial, fun _ => trivial⟩) trivial).mono
      fun _ _ _ => ⟨trivial, fun _ _ => trivial⟩

theorem guards_inSession {op : CoreOp} (hop : op.isQueueOp = false)
    {lab : Core → Except CoreError α → Sect} {f : Core → Except CoreError α × Core}
    {k : α → Op β} : Guards c (inSession op (sect lab f >>= k)) := by
  refine fun p _ => follows_inSession fun s _ => ⟨trivial, ?_⟩
  cases (f s.core).1 with
  | error e => exact ⟨trivial, fun _ _ => trivial⟩
  | ok a => exact guards_inApp hop (k a) _ trivial

/-- One of the sixteen. -/
theorem guards_queueOp {op : CoreOp} (hop : op.isQueueOp = true) : Guards c (runCore op) := by
  refine fun p _ => (Task.Follows.lift (P := touchProtocol op.rewinds) (G := guardProtocol c)
    (T := fun q q' => q = q') (fun _ _ _ _ _ _ => trivial) ?_ ?_ rfl
    (CoreOp.touches hop p)).mono fun _ _ _ => ⟨trivial, fun _ _ => trivial⟩
  · rintro q _ l s core rfl - hok
    refine ⟨fun _ => hok, ?_⟩
    show (if l = .readState then inReach q s.core.state else q) =
      if op.isQueueOp = true ∧ l = .readState then inReach q s.core.state else q
    simp only [hop, true_and]
  · rintro q _ e rfl -
    exact ⟨trivial, fun _ => rfl⟩

theorem guards_runCore (op : CoreOp) : Guards c (runCore op) := by
  cases hop : op.isQueueOp with
  | true => exact guards_queueOp hop
  | false => exact guards_inApp hop op.task

theorem guards_releaseAndForget (id : String) : Guards c (releaseAndForget c id) :=
  guards_appSect rfl

theorem guards_adoptSession (id : String) : Guards c (adoptSession c id) :=
  (guards_appSect rfl).and_then fun _ => guards_appSect rfl

theorem guards_startLocalSession (name : String) (deviceId : Option String) (uuid : String) :
    Guards c (startLocalSession c name deviceId uuid) :=
  (guards_inSession rfl).and_then guards_adoptSession

theorem guards_conflictAmong (ids : List String) : Guards c (conflictAmong c ids) := by
  induction ids with
  | nil => exact guards_pure false
  | cons id ids ih =>
    refine (guards_appSect rfl).and_then fun owner => ?_
    split
    · exact guards_pure true
    · exact ih

theorem guards_dispatchLocalSessionStart (name : String) (deviceId : Option String)
    (uuid : String) : Guards c (dispatchLocalSessionStart c name deviceId uuid) := by
  cases deviceId with
  | none => exact guards_startLocalSession name none uuid
  | some did =>
    refine (guards_appSect rfl).and_then fun ids =>
      (guards_conflictAmong ids).and_then fun conflict => ?_
    split
    · exact guards_throw _
    · exact guards_startLocalSession name (some did) uuid

theorem guards_checkOwner : Guards c (checkOwner c) := guards_appSect rfl

theorem guards_dispatchLocalSessionStop : Guards c (dispatchLocalSessionStop c) := by
  refine guards_checkOwner.and_then fun owner => ?_
  cases owner with
  | none => exact guards_pure ()
  | some nid => exact (guards_inSession rfl).attempt_then fun _ => guards_releaseAndForget nid

theorem guards_dispatchLocalSessionUpdate (u : SessionUpdate) :
    Guards c (dispatchLocalSessionUpdate c u) := by
  refine guards_checkOwner.and_then fun owner => ?_
  cases owner with
  | none => exact guards_pure ()
  | some nid =>
    refine (guards_inSession rfl).attempt_then fun r => ?_
    split
    · exact guards_releaseAndForget nid
    · exact guards_pure ()

theorem guards_executeCommand (cmd : WsCommand) : Guards c (executeCommand c cmd) := by
  cases cmd with
  | localSessionStart name deviceId uuid => exact guards_dispatchLocalSessionStart name deviceId uuid
  | localSessionStop => exact guards_dispatchLocalSessionStop
  | localSessionUpdate u => exact guards_dispatchLocalSessionUpdate u
  | handoff fromId toId => exact (guards_runCore _).attempt_then fun _ => guards_pure ()
  | _ => exact guards_runCore _

theorem guards_guardPasses : Guards c (guardPasses c) := by
  refine (guards_appSect rfl).and_then fun selId => ?_
  cases selId with
  | none => exact guards_pure true
  | some sel => exact guards_appSect rfl

theorem guards_dispatchCommand (cmd : WsCommand) : Guards c (dispatchCommand c cmd) := by
  unfold dispatchCommand
  split
  · refine guards_guardPasses.and_then fun passes => ?_
    split
    · exact guards_executeCommand cmd
    · exact guards_pure ()
  · exact guards_executeCommand cmd

theorem guards_closeConnection (now : Int) : Guards c (closeConnection c now) := by
  refine (guards_appSect rfl).and_then fun nid => ?_
  cases nid with
  | none => exact guards_pure ()
  | some nid => exact (guards_inSession rfl).attempt_then fun _ => guards_pure ()

theorem guards_serveConnection (now : Int) (cmds : List WsCommand) :
    Guards c (serveConnection c now cmds) := by
  induction cmds with
  | nil => exact guards_closeConnection now
  | cons cmd cmds ih => exact (guards_dispatchCommand cmd).attempt_then fun _ => ih

end Follows

/-! ## What a touch leaves alone -/

section Spares

/-- A local node that is not the connection's. -/
def Node.Foreign (own : Option String) (n : Node) : Prop :=
  n.nodeType = .localNode ∧ own ≠ some n.id

instance (own : Option String) (n : Node) : Decidable (n.Foreign own) :=
  inferInstanceAs (Decidable (_ ∧ _))

variable {own : Option String} {rewinds : Bool} {ids : List String} {ns ns' : List Node}

theorem foreign_of_badge {n n' : Node} (h : n'.badge = n.badge) :
    n'.Foreign own ↔ n.Foreign own := by
  obtain ⟨hid, htype, -⟩ : n'.id = n.id ∧ n'.nodeType = n.nodeType ∧ n'.deviceId = n.deviceId := by
    simpa [Node.badge] using h
  rw [Node.Foreign, Node.Foreign, hid, htype]

/-- The nodes found under `ids` are not foreign, and where positions are reset those of foreign nodes
are 0 already. -/
structure Harmless (own : Option String) (rewinds : Bool) (ids : List String) (ns : List Node) :
    Prop where
  found : ∀ id ∈ ids, ∀ n ∈ findNode id ns, ¬ n.Foreign own
  rested : rewinds = true → ∀ n ∈ ns, n.Foreign own → n.positionSecs = 0

instance : Decidable (Harmless own rewinds ids ns) :=
  decidable_of_iff ((∀ id ∈ ids, ∀ n ∈ findNode id ns, ¬ n.Foreign own) ∧
      (rewinds = true → ∀ n ∈ ns, n.Foreign own → n.positionSecs = 0))
    ⟨fun h => ⟨h.1, h.2⟩, fun h => ⟨h.found, h.rested⟩⟩

theorem findNode_of_roster {id : String} {n' : Node}
    (h : ns'.map Node.badge = ns.map Node.badge) (hn : findNode id ns' = some n') :
    ∃ n, findNode id ns = some n ∧ n'.badge = n.badge := by
  induction ns' generalizing ns with
  | nil => cases hn
  | cons m' ns' ih =>
    cases ns with
    | nil => cases h
    | cons m ns =>
      obtain ⟨hm, hrest⟩ := List.cons.inj h
      have hid : m'.id = m.id := congrArg Prod.fst hm
      by_cases hself : m.id = id
      · have hfound : m' = n' := by simpa [findNode, hid, hself] using hn
        exact ⟨m, by simp [findNode, hself], hfound ▸ hm⟩
      · have hn' : findNode id ns' = some n' := by simpa [findNode, hid, hself] using hn
        obtain ⟨n, hn, hb⟩ := ih hrest hn'
        exact ⟨n, by simpa [findNode, hself] using hn, hb⟩

theorem filter_modifyNode_of_not {id : String} {f : Node → Node}
    (hf : ∀ n, (f n).badge = n.badge) (h : ∀ n, findNode id ns = some n → ¬ n.Foreign own) :
    ((modifyNode id f ns).filter fun n => n.Foreign own) = ns.filter fun n => n.Foreign own := by
  induction ns with
  | nil => rfl
  | cons n ns ih =>
    by_cases hn : n.id = id
    · have hout : ¬ n.Foreign own := h n (by simp [findNode, hn])
      have hout' : ¬ (f n).Foreign own := fun hfor => hout ((foreign_of_badge (hf n)).1 hfor)
      simp [modifyNode, hn, hout, hout']
    · have hrest := ih fun m hm => h m (by simpa [findNode, hn] using hm)
      simp only [modifyNode, hn, if_false, List.filter_cons, hrest]

theorem filter_rewindAll (h : ∀ n ∈ ns, n.Foreign own → n.positionSecs = 0) :
    ((rewindAll ns).filter fun n => n.Foreign own) = ns.filter fun n => n.Foreign own := by
  induction ns with
  | nil => rfl
  | cons n ns ih =>
    have hrest := ih fun m hm => h m (List.mem_cons_of_mem _ hm)
    unfold rewindAll at hrest ⊢
    by_cases hn : n.Foreign own
    · have hzero : ({ n with positionSecs := 0 } : Node) = n := by
        rw [← h n List.mem_cons_self hn]
      rw [List.map_cons, hzero, List.filter_cons, List.filter_cons, hrest]
    · have hn' : ¬ ({ n with positionSecs := 0 } : Node).Foreign own := hn
      rw [List.map_cons, List.filter_cons_of_neg (by simpa using hn'),
        List.filter_cons_of_neg (by simpa using hn), hrest]

theorem Harmless.of_kept (h : Harmless own rewinds ids ns)
    (hbadges : ns'.map Node.badge = ns.map Node.badge)
    (hkept : (ns'.filter fun n => n.Foreign own) = ns.filter fun n => n.Foreign own) :
    Harmless own rewinds ids ns' := by
  refine ⟨fun id hid n hn hfor => ?_, fun hr n hn hfor => ?_⟩
  · obtain ⟨m, hm, hb⟩ := findNode_of_roster hbadges hn
    exact h.found id hid m hm ((foreign_of_badge hb).1 hfor)
  · have hmem : n ∈ ns'.filter fun n => n.Foreign own :=
      List.mem_filter.2 ⟨hn, decide_eq_true hfor⟩
    rw [hkept] at hmem
    exact h.rested hr n (List.mem_filter.1 hmem).1 hfor

/-- A harmless touch leaves the foreign nodes as they are. -/
theorem Touch.spares (h : Touch rewinds ids ns ns') (hharm : Harmless own rewinds ids ns) :
    ns'.map Node.badge = ns.map Node.badge ∧
      (ns'.filter fun n => n.Foreign own) = ns.filter fun n => n.Foreign own := by
  induction h with
  | refl ns => exact ⟨rfl, rfl⟩
  | write hid hf ns =>
    exact ⟨map_modifyNode fun n _ => hf n, filter_modifyNode_of_not hf (hharm.found _ hid)⟩
  | rewind hr ns =>
    refine ⟨?_, filter_rewindAll (hharm.rested hr)⟩
    rw [rewindAll, List.map_map]
    rfl
  | trans _ _ ih ih' =>
    obtain ⟨hbadges, hkept⟩ := ih hharm
    have hharm' := hharm.of_kept hbadges hkept
    exact ⟨(ih' hharm').1.trans hbadges, (ih' hharm').2.trans hkept⟩

end Spares

/-! ## Interleavings -/

/-- The nodes that the command of each connection has found selected so far. -/
def foundSelected (h : List AppEntry) : String → List String := Pool.phases guardProtocol (fun _ => []) h

/-- What a step has to meet, if it is a section of a queue operation: no node it may write to is found
to be a local node that is not the connection's, and where it resets positions those of all such
nodes are 0. -/
def Guarded (h : List AppEntry) (e : AppEntry) : Prop :=
  match e.act with
  | .sect (.core op l) => op.isQueueOp = true →
    Harmless (e.pre.localNodeId e.who) (op.rewinds && l.isEdit)
      (mayTouch (foundSelected h e.who) l e.pre.core.state) e.pre.core.state.nodes
  | _ => True

instance (h : List AppEntry) (e : AppEntry) : Decidable (Guarded h e) :=
  match e with
  | ⟨_, .sect (.core _ _), _, _⟩ => inferInstanceAs (Decidable (_ → _))
  | ⟨_, .call _ _, _, _⟩ | ⟨_, .sect .guardSelected, _, _⟩ | ⟨_, .sect .guardType, _, _⟩
  | ⟨_, .sect (.session _), _, _⟩ | ⟨_, .sect (.sameDevice _), _, _⟩
  | ⟨_, .sect (.findOwner _), _, _⟩ | ⟨_, .sect .checkOwner, _, _⟩
  | ⟨_, .sect (.replace _), _, _⟩ | ⟨_, .sect (.claim _), _, _⟩
  | ⟨_, .sect (.release _), _, _⟩ | ⟨_, .sect .close, _, _⟩ => .isTrue trivial

/-- A section of a queue operation leaves all local nodes but the connection's as they are. -/
def SparesLocals (e : AppEntry) : Prop :=
  ∀ op l, e.act = .sect (.core op l) → op.isQueueOp = true →
    (e.post.core.state.nodes.filter fun n => n.Foreign (e.pre.localNodeId e.who)) =
      e.pre.core.state.nodes.filter fun n => n.Foreign (e.pre.localNodeId e.who)

/-- Transport and queue commands do not touch the local nodes of others in any interleaving, of any
number of connections, whose steps are all guarded. -/
theorem sparesLocals_of_guarded {core : Core} {commands : String → List WsCommand}
    {now : String → Int} {h : List AppEntry} {p : AppPool}
    (hr : Pool.Interleaving (appPool core commands now) h p) (hguarded : Pool.Met Guarded h) :
    ∀ e ∈ h, SparesLocals e := by
  have ht : ∀ c, ((appPool core commands now).task c).Follows (guardProtocol c)
      (fun _ r => True ∧ ∀ a, r = .ok a → True) [] :=
    fun c => guards_serveConnection (now c) (commands c) [] trivial
  obtain ⟨-, -, hall⟩ := Pool.Run.invariant (P := guardProtocol) (J := fun h _ => Pool.Met Guarded h)
    trivial ht (fun _ _ _ _ _ => trivial) (fun _ _ _ _ _ hmet _ hok => ⟨hok, hmet⟩)
    (fun _ _ _ _ _ hmet _ hok => ⟨hok, hmet⟩) (Pool.run_iff.2 ⟨hr, hguarded⟩)
  intro e he op l hact hop
  obtain ⟨h₂, h₁, rfl⟩ := List.append_of_mem he
  have hok := (hall h₂ e h₁ rfl).2 _ hact hop
  have hharm : Guarded h₁ e := (Pool.Met.of_append hguarded).1
  unfold Guarded at hharm
  rw [hact] at hharm
  exact (hok.nodes.spares (hharm hop)).2

/-- `amp` with a track is selected. Connection `2` has a local session and sends `others`, `1` sends a
command. -/
def sharedWithSession (cmd : WsCommand) (others : List WsCommand) : AppPool :=
  appPool (runOps allSucceed [.registerOutput "amp" "c" 0, .addNode { id := "amp" },
      .addToQueue { id := "1", filePath := "/1" }] (Core.new (fun _ => none) [] [], ())).1
    (fun c =>
      if c = "1" then [cmd]
      else if c = "2" then .localSessionStart "phone" (some "x") "" :: others
      else [])
    fun _ => 5

/-- The session starts; `1` passes the guard, then `2` makes one step, then `1` goes on. -/
def stepInGuard : List (String × Except CoreError Unit) :=
  turns "2" 6 ++ turns "1" 2 ++ turns "2" 1 ++ turns "1" 1

/-- The session starts and is updated; then `1` passes the guard and goes on. -/
def afterUpdate : List (String × Except CoreError Unit) := turns "2" 8 ++ turns "1" 4

/-- `2` only starts its session, so `1` shuffles `amp`. -/
theorem sparesLocals_of_guarded_closing :
    Pool.Met Guarded (Pool.exec stepInGuard ([], sharedWithSession (.setShuffle true) [])).1 ∧
      ∀ e ∈ (Pool.exec stepInGuard ([], sharedWithSession (.setShuffle true) [])).1,
        SparesLocals e := by
  have hguarded : Pool.Met Guarded
      (Pool.exec stepInGuard ([], sharedWithSession (.setShuffle true) [])).1 := by decide +kernel
  exact ⟨hguarded, sparesLocals_of_guarded (Pool.exec_run stepInGuard .init) hguarded⟩

/-- `2` selects its node after `1` has passed the guard, which then shuffles it; and a `next` on
`amp` resets the position of the session. -/
theorem stepInGuard_not_sparesLocals :
    (¬ ∀ e ∈ (Pool.exec stepInGuard
        ([], sharedWithSession (.setShuffle true) [.selectNode "local-x"])).1, SparesLocals e) ∧
      ¬ ∀ e ∈ (Pool.exec afterUpdate
        ([], sharedWithSession .next [.localSessionUpdate { positionSecs := 30 }])).1,
          SparesLocals e := by
  constructor
  · intro h
    obtain ⟨e, he, hact, hkept⟩ : ∃ e ∈ (Pool.exec stepInGuard
        ([], sharedWithSession (.setShuffle true) [.selectNode "local-x"])).1,
        e.act = .sect (.core (.setShuffle true) (.edit "local-x")) ∧
          ¬ (e.post.core.state.nodes.filter fun n => n.Foreign (e.pre.localNodeId e.who)) =
            e.pre.core.state.nodes.filter fun n => n.Foreign (e.pre.localNodeId e.who) := by
      decide +kernel
    exact hkept (h e he _ _ hact rfl)
  · intro h
    obtain ⟨e, he, hact, hkept⟩ : ∃ e ∈ (Pool.exec afterUpdate
        ([], sharedWithSession .next [.localSessionUpdate { positionSecs := 30 }])).1,
        e.act = .sect (.core .next (.edit "amp")) ∧
          ¬ (e.post.core.state.nodes.filter fun n => n.Foreign (e.pre.localNodeId e.who)) =
            e.pre.core.state.nodes.filter fun n => n.Foreign (e.pre.localNodeId e.who) := by
      decide +kernel
    exact hkept (h e he _ _ hact rfl)

end Kanade

import Kanade.Concur.Copies
import Kanade.Concur.Mailbox
import Kanade.Core.Coherence

/-!
# Kanade.Node.Link

The server, an output node, and what is between them: commands that wait in the channel of
`RemoteNodeOutput` and on the connection, and updates that are on their way back.

The relay loop of the node takes one command after the other, and stores the generation of a list
after MPD has it. The sync task reads MPD's reply and makes the update of it later. Meanwhile the
server goes on.

`updates_sound`: an update of another generation than the server's moves nothing, and one of the
server's generation moves the current index to the track that MPD was playing when it replied,
however much was on its way, if each update is made under the generation of the list that its reply
was about.
-/

namespace Kanade

open Concur Fallible

/-! ## Commands on their way -/

/-- The command of a call, and to which node. -/
def CoreCall.command : CoreCall → Option (String × OutputCmd)
  | .output node _ cmd => some (node, cmd)
  | .onStateChanged _ _ | .persist _ _ => none

/-- `RemoteNodeOutput::send`, in time and while the connection lasts. -/
def channels : Outputs (String → List OutputCmd) := posted CoreCall.command (.ok ())

/-- What a command does to the list of the node. -/
def OutputCmd.order? : OutputCmd → Option (CopyOrder UInt64 String)
  | .setQueue filePaths projectionGeneration => some (.load projectionGeneration filePaths)
  | .add filePaths => some (.append filePaths)
  | _ => none

/-! ## The node -/

/-- A poll that has had its reply. The generation of the list it is about and the path that MPD was
playing are not in the reply; statements speak of them. -/
structure Poll where
  status : PlaybackStatus
  positionSecs : ℚ
  volume : UInt8
  song : Option Nat
  listGeneration : UInt64
  playing : Option String
deriving DecidableEq, Repr

/-- A `NodeStateUpdate`, with the path that MPD was playing at the reply. -/
structure SentUpdate where
  status : PlaybackStatus
  positionSecs : ℚ
  volume : UInt8
  mpdSongIndex : Option Nat
  projectionGeneration : UInt64
  playing : Option String
deriving DecidableEq, Repr

/-- `listGeneration` is that of the `SetQueue` that the list in MPD comes from, `storing` that of a list
which has just been loaded. -/
structure LinkNode where
  mpd : Device := {}
  listGeneration : UInt64
  projectionGeneration : UInt64
  storing : Option UInt64 := none
  poll : Option Poll := none
deriving DecidableEq, Repr

namespace LinkNode

variable (n : LinkNode)

/-- `execute_command`, up to the store of the generation. -/
def execute (cmd : OutputCmd) : LinkNode :=
  match cmd with
  | .setQueue _ projectionGeneration =>
    { n with
      mpd := n.mpd.exec cmd
      listGeneration := projectionGeneration
      storing := some projectionGeneration }
  | _ => { n with mpd := n.mpd.exec cmd }

def store (projectionGeneration : UInt64) : LinkNode :=
  { n with
    projectionGeneration := projectionGeneration
    storing := none }

/-- MPD answers `status`. -/
def reply (status : PlaybackStatus) (positionSecs : ℚ) (volume : UInt8) : LinkNode :=
  { n with
    poll := some
      { status := status
        positionSecs := positionSecs
        volume := volume
        song := n.mpd.playing.map fun _ => n.mpd.pos
        listGeneration := n.listGeneration
        playing := n.mpd.playing } }

/-- `on_state_changed` of the node's broadcaster. -/
def update (poll : Poll) : SentUpdate where
  status := poll.status
  positionSecs := poll.positionSecs
  volume := poll.volume
  mpdSongIndex := poll.song
  projectionGeneration := n.projectionGeneration
  playing := poll.playing

def copy : Copy UInt64 String := ⟨n.listGeneration, n.mpd.list⟩

theorem copy_execute (cmd : OutputCmd) :
    (n.execute cmd).copy = cmd.order?.elim n.copy n.copy.exec := by
  cases cmd <;> rfl

end LinkNode

/-! ## The link -/

structure NodeLink where
  core : Core
  channels : String → List OutputCmd
  node : LinkNode
  updates : List SentUpdate

/-- The operation of the core that a step is; the others are steps of an output. -/
def PlayerStep.operation (id : String) : PlayerStep → Option CoreOp
  | .setQueue tracks startIndex => some (.setQueue tracks startIndex)
  | .play => some .play
  | .playIndex index => some (.playIndex index)
  | .next => some .next
  | .previous => some .previous
  | .clearQueue => some .clearQueue
  | .addToQueue track => some (.addToQueue track)
  | .addTracksToQueue tracks => some (.addTracksToQueue tracks)
  | .sync => some (.syncConnectedNode id)
  | .advance | .report _ _ _ => none

inductive LinkStep where
  | core (step : PlayerStep)
  | execute
  | store
  | advance
  | reply (status : PlaybackStatus) (positionSecs : ℚ) (volume : UInt8)
  | create (full : Bool)
  | arrive
deriving DecidableEq, Repr

namespace NodeLink

variable (id : String) (link : NodeLink)

/-- The generation of the server's projection. -/
def generation : UInt64 := ((link.core.transportState id).getD {}).projectionGeneration

/-- An operation of the server; what it sends waits in the channels. -/
def operate (op : CoreOp) : NodeLink :=
  { link with
    core := (op.after Kanade.channels (link.core, link.channels)).1
    channels := (op.after Kanade.channels (link.core, link.channels)).2 }

/-- The relay loop takes the next command, when it is done with the one before. -/
def execute : NodeLink :=
  match link.node.storing, link.channels id with
  | none, cmd :: rest =>
    { link with
      channels := Function.update link.channels id rest
      node := link.node.execute cmd }
  | _, _ => link

def store : NodeLink :=
  match link.node.storing with
  | some g => { link with node := link.node.store g }
  | none => link

/-- MPD goes on to its next song. -/
def advance : NodeLink := { link with node := { link.node with mpd := link.node.mpd.advance } }

def reply (status : PlaybackStatus) (positionSecs : ℚ) (volume : UInt8) : NodeLink :=
  match link.node.poll with
  | some _ => link
  | none => { link with node := link.node.reply status positionSecs volume }

/-- The update of the last reply is made. It is dropped if the channel is full. -/
def create (full : Bool) : NodeLink :=
  match link.node.poll with
  | some poll =>
    { link with
      node := { link.node with poll := none }
      updates := if full then link.updates else link.updates ++ [link.node.update poll] }
  | none => link

/-- The loop of `run_node_mode` takes the next update to `sync_node_state`. -/
def arrive : NodeLink :=
  match link.updates with
  | update :: rest =>
    { link.operate (.syncNodeState id update.status update.positionSecs update.volume
        update.mpdSongIndex update.projectionGeneration) with
      updates := rest }
  | [] => link

end NodeLink

def LinkStep.take (id : String) (step : LinkStep) (link : NodeLink) : NodeLink :=
  match step with
  | .core step => (step.operation id).elim link link.operate
  | .execute => link.execute id
  | .store => link.store
  | .advance => link.advance
  | .reply status positionSecs volume => link.reply status positionSecs volume
  | .create full => link.create full
  | .arrive => link.arrive id

/-! ## What the operations send -/

@[simp] theorem channels_output (box : String → List OutputCmd) (id : String) (slot : OutputSlot)
    (cmd : OutputCmd) :
    channels box (.output id slot cmd) = (.ok (), Function.update box id (box id ++ [cmd])) := rfl

@[simp] theorem run_broadcast_channels (w : Core) (box : String → List OutputCmd) :
    broadcast.run channels w box =
      (.ok (), { w with state := w.state.syncTopLevelFromSelectedNode }, box) :=
  run_broadcast_quiet channels w (fun _ _ => rfl) fun _ _ => rfl

theorem devices_eq : devices = obeyed CoreCall.command (.ok ()) Device.exec := by
  funext x call
  cases call <;> rfl

/-- The core cannot tell channels from outputs that obey at once. -/
theorem after_channels (op : CoreOp) (w : Core) (box : String → List OutputCmd) (x : String → Device) :
    (op.after channels (w, box)).1 = (op.after devices (w, x)).1 := by
  rw [devices_eq]
  exact (run_posted Device.exec op.task w box x).2.1

namespace Player

/-- The generation of the projection. -/
def generation (p : Player) : UInt64 := (p.projection.getD {}).projectionGeneration

/-- What the orders sent by an operation have to do with its effect: none of them, one that loads the new
list under a new generation, or one that lengthens the list of a queue with tracks in it. -/
inductive Sends (p p' : Player) : List (CopyOrder UInt64 String) → Prop
  | idle (hlist : p'.device.list = p.device.list) (hgen : p'.generation = p.generation) : Sends p p' []
  | load (hgen : p'.generation = p.generation + 1) :
      Sends p p' [.load p'.generation p'.device.list]
  | append (more : List String) (hqueue : p.node.queue ≠ [])
      (hlist : p'.device.list = p.device.list ++ more) (hgen : p'.generation = p.generation) :
      Sends p p' [.append more]

end Player

section Sent

variable {id : String} {c : Core × (String → Device)} {p : Player}

/-- The commands left for node `id` by an operation that makes `p` of it `p'`. -/
def Sent (id : String) (p p' : Player) (before after : String → List OutputCmd) : Prop :=
  ∃ sent, after id = before id ++ sent ∧ p.Sends p' (sent.filterMap OutputCmd.order?)

/-- The list that goes with a new projection. -/
theorem Shows.sends_load (h : Shows id c p) {p' : Player} {start : Option Nat} {loadedLen : Nat}
    (hproj : p'.projection = some (nextProjection p.projection start loadedLen)) :
    p.Sends p' [.load (nextGeneration c.1.transportState id) p'.device.list] := by
  have hgen : p'.generation = p.generation + 1 := by
    rw [Player.generation, hproj]
    rfl
  have hnext : nextGeneration c.1.transportState id = p'.generation := by
    rw [hgen, nextGeneration, h.projection]
    rfl
  rw [hnext]
  exact .load hgen

theorem sent_jump {target : Node → Except CoreError Nat} (h : Shows id c p)
    (box : String → List OutputCmd) :
    Sent id p (p.jump target) box ((Kanade.jump target).run channels c.1 box).2.2 := by
  obtain ⟨slot, hslot, -⟩ := h.activeOutput
  unfold Kanade.jump
  simp only [run_bind, run_activeNodeId, h.activeId, run_lockState, jumpSection_eq h.node,
    Player.jump]
  cases ht : target p.node with
  | error e => exact ⟨[], (List.append_nil _).symm, .idle rfl rfl⟩
  | ok i =>
    simp only [run_rebuildProjectionState, run_activeOutputs, Core.activeOutput, activeId_moveTo,
      h.activeId, hslot, run_send, channels_output, run_writeState, run_broadcast_channels]
    refine ⟨[.setQueue (buildQueueFilePaths p.node.queue (some i)) (nextGeneration c.1.transportState id),
      .play], by simp, ?_⟩
    exact h.sends_load rfl

theorem sent_play (h : Shows id c p) (box : String → List OutputCmd) :
    Sent id p { p with node := p.node.play } box (CoreOp.play.after channels (c.1, box)).2 := by
  obtain ⟨slot, hslot, -⟩ := h.activeOutput
  simp only [CoreOp.after, CoreOp.task, Kanade.play, playNode, commandNode, run_bind,
    run_activeNodeId, h.activeId, run_eachOutput, hslot, run_send, channels_output, run_writeState,
    run_broadcast_channels]
  exact ⟨[.play], by simp, .idle rfl rfl⟩

theorem sent_append {tracks : List Track} (h : Shows id c p) (hne : tracks ≠ [])
    (hqueue : p.node.queue ≠ []) (box : String → List OutputCmd) :
    Sent id p (p.append tracks) box ((appendToQueue tracks).run channels c.1 box).2.2 := by
  obtain ⟨slot, hslot, hout⟩ := h.activeOutput
  have hlen : (tracks.map Track.filePath).length ≠ 0 := by simpa using hne
  unfold appendToQueue
  simp only [run_bind, run_readState, h.selected, run_lockState, h.node, run_maybeActiveOutputs]
  rw [activeOutput_modifyNode (fun _ => by rfl) fun _ => by rfl, hout]
  simp only [Except.toOption, run_bind, run_send, channels_output, extendProjectionLoadedLenActive, hlen,
    if_false, adjustProjectionActive, run_attempt, run_activeNodeId]
  rw [activeId_modifyNode (fun _ => by rfl) fun _ => by rfl, h.activeId]
  simp only [run_lockTransport, run_broadcast_channels]
  refine ⟨[.add (tracks.map Track.filePath)], by simp, .append _ hqueue rfl ?_⟩
  unfold Player.generation Player.append
  cases p.projection <;> rfl

theorem sent_clear (h : Shows id c p) (box : String → List OutputCmd) :
    Sent id p p.clear box (CoreOp.clearQueue.after channels (c.1, box)).2 := by
  obtain ⟨slot, hslot, -⟩ := h.activeOutput
  simp only [CoreOp.after, CoreOp.task, Kanade.clearQueue, run_bind, run_attempt, run_activeNodeId,
    h.activeId, run_rebuildProjectionState, run_eachOutput, hslot, run_send, channels_output,
    lockSelected, run_lockState, PlaybackState.selectedNode, h.selected, Option.bind_some, h.node,
    run_broadcast_channels]
  exact ⟨[.setQueue [] (nextGeneration c.1.transportState id)], by simp, h.sends_load rfl⟩

theorem sent_setQueue {tracks : List Track} {startIndex : Option Nat} (h : Shows id c p)
    (box : String → List OutputCmd) :
    Sent id p (p.setQueue tracks startIndex) box
      ((CoreOp.setQueue tracks startIndex).after channels (c.1, box)).2 := by
  obtain ⟨slot, hslot, hout⟩ := h.activeOutput
  simp only [CoreOp.after, CoreOp.task, Kanade.setQueue, setQueueRest, run_bind, run_readState, h.selected,
    run_attempt, run_activeNodeId, h.activeId, Except.toOption, run_rebuildProjectionState,
    run_eachOutput, hslot, run_send, channels_output, run_lockState]
  cases startIndex with
  | none =>
    simp only [setQueueSection, h.node, Option.isSome_none, Bool.false_eq_true, if_false,
      run_broadcast_channels]
    exact ⟨[.setQueue (rotatedPaths tracks none) (nextGeneration c.1.transportState id)], by simp,
      h.sends_load rfl⟩
  | some i =>
    simp only [setQueueSection_eq h.node, Option.isSome_some, if_true, run_bind,
      run_maybeActiveOutputs]
    rw [activeOutput_modifyNode (fun _ => by rfl) fun _ => by rfl, hout]
    simp only [Except.toOption, run_bind, run_send, channels_output, run_broadcast_channels]
    exact ⟨[.setQueue (rotatedPaths tracks (some i)) (nextGeneration c.1.transportState id), .play],
      by simp, h.sends_load rfl⟩

/-- Commands that load nothing. -/
theorem run_send_idle_channels {o : OutputHandle} {cmd : OutputCmd} (w : Core)
    (box : String → List OutputCmd) :
    (o.send cmd).run channels w box = (.ok (), w, Function.update box o.node (box o.node ++ [cmd])) := rfl

theorem run_playAt_channels (o : OutputHandle) (pos : ℚ) (w : Core) (box : String → List OutputCmd) :
    ∃ sent, (o.playAt pos).run channels w box =
        (.ok (), w, Function.update box o.node (box o.node ++ sent)) ∧
      sent.filterMap OutputCmd.order? = [] := by
  rw [OutputHandle.playAt, run_bind, run_send_idle_channels]
  dsimp only
  split
  · refine ⟨[.play, .seek pos], ?_, rfl⟩
    rw [run_send_idle_channels]
    simp
  · exact ⟨[.play], rfl, rfl⟩

theorem run_applyOutputRuntimeState_channels {slot : OutputSlot} (w : Core)
    (hslot : w.outputs id = some slot) (status : PlaybackStatus) (pos : ℚ)
    (box : String → List OutputCmd) :
    ∃ sent, (applyOutputRuntimeState id status pos).run channels w box =
        (.ok (), w, Function.update box id (box id ++ sent)) ∧
      sent.filterMap OutputCmd.order? = [] := by
  rw [applyOutputRuntimeState, run_bind, run_eachOutput_some _ _ _ hslot]
  cases status with
  | stopped => exact ⟨[.stop], rfl, rfl⟩
  | playing => exact run_playAt_channels ⟨id, slot⟩ pos w box
  | loading => exact run_playAt_channels ⟨id, slot⟩ pos w box
  | paused =>
    dsimp only
    obtain ⟨sent, hrun, hsent⟩ := run_playAt_channels ⟨id, slot⟩ pos w box
    refine ⟨sent ++ [.pause], ?_, ?_⟩
    · rw [run_bind, hrun]
      dsimp only
      rw [run_send_idle_channels]
      simp
    · rw [List.filterMap_append, hsent]
      rfl

theorem sent_sync (h : Shows id c p) (box : String → List OutputCmd) :
    Sent id p p.sync box ((CoreOp.syncConnectedNode id).after channels (c.1, box)).2 := by
  obtain ⟨slot, hslot, -⟩ := h.activeOutput
  simp only [CoreOp.after, CoreOp.task, syncConnectedNodeToLogicalState, syncOutputToGlobal,
    run_bind, run_readState, h.node, h.selected, beq_self_eq_true, if_true,
    run_rebuildProjectionState, run_eachOutput, hslot, run_send, channels_output]
  obtain ⟨sent, hrun, hsent⟩ := run_applyOutputRuntimeState_channels
    { c.1 with transportState := rebuilt c.1.transportState id p.node.currentIndex p.node.queue.length }
    hslot p.node.status p.node.positionSecs
    (Function.update (Function.update box id (box id ++ [.setVolume p.node.volume])) id
      (Function.update box id (box id ++ [.setVolume p.node.volume]) id ++
        [.setQueue (buildQueueFilePaths p.node.queue p.node.currentIndex)
          (nextGeneration c.1.transportState id)]))
  rw [hrun]
  refine ⟨[.setVolume p.node.volume, .setQueue (buildQueueFilePaths p.node.queue p.node.currentIndex)
    (nextGeneration c.1.transportState id)] ++ sent, by simp, ?_⟩
  rw [List.filterMap_append, hsent]
  exact h.sends_load rfl

/-- Every operation sends what makes its effect. -/
theorem sent_step {step : PlayerStep} {op : CoreOp} (h : Shows id c p) (hop : step.operation id = some op)
    (hkeep : step.KeepsProjection p.node) (box : String → List OutputCmd) :
    Sent id p (step.effect p) box (op.after channels (c.1, box)).2 := by
  cases step with
  | setQueue tracks startIndex => cases hop; exact sent_setQueue h box
  | play => cases hop; exact sent_play h box
  | playIndex index => cases hop; exact sent_jump h box
  | next => cases hop; exact sent_jump h box
  | previous => cases hop; exact sent_jump h box
  | clearQueue => cases hop; exact sent_clear h box
  | addToQueue track => cases hop; exact sent_append h (by simp) hkeep box
  | addTracksToQueue tracks =>
    cases hop
    cases tracks with
    | nil => exact ⟨[], (List.append_nil _).symm, .idle rfl rfl⟩
    | cons t ts => exact sent_append h (by simp) (hkeep.resolve_left (by simp)) box
  | sync => cases hop; exact sent_sync h box
  | advance => cases hop
  | report status pos volume => cases hop

end Sent

/-! ## The invariant -/

/-- The tag of load `k`, counted from generation `g₀` on. -/
def numbered (g₀ : UInt64) (k : ℕ) : UInt64 := g₀ + UInt64.ofNat k

theorem numbered_succ (g₀ : UInt64) (k : ℕ) : numbered g₀ (k + 1) = numbered g₀ k + 1 := by
  unfold numbered
  rw [UInt64.ofNat_add]
  exact (UInt64.add_assoc _ _ _).symm

theorem numbered_inj {g₀ : UInt64} {n : ℕ} (hn : n < 2 ^ 64) : ∀ k ≤ n, numbered g₀ n = numbered g₀ k → k = n := by
  intro k hk h
  have hofNat : UInt64.ofNat n = UInt64.ofNat k := (UInt64.add_right_inj g₀).1 h
  have htoNat := congrArg UInt64.toNat hofNat
  rw [UInt64.toNat_ofNat_of_lt' hn, UInt64.toNat_ofNat_of_lt' (Nat.lt_of_le_of_lt hk hn)] at htoNat
  exact htoNat.symm

/-- What a reply says of the song: nothing, or the place of a path that was true of the node's list. -/
def SongTold (g₀ : UInt64) (n : ℕ) (list : List String) (g : UInt64) (song : Option Nat)
    (playing : Option String) : Prop :=
  song = none ∧ playing = none ∨
    ∃ i path, song = some i ∧ playing = some path ∧ Told (numbered g₀) n list g i path

/-- After `n` loads the server shows a player in step with its own list, and the node is behind. -/
structure InLink (id : String) (g₀ : UInt64) (n : ℕ) (p : Player) (link : NodeLink) : Prop where
  shows : Shows id (link.core, fun _ => p.device) p
  inStep : p.InStep
  generation : p.generation = numbered g₀ n
  behind : Behind (numbered g₀) n p.device.list link.node.copy
    ((link.channels id).filterMap OutputCmd.order?)
  poll : ∀ poll ∈ link.node.poll, SongTold g₀ n p.device.list poll.listGeneration poll.song poll.playing
  updates : ∀ update ∈ link.updates, SongTold g₀ n p.device.list update.projectionGeneration
    update.mpdSongIndex update.playing

/-- What a step of the runs below may do: the operations are those of `coherent_run_iff`, and an update
is made under the generation of the list that the reply was about. -/
def LinkStep.Sound (id : String) (step : LinkStep) (link : NodeLink) : Prop :=
  match step with
  | .core step => ∀ node ∈ link.core.state.node id, step.Admissible node ∧ step.KeepsProjection node
  | .create _ => ∀ poll ∈ link.node.poll, poll.listGeneration = link.node.projectionGeneration
  | _ => True

section Steps

variable {id : String} {g₀ : UInt64} {n : ℕ} {p p' : Player} {link : NodeLink}

theorem SongTold.load {list : List String} {g : UInt64} {song : Option Nat} {playing : Option String}
    (h : SongTold g₀ n list g song playing) (new : List String) :
    SongTold g₀ (n + 1) new g song playing := by
  obtain h | ⟨i, path, hsong, hplaying, htold⟩ := h
  · exact .inl h
  · exact .inr ⟨i, path, hsong, hplaying, htold.load new⟩

theorem SongTold.append {list : List String} {g : UInt64} {song : Option Nat} {playing : Option String}
    (h : SongTold g₀ n list g song playing) (more : List String) :
    SongTold g₀ n (list ++ more) g song playing := by
  obtain h | ⟨i, path, hsong, hplaying, htold⟩ := h
  · exact .inl h
  · exact .inr ⟨i, path, hsong, hplaying, htold.append more⟩

/-- The list of a player in step, when tracks are added to it. -/
theorem Player.InStep.list_ne_nil (h : p.InStep) (hq : p.node.queue ≠ []) : p.device.list ≠ [] := by
  obtain h | ⟨start, h⟩ := h
  · exact absurd h.queue hq
  · have hlt := h.start_lt
    rw [h.list]
    simpa using hlt

/-- An operation, by what it has sent. -/
theorem InLink.sends (h : InLink id g₀ n p link) {core : Core} {box : String → List OutputCmd}
    (hshows : Shows id (core, fun _ => p'.device) p') (hstep : p'.InStep)
    (hsent : Sent id p p' link.channels box) :
    ∃ n' ≤ n + 1, InLink id g₀ n' p' { link with core := core, channels := box } := by
  obtain ⟨sent, hbox, hsends⟩ := hsent
  have horders : (box id).filterMap OutputCmd.order? =
      (link.channels id).filterMap OutputCmd.order? ++ sent.filterMap OutputCmd.order? := by
    rw [hbox, List.filterMap_append]
  generalize hsome : sent.filterMap OutputCmd.order? = orders at hsends horders
  cases hsends with
  | idle hlist hgen =>
    refine ⟨n, Nat.le_succ n, hshows, hstep, hgen.trans h.generation, ?_, ?_, ?_⟩
    · rw [horders, List.append_nil, hlist]
      exact h.behind
    · rw [hlist]
      exact h.poll
    · rw [hlist]
      exact h.updates
  | load hgen =>
    have hgen' : p'.generation = numbered g₀ (n + 1) := by rw [hgen, h.generation, numbered_succ]
    refine ⟨n + 1, Nat.le_refl _, hshows, hstep, hgen', ?_, ?_, ?_⟩
    · rw [horders, hgen']
      exact h.behind.load _
    · exact fun poll hpoll => (h.poll poll hpoll).load _
    · exact fun update hupdate => (h.updates update hupdate).load _
  | append more hqueue hlist hgen =>
    have hlist₀ := h.inStep.list_ne_nil hqueue
    refine ⟨n, Nat.le_succ n, hshows, hstep, hgen.trans h.generation, ?_, ?_, ?_⟩
    · rw [horders, hlist]
      exact h.behind.append hlist₀ more
    · rw [hlist]
      exact fun poll hpoll => (h.poll poll hpoll).append more
    · rw [hlist]
      exact fun update hupdate => (h.updates update hupdate).append more

theorem InLink.core {step : PlayerStep} (h : InLink id g₀ n p link)
    (hsound : (LinkStep.core step).Sound id link) :
    ∃ n' ≤ n + 1, ∃ p', InLink id g₀ n' p' ((LinkStep.core step).take id link) := by
  obtain ⟨hadm, hkeep⟩ := hsound p.node h.shows.node
  dsimp only [LinkStep.take]
  cases hop : step.operation id with
  | none => exact ⟨n, Nat.le_succ n, p, h⟩
  | some op =>
    have hcoreOp : step.coreOp id (link.core, fun _ => p.device) = some op := by
      cases step <;> first | exact hop | cases hop
    have hstep : (step.effect p).InStep := h.inStep.effect hadm hkeep
    have hshows := shows_step step h.shows
    have htake : step.take id (link.core, fun _ => p.device) =
        op.after devices (link.core, fun _ => p.device) := by
      rw [PlayerStep.take, hcoreOp]
    rw [htake] at hshows
    have hcore := after_channels op link.core link.channels fun _ => p.device
    have hshows' : Shows id ((op.after channels (link.core, link.channels)).1, fun _ => (step.effect p).device)
        (step.effect p) := by
      rw [hcore]
      exact ⟨hshows.selected, hshows.node, hshows.connected, hshows.output, hshows.projection, rfl⟩
    obtain ⟨n', hn', hin⟩ := h.sends hshows' hstep (sent_step h.shows hop hkeep link.channels)
    exact ⟨n', hn', step.effect p, hin⟩

/-- A step of the node. -/
theorem InLink.frame (h : InLink id g₀ n p link) {link' : NodeLink} (hcore : link'.core = link.core)
    (hbehind : Behind (numbered g₀) n p.device.list link'.node.copy
      ((link'.channels id).filterMap OutputCmd.order?))
    (hpoll : ∀ poll ∈ link'.node.poll,
      SongTold g₀ n p.device.list poll.listGeneration poll.song poll.playing)
    (hupdates : ∀ update ∈ link'.updates, SongTold g₀ n p.device.list update.projectionGeneration
      update.mpdSongIndex update.playing) : InLink id g₀ n p link' :=
  ⟨by rw [hcore]; exact h.shows, h.inStep, h.generation, hbehind, hpoll, hupdates⟩

theorem InLink.execute (h : InLink id g₀ n p link) : InLink id g₀ n p (link.execute id) := by
  unfold NodeLink.execute
  cases hstoring : link.node.storing with
  | some g => exact h
  | none =>
    cases hbox : link.channels id with
    | nil => exact h
    | cons cmd rest =>
      have hbehind := h.behind
      rw [hbox] at hbehind
      refine h.frame rfl ?_ ?_ h.updates
      · dsimp only
        rw [Function.update_self, LinkNode.copy_execute]
        cases hcmd : cmd.order? with
        | none =>
          rw [List.filterMap_cons_none hcmd] at hbehind
          exact hbehind
        | some order =>
          rw [List.filterMap_cons_some hcmd] at hbehind
          exact hbehind.exec
      · have hsame : (link.node.execute cmd).poll = link.node.poll := by cases cmd <;> rfl
        dsimp only
        rw [hsame]
        exact h.poll

theorem InLink.store (h : InLink id g₀ n p link) : InLink id g₀ n p link.store := by
  unfold NodeLink.store
  cases hstoring : link.node.storing with
  | none => exact h
  | some g => exact h.frame rfl h.behind h.poll h.updates

theorem InLink.advance (h : InLink id g₀ n p link) : InLink id g₀ n p link.advance := by
  have hcopy : link.advance.node.copy = link.node.copy := by
    unfold NodeLink.advance LinkNode.copy Device.advance
    dsimp only
    split <;> rfl
  refine h.frame rfl ?_ h.poll h.updates
  rw [hcopy]
  exact h.behind

theorem InLink.reply (h : InLink id g₀ n p link) (status : PlaybackStatus) (pos : ℚ) (volume : UInt8) :
    InLink id g₀ n p (link.reply status pos volume) := by
  unfold NodeLink.reply
  cases hpoll : link.node.poll with
  | some poll => exact h
  | none =>
    refine h.frame rfl h.behind ?_ h.updates
    intro poll hmem
    cases hmem
    dsimp only
    cases hplaying : link.node.mpd.playing with
    | none => exact .inl ⟨rfl, rfl⟩
    | some path => exact .inr ⟨_, path, rfl, rfl, h.behind.told hplaying⟩

theorem InLink.create (h : InLink id g₀ n p link) {full : Bool}
    (hsound : (LinkStep.create full).Sound id link) :
    InLink id g₀ n p (link.create full) := by
  unfold NodeLink.create
  cases hpoll : link.node.poll with
  | none => exact h
  | some poll =>
    refine h.frame rfl h.behind (fun _ hmem => by cases hmem) ?_
    cases full with
    | true => exact h.updates
    | false =>
      intro update hmem
      rcases List.mem_append.1 hmem with hmem | hmem
      · exact h.updates update hmem
      · rw [List.mem_singleton.1 hmem]
        have htold := h.poll poll hpoll
        rw [hsound poll hpoll] at htold
        exact htold

end Steps

/-! ## Updates -/

section Arrivals

variable {id : String} {g₀ : UInt64} {n : ℕ} {p : Player} {link : NodeLink} {status : PlaybackStatus}
  {pos : ℚ} {volume : UInt8} {song : Option Nat} {g : UInt64}

/-- What an update makes of the player. -/
def Player.updated (status : PlaybackStatus) (pos : ℚ) (volume : UInt8) (song : Option Nat) (g : UInt64)
    (p : Player) : Player :=
  { p with node := (applyReport status pos volume (projectedCurrentIndex p.projection song g) p.node).1 }

theorem shows_syncNodeState {c : Core × (String → Device)} (status : PlaybackStatus) (pos : ℚ)
    (volume : UInt8) (song : Option Nat) (g : UInt64) (h : Shows id c p) :
    Shows id ((CoreOp.syncNodeState id status pos volume song g).after devices c)
      (p.updated status pos volume song g) := by
  have hframe := applyReport_frame status pos volume (projectedCurrentIndex p.projection song g)
  simp only [CoreOp.after, CoreOp.task, syncNodeState, run_bind, run_lockTransport, run_lockState, h.node,
    h.projection]
  have hend : ∀ s : PlaybackState, s.node id = some (p.updated status pos volume song g).node →
      s.selectedNodeId = c.1.state.selectedNodeId →
      Shows id ({ c.1 with state := s }, c.2) (p.updated status pos volume song g) := fun s hn hs =>
    h.step hs rfl hn (hframe p.node).2.1 h.projection h.device
  have hn : (c.1.state.modifyNode id fun n =>
      (applyReport status pos volume (projectedCurrentIndex p.projection song g) n).1).node id =
      some (p.updated status pos volume song g).node := by
    rw [node_modifyNode_self fun n => (hframe n).1, h.node]
    rfl
  split
  · rw [run_broadcast_devices]
    exact hend _ (by rw [node_syncTopLevel]; exact hn) syncTopLevel_selectedNodeId
  · exact hend _ hn rfl

theorem sent_syncNodeState {c : Core × (String → Device)} (h : Shows id c p)
    (box : String → List OutputCmd) :
    Sent id p (p.updated status pos volume song g) box
      ((CoreOp.syncNodeState id status pos volume song g).after channels (c.1, box)).2 := by
  refine ⟨[], ?_, .idle rfl rfl⟩
  simp only [CoreOp.after, CoreOp.task, syncNodeState, run_bind, run_lockTransport, run_lockState, h.node]
  split
  · rw [run_broadcast_channels, List.append_nil]
  · rw [run_pure, List.append_nil]

theorem Player.InStep.updated (h : p.InStep) : (p.updated status pos volume song g).InStep := by
  have hq : (p.updated status pos volume song g).node.queue = p.node.queue :=
    (applyReport_frame _ _ _ _ p.node).2.2
  unfold Player.updated
  generalize hprojected : projectedCurrentIndex p.projection song g = projected
  rw [Player.updated, hprojected] at hq
  -- the index moves within the queue or not at all
  have hindex : (applyReport status pos volume projected p.node).1.currentIndex = p.node.currentIndex ∨
      ∃ i < p.node.queue.length, (applyReport status pos volume projected p.node).1.currentIndex = some i := by
    cases projected with
    | none => exact .inl (applyReport_none_currentIndex _ _ _ p.node)
    | some i =>
      rw [applyReport_currentIndex]
      by_cases hi : i < p.node.queue.length
      · exact .inr ⟨i, hi, if_pos hi⟩
      · exact .inl (if_neg hi)
  obtain h | ⟨start, h⟩ := h
  · refine .inl ⟨hq.trans h.queue, ?_, h.list, h.pos, h.loadedLen, h.start⟩
    obtain hsame | ⟨i, hi, -⟩ := hindex
    · exact hsame.trans h.index
    · rw [h.queue] at hi
      exact absurd hi (Nat.not_lt_zero i)
  · refine .inr ⟨start, hq ▸ h.start_lt, hq ▸ h.fits, h.projection, hq ▸ h.list, ?_⟩
    obtain hsame | ⟨i, hi, hmoved⟩ := hindex
    · obtain ⟨i, hi, hlt⟩ := h.index
      exact ⟨i, hsame.trans hi, hq ▸ hlt⟩
    · exact ⟨i, hmoved, hq ▸ hi⟩

/-- The core after the next update. -/
theorem shows_operate {update : SentUpdate} (h : InLink id g₀ n p link) :
    Shows id ((link.operate (.syncNodeState id update.status update.positionSecs update.volume
      update.mpdSongIndex update.projectionGeneration)).core, fun _ => p.device)
      (p.updated update.status update.positionSecs update.volume update.mpdSongIndex
        update.projectionGeneration) := by
  have hshows := shows_syncNodeState update.status update.positionSecs update.volume
    update.mpdSongIndex update.projectionGeneration h.shows
  unfold NodeLink.operate
  dsimp only
  rw [after_channels _ link.core link.channels fun _ => p.device]
  exact ⟨hshows.selected, hshows.node, hshows.connected, hshows.output, hshows.projection, rfl⟩

theorem InLink.arrive (h : InLink id g₀ n p link) : ∃ n' ≤ n + 1, ∃ p', InLink id g₀ n' p' (link.arrive id) := by
  unfold NodeLink.arrive
  cases hupdates : link.updates with
  | nil => exact ⟨n, Nat.le_succ n, p, h⟩
  | cons update rest =>
    obtain ⟨n', hn', hin⟩ := h.sends (shows_operate h) h.inStep.updated (sent_syncNodeState h.shows link.channels)
    refine ⟨n', hn', _, hin.frame rfl hin.behind hin.poll fun later hlater => hin.updates later ?_⟩
    rw [hupdates]
    exact List.mem_cons_of_mem _ hlater

/-- The next update moves the current index to the track that MPD was playing when it replied, or, when
it is of another generation or MPD was playing nothing, does not move it. -/
def UpdateSound (id : String) (link : NodeLink) : Prop :=
  ∀ update ∈ link.updates.head?, ∀ node ∈ link.core.state.node id,
    ∃ node', (link.arrive id).core.state.node id = some node' ∧ node'.queue = node.queue ∧
      if update.projectionGeneration = link.generation id then
        update.playing.elim (node'.currentIndex = node.currentIndex) fun path =>
          ∃ i track, node'.currentIndex = some i ∧ node'.queue[i]? = some track ∧ track.filePath = path
      else node'.currentIndex = node.currentIndex

/-- The place in the queue of what is at place `i` of the list. -/
theorem Player.Loaded.projected {start i : Nat} {path : String} (h : p.Loaded start)
    (hi : p.device.list[i]? = some path) :
    projectedCurrentIndex p.projection (some i) p.generation = some (start + i) ∧
      ∃ track, p.node.queue[start + i]? = some track ∧ track.filePath = path := by
  obtain ⟨gen, hproj⟩ := h.projection
  have hlt : i < p.device.list.length := (List.getElem?_eq_some_iff.1 hi).1
  have hlen : p.device.list.length = p.node.queue.length - start := by simp [h.list]
  have hfits := h.fits
  have hmax : start + i ≤ usizeMax := by unfold usizeMax; omega
  refine ⟨by simp [projectedCurrentIndex, Player.generation, hproj, hlt, hmax], ?_⟩
  rw [h.list, List.getElem?_map, List.getElem?_drop] at hi
  exact Option.map_eq_some_iff.1 hi

theorem InLink.updateSound (h : InLink id g₀ n p link) (hn : n < 2 ^ 64) : UpdateSound id link := by
  intro update hhead node hnode
  rw [h.shows.node, Option.mem_some_iff] at hnode
  subst hnode
  obtain ⟨rest, hupdates⟩ : ∃ rest, link.updates = update :: rest := by
    cases hlist : link.updates with
    | nil =>
      rw [hlist] at hhead
      cases hhead
    | cons first rest =>
      rw [hlist] at hhead
      cases hhead
      exact ⟨rest, rfl⟩
  have hgen : link.generation id = p.generation := by
    unfold NodeLink.generation Player.generation
    rw [← h.shows.projection]
  have htold := h.updates update (by rw [hupdates]; exact List.mem_cons_self)
  refine ⟨(p.updated update.status update.positionSecs update.volume update.mpdSongIndex
    update.projectionGeneration).node, ?_, (applyReport_frame _ _ _ _ p.node).2.2, ?_⟩
  · unfold NodeLink.arrive
    rw [hupdates]
    exact (shows_operate h).node
  · rw [hgen]
    split
    · rename_i hsame
      obtain ⟨hsong, hplaying⟩ | ⟨i, path, hsong, hplaying, htold⟩ := htold
      · rw [hplaying, Option.elim_none, Player.updated, hsong]
        have hnone : projectedCurrentIndex p.projection none update.projectionGeneration = none := by
          cases p.projection <;> simp [projectedCurrentIndex]
        rw [hnone]
        exact applyReport_none_currentIndex _ _ _ p.node
      · rw [hplaying, Option.elim_some]
        rw [hsame, h.generation] at htold
        have hpath := htold.eq (numbered_inj hn)
        obtain hempty | ⟨start, hloaded⟩ := h.inStep
        · rw [hempty.list] at hpath
          cases hpath
        · obtain ⟨hprojected, track, htrack, hfile⟩ := hloaded.projected hpath
          have hlt : start + i < p.node.queue.length := (List.getElem?_eq_some_iff.1 htrack).1
          refine ⟨start + i, track, ?_, ?_, hfile⟩
          · rw [Player.updated, hsong, hsame, hprojected, applyReport_currentIndex, if_pos hlt]
          · rw [Player.updated, (applyReport_frame _ _ _ _ p.node).2.2]
            exact htrack
    · rename_i hother
      have hnone : projectedCurrentIndex p.projection update.mpdSongIndex update.projectionGeneration =
          none := by
        unfold Player.generation at hother
        cases hproj : p.projection with
        | none => rfl
        | some projection =>
          rw [hproj] at hother
          simp only [projectedCurrentIndex, Option.bind_eq_bind, Option.bind_some]
          exact if_pos fun heq => hother heq.symm
      rw [Player.updated, hnone]
      exact applyReport_none_currentIndex _ _ _ p.node

end Arrivals

/-! ## Runs -/

/-- MPD's list is the queue from the start of the projection on. -/
def Mirrored (id : String) (link : NodeLink) : Prop :=
  ∀ node ∈ link.core.state.node id, link.node.mpd.list =
    (node.queue.drop (((link.core.transportState id).getD {}).projectionStartIndex.getD 0)).map Track.filePath

theorem InLink.mirrored {id : String} {g₀ : UInt64} {n : ℕ} {p : Player} {link : NodeLink}
    (h : InLink id g₀ n p link) (hquiet : link.channels id = []) : Mirrored id link := by
  intro node hnode
  rw [h.shows.node, Option.mem_some_iff] at hnode
  subst hnode
  have hbehind := h.behind
  rw [hquiet] at hbehind
  have hlist : link.node.mpd.list = p.device.list := hbehind.items_eq
  have hproj : link.core.transportState id = p.projection := h.shows.projection
  rw [hlist, hproj]
  obtain hempty | ⟨start, hloaded⟩ := h.inStep
  · rw [hempty.list, hempty.queue, List.drop_nil]
    rfl
  · obtain ⟨gen, hgen⟩ := hloaded.projection
    rw [hgen]
    exact hloaded.list

/-- A node that registers for the first time. Its MPD has been cleared, and may remember any generation. -/
structure JustConnected (id : String) (link : NodeLink) : Prop where
  nothingLoaded : NothingLoaded id (link.core, fun _ => {})
  channel : link.channels id = []
  list : link.node.mpd.list = []
  poll : link.node.poll = none
  updates : link.updates = []

theorem JustConnected.inLink {id : String} {link : NodeLink} (h : JustConnected id link) :
    ∃ g₀ p, InLink id g₀ 0 p link := by
  obtain ⟨p, hshows, hempty⟩ := h.nothingLoaded
  refine ⟨p.generation, p, ?_, .inl hempty, ?_, ?_, ?_, ?_⟩
  · exact ⟨hshows.selected, hshows.node, hshows.connected, hshows.output, hshows.projection, rfl⟩
  · exact (UInt64.add_zero _).symm
  · rw [h.channel, hempty.list]
    exact Behind.start h.list
  · rw [h.poll]
    exact fun poll hpoll => by cases hpoll
  · rw [h.updates]
    exact fun update hupdate => by cases hupdate

theorem InLink.step {id : String} {g₀ : UInt64} {n : ℕ} {p : Player} {link : NodeLink}
    (h : InLink id g₀ n p link) (step : LinkStep) (hsound : step.Sound id link) :
    ∃ n' ≤ n + 1, ∃ p', InLink id g₀ n' p' (step.take id link) := by
  cases step with
  | core step => exact h.core hsound
  | execute => exact ⟨n, Nat.le_succ n, p, h.execute⟩
  | store => exact ⟨n, Nat.le_succ n, p, h.store⟩
  | advance => exact ⟨n, Nat.le_succ n, p, h.advance⟩
  | reply status pos volume => exact ⟨n, Nat.le_succ n, p, h.reply status pos volume⟩
  | create full => exact ⟨n, Nat.le_succ n, p, h.create hsound⟩
  | arrive => exact h.arrive

theorem InLink.runAll {id : String} {g₀ : UInt64} {steps : List LinkStep} :
    ∀ {n : ℕ} {p : Player} {link : NodeLink}, InLink id g₀ n p link →
      Each (LinkStep.take id) (LinkStep.Sound id) steps link →
      ∃ n' ≤ n + steps.length, ∃ p', InLink id g₀ n' p' (runAll (LinkStep.take id) steps link) := by
  induction steps with
  | nil => exact fun {n p _} h _ => ⟨n, Nat.le_refl n, p, h⟩
  | cons step steps ih =>
    intro n p link h hsound
    obtain ⟨n₁, hn₁, p₁, h₁⟩ := h.step step hsound.1
    obtain ⟨n₂, hn₂, p₂, h₂⟩ := ih h₁ hsound.2
    refine ⟨n₂, ?_, p₂, h₂⟩
    rw [List.length_cons]
    omega

/-- However much is on its way: an update of the server's generation moves the current index to the track
that MPD was playing at its reply, one of another generation does not move it, and once no command is
on its way MPD's list is that part of the queue which the projection says. -/
theorem updates_sound {id : String} {link : NodeLink} {steps : List LinkStep}
    (hstart : JustConnected id link) (hcount : steps.length < 2 ^ 64)
    (hsound : Each (LinkStep.take id) (LinkStep.Sound id) steps link) :
    UpdateSound id (runAll (LinkStep.take id) steps link) ∧
      ((runAll (LinkStep.take id) steps link).channels id = [] →
        Mirrored id (runAll (LinkStep.take id) steps link)) := by
  obtain ⟨g₀, p, h⟩ := hstart.inLink
  obtain ⟨n, hn, p', h'⟩ := h.runAll hsound
  exact ⟨h'.updateSound (by omega), h'.mirrored⟩

instance (step : PlayerStep) (node : Node) : Decidable (step.KeepsProjection node) :=
  match step with
  | .setQueue tracks none => inferInstanceAs (Decidable (tracks = []))
  | .addToQueue _ => inferInstanceAs (Decidable (node.queue ≠ []))
  | .addTracksToQueue tracks => inferInstanceAs (Decidable (tracks = [] ∨ node.queue ≠ []))
  | .sync => inferInstanceAs (Decidable (node.queue = [] ∨ node.currentIndex = some 0))
  | .setQueue _ (some _) | .play | .playIndex _ | .next | .previous | .clearQueue | .advance
  | .report _ _ _ => isTrue trivial

instance (id : String) (step : LinkStep) (link : NodeLink) : Decidable (step.Sound id link) :=
  match step with
  | .core step => inferInstanceAs (Decidable (∀ node ∈ link.core.state.node id,
      step.Admissible node ∧ step.KeepsProjection node))
  | .create _ => inferInstanceAs (Decidable (∀ poll ∈ link.node.poll,
      poll.listGeneration = link.node.projectionGeneration))
  | .execute | .store | .advance | .reply _ _ _ | .arrive => isTrue trivial

/-- The node `a` registers; its MPD was loaded under generation 7 by another server. -/
def freshLink : NodeLink where
  core := freshNode.1
  channels := fun _ => []
  node := { listGeneration := 7, projectionGeneration := 7 }
  updates := []

/-- The node plays the second track of its list and says so, while the server goes to another one: the
update is of generation 1, and the server's generation is 2. -/
def lateUpdate : List LinkStep :=
  [.core (.setQueue [{ id := "1", filePath := "/1" }, { id := "2", filePath := "/2" }] (some 0)),
    .execute, .store, .execute, .advance, .core (.playIndex 0), .reply .playing 3 50, .create false]

theorem updates_sound_lateUpdate :
    UpdateSound "a" (runAll (LinkStep.take "a") lateUpdate freshLink) ∧
      ((runAll (LinkStep.take "a") lateUpdate freshLink).channels "a" = [] →
        Mirrored "a" (runAll (LinkStep.take "a") lateUpdate freshLink)) :=
  have hfresh : JustConnected "a" freshLink :=
    ⟨⟨⟨{ id := "a" }, none, {}⟩, ⟨by decide, by decide, rfl, by decide, by decide, by decide⟩,
      ⟨rfl, rfl, rfl, rfl, rfl, rfl⟩⟩, rfl, rfl, rfl, rfl⟩
  updates_sound hfresh (by decide) (by decide +kernel)

end Kanade

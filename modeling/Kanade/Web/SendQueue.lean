import Kanade.Core.Alone
import Kanade.Ws.Dispatch

/-!
# Kanade.Web.SendQueue

`sendQueue` of `ws.svelte.ts`: what the web client keeps while it is not connected, where additions to the
queue that come one after the other are merged.

* `receiveAll_queueMessage`: a message that is queued has the effect it has behind the queue.
* `merging_keeps_effect`: for all that is queued, as long as nothing is dropped.
-/

namespace Kanade

namespace Web

/-- `QueuedMessage`, where `ρ` is what a request says. -/
inductive QueuedMessage (ρ : Type) where
  | command (message : WsCommand)
  | request (requestId : Nat) (message : ρ)

def maxQueuedMessages : Nat := 200

/-- The tracks of `add_to_queue` and `add_tracks_to_queue`. -/
def addedTracks : WsCommand → Option (List Track)
  | .addToQueue track => some [track]
  | .addTracksToQueue tracks => some tracks
  | _ => none

section Queue

variable {ρ : Type}

def QueuedMessage.isRequest : QueuedMessage ρ → Bool
  | .command _ => false
  | .request _ _ => true

/-- `mergeQueuedAddCommand`: the queue with its last message replaced, if the command is merged into it. -/
def mergeQueuedAddCommand (sendQueue : List (QueuedMessage ρ)) (cmd : WsCommand) : Option (List (QueuedMessage ρ)) :=
  match addedTracks cmd, sendQueue.getLast? with
  | some nextTracks, some (.command last) =>
    match addedTracks last with
    | some previousTracks =>
      some (sendQueue.dropLast ++ [.command (.addTracksToQueue (previousTracks ++ nextTracks))])
    | none => none
  | _, _ => none

/-- The oldest request, or the oldest message if there is none. -/
def dropOldestQueuedMessage (sendQueue : List (QueuedMessage ρ)) : List (QueuedMessage ρ) :=
  sendQueue.eraseIdx ((sendQueue.findIdx? QueuedMessage.isRequest).getD 0)

def pushMessage (sendQueue : List (QueuedMessage ρ)) (message : QueuedMessage ρ) : List (QueuedMessage ρ) :=
  (if maxQueuedMessages ≤ sendQueue.length then dropOldestQueuedMessage sendQueue else sendQueue) ++ [message]

/-- The command that is merged, if the message is one. -/
def mergeMessage (sendQueue : List (QueuedMessage ρ)) : QueuedMessage ρ → Option (List (QueuedMessage ρ))
  | .command cmd => mergeQueuedAddCommand sendQueue cmd
  | .request _ _ => none

def queueMessage (sendQueue : List (QueuedMessage ρ)) (message : QueuedMessage ρ) : List (QueuedMessage ρ) :=
  (mergeMessage sendQueue message).getD (pushMessage sendQueue message)

def queueMessages (messages sendQueue : List (QueuedMessage ρ)) : List (QueuedMessage ρ) :=
  messages.foldl queueMessage sendQueue

/-- No message is dropped on the way. -/
def Holds : List (QueuedMessage ρ) → List (QueuedMessage ρ) → Prop
  | [], _ => True
  | message :: messages, sendQueue =>
    (mergeMessage sendQueue message = none → sendQueue.length < maxQueuedMessages) ∧
      Holds messages (queueMessage sendQueue message)

end Queue

/-- What is issued while the client is not connected. -/
structure Offline (ρ : Type) where
  messages : List (QueuedMessage ρ)
  holds : Holds messages []

instance (ρ : Type) : Inhabited (Offline ρ) := ⟨[.command .play], fun _ => Nat.zero_lt_succ _, trivial⟩

def Offline.sendQueue {ρ : Type} (offline : Offline ρ) : List (QueuedMessage ρ) := queueMessages offline.messages []

/-! ## What is received -/

/-- A server's queue and the rest of its state. Additions append; what anything else does depends on the message and
the state in any way. -/
def receive {ρ σ : Type} (other : QueuedMessage ρ → List Track × σ → List Track × σ) (state : List Track × σ) :
    QueuedMessage ρ → List Track × σ
  | .command (.addToQueue track) => (state.1 ++ [track], state.2)
  | .command (.addTracksToQueue tracks) => (state.1 ++ tracks, state.2)
  | message => other message state

/-- A track, or a message other than an addition. -/
abbrev Item (ρ : Type) : Type := Track ⊕ QueuedMessage ρ

/-- The tracks one by one, with the other messages between them. -/
def items {ρ : Type} : QueuedMessage ρ → List (Item ρ)
  | .command (.addToQueue track) => [.inl track]
  | .command (.addTracksToQueue tracks) => tracks.map .inl
  | message => [.inr message]

/-- The queue of the selected node. -/
def selectedQueue (s : PlaybackState) : Option (List Track) := s.selectedNode.map Node.queue

section Receive

variable {ρ σ : Type} {other : QueuedMessage ρ → List Track × σ → List Track × σ} {state : List Track × σ}
  {sendQueue messages : List (QueuedMessage ρ)} {message : QueuedMessage ρ} {cmd : WsCommand} {tracks : List Track}

theorem receive_of_addedTracks (h : addedTracks cmd = some tracks) :
    receive other state (.command cmd) = (state.1 ++ tracks, state.2) := by
  unfold addedTracks at h
  split at h
  · cases h
    rfl
  · cases h
    rfl
  · cases h

theorem items_of_addedTracks (h : addedTracks cmd = some tracks) :
    items (.command cmd : QueuedMessage ρ) = tracks.map .inl := by
  unfold addedTracks at h
  split at h
  · cases h
    rfl
  · cases h
    rfl
  · cases h

/-- A merged command was an addition, and so was the last message. -/
theorem mergeMessage_eq_some {merged : List (QueuedMessage ρ)} (h : mergeMessage sendQueue message = some merged) :
    ∃ before last cmd previousTracks nextTracks, sendQueue = before ++ [.command last] ∧ message = .command cmd ∧
      addedTracks last = some previousTracks ∧ addedTracks cmd = some nextTracks ∧
      merged = before ++ [.command (.addTracksToQueue (previousTracks ++ nextTracks))] := by
  cases message with
  | request requestId message => cases h
  | command cmd =>
    rw [mergeMessage, mergeQueuedAddCommand] at h
    cases hnext : addedTracks cmd with
    | none =>
      rw [hnext] at h
      cases h
    | some nextTracks =>
      rcases List.eq_nil_or_concat' sendQueue with rfl | ⟨before, last, rfl⟩
      · rw [hnext] at h
        cases h
      · rw [hnext, List.getLast?_concat, List.dropLast_concat] at h
        cases last with
        | request requestId message => cases h
        | command last =>
          dsimp only at h
          cases hprevious : addedTracks last with
          | none =>
            rw [hprevious] at h
            cases h
          | some previousTracks =>
            rw [hprevious] at h
            cases h
            exact ⟨before, last, cmd, previousTracks, nextTracks, rfl, rfl, hprevious, hnext, rfl⟩

/-- Merged or not, a message that is queued is received behind the queue. -/
theorem receiveAll_queueMessage (hroom : mergeMessage sendQueue message = none → sendQueue.length < maxQueuedMessages) :
    (queueMessage sendQueue message).foldl (receive other) state =
      receive other (sendQueue.foldl (receive other) state) message := by
  unfold queueMessage
  cases hmerge : mergeMessage sendQueue message with
  | none =>
    rw [Option.getD_none, pushMessage, if_neg (Nat.not_le.2 (hroom hmerge)), List.foldl_concat]
  | some merged =>
    obtain ⟨before, last, cmd, previousTracks, nextTracks, rfl, rfl, hprevious, hnext, rfl⟩ :=
      mergeMessage_eq_some hmerge
    rw [Option.getD_some, List.foldl_concat, List.foldl_concat, receive_of_addedTracks hprevious,
      receive_of_addedTracks hnext, List.append_assoc]
    rfl

theorem items_queueMessage (hroom : mergeMessage sendQueue message = none → sendQueue.length < maxQueuedMessages) :
    (queueMessage sendQueue message).flatMap items = sendQueue.flatMap items ++ items message := by
  unfold queueMessage
  cases hmerge : mergeMessage sendQueue message with
  | none =>
    rw [Option.getD_none, pushMessage, if_neg (Nat.not_le.2 (hroom hmerge)), List.flatMap_append,
      List.flatMap_singleton]
  | some merged =>
    obtain ⟨before, last, cmd, previousTracks, nextTracks, rfl, rfl, hprevious, hnext, rfl⟩ :=
      mergeMessage_eq_some hmerge
    rw [Option.getD_some, List.flatMap_append, List.flatMap_append, List.flatMap_singleton, List.flatMap_singleton,
      items_of_addedTracks hprevious, items_of_addedTracks hnext, List.append_assoc, ← List.map_append]
    rfl

theorem receiveAll_queueMessages (h : Holds messages sendQueue) :
    (queueMessages messages sendQueue).foldl (receive other) state =
      messages.foldl (receive other) (sendQueue.foldl (receive other) state) := by
  induction messages generalizing sendQueue with
  | nil => rfl
  | cons message messages ih =>
    obtain ⟨hroom, hrest⟩ := h
    rw [List.foldl_cons, ← receiveAll_queueMessage hroom]
    exact ih hrest

theorem items_queueMessages (h : Holds messages sendQueue) :
    (queueMessages messages sendQueue).flatMap items = sendQueue.flatMap items ++ messages.flatMap items := by
  induction messages generalizing sendQueue with
  | nil => exact (List.append_nil _).symm
  | cons message messages ih =>
    obtain ⟨hroom, hrest⟩ := h
    rw [List.flatMap_cons, ← List.append_assoc, ← items_queueMessage hroom]
    exact ih hrest

end Receive

/-! ## The server -/

section Server

open Concur Fallible

variable {η : Type}

theorem selectedQueue_congr {s s' : PlaybackState} (h : SameNodes s s') : selectedQueue s' = selectedQueue s := by
  unfold selectedQueue PlaybackState.selectedNode PlaybackState.node
  rw [h.1, h.2]

theorem selectedQueue_append {s : PlaybackState} {id : String} (tracks : List Track)
    (hselected : s.selectedNodeId = some id) :
    selectedQueue (s.modifyNode id fun node => { node with queue := node.queue ++ tracks }) =
      (selectedQueue s).map (· ++ tracks) := by
  have hself : (s.modifyNode id fun node => { node with queue := node.queue ++ tracks }).node id =
      (s.node id).map fun node => { node with queue := node.queue ++ tracks } := node_modifyNode_self fun _ => rfl
  have hsame : (s.modifyNode id fun node => { node with queue := node.queue ++ tracks }).selectedNodeId = some id :=
    hselected
  unfold selectedQueue PlaybackState.selectedNode
  rw [hsame, hselected, Option.bind_some, Option.bind_some, hself, Option.map_map, Option.map_map]
  rfl

/-- Whatever the outputs do, the queue of the selected node is appended to, if there is one. -/
theorem selectedQueue_appendToQueue (env : Outputs η) (tracks : List Track) (w : Core) (x : η) :
    selectedQueue ((appendToQueue tracks).run env w x).2.1.state = (selectedQueue w.state).map (· ++ tracks) := by
  unfold appendToQueue
  rw [Fallible.run_bind, run_readState]
  cases hselected : w.state.selectedNodeId with
  | none =>
    unfold selectedQueue PlaybackState.selectedNode
    rw [hselected]
    rfl
  | some id =>
    dsimp only
    rw [Fallible.run_bind, run_lockState]
    cases hnode : w.state.node id with
    | none =>
      unfold selectedQueue PlaybackState.selectedNode
      rw [hselected, Option.bind_some, hnode]
      rfl
    | some node =>
      have d := sameNodesDiscipline
      refine (selectedQueue_congr (run_sameNodes ((within_of_quiet d.quiet_maybeActiveOutputs).bind fun o => ?_)
        env _ x)).trans (selectedQueue_append tracks hselected)
      cases o with
      | none => exact within_broadcast
      | some o =>
        exact (within_of_quiet (d.quiet_send _ _)).bind fun _ =>
          (within_of_quiet (d.quiet_extend _)).bind fun _ => within_broadcast

theorem selectedQueue_addToQueue (env : Outputs η) (track : Track) (c : Core × η) :
    selectedQueue ((CoreOp.addToQueue track).after env c).1.state = (selectedQueue c.1.state).map (· ++ [track]) :=
  selectedQueue_appendToQueue env [track] c.1 c.2

theorem selectedQueue_addTracksToQueue (env : Outputs η) (tracks : List Track) (c : Core × η) :
    selectedQueue ((CoreOp.addTracksToQueue tracks).after env c).1.state =
      (selectedQueue c.1.state).map (· ++ tracks) := by
  cases tracks with
  | nil =>
    have hid : (fun queue : List Track => queue ++ []) = id := funext List.append_nil
    rw [hid, Option.map_id]
    rfl
  | cons track tracks => exact selectedQueue_appendToQueue env (track :: tracks) c.1 c.2

end Server

/-- Each track and each other message is kept once, in its place, so that a server whose queue is appended to ends up in
the state that the messages would have led to one by one; and the queue of the core's selected node is appended to. -/
theorem merging_keeps_effect {ρ σ η : Type} (offline : Offline ρ)
    (other : QueuedMessage ρ → List Track × σ → List Track × σ) (state : List Track × σ) (env : Outputs η)
    (c : Core × η) :
    offline.sendQueue.flatMap items = offline.messages.flatMap items ∧
      offline.sendQueue.foldl (receive other) state = offline.messages.foldl (receive other) state ∧
      (∀ track, selectedQueue ((CoreOp.addToQueue track).after env c).1.state =
        (selectedQueue c.1.state).map (· ++ [track])) ∧
      ∀ tracks, selectedQueue ((CoreOp.addTracksToQueue tracks).after env c).1.state =
        (selectedQueue c.1.state).map (· ++ tracks) :=
  ⟨items_queueMessages offline.holds, receiveAll_queueMessages offline.holds,
    fun track => selectedQueue_addToQueue env track c, fun tracks => selectedQueue_addTracksToQueue env tracks c⟩

end Web

end Kanade

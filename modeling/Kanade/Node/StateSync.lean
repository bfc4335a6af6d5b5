import Kanade.Concur.Fallible
import Kanade.Concur.Times
import Kanade.Core.State
import Kanade.Wire.Messages

/-!
# Kanade.Node.StateSync

The output node: `poll_status` of `MpdStateSync` with `on_state_changed` of the node's broadcaster,
and `execute_command` for `SetQueue`.

A poll reads the song from MPD in one step and the generation that it reports in a later one; a
`SetQueue` loads its list in one step and stores its generation in a later one. `report_paired_iff`:
in every interleaving, an update pairs the song with its own list exactly if the list that MPD had at
the reply has been tagged when the update is made, and no later one has.
-/

namespace Kanade

open Concur Fallible Wire

/-- The answer of MPD to `status`. -/
structure MpdStatus where
  elapsed : ℚ
  song : Option UInt64
  volume : UInt8
  status : PlaybackStatus

/-- What becomes of a command list; `changed`: it fails with MPD's list no longer the old one. -/
inductive ListOutcome where
  | loaded
  | failed (changed : Bool)

/-- The output node and its MPD. `list` is the generation of the `SetQueue` that the list in MPD
comes from. -/
structure OutputNode where
  list : UInt64
  projectionGeneration : UInt64
  state : PlaybackState

inductive SyncSect where
  /-- The reply to `status`. -/
  | reply
  | writeState
  /-- The update is made, with the generation of this moment. -/
  | create (update : NodeStateUpdate)
  | load (g : UInt64)
  | refuse
  | store (g : UInt64)

abbrev SyncTask (α : Type) : Type := Fallible OutputNode SyncSect NodeStateUpdate CoreError α

/-! ## Polling -/

/-- The local state with a reply. -/
def MpdStatus.writeTo (status : MpdStatus) (s : PlaybackState) : PlaybackState :=
  { s with
    nodes := s.nodes.modifyHead fun node =>
      { node with positionSecs := status.elapsed, status := status.status, volume := status.volume }
    currentIndex := status.song.map UInt64.toNat }

def nodeStateUpdate (node : Node) (state : PlaybackState) (g : UInt64) : NodeStateUpdate where
  status := node.status
  positionSecs := node.positionSecs
  volume := node.volume
  mpdSongIndex := state.currentIndex.map UInt64.ofNat
  projectionGeneration := g

def onStateChanged (state : PlaybackState) : SyncTask Unit :=
  match state.nodes.head? with
  | none => pure ()
  | some node => do
    let update ← (Fallible.sect
      (fun w _ => .create (nodeStateUpdate node state w.projectionGeneration))
      fun w => (.ok (nodeStateUpdate node state w.projectionGeneration), w) :
        SyncTask NodeStateUpdate)
    Fallible.tell update

/-- One poll, with what MPD answers. -/
def pollStatus (status : MpdStatus) : SyncTask Unit := do
  (Fallible.sect (fun _ _ => .reply) fun w => (.ok (), w) : SyncTask Unit)
  let snapshot ← (Fallible.sect (fun _ _ => .writeState)
    fun w => (.ok (status.writeTo w.state), { w with state := status.writeTo w.state }) :
      SyncTask PlaybackState)
  onStateChanged snapshot

/-! ## Commands -/

/-- `SetQueue`, with what becomes of it in MPD. -/
def executeSetQueue (g : UInt64) : ListOutcome → SyncTask Unit
  | .loaded => do
    (Fallible.sect (fun _ _ => .load g) fun w => (.ok (), { w with list := g }) : SyncTask Unit)
    Fallible.sect (fun _ _ => .store g) fun w => (.ok (), { w with projectionGeneration := g })
  | .failed true =>
    Fallible.sect (fun _ _ => .load g) fun w => (.error (.output "MPD error"), { w with list := g })
  | .failed false =>
    Fallible.sect (fun _ _ => .refuse) fun w => (.error (.output "MPD error"), w)

/-- The relay loop: one command after the other; failures are only logged. -/
def relay : List (UInt64 × ListOutcome) → SyncTask Unit
  | [] => pure ()
  | (g, outcome) :: rest => do
    let _ ← (executeSetQueue g outcome).attempt
    relay rest

section Pools

variable {ι : Type}

abbrev SyncPool (ι : Type) : Type :=
  Pool (Option ι) OutputNode SyncSect NodeStateUpdate (Except CoreError Unit) (Except CoreError Unit)

abbrev SyncEntry (ι : Type) : Type :=
  Entry (Option ι) OutputNode SyncSect NodeStateUpdate (Except CoreError Unit)

/-- Any polls and any commands, from the list of generation `g₀`. -/
def syncPool (g₀ : UInt64) (state : PlaybackState) (polls : ι → MpdStatus)
    (commands : List (UInt64 × ListOutcome)) : SyncPool ι :=
  ⟨⟨g₀, g₀, state⟩, fun
    | none => relay commands
    | some i => pollStatus (polls i)⟩

/-! ## Lists and generations in a history -/

/-- The generation of the last list that MPD was given. -/
def lastLoaded : List (SyncEntry ι) → Option UInt64
  | [] => none
  | e :: h =>
    match e.act with
    | .sect (.load g) => some g
    | _ => lastLoaded h

def lastStored : List (SyncEntry ι) → Option UInt64
  | [] => none
  | e :: h =>
    match e.act with
    | .sect (.store g) => some g
    | _ => lastStored h

def Loaded (g : UInt64) (h : List (SyncEntry ι)) : Prop := ∃ e ∈ h, e.act = .sect (.load g)

def Stored (g : UInt64) (h : List (SyncEntry ι)) : Prop := ∃ e ∈ h, e.act = .sect (.store g)

/-- By the creation of an update the list at its reply has been tagged, and no later one has. -/
def ReplyApart (atReply atCreation : List (SyncEntry ι)) : Prop :=
  (∀ g ∈ lastLoaded atReply, Stored g atCreation) ∧ ∀ g, Stored g atCreation → Loaded g atReply

/-! ## What loads and stores come after what -/

/-- Each list is newer than the one before it, and its generation is stored while MPD has it. -/
def InGenerations (g₀ : UInt64) : List (SyncEntry ι) → Prop
  | [] => True
  | e :: h =>
    InGenerations g₀ h ∧
      match e.act with
      | .sect (.load g) => (lastLoaded h).getD g₀ < g
      | .sect (.store g) => (lastLoaded h).getD g₀ = g ∧ (lastStored h).getD g₀ < g
      | _ => True

section InGenerations

variable {g₀ g : UInt64} {e : SyncEntry ι} {h h₁ h₂ : List (SyncEntry ι)}

theorem loaded_of_lastLoaded (hg : lastLoaded h = some g) : Loaded g h := by
  induction h with
  | nil => cases hg
  | cons e h ih =>
    rw [lastLoaded] at hg
    split at hg
    · rename_i hact
      cases hg
      exact ⟨e, List.mem_cons_self, hact⟩
    · obtain ⟨e', he', hact⟩ := ih hg
      exact ⟨e', List.mem_cons_of_mem _ he', hact⟩

theorem stored_of_lastStored (hg : lastStored h = some g) : Stored g h := by
  induction h with
  | nil => cases hg
  | cons e h ih =>
    rw [lastStored] at hg
    split at hg
    · rename_i hact
      cases hg
      exact ⟨e, List.mem_cons_self, hact⟩
    · obtain ⟨e', he', hact⟩ := ih hg
      exact ⟨e', List.mem_cons_of_mem _ he', hact⟩

theorem InGenerations.of_append (ho : InGenerations g₀ (h₂ ++ h₁)) : InGenerations g₀ h₁ := by
  induction h₂ with
  | nil => exact ho
  | cons e h₂ ih => exact ih ho.1

/-- Loading goes up. -/
theorem lastLoaded_le_cons (ho : InGenerations g₀ (e :: h)) :
    (lastLoaded h).getD g₀ ≤ (lastLoaded (e :: h)).getD g₀ := by
  obtain ⟨-, he⟩ := ho
  rw [lastLoaded]
  split
  · rename_i g hact
    rw [hact] at he
    exact UInt64.le_of_lt he
  · exact UInt64.le_refl _

theorem lastStored_le_cons (ho : InGenerations g₀ (e :: h)) :
    (lastStored h).getD g₀ ≤ (lastStored (e :: h)).getD g₀ := by
  obtain ⟨-, he⟩ := ho
  rw [lastStored]
  split
  · rename_i g hact
    rw [hact] at he
    exact UInt64.le_of_lt he.2
  · exact UInt64.le_refl _

theorem lastLoaded_le_append (ho : InGenerations g₀ (h₂ ++ h₁)) :
    (lastLoaded h₁).getD g₀ ≤ (lastLoaded (h₂ ++ h₁)).getD g₀ := by
  induction h₂ with
  | nil => exact UInt64.le_refl _
  | cons e h₂ ih => exact UInt64.le_trans (ih ho.1) (lastLoaded_le_cons ho)

theorem start_le_lastStored (ho : InGenerations g₀ h) : g₀ ≤ (lastStored h).getD g₀ := by
  induction h with
  | nil => exact UInt64.le_refl _
  | cons e h ih => exact UInt64.le_trans (ih ho.1) (lastStored_le_cons ho)

theorem start_le_lastLoaded (ho : InGenerations g₀ h) : g₀ ≤ (lastLoaded h).getD g₀ := by
  have hle : (lastLoaded []).getD g₀ ≤ (lastLoaded (h ++ [])).getD g₀ :=
    lastLoaded_le_append (by rwa [List.append_nil])
  rwa [List.append_nil] at hle

theorem Loaded.between (hg : Loaded g h) (ho : InGenerations g₀ h) :
    g₀ < g ∧ g ≤ (lastLoaded h).getD g₀ := by
  induction h with
  | nil =>
    obtain ⟨_, he, _⟩ := hg
    cases he
  | cons e h ih =>
    obtain ⟨e', he', hact⟩ := hg
    obtain rfl | he' := List.mem_cons.1 he'
    · obtain ⟨ho', hlt⟩ := ho
      rw [hact] at hlt
      simp only [lastLoaded, hact, Option.getD_some]
      exact ⟨UInt64.lt_of_le_of_lt (start_le_lastLoaded ho') hlt, UInt64.le_refl _⟩
    · obtain ⟨hlow, hhigh⟩ := ih ⟨e', he', hact⟩ ho.1
      exact ⟨hlow, UInt64.le_trans hhigh (lastLoaded_le_cons ho)⟩

theorem Stored.le (hg : Stored g h) (ho : InGenerations g₀ h) : g ≤ (lastStored h).getD g₀ := by
  induction h with
  | nil =>
    obtain ⟨_, he, _⟩ := hg
    cases he
  | cons e h ih =>
    obtain ⟨e', he', hact⟩ := hg
    obtain rfl | he' := List.mem_cons.1 he'
    · simp only [lastStored, hact, Option.getD_some]
      exact UInt64.le_refl _
    · exact UInt64.le_trans (ih ⟨e', he', hact⟩ ho.1) (lastStored_le_cons ho)

/-- A generation is stored after its list is loaded. -/
theorem Stored.loaded (hg : Stored g h) (ho : InGenerations g₀ h) : Loaded g h := by
  induction h with
  | nil =>
    obtain ⟨_, he, _⟩ := hg
    cases he
  | cons e h ih =>
    have hmem : Loaded g h → Loaded g (e :: h) := fun ⟨e', he', hact⟩ =>
      ⟨e', List.mem_cons_of_mem _ he', hact⟩
    obtain ⟨e', he', hact⟩ := hg
    obtain rfl | he' := List.mem_cons.1 he'
    · obtain ⟨ho', hlt⟩ := ho
      rw [hact] at hlt
      obtain ⟨hload, hstore⟩ := hlt
      -- it is above the generation of the start, so it is a list that has been loaded
      cases hl : lastLoaded h with
      | none =>
        rw [hl, Option.getD_none] at hload
        rw [← hload] at hstore
        exact absurd (start_le_lastStored ho') (UInt64.not_le.2 hstore)
      | some g' =>
        rw [hl, Option.getD_some] at hload
        exact hmem (hload ▸ loaded_of_lastLoaded hl)
    · exact hmem (ih ⟨e', he', hact⟩ ho.1)

theorem lastStored_le_lastLoaded (ho : InGenerations g₀ h) :
    (lastStored h).getD g₀ ≤ (lastLoaded h).getD g₀ := by
  cases hs : lastStored h with
  | none => exact start_le_lastLoaded ho
  | some g => exact (((stored_of_lastStored hs).loaded ho).between ho).2

/-- What is loaded later is newer. -/
theorem Loaded.newer (hg : Loaded g (h₂ ++ h₁)) (hnot : ¬ Loaded g h₁)
    (ho : InGenerations g₀ (h₂ ++ h₁)) : (lastLoaded h₁).getD g₀ < g := by
  induction h₂ with
  | nil => exact absurd hg hnot
  | cons e h₂ ih =>
    obtain ⟨e', he', hact⟩ := hg
    obtain rfl | he' := List.mem_cons.1 he'
    · obtain ⟨ho', hlt⟩ := ho
      rw [hact] at hlt
      exact UInt64.lt_of_le_of_lt (lastLoaded_le_append ho') hlt
    · exact ih ⟨e', he', hact⟩ ho.1

/-- The last list loaded before is the last one tagged by now exactly if the reply was apart. -/
theorem lastLoaded_eq_lastStored_iff (ho : InGenerations g₀ (h₂ ++ h₁)) :
    (lastLoaded h₁).getD g₀ = (lastStored (h₂ ++ h₁)).getD g₀ ↔ ReplyApart h₁ (h₂ ++ h₁) := by
  have ho₁ := ho.of_append
  constructor
  · intro heq
    refine ⟨fun g hg => ?_, fun g hg => ?_⟩
    · rw [hg, Option.getD_some] at heq
      have hlow := ((loaded_of_lastLoaded hg).between ho₁).1
      cases hs : lastStored (h₂ ++ h₁) with
      | none =>
        rw [hs, Option.getD_none] at heq
        exact absurd (heq ▸ hlow) (UInt64.lt_irrefl _)
      | some g' =>
        rw [hs, Option.getD_some] at heq
        exact heq ▸ stored_of_lastStored hs
    · by_contra hnot
      have hnewer := (hg.loaded ho).newer hnot ho
      rw [heq] at hnewer
      exact UInt64.not_le.2 hnewer (hg.le ho)
  · rintro ⟨hlast, hstored⟩
    cases hs : lastStored (h₂ ++ h₁) with
    | none =>
      cases hl : lastLoaded h₁ with
      | none => rfl
      | some g =>
        have hle := (hlast g hl).le ho
        rw [hs, Option.getD_none] at hle
        have hlow := ((loaded_of_lastLoaded hl).between ho₁).1
        exact absurd hle (UInt64.not_le.2 hlow)
    | some g' =>
      have hload := hstored g' (stored_of_lastStored hs)
      have hle := (hload.between ho₁).2
      cases hl : lastLoaded h₁ with
      | none =>
        rw [hl, Option.getD_none] at hle
        exact absurd hle (UInt64.not_le.2 (hload.between ho₁).1)
      | some g =>
        have hle' := (hlast g hl).le ho
        rw [hs] at hle'
        rw [hl] at hle
        exact UInt64.le_antisymm hle' hle

end InGenerations

/-! ## The protocol of the two tasks -/

inductive PollStage where
  | start
  | replied
  | noted
  | created (update : NodeStateUpdate)

/-- Where a task is: the relay with the generation of the last list it has loaded (`pending`: not
tagged), a poll with the song of its reply. -/
inductive SyncPhase where
  | relaying (loaded : UInt64) (pending : Bool)
  | polling (song : Option UInt64) (stage : PollStage)

def SyncPhase.after : SyncPhase → SyncSect → SyncPhase
  | .relaying _ _, .load g => .relaying g true
  | .relaying g _, .store _ => .relaying g false
  | .polling song .start, .reply => .polling song .replied
  | .polling song .replied, .writeState => .polling song .noted
  | .polling song .noted, .create u => .polling song (.created u)
  | q, _ => q

/-- A poll with this song in its reply. -/
def SyncPhase.Polls (song : Option UInt64) (q : SyncPhase) : Prop := ∃ stage, q = .polling song stage

/-- A poll that has had its reply. -/
def SyncPhase.Replied (q : SyncPhase) : Prop := ∃ song stage, q = .polling song stage ∧ stage ≠ .start

/-- A poll that has made the update. -/
def SyncPhase.Made (u : NodeStateUpdate) (q : SyncPhase) : Prop :=
  q = .polling u.mpdSongIndex (.created u)

theorem SyncPhase.polls_after {q : SyncPhase} {song : Option UInt64} (hq : q.Polls song)
    (l : SyncSect) : (q.after l).Polls song := by
  obtain ⟨stage, rfl⟩ := hq
  cases stage <;> cases l <;> exact ⟨_, rfl⟩

theorem SyncPhase.made_after {q : SyncPhase} {l : SyncSect} {u : NodeStateUpdate}
    (h : (q.after l).Made u) (hnot : ¬ q.Made u) : l = .create u := by
  cases q with
  | relaying g pending => cases l <;> cases h
  | polling song' stage =>
    cases stage <;> cases l <;> first | exact absurd h hnot | (cases h <;> rfl)

theorem SyncPhase.replied_after {q : SyncPhase} {l : SyncSect} (h : (q.after l).Replied)
    (hnot : ¬ q.Replied) : l = .reply := by
  obtain ⟨song, stage, hq, hne⟩ := h
  cases q with
  | relaying g pending => cases l <;> cases hq
  | polling song' stage' =>
    by_cases hstart : stage' = .start
    · subst hstart
      cases l <;> first | rfl | (cases hq; exact absurd rfl hne)
    · exact absurd ⟨song', stage', rfl, hstart⟩ hnot

/-- What a step does, and from which phase. -/
def syncEffect (q : SyncPhase) (l : SyncSect) (w w' : OutputNode) : Prop :=
  match l with
  | .load g => w'.list = g ∧ w'.projectionGeneration = w.projectionGeneration ∧
      ∃ g' pending, q = .relaying g' pending ∧ g' < g
  | .store g => w'.list = w.list ∧ w'.projectionGeneration = g ∧ q = .relaying g true
  | .refuse => w'.list = w.list ∧ w'.projectionGeneration = w.projectionGeneration ∧
      ∃ g pending, q = .relaying g pending
  | .reply => w'.list = w.list ∧ w'.projectionGeneration = w.projectionGeneration ∧
      ∃ song, q = .polling song .start
  | .writeState => w'.list = w.list ∧ w'.projectionGeneration = w.projectionGeneration ∧
      ∃ song, q = .polling song .replied
  | .create u => w'.list = w.list ∧ w'.projectionGeneration = w.projectionGeneration ∧
      u.projectionGeneration = w.projectionGeneration ∧ q = .polling u.mpdSongIndex .noted

def syncProtocol :
    Protocol OutputNode SyncSect NodeStateUpdate (Except CoreError Unit) SyncPhase where
  onSect q l _ _ := q.after l
  onCall q _ _ := q
  rely _ _ _ := True
  sectOk := syncEffect
  callOk q u := q.Made u

theorem follows_onStateChanged {song : Option UInt64} {state : PlaybackState}
    (h : state.currentIndex = song.map UInt64.toNat) :
    Follows syncProtocol (fun _ _ => True) (.polling song .noted) (onStateChanged state) := by
  have hsong : state.currentIndex.map UInt64.ofNat = song := by
    rw [h, Option.map_map]
    cases song <;> simp
  unfold onStateChanged
  cases state.nodes.head? with
  | none => trivial
  | some node =>
    refine (follows_bind _ _).2 (follows_sect.2 fun w _ => ?_)
    have hu : (nodeStateUpdate node state w.projectionGeneration).mpdSongIndex = song := hsong
    refine ⟨⟨rfl, rfl, rfl, by rw [hu]⟩, follows_tell.2 ⟨?_, fun _ => trivial⟩⟩
    show SyncPhase.polling song _ = .polling _ _
    rw [hu]

theorem follows_pollStatus (status : MpdStatus) :
    Follows syncProtocol (fun _ _ => True) (.polling status.song .start) (pollStatus status) := by
  refine (follows_bind _ _).2 (follows_sect.2 fun w _ => ⟨⟨rfl, rfl, _, rfl⟩, ?_⟩)
  refine (follows_bind _ _).2 (follows_sect.2 fun w _ => ⟨⟨rfl, rfl, _, rfl⟩, ?_⟩)
  exact follows_onStateChanged rfl

/-- By the commands that are left: each is newer than the last list. -/
theorem follows_relay (commands : List (UInt64 × ListOutcome)) :
    ∀ (g : UInt64) (pending : Bool), (g :: commands.map Prod.fst).Pairwise (· < ·) →
      Follows syncProtocol (fun _ _ => True) (.relaying g pending) (relay commands) := by
  induction commands with
  | nil => intro g pending _; trivial
  | cons c rest ih =>
    obtain ⟨g', outcome⟩ := c
    intro g pending hinc
    obtain ⟨hfirst, hrest⟩ := List.pairwise_cons.1 hinc
    have hlt : g < g' := hfirst g' List.mem_cons_self
    have hskip : (g :: rest.map Prod.fst).Pairwise (· < ·) :=
      List.pairwise_cons.2 ⟨fun x hx => hfirst x (List.mem_cons_of_mem _ hx), hrest.of_cons⟩
    rw [relay]
    refine (follows_bind _ _).2 ((follows_attempt _).2 ?_)
    cases outcome with
    | loaded =>
      refine (follows_bind _ _).2 (follows_sect.2 fun w _ => ⟨⟨rfl, rfl, _, _, rfl, hlt⟩, ?_⟩)
      exact follows_sect.2 fun w _ => ⟨⟨rfl, rfl, rfl⟩, ih g' false hrest⟩
    | failed changed =>
      cases changed with
      | true =>
        rw [executeSetQueue]
        exact follows_sect.2 fun w _ => ⟨⟨rfl, rfl, _, _, rfl, hlt⟩, ih g' true hrest⟩
      | false =>
        rw [executeSetQueue]
        exact follows_sect.2 fun w _ => ⟨⟨rfl, rfl, _, _, rfl⟩, ih g pending hskip⟩

/-! ## Every interleaving -/

section Runs

variable [DecidableEq ι] {g₀ : UInt64} {polls : ι → MpdStatus} {h : List (SyncEntry ι)}

def syncStart (g₀ : UInt64) (polls : ι → MpdStatus) : Option ι → SyncPhase
  | none => .relaying g₀ false
  | some i => .polling (polls i).song .start

abbrev syncPhase (g₀ : UInt64) (polls : ι → MpdStatus) (h : List (SyncEntry ι)) (i : Option ι) :
    SyncPhase :=
  Pool.phase syncProtocol (syncStart g₀ polls) i h

/-- A poll keeps its song. -/
theorem polls_phase (i : ι) (h : List (SyncEntry ι)) :
    (syncPhase g₀ polls h (some i)).Polls (polls i).song := by
  have h0 : (syncStart g₀ polls (some i)).Polls (polls i).song := ⟨_, rfl⟩
  refine Pool.phase_invariant h0 (fun q e hq => ?_) h
  unfold Pool.advance
  cases e.act with
  | call u r => exact hq
  | sect l => exact SyncPhase.polls_after hq l

/-- An update that a poll has made, it has made in one of its steps. -/
theorem exists_create {i : ι} {u : NodeStateUpdate}
    (hq : (syncPhase g₀ polls h (some i)).Made u) :
    ∃ h₂ e h₁, h = h₂ ++ e :: h₁ ∧ e.who = some i ∧ e.act = .sect (.create u) := by
  have h0 : ¬ (syncStart g₀ polls (some i)).Made u := fun hmade =>
    nomatch (SyncPhase.polling.inj hmade).2
  obtain ⟨t, e, he, hwho, h', hnot, hnew⟩ := Pool.exists_turn h0 hq
  obtain ⟨h₂, h₁, rfl, -⟩ := Pool.exists_append_of_entryAt he
  refine ⟨h₂, e, h₁, rfl, hwho, ?_⟩
  unfold Pool.advance at hnew
  cases hact : e.act with
  | call u' r =>
    rw [hact] at hnew
    exact absurd hnew hnot
  | sect l =>
    rw [hact] at hnew
    rw [SyncPhase.made_after hnew hnot]

/-- A poll that has gone on has had its reply. -/
theorem exists_reply {i : ι} (hq : (syncPhase g₀ polls h (some i)).Replied) :
    ∃ h₂ e h₁, h = h₂ ++ e :: h₁ ∧ e.who = some i ∧ e.act = .sect .reply := by
  have h0 : ¬ (syncStart g₀ polls (some i)).Replied := fun ⟨_, _, hs, hne⟩ => by
    cases hs
    exact hne rfl
  obtain ⟨t, e, he, hwho, h', hnot, hnew⟩ := Pool.exists_turn h0 hq
  obtain ⟨h₂, h₁, rfl, -⟩ := Pool.exists_append_of_entryAt he
  refine ⟨h₂, e, h₁, rfl, hwho, ?_⟩
  unfold Pool.advance at hnew
  cases hact : e.act with
  | call u' r =>
    rw [hact] at hnew
    exact absurd hnew hnot
  | sect l =>
    rw [hact] at hnew
    rw [SyncPhase.replied_after hnew hnot]

/-- What holds after the history `h` in the state `w`. -/
structure SyncInv (g₀ : UInt64) (polls : ι → MpdStatus) (h : List (SyncEntry ι)) (w : OutputNode) :
    Prop where
  list : w.list = (lastLoaded h).getD g₀
  tag : w.projectionGeneration = (lastStored h).getD g₀
  ordered : InGenerations g₀ h
  relay : ∃ pending, syncPhase g₀ polls h none = .relaying ((lastLoaded h).getD g₀) pending ∧
    (pending = true → (lastStored h).getD g₀ < (lastLoaded h).getD g₀)

/-- A step that neither loads nor stores. -/
theorem SyncInv.keep {i : Option ι} {l : SyncSect} {w w' : OutputNode}
    (hinv : SyncInv g₀ polls h w) (hload : ∀ g, l ≠ .load g) (hstore : ∀ g, l ≠ .store g)
    (hlist : w'.list = w.list) (htag : w'.projectionGeneration = w.projectionGeneration) :
    SyncInv g₀ polls (⟨i, .sect l, w, w'⟩ :: h) w' := by
  have hl : lastLoaded (⟨i, .sect l, w, w'⟩ :: h) = lastLoaded h := by
    cases l with
    | load g => exact absurd rfl (hload g)
    | _ => rfl
  have hs : lastStored (⟨i, .sect l, w, w'⟩ :: h) = lastStored h := by
    cases l with
    | store g => exact absurd rfl (hstore g)
    | _ => rfl
  refine ⟨by rw [hl, hlist, hinv.list], by rw [hs, htag, hinv.tag], ⟨hinv.ordered, ?_⟩, ?_⟩
  · cases l with
    | load g => exact absurd rfl (hload g)
    | store g => exact absurd rfl (hstore g)
    | _ => trivial
  · obtain ⟨pending, hq, hpending⟩ := hinv.relay
    rw [hl, hs]
    refine ⟨pending, ?_, hpending⟩
    cases i with
    | some j =>
      have hne : some j ≠ none := Option.some_ne_none j
      exact (Pool.phase_of_ne hne).trans hq
    | none =>
      have hafter : syncPhase g₀ polls (⟨none, .sect l, w, w'⟩ :: h) none =
          (syncPhase g₀ polls h none).after l := Pool.phase_self
      rw [hafter, hq]
      cases l with
      | load g => exact absurd rfl (hload g)
      | store g => exact absurd rfl (hstore g)
      | _ => rfl

theorem SyncInv.call {i : Option ι} {u : NodeStateUpdate} {r : Except CoreError Unit}
    {w : OutputNode} (hinv : SyncInv g₀ polls h w) :
    SyncInv g₀ polls (⟨i, .call u r, w, w⟩ :: h) w := by
  obtain ⟨pending, hq, hpending⟩ := hinv.relay
  refine ⟨hinv.list, hinv.tag, ⟨hinv.ordered, trivial⟩, pending, ?_, hpending⟩
  cases i with
  | none => exact Pool.phase_self.trans hq
  | some j =>
    have hne : some j ≠ none := Option.some_ne_none j
    exact (Pool.phase_of_ne hne).trans hq

theorem syncInv_step {i : Option ι} {l : SyncSect} {w w' : OutputNode}
    (hinv : SyncInv g₀ polls h w) (hok : syncEffect (syncPhase g₀ polls h i) l w w') :
    SyncInv g₀ polls (⟨i, .sect l, w, w'⟩ :: h) w' := by
  have hrelay : ∀ {g pending}, syncPhase g₀ polls h i = .relaying g pending → i = none := by
    intro g pending hq
    cases i with
    | none => rfl
    | some j =>
      obtain ⟨stage, hs⟩ : (syncPhase g₀ polls h (some j)).Polls (polls j).song := polls_phase j h
      rw [hq] at hs
      cases hs
  obtain ⟨pending, hphase, hpending⟩ := hinv.relay
  cases l with
  | load g =>
    obtain ⟨hlist, htag, g', pending', hq, hlt⟩ := hok
    obtain rfl := hrelay hq
    obtain ⟨rfl, rfl⟩ := SyncPhase.relaying.inj (hq.symm.trans hphase)
    have hnext : (lastStored h).getD g₀ < g :=
      UInt64.lt_of_le_of_lt (lastStored_le_lastLoaded hinv.ordered) hlt
    refine ⟨hlist, htag.trans hinv.tag, ⟨hinv.ordered, hlt⟩, true, ?_, fun _ => hnext⟩
    exact Pool.phase_self.trans (congrArg (SyncPhase.after · (.load g)) hq)
  | store g =>
    obtain ⟨hlist, htag, hq⟩ := hok
    obtain rfl := hrelay hq
    obtain ⟨hg, rfl⟩ := SyncPhase.relaying.inj (hq.symm.trans hphase)
    have hlt : (lastStored h).getD g₀ < g := by
      rw [hg]
      exact hpending rfl
    refine ⟨hlist.trans hinv.list, htag, ⟨hinv.ordered, hg.symm, hlt⟩, false, ?_, nofun⟩
    exact Pool.phase_self.trans (congrArg (SyncPhase.after · (.store g)) hphase)
  | reply | writeState | refuse => exact hinv.keep nofun nofun hok.1 hok.2.1
  | create u => exact hinv.keep nofun nofun hok.1 hok.2.1

/-- Every update that the node sends was made by a poll after a reply to it. The song is the one of
the reply, and MPD had at the reply the list of the reported generation exactly if the reply was
apart. -/
theorem report_paired_iff (g₀ : UInt64) (state : PlaybackState) (polls : ι → MpdStatus)
    (commands : List (UInt64 × ListOutcome))
    (hinc : (g₀ :: commands.map Prod.fst).Pairwise (· < ·)) (h : List (SyncEntry ι)) (p : SyncPool ι)
    (hr : Pool.Interleaving (syncPool g₀ state polls commands) h p) (h₂ h₁ : List (SyncEntry ι))
    (i : ι) (u : NodeStateUpdate) (r : Except CoreError Unit) (w w' : OutputNode)
    (hsent : h = h₂ ++ ⟨some i, .call u r, w, w'⟩ :: h₁) :
    ∃ hlater created atCreation hbetween reply atReply,
      h₁ = hlater ++ created :: atCreation ∧ created.who = some i ∧
        created.act = .sect (.create u) ∧
      atCreation = hbetween ++ reply :: atReply ∧ reply.who = some i ∧ reply.act = .sect .reply ∧
      u.mpdSongIndex = (polls i).song ∧
      (reply.pre.list = u.projectionGeneration ↔ ReplyApart atReply atCreation) := by
  have hfollows : ∀ i, ((syncPool g₀ state polls commands).task i).Follows syncProtocol
      (fun _ _ => True) (syncStart g₀ polls i) := fun i => by
    cases i with
    | none => exact follows_relay commands g₀ false hinc
    | some i => exact follows_pollStatus (polls i)
  have hinit : SyncInv g₀ polls [] (syncPool g₀ state polls commands).shared :=
    ⟨rfl, rfl, trivial, false, rfl, nofun⟩
  obtain ⟨-, -, hentry⟩ : SyncInv g₀ polls h p.shared ∧ _ ∧
      ∀ h₂ e h₁, h = h₂ ++ e :: h₁ → SyncInv g₀ polls h₁ e.pre ∧
        ∀ l, e.act = .sect l → syncEffect (syncPhase g₀ polls h₁ e.who) l e.pre e.post :=
    Pool.Run.invariant (P := fun _ => syncProtocol) hinit hfollows (fun _ _ _ _ _ => trivial)
      (fun _ _ _ _ _ hinv hok _ => syncInv_step hinv hok)
      (fun _ _ _ _ _ hinv _ _ => hinv.call) hr
  have hresp := (Pool.Run.follows hfollows (fun _ _ _ _ _ _ => trivial) hr).1
  subst hsent
  -- from the call back to the creation, and from there to the reply
  have hmade : (syncPhase g₀ polls h₁ (some i)).Made u := hresp.of_append.1
  obtain ⟨hlater, created, atCreation, rfl, hwho, hact⟩ := exists_create hmade
  obtain ⟨hinv, hsect⟩ := hentry (h₂ ++ ⟨some i, .call u r, w, w'⟩ :: hlater) created atCreation
    (by simp)
  obtain ⟨-, -, hgen, hnoted⟩ := hsect _ hact
  rw [hwho] at hnoted
  obtain ⟨hbetween, reply, atReply, rfl, hwho', hact'⟩ := exists_reply ⟨_, _, hnoted, nofun⟩
  obtain ⟨hinv', -⟩ := hentry
    (h₂ ++ ⟨some i, .call u r, w, w'⟩ :: hlater ++ created :: hbetween) reply atReply (by simp)
  refine ⟨hlater, created, _, hbetween, reply, atReply, rfl, hwho, hact, rfl, hwho', hact', ?_, ?_⟩
  · obtain ⟨stage, hs⟩ : (syncPhase g₀ polls (hbetween ++ reply :: atReply) (some i)).Polls
        (polls i).song := polls_phase i _
    exact (SyncPhase.polling.inj (hnoted.symm.trans hs)).1
  · rw [hinv'.list, hgen, hinv.tag]
    have hsplit : hbetween ++ reply :: atReply = hbetween ++ [reply] ++ atReply := by simp
    rw [hsplit]
    exact lastLoaded_eq_lastStored_iff (hsplit ▸ hinv.ordered)

end Runs

end Pools

/-! ## A list that changes during a poll -/

/-- A poll is told of song 3. -/
def songThree : Unit → MpdStatus := fun _ =>
  { elapsed := 0, song := some 3, volume := 50, status := .playing }

/-- A list of generation 1 is on its way. -/
def changingList : SyncPool Unit :=
  syncPool 0 { PlaybackState.empty with nodes := [{}] } songThree [(1, .loaded)]

/-- The list is loaded and tagged between the reply and the update. -/
def listBetween : List (Option Unit × Except CoreError Unit) :=
  [(some (), .ok ()), (none, .ok ()), (none, .ok ())] ++ List.replicate 3 (some (), .ok ())

def mispaired : NodeStateUpdate where
  status := .playing
  positionSecs := 0
  volume := 50
  mpdSongIndex := some 3
  projectionGeneration := 1

theorem report_paired_iff_listBetween :
    ∃ hlater created atCreation hbetween reply atReply,
      (Pool.exec listBetween ([], changingList)).1.tail = hlater ++ created :: atCreation ∧
        created.who = some () ∧ created.act = .sect (.create mispaired) ∧
      atCreation = hbetween ++ reply :: atReply ∧ reply.who = some () ∧ reply.act = .sect .reply ∧
      mispaired.mpdSongIndex = (songThree ()).song ∧
      (reply.pre.list = mispaired.projectionGeneration ↔ ReplyApart atReply atCreation) :=
  report_paired_iff 0 { PlaybackState.empty with nodes := [{}] } songThree [(1, .loaded)] (by decide)
    (Pool.exec listBetween ([], changingList)).1 _ (Pool.exec_run listBetween .init) [] _ () mispaired
    (.ok ()) _ _ rfl

/-- Song 3 of list 0 is reported as one of list 1. -/
theorem listBetween_mispaired :
    ∃ h p reply, Pool.Interleaving changingList h p ∧
      (∃ w h₁, h = ⟨some (), .call mispaired (.ok ()), w, w⟩ :: h₁) ∧
      reply ∈ h ∧ reply.who = some () ∧ reply.act = .sect .reply ∧ reply.pre.list = 0 ∧
      mispaired.projectionGeneration = 1 :=
  have hlast : (Pool.exec listBetween ([], changingList)).1.getLast? =
      some ⟨some (), .sect .reply, changingList.shared, changingList.shared⟩ := rfl
  ⟨_, _, _, Pool.exec_run listBetween .init, ⟨_, _, rfl⟩, List.mem_of_getLast? hlast, rfl, rfl, rfl,
    rfl⟩

end Kanade

import Mathlib.Data.List.Nodup
import Kanade.Concur.Runs
import Kanade.Ws.MediaAuth

/-!
# Kanade.Ws.MediaKeys

The media keys of UI and node connections over time: issued when a connection opens and, for a node,
at each rotation; revoked when a rotation is over or fails, when the overlap has passed, and at the
end of a connection; removed by the cleanup when they are old.

Times are in nanoseconds. A run is a list of events, `wait` among them, in any order and at any
durations. An event that the code is not in the place for changes nothing.

`stored_iff`: a key that was drawn for a connection is stored exactly if the connection still has a
use for it and the last cleanup did not find it too old. The rest is read off it:

* `keys_usable_iff`: the key a connection uses goes only when it is old.
* `keys_gone_iff`: a UI connection leaves its key behind.
* `urls_accepted_iff`: a URL outlives its key.
-/

namespace Kanade

open Concur

/-! ## Connections -/

def secs (n : Nat) : Nat := n * 1000000000

/-- `NODE_MEDIA_KEY_OVERLAP_SECS`. -/
def nodeMediaKeyOverlap : Nat := secs (5 * 60)

/-- The age of the cleanup: `MEDIA_URL_TTL_SECS + 300`. -/
def keyMaxAge : Nat := secs (mediaUrlTtlSecs.toNat + 300)

/-- A key as the handler of its connection has it. -/
structure IssuedKey where
  id : String
  key : MediaKey
  createdAt : Nat
deriving DecidableEq

def IssuedKey.stored (k : IssuedKey) : StoredKey := { key := k.key, createdAt := k.createdAt }

/-- Where the handler of a connection is. -/
inductive KeyPhase where
  /-- `run_ui_mode`, before its loop. -/
  | uiGreeting (key : IssuedKey)
  | uiServing (key : IssuedKey)
  /-- `served`: after its loop. -/
  | uiReturned (key : IssuedKey) (served : Bool)
  /-- `run_node_mode`, before its loop. -/
  | nodeAcking (key : IssuedKey)
  /-- `active_key_id` and `issued_key_ids`. -/
  | nodeServing (active : IssuedKey) (issued : List IssuedKey)
  /-- The next key is on its way to the node. -/
  | nodeRotating (active : IssuedKey) (issued : List IssuedKey) (next : IssuedKey)
  | nodeReturned

namespace KeyPhase

/-- The key announced last, while the connection is open. -/
def announced : KeyPhase → Option IssuedKey
  | .uiServing key => some key
  | .nodeServing active _ => some active
  | .nodeRotating active _ _ => some active
  | _ => none

def returned : KeyPhase → Bool
  | .uiReturned _ _ | .nodeReturned => true
  | _ => false

/-- The keys that no delayed revocation is for. -/
def held : KeyPhase → List IssuedKey
  | .uiGreeting key | .uiServing key | .nodeAcking key => [key]
  | .uiReturned key served => if served then [key] else []
  | .nodeServing active _ => [active]
  | .nodeRotating active _ next => [active, next]
  | .nodeReturned => []

/-- The keys that go at the end, if not before. -/
def issued : KeyPhase → List IssuedKey
  | .nodeServing _ issued => issued
  | .nodeRotating _ issued _ => issued
  | _ => []

end KeyPhase

/-- How a message to the client, or the loop, ends. -/
inductive KeyOutcome where
  | sent
  | notSerialized
  | failed
  /-- The loop is left, for whatever reason. -/
  | left
deriving DecidableEq

/-- What the handler does with keys. -/
structure KeyMove where
  phase : KeyPhase
  revoked : List IssuedKey := []
  /-- To be revoked when the overlap is over. -/
  superseded : List IssuedKey := []

def KeyPhase.move : KeyPhase → KeyOutcome → Option KeyMove
  | .uiGreeting key, .sent => some { phase := .uiServing key }
  | .uiGreeting key, .failed => some { phase := .uiReturned key false, revoked := [key] }
  -- `run_ui_mode` does nothing about its key after the loop.
  | .uiServing key, .left => some { phase := .uiReturned key true }
  | .nodeAcking key, .sent => some { phase := .nodeServing key [key] }
  | .nodeAcking key, .notSerialized => some { phase := .nodeReturned, revoked := [key] }
  | .nodeAcking key, .failed => some { phase := .nodeReturned, revoked := [key] }
  | .nodeServing _ issued, .left => some { phase := .nodeReturned, revoked := issued }
  | .nodeRotating active issued next, .sent =>
    some { phase := .nodeServing next (issued ++ [next]), superseded := [active] }
  | .nodeRotating active issued next, .notSerialized =>
    some { phase := .nodeServing active issued, revoked := [next] }
  | .nodeRotating _ issued next, .failed =>
    some { phase := .nodeReturned, revoked := next :: issued }
  | _, _ => none

/-- A connection, with the keys drawn for it. -/
structure KeyConnection where
  phase : KeyPhase
  drawn : List IssuedKey

/-! ## The server -/

/-- The text of a new UUID. -/
structure Uuid where
  text : String
  isUuid : IsUuid text

structure KeyServer where
  now : Nat
  store : MediaKeyStore
  connections : Nat → Option KeyConnection
  /-- The spawned revocations: a key id, and when it is due. -/
  overlaps : List (String × Nat)
  drawnIds : List String
  /-- When the cleanup ran last. -/
  lastCleanup : Nat

inductive KeyEvent where
  | wait (duration : Nat)
  | connectUi (c : Nat) (kid : Uuid) (key : MediaKey)
  | connectNode (c : Nat) (kid : Uuid) (key : MediaKey)
  /-- A tick of `media_key_broadcast_interval`. -/
  | rotate (c : Nat) (kid : Uuid) (key : MediaKey)
  | outcome (c : Nat) (o : KeyOutcome)
  /-- The `i`-th spawned revocation. -/
  | overlapEnds (i : Nat)
  /-- A tick of the cleanup. -/
  | cleanup

def MediaKeyStore.revokeAll (store : MediaKeyStore) (ks : List IssuedKey) : MediaKeyStore :=
  ks.foldl (fun store k => store.revoke k.id) store

namespace KeyServer

def new : KeyServer where
  now := 0
  store := .new
  connections := fun _ => none
  overlaps := []
  drawnIds := []
  lastCleanup := 0

/-- Generates a key for the connection. An id that was drawn before is not drawn again. -/
def draw (s : KeyServer) (c : Nat) (kid : Uuid) (key : MediaKey) (drawn : List IssuedKey)
    (phase : IssuedKey → KeyPhase) : KeyServer :=
  if kid.text ∈ s.drawnIds then s
  else
    let k : IssuedKey := { id := kid.text, key := key, createdAt := s.now }
    { s with
      store := s.store.generate kid.text kid.isUuid key s.now
      connections := Function.update s.connections c (some { phase := phase k, drawn := k :: drawn })
      drawnIds := kid.text :: s.drawnIds }

def carryOut (s : KeyServer) (c : Nat) (drawn : List IssuedKey) (m : KeyMove) : KeyServer :=
  { s with
    store := s.store.revokeAll m.revoked
    connections := Function.update s.connections c (some { phase := m.phase, drawn := drawn })
    overlaps := s.overlaps ++ m.superseded.map fun k => (k.id, s.now + nodeMediaKeyOverlap) }

def connect (s : KeyServer) (c : Nat) (kid : Uuid) (key : MediaKey)
    (phase : IssuedKey → KeyPhase) : KeyServer :=
  match s.connections c with
  | none => s.draw c kid key [] phase
  | some _ => s

def rotate (s : KeyServer) (c : Nat) (kid : Uuid) (key : MediaKey) : KeyServer :=
  match s.connections c with
  | some { phase := .nodeServing active issued, drawn := drawn } =>
    s.draw c kid key drawn (.nodeRotating active issued)
  | _ => s

def outcome (s : KeyServer) (c : Nat) (o : KeyOutcome) : KeyServer :=
  match s.connections c with
  | none => s
  | some conn =>
    match conn.phase.move o with
    | some m => s.carryOut c conn.drawn m
    | none => s

def overlapEnds (s : KeyServer) (i : Nat) : KeyServer :=
  match s.overlaps[i]? with
  | none => s
  | some (kid, due) =>
    if due ≤ s.now then
      { s with store := s.store.revoke kid, overlaps := s.overlaps.eraseIdx i }
    else s

def cleanup (s : KeyServer) : KeyServer :=
  { s with store := s.store.cleanupExpired s.now keyMaxAge, lastCleanup := s.now }

def step (e : KeyEvent) (s : KeyServer) : KeyServer :=
  match e with
  | .wait duration => { s with now := s.now + duration }
  | .connectUi c kid key => s.connect c kid key .uiGreeting
  | .connectNode c kid key => s.connect c kid key .nodeAcking
  | .rotate c kid key => s.rotate c kid key
  | .outcome c o => s.outcome c o
  | .overlapEnds i => s.overlapEnds i
  | .cleanup => s.cleanup

/-- The server after the events. -/
def run (es : List KeyEvent) : KeyServer := runAll step es new

end KeyServer

/-! ## What becomes of the keys of a connection -/

/-- The connection has a use for the key, or its revocation is still to come. -/
def KeyPhase.keeps (phase : KeyPhase) (overlapIds : List String) (k : IssuedKey) : Prop :=
  k ∈ phase.held ∨ (k ∈ phase.issued ∧ k.id ∈ overlapIds)

/-- The keys of the phase are among those drawn, and a key on its way is not yet issued. -/
def KeyPhase.Uses (drawn : List IssuedKey) : KeyPhase → Prop
  | .uiGreeting key | .uiServing key | .uiReturned key _ | .nodeAcking key => key ∈ drawn
  | .nodeServing active issued => active ∈ issued ∧ issued ⊆ drawn
  | .nodeRotating active issued next =>
    active ∈ issued ∧ issued ⊆ drawn ∧ next ∈ drawn ∧ next ∉ issued
  | .nodeReturned => True

/-- What a move leaves of the keys drawn for a connection. -/
structure KeyMove.Fits (phase : KeyPhase) (drawn : List IssuedKey) (m : KeyMove) : Prop where
  uses : m.phase.Uses drawn
  revoked : m.revoked ⊆ drawn
  held : m.phase.held ⊆ phase.held
  superseded : ∀ k ∈ m.superseded, k ∈ phase.held ∧ k ∉ m.phase.held
  nodup : (m.superseded.map IssuedKey.id).Nodup
  keeps : ∀ ids, ∀ k ∈ drawn, m.phase.keeps (ids ++ m.superseded.map IssuedKey.id) k ↔
    phase.keeps ids k ∧ k ∉ m.revoked

theorem KeyPhase.held_subset {phase : KeyPhase} {drawn : List IssuedKey} (h : phase.Uses drawn) :
    phase.held ⊆ drawn := by
  cases phase with
  | uiReturned key served =>
    cases served with
    | true => simpa [held, Uses] using h
    | false => simp [held]
  | nodeServing active issued => simpa [held] using h.2 h.1
  | nodeRotating active issued next =>
    obtain ⟨hactive, hissued, hnext, -⟩ := h
    simp [held, hissued hactive, hnext]
  | nodeReturned => simp [held]
  | _ => simpa [held, Uses] using h

section Keeps

variable {ids : List String} {k active next : IssuedKey} {issued : List IssuedKey}

theorem keeps_nodeServing : (KeyPhase.nodeServing active issued).keeps ids k ↔
    k = active ∨ (k ∈ issued ∧ k.id ∈ ids) := by
  simp [KeyPhase.keeps, KeyPhase.held, KeyPhase.issued]

theorem keeps_nodeRotating : (KeyPhase.nodeRotating active issued next).keeps ids k ↔
    k = active ∨ k = next ∨ (k ∈ issued ∧ k.id ∈ ids) := by
  simp [KeyPhase.keeps, KeyPhase.held, KeyPhase.issued, or_assoc]

theorem not_keeps_nodeReturned : ¬ KeyPhase.nodeReturned.keeps ids k := by
  simp [KeyPhase.keeps, KeyPhase.held, KeyPhase.issued]

end Keeps

theorem KeyPhase.move_fits {phase : KeyPhase} {drawn : List IssuedKey} {o : KeyOutcome} {m : KeyMove}
    (h : phase.Uses drawn) (hid : ∀ k ∈ drawn, ∀ k' ∈ drawn, k.id = k'.id → k = k')
    (hmove : phase.move o = some m) : m.Fits phase drawn := by
  cases phase with
  | uiGreeting key =>
    cases o <;> cases hmove
    · constructor <;> simp_all [Uses, held, KeyPhase.keeps, KeyPhase.issued]
    · constructor <;> simp_all [Uses, held, KeyPhase.keeps, KeyPhase.issued]
  | uiServing key =>
    cases o <;> cases hmove
    constructor <;> simp_all [Uses, held, KeyPhase.keeps, KeyPhase.issued]
  | uiReturned key served => cases o <;> cases hmove
  | nodeAcking key =>
    cases o <;> cases hmove
    · constructor <;> simp_all [Uses, held, KeyPhase.keeps, KeyPhase.issued]
    · constructor <;> simp_all [Uses, held, KeyPhase.keeps, KeyPhase.issued]
    · constructor <;> simp_all [Uses, held, KeyPhase.keeps, KeyPhase.issued]
  | nodeServing active issued =>
    obtain ⟨hactive, hissued⟩ := h
    cases o <;> cases hmove
    refine ⟨trivial, hissued, by simp [held], by simp, by simp, ?_⟩
    intro ids k hk
    rw [keeps_nodeServing]
    refine iff_of_false not_keeps_nodeReturned ?_
    rintro ⟨rfl | ⟨hmem, -⟩, hnot⟩
    · exact hnot hactive
    · exact hnot hmem
  | nodeRotating active issued next =>
    obtain ⟨hactive, hissued, hnext, hnew⟩ := h
    have hne : active ≠ next := fun heq => hnew (heq ▸ hactive)
    cases o <;> cases hmove
    · -- The next key takes over, and the active one is for the overlap.
      refine ⟨⟨by simp, ?_⟩, by simp, by simp [held], by simp [held, hne], by simp, ?_⟩
      · intro k hk
        rcases List.mem_append.1 hk with hk | hk
        · exact hissued hk
        · rwa [List.mem_singleton.1 hk]
      intro ids k hk
      have hover : k.id ∈ ids ++ [active].map IssuedKey.id ↔ k.id ∈ ids ∨ k = active := by
        rw [List.mem_append, List.map_singleton, List.mem_singleton]
        exact or_congr_right ⟨hid k hk active (hissued hactive), congrArg _⟩
      rw [keeps_nodeServing, keeps_nodeRotating, hover, List.mem_append, List.mem_singleton]
      constructor
      · rintro (rfl | ⟨hmem | rfl, hids | rfl⟩) <;> simp_all
      · rintro ⟨rfl | rfl | ⟨hmem, hids⟩, -⟩ <;> simp_all
    · refine ⟨⟨hactive, hissued⟩, by simpa using hnext, by simp [held], by simp, by simp, ?_⟩
      intro ids k hk
      rw [List.map_nil, List.append_nil, keeps_nodeServing, keeps_nodeRotating, List.mem_singleton]
      constructor
      · rintro (rfl | ⟨hmem, hids⟩)
        · exact ⟨.inl rfl, hne⟩
        · exact ⟨.inr (.inr ⟨hmem, hids⟩), fun heq => hnew (heq ▸ hmem)⟩
      · rintro ⟨rfl | rfl | h, hnot⟩
        · exact .inl rfl
        · exact absurd rfl hnot
        · exact .inr h
    · refine ⟨trivial, ?_, by simp [held], by simp, by simp, ?_⟩
      · intro k hk
        rcases List.mem_cons.1 hk with rfl | hk
        · exact hnext
        · exact hissued hk
      intro ids k hk
      rw [keeps_nodeRotating]
      refine iff_of_false not_keeps_nodeReturned ?_
      rintro ⟨rfl | rfl | ⟨hmem, -⟩, hnot⟩
      · exact hnot (List.mem_cons_of_mem _ hactive)
      · exact hnot List.mem_cons_self
      · exact hnot (List.mem_cons_of_mem _ hmem)
  | nodeReturned => cases o <;> cases hmove

/-! ## The store -/

namespace MediaKeyStore

variable {store : MediaKeyStore} {kid : String} {st : StoredKey}

theorem keys_generate_self {huuid : IsUuid kid} {key : MediaKey} {now : Nat} :
    (store.generate kid huuid key now).keys kid = some { key := key, createdAt := now } :=
  Function.update_self ..

theorem keys_generate_of_ne {kid' : String} {huuid : IsUuid kid'} {key : MediaKey} {now : Nat}
    (h : kid ≠ kid') : (store.generate kid' huuid key now).keys kid = store.keys kid :=
  Function.update_of_ne h ..

theorem keys_revoke_iff {kid' : String} : (store.revoke kid').keys kid = some st ↔
    store.keys kid = some st ∧ kid' ≠ kid := by
  by_cases heq : kid = kid'
  · subst heq
    simp [revoke]
  · simp [revoke, Function.update_of_ne heq, Ne.symm heq]

theorem keys_revokeAll_iff {ks : List IssuedKey} : (store.revokeAll ks).keys kid = some st ↔
    store.keys kid = some st ∧ ∀ k ∈ ks, k.id ≠ kid := by
  induction ks generalizing store with
  | nil => simp [revokeAll]
  | cons k ks ih =>
    show ((store.revoke k.id).revokeAll ks).keys kid = some st ↔ _
    rw [ih, keys_revoke_iff, and_assoc, List.forall_mem_cons]

theorem keys_cleanupExpired_iff {now maxAge : Nat} :
    (store.cleanupExpired now maxAge).keys kid = some st ↔
      store.keys kid = some st ∧ now - st.createdAt ≤ maxAge := by
  simp [cleanupExpired, Option.filter_eq_some_iff]

end MediaKeyStore

/-! ## Which keys are stored -/

namespace KeyServer

def overlapIds (s : KeyServer) : List String := s.overlaps.map Prod.fst

/-- The connection keeps the key, and the last cleanup did not find it too old. -/
def Holds (s : KeyServer) (phase : KeyPhase) (k : IssuedKey) : Prop :=
  phase.keeps s.overlapIds k ∧ s.lastCleanup - k.createdAt ≤ keyMaxAge

/-- A key that was drawn for a connection. -/
def Drawn (s : KeyServer) (c : Nat) (k : IssuedKey) : Prop :=
  ∃ conn, s.connections c = some conn ∧ k ∈ conn.drawn

structure Sound (s : KeyServer) : Prop where
  cleanup_le : s.lastCleanup ≤ s.now
  drawn : ∀ c k, s.Drawn c k → k.id ∈ s.drawnIds
  unique : ∀ c k c' k', s.Drawn c k → s.Drawn c' k' → k.id = k'.id → c = c' ∧ k = k'
  uses : ∀ c conn, s.connections c = some conn → conn.phase.Uses conn.drawn
  overlaps_nodup : s.overlapIds.Nodup
  overlaps_drawn : ∀ kid ∈ s.overlapIds, kid ∈ s.drawnIds
  not_held : ∀ kid ∈ s.overlapIds, ∀ c conn, s.connections c = some conn →
    ∀ k ∈ conn.phase.held, k.id ≠ kid
  stored : ∀ c conn, s.connections c = some conn → ∀ k ∈ conn.drawn, ∀ st,
    s.store.keys k.id = some st ↔ st = k.stored ∧ s.Holds conn.phase k

theorem sound_new : new.Sound where
  cleanup_le := Nat.le_refl _
  drawn := fun _ _ h => nomatch h
  unique := fun _ _ _ _ h => nomatch h
  uses := nofun
  overlaps_nodup := List.nodup_nil
  overlaps_drawn := fun _ h => nomatch h
  not_held := fun _ h => nomatch h
  stored := nofun

section Steps

variable {s : KeyServer} {c : Nat} {conn : KeyConnection}

theorem Sound.held_drawn (hs : s.Sound) (hconn : s.connections c = some conn) :
    ∀ k ∈ conn.phase.held, s.Drawn c k :=
  fun _ hk => ⟨conn, hconn, KeyPhase.held_subset (hs.uses c conn hconn) hk⟩

/-- A connection that moves on, and all others. -/
theorem connections_update {conn' conn'' : KeyConnection} {c' : Nat}
    (h : Function.update s.connections c (some conn') c' = some conn'') :
    (c' = c ∧ conn'' = conn') ∨ (c' ≠ c ∧ s.connections c' = some conn'') := by
  by_cases heq : c' = c
  · rw [heq, Function.update_self] at h
    exact .inl ⟨heq, (Option.some.inj h).symm⟩
  · rw [Function.update_of_ne heq] at h
    exact .inr ⟨heq, h⟩

theorem Sound.carryOut (hs : s.Sound) (hconn : s.connections c = some conn) {o : KeyOutcome}
    {m : KeyMove} (hmove : conn.phase.move o = some m) : (s.carryOut c conn.drawn m).Sound := by
  have hown : ∀ k ∈ conn.drawn, s.Drawn c k := fun k hk => ⟨conn, hconn, hk⟩
  have hfits := KeyPhase.move_fits (hs.uses c conn hconn)
    (fun k hk k' hk' heq => (hs.unique c k c k' (hown k hk) (hown k' hk') heq).2) hmove
  have hids : (s.carryOut c conn.drawn m).overlapIds =
      s.overlapIds ++ m.superseded.map IssuedKey.id := by
    simp [overlapIds, KeyServer.carryOut, Function.comp_def]
  have hsuper : ∀ k ∈ m.superseded, s.Drawn c k :=
    fun k hk => hs.held_drawn hconn k (hfits.superseded k hk).1
  have hdrawn : ∀ c' k, (s.carryOut c conn.drawn m).Drawn c' k → s.Drawn c' k := by
    rintro c' k ⟨conn', hconn', hk⟩
    rcases connections_update hconn' with ⟨rfl, rfl⟩ | ⟨-, hconn'⟩
    · exact hown k hk
    · exact ⟨conn', hconn', hk⟩
  refine
    { cleanup_le := hs.cleanup_le
      drawn := fun c' k h => hs.drawn c' k (hdrawn c' k h)
      unique := fun c' k c'' k' h h' => hs.unique c' k c'' k' (hdrawn c' k h) (hdrawn c'' k' h')
      uses := ?_
      overlaps_nodup := ?_
      overlaps_drawn := ?_
      not_held := ?_
      stored := ?_ }
  · intro c' conn' hconn'
    rcases connections_update hconn' with ⟨rfl, rfl⟩ | ⟨-, hconn'⟩
    · exact hfits.uses
    · exact hs.uses c' conn' hconn'
  · rw [hids]
    refine List.nodup_append.2 ⟨hs.overlaps_nodup, hfits.nodup, ?_⟩
    intro kid hkid kid' hkid' heq
    obtain ⟨k, hk, rfl⟩ := List.mem_map.1 hkid'
    exact hs.not_held kid hkid c conn hconn k (hfits.superseded k hk).1 heq.symm
  · intro kid hkid
    rw [hids] at hkid
    rcases List.mem_append.1 hkid with hkid | hkid
    · exact hs.overlaps_drawn kid hkid
    · obtain ⟨k, hk, rfl⟩ := List.mem_map.1 hkid
      exact hs.drawn c k (hsuper k hk)
  · intro kid hkid c' conn' hconn' k hk
    rw [hids] at hkid
    rcases connections_update hconn' with ⟨rfl, rfl⟩ | ⟨hne, hconn'⟩
    · rcases List.mem_append.1 hkid with hkid | hkid
      · exact hs.not_held kid hkid c' conn hconn k (hfits.held hk)
      · obtain ⟨k', hk', rfl⟩ := List.mem_map.1 hkid
        intro heq
        have hk₀ := hs.held_drawn hconn k (hfits.held hk)
        obtain ⟨-, rfl⟩ := hs.unique _ _ _ _ hk₀ (hsuper k' hk') heq
        exact (hfits.superseded k hk').2 hk
    · rcases List.mem_append.1 hkid with hkid | hkid
      · exact hs.not_held kid hkid c' conn' hconn' k hk
      · obtain ⟨k', hk', rfl⟩ := List.mem_map.1 hkid
        intro heq
        exact hne (hs.unique _ _ _ _ (hs.held_drawn hconn' k hk) (hsuper k' hk') heq).1
  · intro c' conn' hconn' k hk st
    have hstore : (s.carryOut c conn.drawn m).store.keys k.id = some st ↔
        s.store.keys k.id = some st ∧ ∀ r ∈ m.revoked, r.id ≠ k.id :=
      MediaKeyStore.keys_revokeAll_iff
    rw [hstore]
    rcases connections_update hconn' with ⟨rfl, rfl⟩ | ⟨hne, hconn'⟩
    · have hrevoked : (∀ r ∈ m.revoked, r.id ≠ k.id) ↔ k ∉ m.revoked := by
        constructor
        · intro h hmem
          exact h k hmem rfl
        · intro h r hr heq
          obtain ⟨-, rfl⟩ := hs.unique _ _ _ _ (hown r (hfits.revoked hr)) (hown k hk) heq
          exact h hr
      rw [hs.stored c' conn hconn k hk, hrevoked, Holds, Holds, hids, hfits.keeps s.overlapIds k hk]
      tauto
    · have hother : ∀ r, s.Drawn c r → r.id ≠ k.id := fun r hr heq =>
        hne (hs.unique _ _ _ _ hr ⟨conn', hconn', hk⟩ heq).1.symm
      have hrevoked : ∀ r ∈ m.revoked, r.id ≠ k.id :=
        fun r hr => hother r (hown r (hfits.revoked hr))
      have hmem : k.id ∈ s.overlapIds ++ m.superseded.map IssuedKey.id ↔ k.id ∈ s.overlapIds := by
        rw [List.mem_append, or_iff_left]
        intro h
        obtain ⟨r, hr, heq⟩ := List.mem_map.1 h
        exact hother r (hsuper r hr) heq
      rw [hs.stored c' conn' hconn' k hk, Holds, Holds, hids, KeyPhase.keeps, KeyPhase.keeps, hmem]
      exact and_iff_left hrevoked

/-- What the phase with a new key is, after the phase `old` with the keys `drawn`. -/
structure Takes (old : KeyPhase) (drawn : List IssuedKey) (k : IssuedKey) (phase : KeyPhase) :
    Prop where
  uses : phase.Uses (k :: drawn)
  held : ∀ k' ∈ phase.held, k' = k ∨ k' ∈ old.held
  keeps_new : ∀ ids, phase.keeps ids k
  keeps_old : ∀ ids, ∀ k' ∈ drawn, k' ≠ k → (phase.keeps ids k' ↔ old.keeps ids k')

/-- A connection that is not there is as good as one that has returned. -/
theorem Sound.draw (hs : s.Sound) {drawn : List IssuedKey} {old : KeyPhase}
    (hold : s.connections c = some ⟨old, drawn⟩ ∨
      s.connections c = none ∧ old = .nodeReturned ∧ drawn = [])
    {kid : Uuid} {key : MediaKey} {phase : IssuedKey → KeyPhase}
    (htakes : ∀ k, k ∉ drawn → Takes old drawn k (phase k)) :
    (s.draw c kid key drawn phase).Sound := by
  unfold KeyServer.draw
  split
  · exact hs
  rename_i hfresh
  generalize hk₀ : ({ id := kid.text, key := key, createdAt := s.now } : IssuedKey) = k₀
  have hid : k₀.id = kid.text := by rw [← hk₀]
  have hown : ∀ k ∈ drawn, s.Drawn c k := by
    intro k hk
    rcases hold with hconn | ⟨-, -, rfl⟩
    · exact ⟨_, hconn, hk⟩
    · cases hk
  have hne : ∀ c' k, s.Drawn c' k → k.id ≠ kid.text :=
    fun c' k h heq => hfresh (heq ▸ hs.drawn c' k h)
  have hnew : k₀ ∉ drawn := fun hmem => hne c k₀ (hown k₀ hmem) hid
  have hfits := htakes k₀ hnew
  dsimp only
  have hdrawn : ∀ c' k,
      (∃ conn', Function.update s.connections c (some ⟨phase k₀, k₀ :: drawn⟩) c' = some conn' ∧
        k ∈ conn'.drawn) → (c' = c ∧ k = k₀) ∨ s.Drawn c' k := by
    rintro c' k ⟨conn', hconn', hk⟩
    rcases connections_update hconn' with ⟨rfl, rfl⟩ | ⟨-, hconn'⟩
    · rcases List.mem_cons.1 hk with rfl | hk
      · exact .inl ⟨rfl, rfl⟩
      · exact .inr (hown k hk)
    · exact .inr ⟨conn', hconn', hk⟩
  refine
    { cleanup_le := hs.cleanup_le
      drawn := ?_
      unique := ?_
      uses := ?_
      overlaps_nodup := hs.overlaps_nodup
      overlaps_drawn := fun kid' h => List.mem_cons_of_mem _ (hs.overlaps_drawn kid' h)
      not_held := ?_
      stored := ?_ }
  · intro c' k h
    rcases hdrawn c' k h with ⟨-, rfl⟩ | h
    · rw [hid]
      exact List.mem_cons_self
    · exact List.mem_cons_of_mem _ (hs.drawn c' k h)
  · intro c' k c'' k' h h' heq
    rcases hdrawn c' k h with ⟨rfl, rfl⟩ | hk <;> rcases hdrawn c'' k' h' with ⟨rfl, rfl⟩ | hk'
    · exact ⟨rfl, rfl⟩
    · exact absurd (heq ▸ hid) (hne _ _ hk')
    · exact absurd (heq ▸ hid) (hne _ _ hk)
    · exact hs.unique _ _ _ _ hk hk' heq
  · intro c' conn' hconn'
    rcases connections_update hconn' with ⟨rfl, rfl⟩ | ⟨-, hconn'⟩
    · exact hfits.uses
    · exact hs.uses c' conn' hconn'
  · intro kid' hkid' c' conn' hconn' k hk
    rcases connections_update hconn' with ⟨rfl, rfl⟩ | ⟨-, hconn'⟩
    · rcases hfits.held k hk with rfl | hk
      · rintro rfl
        exact hfresh (hid ▸ hs.overlaps_drawn _ hkid')
      · rcases hold with hconn | ⟨-, rfl, -⟩
        · exact hs.not_held kid' hkid' _ _ hconn k hk
        · cases hk
    · exact hs.not_held kid' hkid' c' conn' hconn' k hk
  · intro c' conn' hconn' k hk st
    have hstore : ∀ k, s.Drawn c' k →
        ((s.store.generate kid.text kid.isUuid key s.now).keys k.id = some st ↔
          s.store.keys k.id = some st) := by
      intro k h
      rw [MediaKeyStore.keys_generate_of_ne (hne c' k h)]
    rcases connections_update hconn' with ⟨rfl, rfl⟩ | ⟨-, hconn'⟩
    · rcases List.mem_cons.1 hk with rfl | hk
      · have hage : s.lastCleanup - k.createdAt ≤ keyMaxAge := by
          have hle := hs.cleanup_le
          rw [← hk₀]
          dsimp only
          omega
        have hstored : k.stored = { key := key, createdAt := s.now } := by rw [← hk₀]; rfl
        dsimp only
        rw [hid, MediaKeyStore.keys_generate_self, Option.some.injEq, ← hstored, Holds]
        exact ⟨fun h => ⟨h.symm, hfits.keeps_new _, hage⟩, fun h => h.1.symm⟩
      · have hconn : s.connections c' = some ⟨old, drawn⟩ := by
          rcases hold with hconn | ⟨-, -, rfl⟩
          · exact hconn
          · cases hk
        have hkne : k ≠ k₀ := fun heq => hnew (heq ▸ hk)
        dsimp only
        rw [hstore k (hown k hk), hs.stored c' _ hconn k hk, Holds, Holds]
        have hkeeps := hfits.keeps_old s.overlapIds k hk hkne
        exact and_congr_right fun _ => and_congr_left fun _ => hkeeps.symm
    · exact (hstore k ⟨conn', hconn', hk⟩).trans (hs.stored c' conn' hconn' k hk st)

theorem Sound.connect (hs : s.Sound) {kid : Uuid} {key : MediaKey} {phase : IssuedKey → KeyPhase}
    (htakes : ∀ k, Takes .nodeReturned [] k (phase k)) : (s.connect c kid key phase).Sound := by
  unfold KeyServer.connect
  split
  · rename_i hconn
    exact hs.draw (.inr ⟨hconn, rfl, rfl⟩) fun k _ => htakes k
  · exact hs

theorem Sound.rotate (hs : s.Sound) {kid : Uuid} {key : MediaKey} :
    (s.rotate c kid key).Sound := by
  unfold KeyServer.rotate
  split
  · rename_i active issued drawn hconn
    obtain ⟨hactive, hissued⟩ := hs.uses c _ hconn
    refine hs.draw (.inl hconn) fun k hk => ⟨⟨hactive, ?_, ?_, ?_⟩, ?_, ?_, ?_⟩
    · exact fun k' hk' => List.mem_cons_of_mem _ (hissued hk')
    · exact List.mem_cons_self
    · exact fun h => hk (hissued h)
    · simp [KeyPhase.held, or_comm]
    · exact fun ids => keeps_nodeRotating.2 (.inr (.inl rfl))
    · intro ids k' _ hne
      simp [keeps_nodeRotating, keeps_nodeServing, hne]
  · exact hs

theorem Sound.outcome (hs : s.Sound) (o : KeyOutcome) : (s.outcome c o).Sound := by
  unfold KeyServer.outcome
  split
  · exact hs
  · rename_i conn hconn
    split
    · rename_i m hmove
      exact hs.carryOut hconn hmove
    · exact hs

theorem mem_eraseIdx_of_nodup {l : List String} (hl : l.Nodup) {i : Nat} {a x : String}
    (ha : l[i]? = some a) : x ∈ l.eraseIdx i ↔ x ∈ l ∧ x ≠ a := by
  obtain ⟨hi, rfl⟩ := List.getElem?_eq_some_iff.1 ha
  rw [← List.Nodup.erase_getElem hl i hi, hl.mem_erase_iff, and_comm]

theorem Sound.overlapEnds (hs : s.Sound) (i : Nat) : (s.overlapEnds i).Sound := by
  unfold KeyServer.overlapEnds
  split
  · exact hs
  rename_i kid due hi
  split
  case isFalse => exact hs
  have hid : s.overlapIds[i]? = some kid := by
    rw [overlapIds, List.getElem?_map, hi]
    rfl
  have herase : (s.overlaps.eraseIdx i).map Prod.fst = s.overlapIds.eraseIdx i := by
    simp [overlapIds, List.eraseIdx_eq_take_drop_succ, List.map_take, List.map_drop]
  have hmem : ∀ x, x ∈ (s.overlaps.eraseIdx i).map Prod.fst ↔ x ∈ s.overlapIds ∧ x ≠ kid := by
    intro x
    rw [herase, mem_eraseIdx_of_nodup hs.overlaps_nodup hid]
  have hkid : kid ∈ s.overlapIds := List.mem_of_getElem? hid
  refine
    { cleanup_le := hs.cleanup_le
      drawn := hs.drawn
      unique := hs.unique
      uses := hs.uses
      overlaps_nodup := ?_
      overlaps_drawn := fun x hx => hs.overlaps_drawn x ((hmem x).1 hx).1
      not_held := fun x hx => hs.not_held x ((hmem x).1 hx).1
      stored := ?_ }
  · show ((s.overlaps.eraseIdx i).map Prod.fst).Nodup
    rw [herase]
    exact hs.overlaps_nodup.sublist (List.eraseIdx_sublist _ _)
  · intro c conn hconn k hk st
    show (s.store.revoke kid).keys k.id = some st ↔
      st = k.stored ∧ conn.phase.keeps ((s.overlaps.eraseIdx i).map Prod.fst) k ∧
        s.lastCleanup - k.createdAt ≤ keyMaxAge
    rw [MediaKeyStore.keys_revoke_iff, hs.stored c conn hconn k hk, Holds, KeyPhase.keeps,
      KeyPhase.keeps, hmem]
    have hheld : k ∈ conn.phase.held → kid ≠ k.id :=
      fun h heq => hs.not_held kid hkid c conn hconn k h heq.symm
    tauto

theorem Sound.cleanup (hs : s.Sound) : s.cleanup.Sound where
  cleanup_le := Nat.le_refl _
  drawn := hs.drawn
  unique := hs.unique
  uses := hs.uses
  overlaps_nodup := hs.overlaps_nodup
  overlaps_drawn := hs.overlaps_drawn
  not_held := hs.not_held
  stored := by
    intro c conn hconn k hk st
    show (s.store.cleanupExpired s.now keyMaxAge).keys k.id = some st ↔
      st = k.stored ∧ conn.phase.keeps s.overlapIds k ∧ s.now - k.createdAt ≤ keyMaxAge
    rw [MediaKeyStore.keys_cleanupExpired_iff, hs.stored c conn hconn k hk, Holds]
    have hle := hs.cleanup_le
    constructor
    · rintro ⟨⟨rfl, hkeeps, -⟩, hage⟩
      exact ⟨rfl, hkeeps, hage⟩
    · rintro ⟨rfl, hkeeps, hage⟩
      exact ⟨⟨rfl, hkeeps, by omega⟩, hage⟩

theorem takes_uiGreeting (k : IssuedKey) : Takes .nodeReturned [] k (.uiGreeting k) where
  uses := List.mem_cons_self
  held := fun _ h => .inl (List.mem_singleton.1 h)
  keeps_new := fun _ => .inl List.mem_cons_self
  keeps_old := fun _ _ h => nomatch h

theorem takes_nodeAcking (k : IssuedKey) : Takes .nodeReturned [] k (.nodeAcking k) where
  uses := List.mem_cons_self
  held := fun _ h => .inl (List.mem_singleton.1 h)
  keeps_new := fun _ => .inl List.mem_cons_self
  keeps_old := fun _ _ h => nomatch h

theorem Sound.step (hs : s.Sound) (e : KeyEvent) : (step e s).Sound := by
  cases e with
  | wait duration =>
    exact { hs with cleanup_le := Nat.le_trans hs.cleanup_le (Nat.le_add_right _ _) }
  | connectUi c kid key => exact hs.connect takes_uiGreeting
  | connectNode c kid key => exact hs.connect takes_nodeAcking
  | rotate c kid key => exact hs.rotate
  | outcome c o => exact hs.outcome o
  | overlapEnds i => exact hs.overlapEnds i
  | cleanup => exact hs.cleanup

end Steps

theorem sound_run (es : List KeyEvent) : (run es).Sound :=
  runAll_keeps (fun e _ hs => hs.step e) es sound_new

/-- A key that was drawn for a connection is stored exactly if the connection keeps it and the last
cleanup did not find it too old. -/
theorem stored_iff {s : KeyServer} (hs : s.Sound) {c : Nat} {conn : KeyConnection}
    (hconn : s.connections c = some conn) {k : IssuedKey} (hk : k ∈ conn.drawn) {key : MediaKey} :
    s.store.get k.id = some key ↔ key = k.key ∧ s.Holds conn.phase k := by
  rw [MediaKeyStore.get, Option.map_eq_some_iff]
  constructor
  · rintro ⟨st, hst, rfl⟩
    obtain ⟨rfl, hholds⟩ := (hs.stored c conn hconn k hk st).1 hst
    exact ⟨rfl, hholds⟩
  · rintro ⟨rfl, hholds⟩
    exact ⟨k.stored, (hs.stored c conn hconn k hk _).2 ⟨rfl, hholds⟩, rfl⟩

/-! ## The key of an open connection -/

/-- The key announced to a connection that is open. -/
def Announced (s : KeyServer) (c : Nat) (k : IssuedKey) : Prop :=
  ∃ conn, s.connections c = some conn ∧ conn.phase.announced = some k

/-- URLs can be signed with every announced key. -/
def KeysUsable (s : KeyServer) : Prop := ∀ c k, s.Announced c k → s.store.get k.id = some k.key

theorem held_of_announced {phase : KeyPhase} {k : IssuedKey} (h : phase.announced = some k) :
    k ∈ phase.held := by
  cases phase <;> cases h <;> simp [KeyPhase.held]

theorem Announced.drawn {s : KeyServer} (hs : s.Sound) {c : Nat} {k : IssuedKey}
    (h : s.Announced c k) : s.Drawn c k := by
  obtain ⟨conn, hconn, hk⟩ := h
  exact hs.held_drawn hconn k (held_of_announced hk)

theorem announced_get_iff {s : KeyServer} (hs : s.Sound) {c : Nat} {k : IssuedKey}
    (h : s.Announced c k) :
    s.store.get k.id = some k.key ↔ s.lastCleanup - k.createdAt ≤ keyMaxAge := by
  obtain ⟨conn, hconn, hk⟩ := h
  have hheld := held_of_announced hk
  rw [stored_iff hs hconn (KeyPhase.held_subset (hs.uses c conn hconn) hheld), Holds]
  exact ⟨fun h => h.2.2, fun h => ⟨rfl, .inl hheld, h⟩⟩

/-- In every state of every run, all announced keys are stored exactly if the last cleanup found none
of them too old. -/
theorem keys_usable_iff (es : List KeyEvent) :
    (run es).KeysUsable ↔
      ∀ c k, (run es).Announced c k → (run es).lastCleanup - k.createdAt ≤ keyMaxAge :=
  forall₂_congr fun _ _ => forall_congr' (announced_get_iff (sound_run es))

def uuid (text : String) (h : (text.toList.all fun c => decide (c.isAlphanum ∨ c = '-')) = true) : Uuid :=
  ⟨text, Url.forall_of_all h⟩

/-- A UI connection that stays for half an hour: the cleanup every ten minutes, the connection a second
after the first. -/
def longSession : List KeyEvent :=
  [.cleanup, .wait (secs 1), .connectUi 0 (uuid "k-1" (by decide)) sampleKey, .outcome 0 .sent,
    .wait (secs 599), .cleanup, .wait (secs 600), .cleanup, .wait (secs 600), .cleanup]

theorem longSession_not_usable :
    (run longSession).Announced 0 { id := "k-1", key := sampleKey, createdAt := secs 1 } ∧
      (run longSession).store.get "k-1" = none ∧ ¬ (run longSession).KeysUsable := by
  have hopen : (run longSession).Announced 0
      { id := "k-1", key := sampleKey, createdAt := secs 1 } := ⟨_, rfl, rfl⟩
  have hgone : (run longSession).store.get "k-1" = none := by decide
  refine ⟨hopen, hgone, ?_⟩
  intro h
  have hget := h 0 _ hopen
  rw [hgone] at hget
  cases hget

/-! ## The keys of a connection that has returned -/

/-- No URL signed with the key is accepted. -/
def Rejected (s : KeyServer) (k : IssuedKey) : Prop :=
  s.store.get k.id = none ∧ ∀ hmac now path exp sig,
    verifyMediaAuth hmac s.store now path ⟨k.id, exp, sig⟩ = .error .forbidden

def KeysGone (s : KeyServer) : Prop :=
  ∀ c conn, s.connections c = some conn → conn.phase.returned → ∀ k ∈ conn.drawn, s.Rejected k

theorem rejected_iff {s : KeyServer} {k : IssuedKey} : s.Rejected k ↔ s.store.get k.id = none := by
  constructor
  · exact fun h => h.1
  · intro h
    refine ⟨h, fun hmac now path exp sig => ?_⟩
    rw [verifyMediaAuth, h]
    exact ite_self _

theorem keeps_of_returned {phase : KeyPhase} (h : phase.returned) {ids : List String}
    {k : IssuedKey} : phase.keeps ids k ↔ phase = .uiReturned k true := by
  cases phase with
  | uiReturned key served =>
    cases served with
    | true => simp [KeyPhase.keeps, KeyPhase.held, KeyPhase.issued, eq_comm]
    | false => simp [KeyPhase.keeps, KeyPhase.held, KeyPhase.issued]
  | nodeReturned => exact iff_of_false not_keeps_nodeReturned nofun
  | _ => cases h

/-- What is left of the keys of a connection that has returned. -/
theorem returned_get_iff {s : KeyServer} (hs : s.Sound) {c : Nat} {conn : KeyConnection}
    (hconn : s.connections c = some conn) (hret : conn.phase.returned) {k : IssuedKey}
    (hk : k ∈ conn.drawn) :
    s.Rejected k ↔ (conn.phase = .uiReturned k true → keyMaxAge < s.lastCleanup - k.createdAt) := by
  have hget : ∀ key, s.store.get k.id = some key ↔ key = k.key ∧ s.Holds conn.phase k :=
    fun _ => stored_iff hs hconn hk
  rw [rejected_iff, Option.eq_none_iff_forall_ne_some]
  simp only [ne_eq, hget, Holds, keeps_of_returned hret, not_and, not_le]
  exact ⟨fun h => h k.key rfl, fun h _ _ => h⟩

/-- In every state of every run, the keys of all connections that have returned are gone exactly if the
cleanup has found that of each UI connection that had got to its loop. -/
theorem keys_gone_iff (es : List KeyEvent) :
    (run es).KeysGone ↔ ∀ c k drawn,
      (run es).connections c = some ⟨.uiReturned k true, drawn⟩ →
      keyMaxAge < (run es).lastCleanup - k.createdAt := by
  have hs := sound_run es
  constructor
  · intro h c k drawn hconn
    have hk : k ∈ drawn := hs.uses c _ hconn
    exact (returned_get_iff hs hconn rfl hk).1 (h c _ hconn rfl k hk) rfl
  · intro h c conn hconn hret k hk
    rw [returned_get_iff hs hconn hret hk]
    intro hphase
    obtain ⟨phase, drawn⟩ := conn
    obtain rfl : phase = .uiReturned k true := hphase
    exact h c k drawn hconn

/-- A UI connection whose client goes at once. -/
def shortSession : List KeyEvent :=
  [.connectUi 0 (uuid "k-1" (by decide)) sampleKey, .outcome 0 .sent, .outcome 0 .left]

theorem shortSession_not_gone :
    (run shortSession).store.get "k-1" = some sampleKey ∧ ¬ (run shortSession).KeysGone := by
  have hkept : (run shortSession).store.get "k-1" = some sampleKey := by decide
  refine ⟨hkept, ?_⟩
  intro h
  have hgone := (h 0 _ rfl rfl ⟨"k-1", sampleKey, 0⟩ List.mem_cons_self).1
  rw [hkept] at hgone
  cases hgone

/-! ## URLs signed for an open connection -/

/-- What was drawn for a connection stays so. -/
theorem Drawn.step {s : KeyServer} {c : Nat} {k : IssuedKey} (h : s.Drawn c k) (e : KeyEvent) :
    (KeyServer.step e s).Drawn c k := by
  obtain ⟨conn, hconn, hk⟩ := h
  have hupdate : ∀ (c' : Nat) (conn' : KeyConnection),
      (∀ conn₀, s.connections c' = some conn₀ → conn₀.drawn ⊆ conn'.drawn) →
      ∃ conn'', Function.update s.connections c' (some conn') c = some conn'' ∧
        k ∈ conn''.drawn := by
    intro c' conn' hsub
    by_cases heq : c = c'
    · subst heq
      exact ⟨conn', Function.update_self .., hsub conn hconn hk⟩
    · exact ⟨conn, by rw [Function.update_of_ne heq, hconn], hk⟩
  have hdraw : ∀ (c' : Nat) (kid : Uuid) (key : MediaKey) (drawn : List IssuedKey)
      (phase : IssuedKey → KeyPhase),
      (∀ conn₀, s.connections c' = some conn₀ → conn₀.drawn ⊆ drawn) →
      (s.draw c' kid key drawn phase).Drawn c k := by
    intro c' kid key drawn phase hsub
    unfold KeyServer.draw
    split
    · exact ⟨conn, hconn, hk⟩
    · refine hupdate c' _ ?_
      intro conn₀ hconn₀ k' hk'
      exact List.mem_cons_of_mem _ (hsub conn₀ hconn₀ hk')
  have hconnect : ∀ (c' : Nat) (kid : Uuid) (key : MediaKey) (phase : IssuedKey → KeyPhase),
      (s.connect c' kid key phase).Drawn c k := by
    intro c' kid key phase
    unfold KeyServer.connect
    split
    · rename_i hnone
      refine hdraw c' kid key [] phase ?_
      intro conn₀ hconn₀
      rw [hnone] at hconn₀
      cases hconn₀
    · exact ⟨conn, hconn, hk⟩
  cases e with
  | wait duration => exact ⟨conn, hconn, hk⟩
  | connectUi c' kid key => exact hconnect c' kid key _
  | connectNode c' kid key => exact hconnect c' kid key _
  | rotate c' kid key =>
    simp only [KeyServer.step]
    unfold KeyServer.rotate
    split
    · rename_i active issued drawn hserving
      refine hdraw c' kid key drawn _ ?_
      intro conn₀ hconn₀
      rw [hserving] at hconn₀
      cases hconn₀
      exact List.Subset.refl _
    · exact ⟨conn, hconn, hk⟩
  | outcome c' o =>
    simp only [KeyServer.step]
    unfold KeyServer.outcome
    split
    · exact ⟨conn, hconn, hk⟩
    · rename_i conn' hconn'
      split
      · refine hupdate c' _ ?_
        intro conn₀ hconn₀
        rw [hconn'] at hconn₀
        cases hconn₀
        exact List.Subset.refl _
      · exact ⟨conn, hconn, hk⟩
  | overlapEnds i =>
    simp only [KeyServer.step]
    unfold KeyServer.overlapEnds
    split
    · exact ⟨conn, hconn, hk⟩
    · split
      · exact ⟨conn, hconn, hk⟩
      · exact ⟨conn, hconn, hk⟩
  | cleanup => exact ⟨conn, hconn, hk⟩

/-- The clock in seconds; `epoch` is what it says at the start. -/
def unixSecs (epoch : Nat) (s : KeyServer) : UInt64 := UInt64.ofNat ((epoch + s.now) / secs 1)

/-- URLs for the connection are signed with the key: a node has it, `sign_urls` looks it up. -/
def Signs (s : KeyServer) (c : Nat) (k : IssuedKey) : Prop :=
  ∃ conn, s.connections c = some conn ∧ conn.phase.announced = some k ∧
    (conn.phase = .uiServing k → s.store.get k.id = some k.key)

/-- When a URL signed now expires. -/
def urlExp (epoch : Nat) (s : KeyServer) : UInt64 := saturatingAdd (s.unixSecs epoch) mediaUrlTtlSecs

/-- A URL was signed with the key at `signed`, has not expired at `s`, and its connection is open. -/
structure LiveUrl (epoch : Nat) (signed s : KeyServer) (c : Nat) (k : IssuedKey)
    (conn : KeyConnection) : Prop where
  signs : signed.Signs c k
  connection : s.connections c = some conn
  notReturned : conn.phase.returned = false
  notExpired : s.unixSecs epoch ≤ signed.urlExp epoch

def UrlsAccepted (hmac : MediaKey → String → List UInt8) (epoch : Nat) (signed s : KeyServer) : Prop :=
  ∀ c k conn, LiveUrl epoch signed s c k conn → ∀ path,
    verifyMediaAuth hmac s.store (s.unixSecs epoch) path
      ⟨k.id, signed.urlExp epoch,
        Hex.encode (computeMediaSignature hmac k.key path (signed.urlExp epoch))⟩ = .ok ()

/-- In every run, what was signed before and has not expired is accepted exactly if the connection
keeps the key, or the revocation that followed its rotation has not come, and the last cleanup did not
find it too old. -/
theorem urls_accepted_iff (hmac : MediaKey → String → List UInt8) (epoch : Nat)
    (es es' : List KeyEvent) :
    UrlsAccepted hmac epoch (run es) (run (es ++ es')) ↔
      ∀ c k conn, LiveUrl epoch (run es) (run (es ++ es')) c k conn →
        conn.phase.keeps (run (es ++ es')).overlapIds k ∧
          (run (es ++ es')).lastCleanup - k.createdAt ≤ keyMaxAge := by
  have hs := sound_run (es ++ es')
  have hdrawn : ∀ c k, (run es).Drawn c k → (run (es ++ es')).Drawn c k := by
    intro c k h
    have hrun : run (es ++ es') = runAll step es' (run es) := runAll_append es es' new
    rw [hrun]
    exact runAll_keeps (I := fun s : KeyServer => s.Drawn c k) (fun e _ h => Drawn.step h e) es' h
  refine forall_congr' fun c => forall_congr' fun k => forall₂_congr fun conn hlive => ?_
  obtain ⟨conn₀, hconn₀, hann, -⟩ := hlive.signs
  obtain ⟨conn', hconn', hk⟩ := hdrawn c k (Announced.drawn (sound_run es) ⟨conn₀, hconn₀, hann⟩)
  obtain rfl : conn' = conn := Option.some.inj (hconn'.symm.trans hlive.connection)
  constructor
  · intro h
    obtain ⟨-, key, hget, hsig⟩ := verifyMediaAuth_ok_iff.1 (h "")
    exact ((stored_iff hs hconn' hk).1 hget).2
  · intro h path
    have hget : (run (es ++ es')).store.get k.id = some k.key := (stored_iff hs hconn' hk).2 ⟨rfl, h⟩
    have hlive := hlive.notExpired
    generalize (run es).urlExp epoch = exp at hlive ⊢
    exact verifyMediaAuth_ok_iff.2 ⟨hlive, k.key, hget, Hex.decode_encode _⟩

/-- A node whose key is signed with a hundred seconds before the rotation. -/
def beforeRotation : List KeyEvent :=
  [.cleanup, .connectNode 0 (uuid "k-1" (by decide)) sampleKey, .outcome 0 .sent, .wait (secs 500)]

/-- The overlap is over five minutes later, when the URL has another five to go. -/
def afterRotation : List KeyEvent :=
  [.wait (secs 100), .cleanup, .rotate 0 (uuid "k-2" (by decide)) sampleKey, .outcome 0 .sent,
    .wait (secs 300), .overlapEnds 0]

theorem rotation_not_accepted :
    (run beforeRotation).urlExp 0 = 1400 ∧
      (run (beforeRotation ++ afterRotation)).unixSecs 0 = 900 ∧
      ¬ UrlsAccepted plainMac 0 (run beforeRotation) (run (beforeRotation ++ afterRotation)) := by
  have hexp : (run beforeRotation).urlExp 0 = 1400 := by decide
  have hnow : (run (beforeRotation ++ afterRotation)).unixSecs 0 = 900 := by decide
  refine ⟨hexp, hnow, ?_⟩
  intro h
  have hlive : LiveUrl 0 (run beforeRotation) (run (beforeRotation ++ afterRotation)) 0
      ⟨"k-1", sampleKey, 0⟩ _ := ⟨⟨_, rfl, rfl, nofun⟩, rfl, rfl, by rw [hexp, hnow]; decide⟩
  have hgone : (run (beforeRotation ++ afterRotation)).store.get "k-1" = none := by decide
  obtain ⟨-, key, hget, -⟩ := verifyMediaAuth_ok_iff.1 (h 0 _ _ hlive "")
  rw [hgone] at hget
  cases hget

end KeyServer

end Kanade

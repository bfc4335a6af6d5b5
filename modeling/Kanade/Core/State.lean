import Mathlib.Algebra.Group.Nat.Defs
import Mathlib.Data.Rat.Defs
import Mathlib.Data.List.Basic

/-!
# Kanade.Core.State

The data model of `kanade-core`: tracks, nodes and the playback state (`model.rs`, `state.rs`,
`error.rs`), with the accessors of `PlaybackState`.

`usize` and `i64` are `Nat` and `Int`; the places where `usize` arithmetic can wrap do so
explicitly (`usizeSucc`). Positions are rationals. A `Vec` is a list.
-/

namespace Kanade

/-- `usize::MAX` on the 64-bit targets the server is built for. -/
def usizeMax : Nat := 2 ^ 64 - 1

/-- `i + 1` on `usize`, which wraps in a release build. -/
def usizeSucc (i : Nat) : Nat := (i + 1) % 2 ^ 64

theorem usizeSucc_of_lt {i : Nat} (h : i < usizeMax) : usizeSucc i = i + 1 := by
  unfold usizeSucc usizeMax at *
  exact Nat.mod_eq_of_lt (by omega)

structure Track where
  id : String
  filePath : String
  albumId : Option String := none
  title : Option String := none
  artist : Option String := none
  albumArtist : Option String := none
  albumTitle : Option String := none
  composer : Option String := none
  genre : Option String := none
  trackNumber : Option UInt32 := none
  discNumber : Option UInt32 := none
  durationSecs : Option ℚ := none
  format : Option String := none
  sampleRate : Option UInt32 := none
deriving DecidableEq, Repr

inductive RepeatMode where
  | off
  | one
  | all
deriving DecidableEq, Repr

inductive PlaybackStatus where
  | stopped
  | playing
  | paused
  | loading
deriving DecidableEq, Repr

inductive NodeType where
  | remote
  | localNode
deriving DecidableEq, Repr

/-- An output node. The defaults are those of `Default for Node`. -/
structure Node where
  id : String := ""
  name : String := ""
  connected : Bool := true
  status : PlaybackStatus := .stopped
  positionSecs : ℚ := 0
  volume : UInt8 := 50
  nodeType : NodeType := .remote
  queue : List Track := []
  currentIndex : Option Nat := none
  repeatMode : RepeatMode := .off
  shuffle : Bool := false
  deviceId : Option String := none
  disconnectedAt : Option Int := none
deriving DecidableEq, Repr

inductive CoreError where
  | output (msg : String)
  | nodeNotFound
  | noActiveOutput
  | queueEmpty
  | queueIndexOutOfBounds
  | localSessionNotFound
  | trackNotFound (id : String)
  | invalidVolume
  | handoffFailed (msg : String)
  | internal (msg : String)
deriving DecidableEq, Repr

/-- The nodes, the selection, and the top-level mirror of the selected node's queue. -/
structure PlaybackState where
  nodes : List Node
  selectedNodeId : Option String
  queue : List Track
  currentIndex : Option Nat
  shuffle : Bool
  repeatMode : RepeatMode
deriving DecidableEq, Repr

/-- The state of `Core::new`. -/
def PlaybackState.empty : PlaybackState := ⟨[], none, [], none, false, .off⟩

/-! ## Looking up and changing a node -/

/-- The first node with this id. -/
def findNode (id : String) (ns : List Node) : Option Node := ns.find? fun n => n.id = id

/-- A write through `node_mut(id)`: the first node with this id is changed by `f`. -/
def modifyNode (id : String) (f : Node → Node) : List Node → List Node
  | [] => []
  | n :: ns => if n.id = id then f n :: ns else n :: modifyNode id f ns

theorem findNode_id {id : String} {ns : List Node} {n : Node} (h : findNode id ns = some n) :
    n.id = id := by
  have := List.find?_some h
  simpa using this

theorem findNode_mem {id : String} {ns : List Node} {n : Node} (h : findNode id ns = some n) :
    n ∈ ns := List.mem_of_find?_eq_some h

theorem findNode_modifyNode_self {id : String} {f : Node → Node} (hf : ∀ n, (f n).id = n.id)
    (ns : List Node) : findNode id (modifyNode id f ns) = (findNode id ns).map f := by
  induction ns with
  | nil => rfl
  | cons n ns ih =>
    by_cases h : n.id = id
    · simp [findNode, modifyNode, h, hf]
    · simpa [findNode, modifyNode, h] using ih

theorem findNode_modifyNode_of_ne {id id' : String} {f : Node → Node}
    (hf : ∀ n, (f n).id = n.id) (h : id' ≠ id) (ns : List Node) :
    findNode id' (modifyNode id f ns) = findNode id' ns := by
  induction ns with
  | nil => rfl
  | cons n ns ih =>
    by_cases hn : n.id = id
    · have : n.id ≠ id' := fun e => h (e.symm.trans hn)
      simp [findNode, modifyNode, hn, hf, h.symm]
    · by_cases hn' : n.id = id'
      · simp [findNode, modifyNode, hn', h]
      · simpa [findNode, modifyNode, hn, hn'] using ih

/-- A property of all nodes survives a write to the node found under `id`. -/
theorem forall_modifyNode {id : String} {f : Node → Node} {C : Node → Prop} {ns : List Node}
    (h : ∀ n ∈ ns, C n) (hf : ∀ n, findNode id ns = some n → C n → C (f n)) :
    ∀ n ∈ modifyNode id f ns, C n := by
  induction ns with
  | nil => simp [modifyNode]
  | cons m ns ih =>
    intro n hn
    by_cases hm : m.id = id
    · simp only [modifyNode, hm, if_true, List.mem_cons] at hn
      obtain rfl | hn := hn
      · exact hf m (by simp [findNode, hm]) (h m (by simp))
      · exact h n (by simp [hn])
    · simp only [modifyNode, hm, if_false, List.mem_cons] at hn
      obtain rfl | hn := hn
      · exact h n (by simp)
      · refine ih (fun k hk => h k (by simp [hk])) (fun k hk => hf k ?_) n hn
        simpa [findNode, hm] using hk

theorem modifyNode_modifyNode {id : String} {f g : Node → Node} (hf : ∀ n, (f n).id = n.id)
    (ns : List Node) :
    modifyNode id g (modifyNode id f ns) = modifyNode id (fun n => g (f n)) ns := by
  induction ns with
  | nil => rfl
  | cons n ns ih =>
    by_cases hn : n.id = id
    · simp [modifyNode, hn, hf]
    · simpa [modifyNode, hn] using ih

theorem modifyNode_eq_self_iff {id : String} {f : Node → Node} {ns : List Node} :
    modifyNode id f ns = ns ↔ ∀ n, findNode id ns = some n → f n = n := by
  induction ns with
  | nil => simp [modifyNode, findNode]
  | cons n ns ih =>
    by_cases hn : n.id = id
    · simp [modifyNode, findNode, hn]
    · simpa [modifyNode, findNode, hn] using ih

namespace PlaybackState

variable (s : PlaybackState)

def node (id : String) : Option Node := findNode id s.nodes

/-- A write through `node_mut(id)`. -/
def modifyNode (id : String) (f : Node → Node) : PlaybackState :=
  { s with nodes := Kanade.modifyNode id f s.nodes }

/-- A write to every node, as `for node in s.nodes.iter_mut()` makes it. -/
def modifyNodes (f : Node → Node) : PlaybackState := { s with nodes := s.nodes.map f }

def selectedNode : Option Node := s.selectedNodeId.bind s.node

def syncTopLevelFromSelectedNode : PlaybackState :=
  match s.selectedNode with
  | some node =>
    { s with queue := node.queue, currentIndex := node.currentIndex, shuffle := node.shuffle,
             repeatMode := node.repeatMode }
  | none => { s with queue := [], currentIndex := none, shuffle := false, repeatMode := .off }

end PlaybackState

section Accessors

variable {s : PlaybackState} {id id' : String} {f : Node → Node}

@[simp] theorem modifyNode_nodes : (s.modifyNode id f).nodes = modifyNode id f s.nodes := rfl
@[simp] theorem modifyNodes_nodes : (s.modifyNodes f).nodes = s.nodes.map f := rfl
@[simp] theorem modifyNodes_selectedNodeId :
    (s.modifyNodes f).selectedNodeId = s.selectedNodeId := rfl
theorem node_id {n : Node} (h : s.node id = some n) : n.id = id := findNode_id h

theorem node_mem {n : Node} (h : s.node id = some n) : n ∈ s.nodes := findNode_mem h

theorem node_modifyNode_self (hf : ∀ n, (f n).id = n.id) :
    (s.modifyNode id f).node id = (s.node id).map f := findNode_modifyNode_self hf s.nodes

theorem node_modifyNode_of_ne (hf : ∀ n, (f n).id = n.id) (h : id' ≠ id) :
    (s.modifyNode id f).node id' = s.node id' := findNode_modifyNode_of_ne hf h s.nodes

theorem modifyNode_state_modifyNode {g : Node → Node} (hf : ∀ n, (f n).id = n.id) :
    (s.modifyNode id f).modifyNode id g = s.modifyNode id fun n => g (f n) :=
  congrArg (fun ns => { s with nodes := ns }) (modifyNode_modifyNode hf s.nodes)

/-- A write changes nothing exactly when it does not change the node it is made to. -/
theorem modifyNode_state_eq_self_iff :
    s.modifyNode id f = s ↔ ∀ n, s.node id = some n → f n = n := by
  refine Iff.trans ⟨fun h => congrArg PlaybackState.nodes h, fun h => ?_⟩ modifyNode_eq_self_iff
  exact congrArg (fun ns => { s with nodes := ns }) h

theorem node_modifyNodes (hf : ∀ n, (f n).id = n.id) :
    (s.modifyNodes f).node id = (s.node id).map f := by
  simp only [PlaybackState.node, findNode, modifyNodes_nodes, List.find?_map, Function.comp_def, hf]

@[simp] theorem syncTopLevel_nodes : s.syncTopLevelFromSelectedNode.nodes = s.nodes := by
  unfold PlaybackState.syncTopLevelFromSelectedNode; split <;> rfl

@[simp] theorem node_syncTopLevel : s.syncTopLevelFromSelectedNode.node id = s.node id := by
  rw [PlaybackState.node, syncTopLevel_nodes, PlaybackState.node]

@[simp] theorem syncTopLevel_selectedNodeId :
    s.syncTopLevelFromSelectedNode.selectedNodeId = s.selectedNodeId := by
  unfold PlaybackState.syncTopLevelFromSelectedNode; split <;> rfl

end Accessors

end Kanade

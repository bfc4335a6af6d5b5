import Kanade.Wire.Messages
import Kanade.Wire.PlainText
import Kanade.Ws.NodeMode

/-!
# Kanade.Ws.FirstMessage

The first message of a connection: `handle_ws_connection` in `server.rs`, and `run_node_mode` up to
its loop.

* `deClientMessage_malformed`: `ClientMessage` is untagged, and its last variant has only optional
  fields. Each object that is none of the others and names no node is read as an empty registration.
* `node_nodeRegistration`: a registration that runs alone leaves its node connected.
* `malformed_rejected_iff`: a malformed first message is turned away exactly when its text is no JSON
  for the parser.
-/

namespace Kanade

open Concur Fallible Serde

/-- What a connection draws for itself, and whether its acknowledgement could be sent. -/
structure Handshake where
  uuid : String
  connectionId : String
  output : Nat
  sent : Bool

/-- `Option::filter(|s| !s.is_empty())`. -/
def nonEmpty (s : Option String) : Option String := s.filter fun s => !s.isEmpty

def registeredName (registration : Wire.NodeRegistration) (uuid : String) : String :=
  (nonEmpty (registration.displayName.or registration.name)).getD ("node-" ++ uuid)

def registeredId (registration : Wire.NodeRegistration) (displayName : String) : String :=
  (nonEmpty registration.nodeId).getD displayName

/-- Before its loop. A registration that could not be acknowledged goes no further. -/
def runNodeMode (registration : Wire.NodeRegistration) (c : Handshake) : NodeOp Unit :=
  let displayName := registeredName registration c.uuid
  let nodeId := registeredId registration displayName
  if c.sent then nodeRegistration nodeId displayName c.connectionId c.output else pure ()

/-- With the first text of the connection. -/
def handleWsConnection (text : Text) (runUiMode : Wire.ClientMessage → NodeOp Unit)
    (first : String) (c : Handshake) : NodeOp Unit :=
  match Wire.ClientMessage.fromText text first with
  | .error _ => pure ()
  | .ok (.nodeRegistration registration) => runNodeMode registration c
  | .ok (.command cmd) => runUiMode (.command cmd)
  | .ok (.request reqId req) => runUiMode (.request reqId req)
  | .ok (.nodeStateUpdate _) => pure ()

/-- No command, no request and no update of a node's state, and it does not name a node. -/
structure Malformed (ms : Members) : Prop where
  command : ∀ m, Wire.deCommandMessage (.obj ms) ≠ .ok m
  request : ∀ m, Wire.deRequestMessage (.obj ms) ≠ .ok m
  update : ∀ m, Wire.deStateMessage (.obj ms) ≠ .ok m
  unnamed : ∀ key ∈ ["node_id", "display_name", "name"], key ∉ ms.keys

/-- From `w` the connection adds no node, however the outputs answer. -/
def AddsNoNode (t : NodeOp Unit) (w : Core) : Prop :=
  ∀ (η : Type) (env : Env η CoreCall (Except CoreError Unit)) (x : η) (id : String),
    w.state.node id = none → (t.run env w x).2.1.state.node id = none

/-! ## Reading -/

theorem deRegistrationMessage_unnamed {ms : Members}
    (h : ∀ key ∈ ["node_id", "display_name", "name"], key ∉ ms.keys) :
    Wire.deRegistrationMessage (.obj ms) = .ok (.nodeRegistration ⟨none, none, none⟩) := by
  rw [Wire.deRegistrationMessage, deStruct_obj, Wire.deNodeRegistration, optional_none (h "node_id" (by simp)),
    ok_bind, optional_none (h "display_name" (by simp)), ok_bind,
    optional_none (h "name" (by simp))]
  rfl

/-- What no earlier variant takes falls through to the registration. -/
theorem deClientMessage_malformed {ms : Members} (h : Malformed ms) :
    Wire.deClientMessage (.obj ms) = .ok (.nodeRegistration ⟨none, none, none⟩) := by
  have herror : ∀ {r : Except String Wire.ClientMessage}, (∀ m, r ≠ .ok m) → ∃ e, r = .error e := by
    intro r hr
    cases r with
    | error e => exact ⟨e, rfl⟩
    | ok m => exact absurd rfl (hr m)
  obtain ⟨e₁, hcmd⟩ := herror h.command
  obtain ⟨e₂, hreq⟩ := herror h.request
  obtain ⟨e₃, hupd⟩ := herror h.update
  rw [Wire.deClientMessage, untagged_error hcmd, untagged_error hreq, untagged_error hupd]
  exact untagged_ok (deRegistrationMessage_unnamed h.unnamed)

/-! ## Registering -/

section Alone

variable {η α : Type} (env : Env η CoreCall (Except CoreError Unit)) (w : Core) (x : η)

@[simp] theorem run_inCore (t : Op α) : (inCore t).run env w x = t.run env w x := by
  rw [inCore, run_lift]
  rfl

@[simp] theorem run_nodeStep (l : NodeSect) (t : Op α) :
    (nodeStep l t).run env w x = t.run env w x := by
  rw [nodeStep, run_headed, run_inCore]

/-- What settles leaves a connected node connected. -/
theorem connected_run {t : Op α} (h : Settles t) {nodeId : String} {w : Core}
    (hw : (w.state.node nodeId).map Node.connected = some true) :
    ((t.run env w x).2.1.state.node nodeId).map Node.connected = some true := by
  have hkeep : KeepsConnected w (t.run env w x).2.1 :=
    Within.run h (fun _ _ => ⟨rfl, fun _ => rfl⟩)
      (fun _ _ _ h₁ h₂ => ⟨h₂.1.trans h₁.1, fun id => (h₂.2 id).trans (h₁.2 id)⟩)
      (fun _ _ _ _ => trivial) env x trivial
  rw [hkeep.2 nodeId, hw]

/-- What the registration does after `add_node`. -/
theorem connected_afterAddNode {nodeId : String} {w : Core}
    (hw : (w.state.node nodeId).map Node.connected = some true) :
    (((do
      let _ ← (inCore (syncConnectedNodeToLogicalState nodeId)).attempt
      let selectedNodeId ← inCore (readState fun s => .ok s.selectedNodeId)
      match selectedNodeId with
      | some selectedNode =>
        if selectedNode ≠ nodeId then do
          let _ ← (inCore (stopNode nodeId)).attempt
          pure ()
        else pure ()
      | none => pure () : NodeOp Unit).run env w x).2.1.state.node nodeId).map Node.connected =
      some true := by
  rw [run_bind, run_attempt, run_inCore]
  dsimp only
  have hsync := connected_run env x (settles_syncConnectedNode nodeId) hw
  generalize (syncConnectedNodeToLogicalState nodeId).run env w x = r at hsync
  obtain ⟨_, w', x'⟩ := r
  rw [run_bind, run_inCore, readState, run_lockState]
  dsimp only
  split
  · split
    · rw [run_bind, run_attempt, run_inCore]
      exact connected_run env x' (settles_stopNode nodeId) hsync
    · exact hsync
  · exact hsync

/-- The registration leaves its node connected. -/
theorem node_nodeRegistration (nodeId displayName connectionId : String) (output : Nat) :
    (((nodeRegistration nodeId displayName connectionId output).run env w x).2.1.state.node
      nodeId).map Node.connected = some true := by
  obtain ⟨x', hb⟩ := run_broadcast env
    { w with outputs := Function.update w.outputs nodeId (some ⟨connectionId, output⟩),
             state := addNodeSection { id := nodeId, name := displayName } w.state } x
  rw [nodeRegistration, run_bind, run_nodeStep, registerOutput, writeOutputs, run_sect]
  dsimp only
  rw [run_bind, run_nodeStep, addNode, run_bind, run_writeState]
  dsimp only
  rw [hb]
  refine connected_afterAddNode env x' ?_
  rw [node_syncTopLevel]
  exact node_addNodeSection_self { id := nodeId, name := displayName } w.state

end Alone

/-! ## Turning away -/

theorem handleWsConnection_error {text : Text} {first e : String}
    (h : Wire.ClientMessage.fromText text first = .error e)
    (runUiMode : Wire.ClientMessage → NodeOp Unit) (c : Handshake) :
    handleWsConnection text runUiMode first c = pure () := by
  rw [handleWsConnection, h]

theorem fromText_error {text : Text} {first e : String} (h : text.parse first = .error e) :
    Wire.ClientMessage.fromText text first = .error e := by
  rw [Wire.ClientMessage.fromText, h, error_bind]

theorem fromText_malformed {text : Text} {first : String} {ms : Members}
    (h : text.parse first = .ok (.obj ms)) (hms : Malformed ms) :
    Wire.ClientMessage.fromText text first = .ok (.nodeRegistration ⟨none, none, none⟩) := by
  rw [Wire.ClientMessage.fromText, h, ok_bind, deClientMessage_malformed hms]

/-- The empty registration registers a node under a fresh name. -/
theorem node_handleWsConnection {text : Text} {first : String} {ms : Members}
    (h : text.parse first = .ok (.obj ms)) (hms : Malformed ms)
    (runUiMode : Wire.ClientMessage → NodeOp Unit) (uuid connectionId : String) (output : Nat)
    (w : Core) {η : Type} (env : Env η CoreCall (Except CoreError Unit)) (x : η) :
    (((handleWsConnection text runUiMode first ⟨uuid, connectionId, output, true⟩).run env w
      x).2.1.state.node ("node-" ++ uuid)).map Node.connected = some true := by
  rw [handleWsConnection, fromText_malformed h hms]
  exact node_nodeRegistration env w x ("node-" ++ uuid) ("node-" ++ uuid) connectionId output

/-- A malformed first message is turned away, and adds no node, exactly when the parser refuses its
text. In all other cases an acknowledged connection adds a node under its fresh name. -/
theorem malformed_rejected_iff (text : Text) (runUiMode : Wire.ClientMessage → NodeOp Unit)
    (first : String) (h : ∀ v, text.parse first = .ok v → ∃ ms, v = .obj ms ∧ Malformed ms) :
    ((∃ e, Wire.ClientMessage.fromText text first = .error e) ↔
        ∃ e, text.parse first = .error e) ∧
      ((∀ c w, AddsNoNode (handleWsConnection text runUiMode first c) w) ↔
        ∃ e, text.parse first = .error e) ∧
      ((∃ v, text.parse first = .ok v) → ∀ uuid connectionId output w,
        w.state.node ("node-" ++ uuid) = none →
          ¬ AddsNoNode (handleWsConnection text runUiMode first
            ⟨uuid, connectionId, output, true⟩) w) := by
  have hadds : (∃ v, text.parse first = .ok v) → ∀ uuid connectionId output w,
      w.state.node ("node-" ++ uuid) = none →
        ¬ AddsNoNode (handleWsConnection text runUiMode first
          ⟨uuid, connectionId, output, true⟩) w := by
    rintro ⟨v, hv⟩ uuid connectionId output w hfresh hnone
    obtain ⟨ms, rfl, hms⟩ := h v hv
    have hnode := node_handleWsConnection hv hms runUiMode uuid connectionId output w
      (fun (_ : Unit) _ => (.ok (), ())) ()
    rw [hnone Unit _ () _ hfresh] at hnode
    cases hnode
  refine ⟨⟨?_, ?_⟩, ⟨?_, ?_⟩, hadds⟩
  · rintro ⟨e, he⟩
    cases hp : text.parse first with
    | error e' => exact ⟨e', rfl⟩
    | ok v =>
      obtain ⟨ms, rfl, hms⟩ := h v hp
      rw [fromText_malformed hp hms] at he
      cases he
  · rintro ⟨e, he⟩
    exact ⟨e, fromText_error he⟩
  · intro hnone
    cases hp : text.parse first with
    | error e => exact ⟨e, rfl⟩
    | ok v =>
      exact absurd (hnone _ (Core.new (fun _ => none) [] [])) (hadds ⟨_, hp⟩ "" "" 0 _ rfl)
  · rintro ⟨e, he⟩ c w η env x id hid
    rw [handleWsConnection_error (fromText_error he)]
    exact hid

/-! ## A mistyped command -/

/-- `{"cmd":"plya"}`. -/
def mistyped : Members := [("cmd", .str "plya")]

theorem malformed_mistyped : Malformed mistyped where
  command m h := by cases h
  request m h := by cases h
  update m h := by cases h
  unnamed := by decide

theorem parse_mistyped : plainText.parse (plainText.print (.obj mistyped)) = .ok (.obj mistyped) :=
  plainText.parse_print (.obj mistyped) (by decide)

theorem malformed_rejected_iff_mistyped :
    ((∃ e, Wire.ClientMessage.fromText plainText (plainText.print (.obj mistyped)) = .error e) ↔
        ∃ e, plainText.parse (plainText.print (.obj mistyped)) = .error e) ∧
      ((∀ c w, AddsNoNode (handleWsConnection plainText (fun _ => pure ())
          (plainText.print (.obj mistyped)) c) w) ↔
        ∃ e, plainText.parse (plainText.print (.obj mistyped)) = .error e) ∧
      ((∃ v, plainText.parse (plainText.print (.obj mistyped)) = .ok v) →
        ∀ uuid connectionId output w, w.state.node ("node-" ++ uuid) = none →
          ¬ AddsNoNode (handleWsConnection plainText (fun _ => pure ())
            (plainText.print (.obj mistyped)) ⟨uuid, connectionId, output, true⟩) w) :=
  malformed_rejected_iff plainText (fun _ => pure ()) _ fun _ hv =>
    ⟨mistyped, Except.ok.inj (hv.symm.trans parse_mistyped), malformed_mistyped⟩

/-- A connection that opens with a mistyped command becomes a node. -/
theorem mistyped_registers :
    plainText.print (.obj mistyped) = "\x7b\"cmd\":\"plya\"\x7d" ∧
      Wire.ClientMessage.fromText plainText (plainText.print (.obj mistyped)) =
        .ok (.nodeRegistration ⟨none, none, none⟩) ∧
      (((handleWsConnection plainText (fun _ => pure ()) (plainText.print (.obj mistyped))
        ⟨"u", "c", 0, true⟩).run allSucceed (Core.new (fun _ => none) [] []) ()).2.1.state.node
          "node-u").map Node.connected = some true := by
  refine ⟨by decide +kernel, fromText_malformed parse_mistyped malformed_mistyped, ?_⟩
  exact node_handleWsConnection parse_mistyped malformed_mistyped _ "u" "c" 0 _ _ _

end Kanade

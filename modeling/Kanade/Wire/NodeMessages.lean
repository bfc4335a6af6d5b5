import Kanade.Wire.Messages

/-!
# Kanade.Wire.NodeMessages

What the server sends to nodes: `NodeCommand` and `NodeRegistrationAck` of `kanade-node-protocol`, the
latter as a `ServerMessage`, as their derives write and read them.

A node tries to read a text as one and then as the other. `deNodeCommand_ack` and
`deNodeRegistrationAck_command`: neither is taken for the other.
-/

namespace Kanade.Wire

open Serde

/-! ## The messages -/

inductive NodeCommand where
  | play
  | pause
  | stop
  | seek (positionSecs : ℚ)
  | setVolume (volume : UInt8)
  | setQueue (filePaths : List String) (projectionGeneration : UInt64)
  | add (filePaths : List String)
  | remove (index : UInt64)
  | moveTrack (src dst : UInt64)
deriving DecidableEq

structure NodeRegistrationAck where
  nodeId : String
  mediaBaseUrl : String
  mediaAuthKey : Option String
  mediaAuthKeyId : Option String
deriving DecidableEq, Repr

/-! ## Writing -/

/-- The name of the variant and its fields, by the tag `type`. -/
def NodeCommand.fields : NodeCommand → String × Members
  | .play => ("play", [])
  | .pause => ("pause", [])
  | .stop => ("stop", [])
  | .seek positionSecs => ("seek", [("position_secs", .float positionSecs)])
  | .setVolume volume => ("set_volume", [("volume", serUInt8 volume)])
  | .setQueue filePaths projectionGeneration =>
    ("set_queue", [("file_paths", serStrings filePaths),
      ("projection_generation", serUInt64 projectionGeneration)])
  | .add filePaths => ("add", [("file_paths", serStrings filePaths)])
  | .remove index => ("remove", [("index", serUInt64 index)])
  | .moveTrack src dst => ("move_track", [("from", serUInt64 src), ("to", serUInt64 dst)])

def serNodeCommand (cmd : NodeCommand) : Members := serTagged "type" cmd.fields

def serNodeRegistrationAck (ack : NodeRegistrationAck) : Members :=
  [("node_id", .str ack.nodeId),
    ("media_base_url", .str ack.mediaBaseUrl),
    ("media_auth_key", nullable .str ack.mediaAuthKey),
    ("media_auth_key_id", nullable .str ack.mediaAuthKeyId)]

/-- `ServerMessage::NodeRegistrationAck`, whose one field is flattened. -/
def serServerMessage (ack : NodeRegistrationAck) : Members :=
  serTagged "type" ("node_registration_ack", serNodeRegistrationAck ack)

/-! ## Reading -/

def deNodeCommandVariant (name : String) (ms : Members) : Except String NodeCommand :=
  if name = "play" then .ok .play
  else if name = "pause" then .ok .pause
  else if name = "stop" then .ok .stop
  else if name = "seek" then do
    let positionSecs ← required "position_secs" deFloat ms
    .ok (.seek positionSecs)
  else if name = "set_volume" then do
    let volume ← required "volume" deUInt8 ms
    .ok (.setVolume volume)
  else if name = "set_queue" then do
    let filePaths ← required "file_paths" (deVec deString) ms
    let projectionGeneration ← required "projection_generation" deUInt64 ms
    .ok (.setQueue filePaths projectionGeneration)
  else if name = "add" then do
    let filePaths ← required "file_paths" (deVec deString) ms
    .ok (.add filePaths)
  else if name = "remove" then do
    let index ← required "index" deUInt64 ms
    .ok (.remove index)
  else if name = "move_track" then do
    let src ← required "from" deUInt64 ms
    let dst ← required "to" deUInt64 ms
    .ok (.moveTrack src dst)
  else unknownVariant name

def nodeCommandVariants : Variants :=
  [("play", some ⟨[], []⟩),
    ("pause", some ⟨[], []⟩),
    ("stop", some ⟨[], []⟩),
    ("seek", some ⟨["position_secs"], []⟩),
    ("set_volume", some ⟨["volume"], []⟩),
    ("set_queue", some ⟨["file_paths", "projection_generation"], []⟩),
    ("add", some ⟨["file_paths"], []⟩),
    ("remove", some ⟨["index"], []⟩),
    ("move_track", some ⟨["from", "to"], []⟩)]

/-- From the text itself: the tag is a name. -/
def deNodeCommand : Value → Except String NodeCommand :=
  deTagged "type" nodeCommandVariants deString deNodeCommandVariant

def nodeRegistrationAckShape : Shape :=
  ⟨["node_id", "media_base_url", "media_auth_key", "media_auth_key_id"],
    ["media_auth_key", "media_auth_key_id"]⟩

/-- The tag is none of its fields. -/
def deNodeRegistrationAck : Value → Except String NodeRegistrationAck :=
  deStruct nodeRegistrationAckShape fun ms => do
    let nodeId ← required "node_id" deString ms
    let mediaBaseUrl ← required "media_base_url" deString ms
    let mediaAuthKey ← Serde.optional "media_auth_key" deString ms
    let mediaAuthKeyId ← Serde.optional "media_auth_key_id" deString ms
    .ok
      { nodeId := nodeId
        mediaBaseUrl := mediaBaseUrl
        mediaAuthKey := mediaAuthKey
        mediaAuthKeyId := mediaAuthKeyId }

/-! ## What arrives -/

/-- A command as the node has it. -/
def NodeCommand.received (f : ℚ → ℚ) : NodeCommand → NodeCommand
  | .seek positionSecs => .seek (f positionSecs)
  | cmd => cmd

section Laws

variable {f : ℚ → ℚ}

theorem notMem_nodeCommandFields (key : String) (h : key ∈ ["type", "node_id"]) (cmd : NodeCommand) :
    key ∉ Members.keys cmd.fields.2 := by
  simp only [List.mem_cons, List.not_mem_nil, or_false] at h
  rcases h with rfl | rfl <;> cases cmd <;> simp [NodeCommand.fields]

theorem deNodeCommandVariant_fields (cmd : NodeCommand) :
    deNodeCommandVariant cmd.fields.1 (rereadMembers f cmd.fields.2) = .ok (cmd.received f) := by
  cases cmd <;> simp [deNodeCommandVariant, NodeCommand.fields, NodeCommand.received, deUInt8_ser,
    deUInt64_ser, deStrings_serStrings]

theorem deNodeCommand_ser (cmd : NodeCommand) :
    deNodeCommand ((Value.obj (serNodeCommand cmd)).reread f) = .ok (cmd.received f) := by
  have htype : "type" ∉ Members.keys (rereadMembers f cmd.fields.2) := by
    simpa using notMem_nodeCommandFields "type" (by simp) cmd
  rw [serNodeCommand, serTagged, Value.reread, rereadMembers, Value.reread, deNodeCommand,
    deTagged_obj, tagged_cons htype (Serde.deString_str _), deNodeCommandVariant_fields]

/-- An acknowledgement is no command. -/
theorem deNodeCommand_ack (ack : NodeRegistrationAck) :
    deNodeCommand ((Value.obj (serServerMessage ack)).reread f) =
      .error "unknown variant node_registration_ack" := by
  have htype : "type" ∉ Members.keys (rereadMembers f (serNodeRegistrationAck ack)) := by
    simp [serNodeRegistrationAck]
  rw [serServerMessage, serTagged, Value.reread, rereadMembers, Value.reread, deNodeCommand,
    deTagged_obj, tagged_cons htype (Serde.deString_str _)]
  rfl

theorem deNodeRegistrationAck_ser (ack : NodeRegistrationAck) :
    deNodeRegistrationAck ((Value.obj (serServerMessage ack)).reread f) = .ok ack := by
  simp [deNodeRegistrationAck, serServerMessage, serTagged, serNodeRegistrationAck, deOption_nullable_str]

/-- A command is no acknowledgement. -/
theorem deNodeRegistrationAck_command (cmd : NodeCommand) :
    deNodeRegistrationAck ((Value.obj (serNodeCommand cmd)).reread f) =
      .error "missing field node_id" := by
  have hid : "node_id" ∉ Members.keys (rereadMembers f (serNodeCommand cmd)) := by
    have h := notMem_nodeCommandFields "node_id" (by simp) cmd
    simpa [serNodeCommand, serTagged] using h
  rw [Value.reread, deNodeRegistrationAck, deStruct_obj, required_none hid]
  rfl

end Laws

/-! ## On the wire -/

section Within

variable {depth : Nat}

theorem serNodeCommand_within (cmd : NodeCommand) : (Value.obj (serNodeCommand cmd)).within (depth + 2) := by
  cases cmd <;> simp [serNodeCommand, serTagged, NodeCommand.fields, serUInt8_within, serUInt64_within,
    serStrings_within]

theorem serServerMessage_within (ack : NodeRegistrationAck) :
    (Value.obj (serServerMessage ack)).within (depth + 2) := by
  have hstr : ∀ o : Option String, (nullable .str o).within (depth + 1) := within_nullable fun _ => rfl
  simp [serServerMessage, serTagged, serNodeRegistrationAck, hstr]

end Within

/-- `serde_json::to_string`. -/
def NodeCommand.toText (text : Text) (cmd : NodeCommand) : String := text.print (.obj (serNodeCommand cmd))

def NodeRegistrationAck.toText (text : Text) (ack : NodeRegistrationAck) : String :=
  text.print (.obj (serServerMessage ack))

/-- `serde_json::from_str`. -/
def NodeCommand.fromText (text : Text) (s : String) : Except String NodeCommand := do
  let v ← text.parse s
  deNodeCommand v

def NodeRegistrationAck.fromText (text : Text) (s : String) : Except String NodeRegistrationAck := do
  let v ← text.parse s
  deNodeRegistrationAck v

section Texts

variable (text : Text) (cmd : NodeCommand) (ack : NodeRegistrationAck)

theorem command_fromText : NodeCommand.fromText text (cmd.toText text) = .ok (cmd.received text.reread) := by
  rw [NodeCommand.fromText, NodeCommand.toText, text.parse_print _ (serNodeCommand_within cmd), ok_bind,
    deNodeCommand_ser]

theorem command_fromText_ack : ∃ e, NodeCommand.fromText text (ack.toText text) = .error e := by
  rw [NodeCommand.fromText, NodeRegistrationAck.toText, text.parse_print _ (serServerMessage_within ack),
    ok_bind, deNodeCommand_ack]
  exact ⟨_, rfl⟩

theorem ack_fromText : NodeRegistrationAck.fromText text (ack.toText text) = .ok ack := by
  rw [NodeRegistrationAck.fromText, NodeRegistrationAck.toText,
    text.parse_print _ (serServerMessage_within ack), ok_bind, deNodeRegistrationAck_ser]

end Texts

end Kanade.Wire

import Kanade.Wire.PlainText

/-!
# Kanade.Wire.Messages

The messages of clients: `WsCommand`, `WsRequest`, `NodeStateUpdate`, `NodeRegistration` and
`ClientMessage`, as their derives write and read them.

A message is read back as `received` has it (`deMessage_ser`). Two things of it do not cross the
wire: the order to clear the description of a playlist, which is written as `null` and read as no
order, and the floats that the parser rounds. `message_survives_iff`: there is no other loss.
-/

namespace Kanade.Wire

open Serde

/-! ## The messages -/

inductive WsCommand where
  | play
  | pause
  | stop
  | next
  | previous
  | seek (positionSecs : ℚ)
  | setVolume (volume : UInt8)
  | setRepeat (repeatMode : RepeatMode)
  | setShuffle (shuffle : Bool)
  | selectNode (nodeId : String)
  | addToQueue (track : Track)
  | addTracksToQueue (tracks : List Track)
  | playIndex (index : UInt64)
  | removeFromQueue (index : UInt64)
  | moveInQueue (src dst : UInt64)
  | clearQueue
  | replaceAndPlay (tracks : List Track) (index : UInt64)
  | localSessionStart (deviceName : String) (deviceId : Option String)
  | localSessionStop
  | localSessionUpdate (tracks : Option (List Track)) (index : Option UInt64) (positionSecs : ℚ)
      (status : PlaybackStatus) (volume : UInt8) (repeatMode : RepeatMode) (shuffle : Bool)
  | handoff (fromNodeId toNodeId : String)
  | createPlaylist (name : String) (description : Option String) (kind : PlaylistKind)
  | updatePlaylist (playlistId : String) (name : Option String)
      (description : Option (Option String)) (kind : Option PlaylistKind)
  | deletePlaylist (playlistId : String)
  | setPlaylistTracks (playlistId : String) (trackIds : List String)
  | appendPlaylistTracks (playlistId : String) (trackIds : List String)
  | removePlaylistTrack (playlistId : String) (position : UInt64)
  | movePlaylistTrack (playlistId : String) (src dst : UInt64)

inductive WsRequest where
  | getAlbums
  | getAlbumTracks (albumId : String)
  | getTracks (offset limit : Option UInt32)
  | getArtists
  | getArtistAlbums (artist : String)
  | getArtistTracks (artist : String)
  | getGenres
  | getGenreAlbums (genre : String)
  | getGenreTracks (genre : String)
  | search (query : String)
  | getQueue
  | signUrls (paths : List String)
  | getPlaylists
  | getPlaylist (playlistId : String)
  | getPlaylistTracks (playlistId : String)

structure NodeStateUpdate where
  status : PlaybackStatus
  positionSecs : ℚ
  volume : UInt8
  mpdSongIndex : Option UInt64
  projectionGeneration : UInt64

structure NodeRegistration where
  nodeId : Option String
  displayName : Option String
  name : Option String

inductive ClientMessage where
  | command (cmd : WsCommand)
  | request (reqId : UInt64) (req : WsRequest)
  | nodeStateUpdate (update : NodeStateUpdate)
  | nodeRegistration (registration : NodeRegistration)

/-! ## Writing -/

def serStrings (l : List String) : Value := .arr (l.map .str)

def serTracks (ts : List Track) : Value := .arr (ts.map serTrack)

/-- The name of the variant and its fields, by the tag `cmd`. -/
def WsCommand.fields : WsCommand → String × Members
  | .play => ("play", [])
  | .pause => ("pause", [])
  | .stop => ("stop", [])
  | .next => ("next", [])
  | .previous => ("previous", [])
  | .seek positionSecs => ("seek", [("position_secs", .float positionSecs)])
  | .setVolume volume => ("set_volume", [("volume", serUInt8 volume)])
  | .setRepeat repeatMode => ("set_repeat", [("repeat", serRepeatMode repeatMode)])
  | .setShuffle shuffle => ("set_shuffle", [("shuffle", .bool shuffle)])
  | .selectNode nodeId => ("select_node", [("node_id", .str nodeId)])
  | .addToQueue track => ("add_to_queue", [("track", serTrack track)])
  | .addTracksToQueue tracks => ("add_tracks_to_queue", [("tracks", serTracks tracks)])
  | .playIndex index => ("play_index", [("index", serUInt64 index)])
  | .removeFromQueue index => ("remove_from_queue", [("index", serUInt64 index)])
  | .moveInQueue src dst => ("move_in_queue", [("from", serUInt64 src), ("to", serUInt64 dst)])
  | .clearQueue => ("clear_queue", [])
  | .replaceAndPlay tracks index =>
    ("replace_and_play", [("tracks", serTracks tracks), ("index", serUInt64 index)])
  | .localSessionStart deviceName deviceId =>
    ("local_session_start",
      [("device_name", .str deviceName), ("device_id", nullable .str deviceId)])
  | .localSessionStop => ("local_session_stop", [])
  | .localSessionUpdate tracks index positionSecs status volume repeatMode shuffle =>
    ("local_session_update",
      skipNone "tracks" serTracks tracks ++
        [("index", nullable serUInt64 index),
          ("position_secs", .float positionSecs),
          ("status", serPlaybackStatus status),
          ("volume", serUInt8 volume),
          ("repeat", serRepeatMode repeatMode),
          ("shuffle", .bool shuffle)])
  | .handoff fromNodeId toNodeId =>
    ("handoff", [("from_node_id", .str fromNodeId), ("to_node_id", .str toNodeId)])
  | .createPlaylist name description kind =>
    ("create_playlist",
      ("name", .str name) :: (skipNone "description" .str description ++ serPlaylistKind kind))
  | .updatePlaylist playlistId name description kind =>
    ("update_playlist",
      ("playlist_id", .str playlistId) :: (skipNone "name" .str name ++
        (skipNone "description" (nullable .str) description ++
          skipNone "kind" (fun kind => .obj (serPlaylistKind kind)) kind)))
  | .deletePlaylist playlistId => ("delete_playlist", [("playlist_id", .str playlistId)])
  | .setPlaylistTracks playlistId trackIds =>
    ("set_playlist_tracks",
      [("playlist_id", .str playlistId), ("track_ids", serStrings trackIds)])
  | .appendPlaylistTracks playlistId trackIds =>
    ("append_playlist_tracks",
      [("playlist_id", .str playlistId), ("track_ids", serStrings trackIds)])
  | .removePlaylistTrack playlistId position =>
    ("remove_playlist_track",
      [("playlist_id", .str playlistId), ("position", serUInt64 position)])
  | .movePlaylistTrack playlistId src dst =>
    ("move_playlist_track",
      [("playlist_id", .str playlistId), ("from", serUInt64 src), ("to", serUInt64 dst)])

/-- The same for the tag `req`. -/
def WsRequest.fields : WsRequest → String × Members
  | .getAlbums => ("get_albums", [])
  | .getAlbumTracks albumId => ("get_album_tracks", [("album_id", .str albumId)])
  | .getTracks offset limit =>
    ("get_tracks",
      skipNone "offset" serUInt32 offset ++ skipNone "limit" serUInt32 limit)
  | .getArtists => ("get_artists", [])
  | .getArtistAlbums artist => ("get_artist_albums", [("artist", .str artist)])
  | .getArtistTracks artist => ("get_artist_tracks", [("artist", .str artist)])
  | .getGenres => ("get_genres", [])
  | .getGenreAlbums genre => ("get_genre_albums", [("genre", .str genre)])
  | .getGenreTracks genre => ("get_genre_tracks", [("genre", .str genre)])
  | .search query => ("search", [("query", .str query)])
  | .getQueue => ("get_queue", [])
  | .signUrls paths => ("sign_urls", [("paths", serStrings paths)])
  | .getPlaylists => ("get_playlists", [])
  | .getPlaylist playlistId => ("get_playlist", [("playlist_id", .str playlistId)])
  | .getPlaylistTracks playlistId => ("get_playlist_tracks", [("playlist_id", .str playlistId)])

/-- `tag = ".."`: the tag stands before the fields. -/
def serTagged (tag : String) (variant : String × Members) : Members :=
  (tag, .str variant.1) :: variant.2

def serWsCommand (cmd : WsCommand) : Members := serTagged "cmd" cmd.fields

def serWsRequest (req : WsRequest) : Members := serTagged "req" req.fields

def serNodeStateUpdate (update : NodeStateUpdate) : Members :=
  [("status", serPlaybackStatus update.status),
    ("position_secs", .float update.positionSecs),
    ("volume", serUInt8 update.volume),
    ("mpd_song_index", nullable serUInt64 update.mpdSongIndex),
    ("projection_generation", serUInt64 update.projectionGeneration)]

def serNodeRegistration (registration : NodeRegistration) : Members :=
  [("node_id", nullable .str registration.nodeId),
    ("display_name", nullable .str registration.displayName),
    ("name", nullable .str registration.name)]

def serClientMessage : ClientMessage → Value
  | .command cmd => .obj (serWsCommand cmd)
  | .request reqId req => .obj (("req_id", serUInt64 reqId) :: serWsRequest req)
  | .nodeStateUpdate update => .obj (serNodeStateUpdate update)
  | .nodeRegistration registration => .obj (serNodeRegistration registration)

/-! ## Reading -/

/-- With the fields in their order, and those with `default`. -/
def wsCommandVariants : Variants :=
  [("play", some ⟨[], []⟩),
    ("pause", some ⟨[], []⟩),
    ("stop", some ⟨[], []⟩),
    ("next", some ⟨[], []⟩),
    ("previous", some ⟨[], []⟩),
    ("seek", some ⟨["position_secs"], []⟩),
    ("set_volume", some ⟨["volume"], []⟩),
    ("set_repeat", some ⟨["repeat"], []⟩),
    ("set_shuffle", some ⟨["shuffle"], []⟩),
    ("select_node", some ⟨["node_id"], []⟩),
    ("add_to_queue", some ⟨["track"], []⟩),
    ("add_tracks_to_queue", some ⟨["tracks"], []⟩),
    ("play_index", some ⟨["index"], []⟩),
    ("remove_from_queue", some ⟨["index"], []⟩),
    ("move_in_queue", some ⟨["from", "to"], []⟩),
    ("clear_queue", some ⟨[], []⟩),
    ("replace_and_play", some ⟨["tracks", "index"], []⟩),
    ("local_session_start", some ⟨["device_name", "device_id"], ["device_id"]⟩),
    ("local_session_stop", some ⟨[], []⟩),
    ("local_session_update",
      some ⟨["tracks", "index", "position_secs", "status", "volume", "repeat", "shuffle"],
        ["tracks", "index"]⟩),
    ("handoff", some ⟨["from_node_id", "to_node_id"], []⟩),
    ("create_playlist", none),
    ("update_playlist",
      some ⟨["playlist_id", "name", "description", "kind"], ["name", "description", "kind"]⟩),
    ("delete_playlist", some ⟨["playlist_id"], []⟩),
    ("set_playlist_tracks", some ⟨["playlist_id", "track_ids"], []⟩),
    ("append_playlist_tracks", some ⟨["playlist_id", "track_ids"], []⟩),
    ("remove_playlist_track", some ⟨["playlist_id", "position"], []⟩),
    ("move_playlist_track", some ⟨["playlist_id", "from", "to"], []⟩)]

def deWsCommandVariant (name : String) (ms : Members) : Except String WsCommand :=
  if name = "play" then .ok .play
  else if name = "pause" then .ok .pause
  else if name = "stop" then .ok .stop
  else if name = "next" then .ok .next
  else if name = "previous" then .ok .previous
  else if name = "seek" then do
    let positionSecs ← required "position_secs" deFloat ms
    .ok (.seek positionSecs)
  else if name = "set_volume" then do
    let volume ← required "volume" deUInt8 ms
    .ok (.setVolume volume)
  else if name = "set_repeat" then do
    let repeatMode ← required "repeat" deRepeatMode ms
    .ok (.setRepeat repeatMode)
  else if name = "set_shuffle" then do
    let shuffle ← required "shuffle" deBool ms
    .ok (.setShuffle shuffle)
  else if name = "select_node" then do
    let nodeId ← required "node_id" deString ms
    .ok (.selectNode nodeId)
  else if name = "add_to_queue" then do
    let track ← required "track" deTrack ms
    .ok (.addToQueue track)
  else if name = "add_tracks_to_queue" then do
    let tracks ← required "tracks" (deVec deTrack) ms
    .ok (.addTracksToQueue tracks)
  else if name = "play_index" then do
    let index ← required "index" deUInt64 ms
    .ok (.playIndex index)
  else if name = "remove_from_queue" then do
    let index ← required "index" deUInt64 ms
    .ok (.removeFromQueue index)
  else if name = "move_in_queue" then do
    let src ← required "from" deUInt64 ms
    let dst ← required "to" deUInt64 ms
    .ok (.moveInQueue src dst)
  else if name = "clear_queue" then .ok .clearQueue
  else if name = "replace_and_play" then do
    let tracks ← required "tracks" (deVec deTrack) ms
    let index ← required "index" deUInt64 ms
    .ok (.replaceAndPlay tracks index)
  else if name = "local_session_start" then do
    let deviceName ← required "device_name" deString ms
    let deviceId ← Serde.optional "device_id" deString ms
    .ok (.localSessionStart deviceName deviceId)
  else if name = "local_session_stop" then .ok .localSessionStop
  else if name = "local_session_update" then do
    let tracks ← Serde.optional "tracks" (deVec deTrack) ms
    let index ← Serde.optional "index" deUInt64 ms
    let positionSecs ← required "position_secs" deFloat ms
    let status ← required "status" (dePlaybackStatus true) ms
    let volume ← required "volume" deUInt8 ms
    let repeatMode ← required "repeat" deRepeatMode ms
    let shuffle ← required "shuffle" deBool ms
    .ok (.localSessionUpdate tracks index positionSecs status volume repeatMode shuffle)
  else if name = "handoff" then do
    let fromNodeId ← required "from_node_id" deString ms
    let toNodeId ← required "to_node_id" deString ms
    .ok (.handoff fromNodeId toNodeId)
  else if name = "create_playlist" then do
    let name ← required "name" deString ms
    let description ← Serde.optional "description" deString ms
    let kind ← deFlatPlaylistKind (ms.others ["name", "description"])
    .ok (.createPlaylist name description kind)
  else if name = "update_playlist" then do
    let playlistId ← required "playlist_id" deString ms
    let name ← Serde.optional "name" deString ms
    let description ← Serde.optional "description" (deOption deString) ms
    let kind ←
      Serde.optional "kind" (dePlaylistKind (deIdentifier playlistKindVariants.names)) ms
    .ok (.updatePlaylist playlistId name description kind)
  else if name = "delete_playlist" then do
    let playlistId ← required "playlist_id" deString ms
    .ok (.deletePlaylist playlistId)
  else if name = "set_playlist_tracks" then do
    let playlistId ← required "playlist_id" deString ms
    let trackIds ← required "track_ids" (deVec deString) ms
    .ok (.setPlaylistTracks playlistId trackIds)
  else if name = "append_playlist_tracks" then do
    let playlistId ← required "playlist_id" deString ms
    let trackIds ← required "track_ids" (deVec deString) ms
    .ok (.appendPlaylistTracks playlistId trackIds)
  else if name = "remove_playlist_track" then do
    let playlistId ← required "playlist_id" deString ms
    let position ← required "position" deUInt64 ms
    .ok (.removePlaylistTrack playlistId position)
  else if name = "move_playlist_track" then do
    let playlistId ← required "playlist_id" deString ms
    let src ← required "from" deUInt64 ms
    let dst ← required "to" deUInt64 ms
    .ok (.movePlaylistTrack playlistId src dst)
  else unknownVariant name

def deWsCommand : Value → Except String WsCommand :=
  deTagged "cmd" wsCommandVariants (deIdentifier wsCommandVariants.names) deWsCommandVariant

def deWsRequestVariant (name : String) (ms : Members) : Except String WsRequest :=
  if name = "get_albums" then .ok .getAlbums
  else if name = "get_album_tracks" then do
    let albumId ← required "album_id" deString ms
    .ok (.getAlbumTracks albumId)
  else if name = "get_tracks" then do
    let offset ← Serde.optional "offset" deUInt32 ms
    let limit ← Serde.optional "limit" deUInt32 ms
    .ok (.getTracks offset limit)
  else if name = "get_artists" then .ok .getArtists
  else if name = "get_artist_albums" then do
    let artist ← required "artist" deString ms
    .ok (.getArtistAlbums artist)
  else if name = "get_artist_tracks" then do
    let artist ← required "artist" deString ms
    .ok (.getArtistTracks artist)
  else if name = "get_genres" then .ok .getGenres
  else if name = "get_genre_albums" then do
    let genre ← required "genre" deString ms
    .ok (.getGenreAlbums genre)
  else if name = "get_genre_tracks" then do
    let genre ← required "genre" deString ms
    .ok (.getGenreTracks genre)
  else if name = "search" then do
    let query ← required "query" deString ms
    .ok (.search query)
  else if name = "get_queue" then .ok .getQueue
  else if name = "sign_urls" then do
    let paths ← required "paths" (deVec deString) ms
    .ok (.signUrls paths)
  else if name = "get_playlists" then .ok .getPlaylists
  else if name = "get_playlist" then do
    let playlistId ← required "playlist_id" deString ms
    .ok (.getPlaylist playlistId)
  else if name = "get_playlist_tracks" then do
    let playlistId ← required "playlist_id" deString ms
    .ok (.getPlaylistTracks playlistId)
  else unknownVariant name

/-- The variants in their order. -/
def wsRequestNames : List String :=
  ["get_albums", "get_album_tracks", "get_tracks", "get_artists", "get_artist_albums",
    "get_artist_tracks", "get_genres", "get_genre_albums", "get_genre_tracks", "search", "get_queue",
    "sign_urls", "get_playlists", "get_playlist", "get_playlist_tracks"]

/-- It is only read as a flattened field. -/
def deWsRequest : Members → Except String WsRequest :=
  tagged "req" (deIdentifier wsRequestNames) deWsRequestVariant

def deNodeStateUpdate (ms : Members) : Except String NodeStateUpdate := do
  let status ← required "status" (dePlaybackStatus false) ms
  let positionSecs ← required "position_secs" deFloat ms
  let volume ← required "volume" deUInt8 ms
  let mpdSongIndex ← Serde.optional "mpd_song_index" deUInt64 ms
  let projectionGeneration ← required "projection_generation" deUInt64 ms
  .ok
    { status := status
      positionSecs := positionSecs
      volume := volume
      mpdSongIndex := mpdSongIndex
      projectionGeneration := projectionGeneration }

def deNodeRegistration (ms : Members) : Except String NodeRegistration := do
  let nodeId ← Serde.optional "node_id" deString ms
  let displayName ← Serde.optional "display_name" deString ms
  let name ← Serde.optional "name" deString ms
  .ok { nodeId := nodeId, displayName := displayName, name := name }

def nodeStateUpdateShape : Shape :=
  ⟨["status", "position_secs", "volume", "mpd_song_index", "projection_generation"], []⟩

def nodeRegistrationShape : Shape :=
  ⟨["node_id", "display_name", "name"], ["node_id", "display_name", "name"]⟩

def deCommandMessage (v : Value) : Except String ClientMessage := do
  let cmd ← deWsCommand v
  .ok (.command cmd)

def deRequestMessage : Value → Except String ClientMessage :=
  deMap fun ms => do
    let reqId ← required "req_id" deUInt64 ms
    let req ← deWsRequest (ms.others ["req_id"])
    .ok (.request reqId req)

def deStateMessage (v : Value) : Except String ClientMessage := do
  let update ← deStruct nodeStateUpdateShape deNodeStateUpdate v
  .ok (.nodeStateUpdate update)

def deRegistrationMessage (v : Value) : Except String ClientMessage := do
  let registration ← deStruct nodeRegistrationShape deNodeRegistration v
  .ok (.nodeRegistration registration)

/-- `untagged`: in the order of the variants. -/
def deClientMessage (v : Value) : Except String ClientMessage :=
  untagged v [deCommandMessage, deRequestMessage, deStateMessage, deRegistrationMessage]

/-- The tag may be the number of its variant. -/
example : deClientMessage (.obj [("req_id", .int 1), ("req", .int 10)]) = .ok (.request 1 .getQueue) :=
  rfl

/-! ## What arrives -/

/-- `null` says that there is no order. -/
def receivedDescription : Option (Option String) → Option (Option String)
  | some none => none
  | description => description

/-- A command as the server has it. -/
def WsCommand.received (f : ℚ → ℚ) : WsCommand → WsCommand
  | .seek positionSecs => .seek (f positionSecs)
  | .addToQueue track => .addToQueue (track.reread f)
  | .addTracksToQueue tracks => .addTracksToQueue (tracks.map (Track.reread f))
  | .replaceAndPlay tracks index => .replaceAndPlay (tracks.map (Track.reread f)) index
  | .localSessionUpdate tracks index positionSecs status volume repeatMode shuffle =>
    .localSessionUpdate (tracks.map (List.map (Track.reread f))) index (f positionSecs) status volume
      repeatMode shuffle
  | .updatePlaylist playlistId name description kind =>
    .updatePlaylist playlistId name (receivedDescription description) kind
  | cmd => cmd

def ClientMessage.received (f : ℚ → ℚ) : ClientMessage → ClientMessage
  | .command cmd => .command (cmd.received f)
  | .nodeStateUpdate update =>
    .nodeStateUpdate { update with positionSecs := f update.positionSecs }
  | m => m

section Laws

variable {f : ℚ → ℚ}

theorem deTracks_serTracks (ts : List Track) :
    deVec deTrack ((serTracks ts).reread f) = .ok (ts.map (Track.reread f)) := deTracks_ser ts

theorem deStrings_serStrings (l : List String) :
    deVec deString ((serStrings l).reread f) = .ok l := deStrings_ser l

theorem deOption_nullable_uint64 (o : Option UInt64) :
    deOption deUInt64 ((nullable serUInt64 o).reread f) = .ok o := by
  simpa using deOption_nullable (g := id) deUInt64_ser nofun o

theorem deOption_tracks (ts : List Track) :
    deOption (deVec deTrack) ((serTracks ts).reread f) = .ok (some (ts.map (Track.reread f))) :=
  deOption_ok (deTracks_serTracks ts) nofun

theorem deOption_kind (kind : PlaylistKind) :
    deOption (dePlaylistKind (deIdentifier playlistKindVariants.names))
        ((Value.obj (serPlaylistKind kind)).reread f) = .ok (some kind) :=
  deOption_ok (dePlaylistKind_ser (deIdentifier_str _) kind) nofun

theorem mem_keys_serPlaylistKind {key : String} {kind : PlaylistKind}
    (h : key ∈ Members.keys (serPlaylistKind kind)) :
    key ∈ ["kind", "filter", "limit", "sort_by"] := by
  cases kind with
  | normal => simpa [serPlaylistKind] using Or.inl h
  | smart filter limit sortBy =>
    simp only [serPlaylistKind, keys_append, List.mem_append, mem_keys_skipNone, keys_cons, keys_nil,
      List.mem_cons, List.not_mem_nil, or_false] at h ⊢
    tauto

/-- The description as it is read, in one member of the text. -/
theorem optional_description (description : Option (Option String)) {ms : Members}
    (h : "description" ∉ ms.keys) :
    Serde.optional "description" (deOption deString)
        (rereadMembers f (skipNone "description" (nullable .str) description) ++ ms) =
      .ok (receivedDescription description) := by
  cases description with
  | none => exact optional_none h
  | some description =>
    rw [skipNone, rereadMembers, rereadMembers, List.singleton_append, optional_cons_self h]
    cases description <;> rfl

theorem deWsCommand_createPlaylist (name : String) (description : Option String)
    (kind : PlaylistKind) :
    deWsCommandVariant "create_playlist"
        (rereadMembers f (WsCommand.createPlaylist name description kind).fields.2) =
      .ok (.createPlaylist name description kind) := by
  have hother : ∀ key ∈ ["name", "description"], key ∉ Members.keys (serPlaylistKind kind) := by
    intro key hkey h
    have hmem := mem_keys_serPlaylistKind h
    simp only [List.mem_cons, List.not_mem_nil, or_false] at hkey hmem
    rcases hkey with rfl | rfl <;> simp at hmem
  have hname := hother "name" (by simp)
  have hdesc := hother "description" (by simp)
  have hskip : Members.others (rereadMembers f (skipNone "description" .str description))
      ["name", "description"] = [] := by
    refine others_eq_nil ?_
    intro k hk
    rw [keys_reread, mem_keys_skipNone] at hk
    simp [hk.2]
  have hkind : Members.others (rereadMembers f (serPlaylistKind kind)) ["name", "description"] =
      rereadMembers f (serPlaylistKind kind) := by
    refine others_eq_self ?_
    intro k hk
    rw [keys_reread]
    exact hother k hk
  simp [deWsCommandVariant, WsCommand.fields, hname, hdesc, optional_skipNone_self deOption_string,
    others_cons_of_mem, others_append, hskip, hkind, deFlatPlaylistKind_ser]

theorem deWsCommand_updatePlaylist (playlistId : String) (name : Option String)
    (description : Option (Option String)) (kind : Option PlaylistKind) :
    deWsCommandVariant "update_playlist"
        (rereadMembers f (WsCommand.updatePlaylist playlistId name description kind).fields.2) =
      .ok (.updatePlaylist playlistId name (receivedDescription description) kind) := by
  simp [deWsCommandVariant, WsCommand.fields, optional_skipNone_self deOption_string,
    optional_description, optional_skipNone_last deOption_kind]

theorem deWsCommandVariant_fields (cmd : WsCommand) :
    deWsCommandVariant cmd.fields.1 (rereadMembers f cmd.fields.2) = .ok (cmd.received f) := by
  cases cmd with
  | createPlaylist name description kind => exact deWsCommand_createPlaylist name description kind
  | updatePlaylist playlistId name description kind =>
    exact deWsCommand_updatePlaylist playlistId name description kind
  | localSessionUpdate tracks index positionSecs status volume repeatMode shuffle =>
    simp [deWsCommandVariant, WsCommand.fields, WsCommand.received, optional_skipNone deOption_tracks,
      deOption_nullable_uint64, dePlaybackStatus_ser, deUInt8_ser, deRepeatMode_ser]
  | _ =>
    simp [deWsCommandVariant, WsCommand.fields, WsCommand.received, deUInt8_ser, deUInt64_ser,
      deRepeatMode_ser, deTrack_ser, deTracks_serTracks, deStrings_serStrings, deOption_nullable_str]

theorem deWsRequestVariant_fields (req : WsRequest) :
    deWsRequestVariant req.fields.1 (rereadMembers f req.fields.2) = .ok req := by
  cases req with
  | getTracks offset limit =>
    simp [deWsRequestVariant, WsRequest.fields, optional_skipNone_self deOption_uint32,
      optional_skipNone_last deOption_uint32]
  | _ => simp [deWsRequestVariant, WsRequest.fields, deStrings_serStrings]

/-- The tags, and the fields that tell the variants of a message apart. -/
theorem cmd_notMem_fields (cmd : WsCommand) : "cmd" ∉ Members.keys cmd.fields.2 := by
  cases cmd with
  | createPlaylist name description kind =>
    have hkind : "cmd" ∉ Members.keys (serPlaylistKind kind) := by
      intro h
      simpa using mem_keys_serPlaylistKind h
    simp [WsCommand.fields, hkind]
  | _ => simp [WsCommand.fields]

theorem notMem_requestFields (key : String) (h : key ∈ ["cmd", "req", "req_id"]) (req : WsRequest) :
    key ∉ Members.keys req.fields.2 := by
  simp only [List.mem_cons, List.not_mem_nil, or_false] at h
  rcases h with rfl | rfl | rfl <;> cases req <;> simp [WsRequest.fields]

theorem deWsCommand_ser (cmd : WsCommand) :
    deWsCommand (.obj (rereadMembers f (serWsCommand cmd))) = .ok (cmd.received f) := by
  have hcmd : "cmd" ∉ Members.keys (rereadMembers f cmd.fields.2) := by
    simpa using cmd_notMem_fields cmd
  rw [serWsCommand, serTagged, rereadMembers, Value.reread, deWsCommand, deTagged_obj,
    tagged_cons hcmd (deIdentifier_str _ _), deWsCommandVariant_fields]

theorem deWsRequest_ser (req : WsRequest) :
    deWsRequest (rereadMembers f (serWsRequest req)) = .ok req := by
  have hreq : "req" ∉ Members.keys (rereadMembers f req.fields.2) := by
    simpa using notMem_requestFields "req" (by simp) req
  rw [serWsRequest, serTagged, rereadMembers, Value.reread, deWsRequest,
    tagged_cons hreq (deIdentifier_str _ _), deWsRequestVariant_fields]

theorem deNodeStateUpdate_ser (update : NodeStateUpdate) :
    deNodeStateUpdate (rereadMembers f (serNodeStateUpdate update)) =
      .ok { update with positionSecs := f update.positionSecs } := by
  simp [deNodeStateUpdate, serNodeStateUpdate, dePlaybackStatus_ser, deUInt8_ser, deUInt64_ser,
    deOption_nullable_uint64]

theorem deNodeRegistration_ser (registration : NodeRegistration) :
    deNodeRegistration (rereadMembers f (serNodeRegistration registration)) = .ok registration := by
  simp [deNodeRegistration, serNodeRegistration, deOption_nullable_str]

/-- A message without the tag of commands is no command. -/
theorem deCommandMessage_error {ms : Members} (h : "cmd" ∉ ms.keys) :
    deCommandMessage (.obj ms) = .error "missing field cmd" := by
  rw [deCommandMessage, deWsCommand, deTagged_obj, tagged_none h]
  rfl

theorem deRequestMessage_error {ms : Members} (h : "req_id" ∉ ms.keys) :
    deRequestMessage (.obj ms) = .error "missing field req_id" := by
  rw [deRequestMessage, deMap, required_none h]
  rfl

theorem deStateMessage_error {ms : Members} (h : "status" ∉ ms.keys) :
    deStateMessage (.obj ms) = .error "missing field status" := by
  rw [deStateMessage, deStruct_obj, deNodeStateUpdate, required_none h]
  rfl

theorem deRequestMessage_ser (reqId : UInt64) (req : WsRequest) :
    deRequestMessage (.obj (rereadMembers f (("req_id", serUInt64 reqId) :: serWsRequest req))) =
      .ok (.request reqId req) := by
  have hid : "req_id" ∉ Members.keys (rereadMembers f (serWsRequest req)) := by
    have h := notMem_requestFields "req_id" (by simp) req
    simpa [serWsRequest, serTagged] using h
  have hothers : ∀ k ∈ ["req_id"], k ∉ Members.keys (rereadMembers f (serWsRequest req)) := by
    intro k hk
    rwa [List.mem_singleton.1 hk]
  rw [rereadMembers, deRequestMessage, deMap, required_cons_self hid, deUInt64_ser, ok_bind,
    others_cons_of_mem (List.mem_singleton_self "req_id"), others_eq_self hothers, deWsRequest_ser,
    ok_bind]

/-- No variant takes a message of a later one. -/
theorem deClientMessage_ser (m : ClientMessage) :
    deClientMessage ((serClientMessage m).reread f) = .ok (m.received f) := by
  cases m with
  | command cmd =>
    refine untagged_ok ?_
    simp [serClientMessage, deCommandMessage, deWsCommand_ser, ClientMessage.received]
  | request reqId req =>
    have hcmd := notMem_requestFields "cmd" (by simp) req
    have hnone : "cmd" ∉ Members.keys
        (rereadMembers f (("req_id", serUInt64 reqId) :: serWsRequest req)) := by
      simpa [serWsRequest, serTagged] using hcmd
    rw [deClientMessage, serClientMessage, Value.reread,
      untagged_error (deCommandMessage_error hnone)]
    exact untagged_ok (deRequestMessage_ser reqId req)
  | nodeStateUpdate update =>
    have hnone : ∀ key ∈ ["cmd", "req_id"],
        key ∉ Members.keys (rereadMembers f (serNodeStateUpdate update)) := by
      simp [serNodeStateUpdate]
    rw [deClientMessage, serClientMessage, Value.reread,
      untagged_error (deCommandMessage_error (hnone "cmd" (by simp))),
      untagged_error (deRequestMessage_error (hnone "req_id" (by simp)))]
    refine untagged_ok ?_
    simp [deStateMessage, deNodeStateUpdate_ser, ClientMessage.received]
  | nodeRegistration registration =>
    have hnone : ∀ key ∈ ["cmd", "req_id", "status"],
        key ∉ Members.keys (rereadMembers f (serNodeRegistration registration)) := by
      simp [serNodeRegistration]
    rw [deClientMessage, serClientMessage, Value.reread,
      untagged_error (deCommandMessage_error (hnone "cmd" (by simp))),
      untagged_error (deRequestMessage_error (hnone "req_id" (by simp))),
      untagged_error (deStateMessage_error (hnone "status" (by simp)))]
    refine untagged_ok ?_
    simp [deRegistrationMessage, deNodeRegistration_ser, ClientMessage.received]

end Laws

/-! ## Messages on the wire -/

section Within

variable {depth : Nat}

theorem serStrings_within (l : List String) : (serStrings l).within (depth + 1) := by
  have h : withinItems depth (l.map .str) := withinItems_map (fun _ => rfl) l
  simp [serStrings, h]

theorem serTracks_within (ts : List Track) : (serTracks ts).within (depth + 2) :=
  Kanade.serTracks_within ts

theorem withinMembers_skipString (key : String) (o : Option String) :
    withinMembers depth (skipNone key .str o) := withinMembers_skipNone (fun _ => rfl) key o

theorem serWsCommand_within (cmd : WsCommand) : withinMembers (depth + 4) (serWsCommand cmd) := by
  cases cmd with
  | localSessionStart deviceName deviceId =>
    have hdevice : (nullable .str deviceId).within (depth + 4) := within_nullable (fun _ => rfl) _
    simp [serWsCommand, serTagged, WsCommand.fields, hdevice]
  | localSessionUpdate tracks index positionSecs status volume repeatMode shuffle =>
    have htracks : withinMembers (depth + 4) (skipNone "tracks" serTracks tracks) :=
      withinMembers_skipNone serTracks_within _ _
    have hindex : (nullable serUInt64 index).within (depth + 4) :=
      within_nullable serUInt64_within _
    simp [serWsCommand, serTagged, WsCommand.fields, htracks, hindex, serPlaybackStatus_within,
      serUInt8_within, serRepeatMode_within]
  | createPlaylist name description kind =>
    simp [serWsCommand, serTagged, WsCommand.fields, withinMembers_skipString,
      serPlaylistKind_within]
  | updatePlaylist playlistId name description kind =>
    have hdescription : withinMembers (depth + 4) (skipNone "description" (nullable .str) description) :=
      withinMembers_skipNone (fun _ => within_nullable (fun _ => rfl) _) _ _
    have hkind : withinMembers (depth + 4)
        (skipNone "kind" (fun kind => .obj (serPlaylistKind kind)) kind) :=
      withinMembers_skipNone (fun kind => by simp [serPlaylistKind_within]) _ _
    simp [serWsCommand, serTagged, WsCommand.fields, withinMembers_skipString, hdescription, hkind]
  | _ =>
    simp [serWsCommand, serTagged, WsCommand.fields, serUInt8_within, serUInt64_within,
      serRepeatMode_within, serTrack_within, serTracks_within, serStrings_within]

theorem serWsRequest_within (req : WsRequest) : withinMembers (depth + 1) (serWsRequest req) := by
  cases req with
  | getTracks offset limit =>
    have hskip : ∀ key (o : Option UInt32), withinMembers (depth + 1) (skipNone key serUInt32 o) :=
      withinMembers_skipNone serUInt32_within
    simp [serWsRequest, serTagged, WsRequest.fields, hskip]
  | _ => simp [serWsRequest, serTagged, WsRequest.fields, serStrings_within]

theorem serClientMessage_within (m : ClientMessage) : (serClientMessage m).within (depth + 5) := by
  have huint64 : ∀ o : Option UInt64, (nullable serUInt64 o).within (depth + 4) :=
    within_nullable serUInt64_within
  have hstr : ∀ o : Option String, (nullable .str o).within (depth + 4) :=
    within_nullable fun _ => rfl
  cases m with
  | command cmd => simp [serClientMessage, serWsCommand_within]
  | request reqId req => simp [serClientMessage, serWsRequest_within, serUInt64_within]
  | nodeStateUpdate update =>
    simp [serClientMessage, serNodeStateUpdate, serPlaybackStatus_within, serUInt8_within,
      serUInt64_within, huint64]
  | nodeRegistration registration => simp [serClientMessage, serNodeRegistration, hstr]

end Within

/-- `serde_json::to_string`. -/
def ClientMessage.toText (text : Text) (m : ClientMessage) : String :=
  text.print (serClientMessage m)

/-- `serde_json::from_str`. -/
def ClientMessage.fromText (text : Text) (s : String) : Except String ClientMessage := do
  let v ← text.parse s
  deClientMessage v

theorem fromText_toText (text : Text) (m : ClientMessage) :
    ClientMessage.fromText text (m.toText text) = .ok (m.received text.reread) := by
  rw [ClientMessage.fromText, ClientMessage.toText, text.parse_print _ (serClientMessage_within m),
    ok_bind, deClientMessage_ser]

/-! ## What is lost -/

def WsCommand.floats : WsCommand → List ℚ
  | .seek positionSecs => [positionSecs]
  | .addToQueue track => track.floats
  | .addTracksToQueue tracks => tracks.flatMap Track.floats
  | .replaceAndPlay tracks _ => tracks.flatMap Track.floats
  | .localSessionUpdate tracks _ positionSecs _ _ _ _ =>
    positionSecs :: (tracks.getD []).flatMap Track.floats
  | _ => []

/-- The floats of a message. -/
def ClientMessage.floats : ClientMessage → List ℚ
  | .command cmd => cmd.floats
  | .nodeStateUpdate update => [update.positionSecs]
  | _ => []

/-- The order to clear the description of a playlist. -/
def WsCommand.clearsDescription : WsCommand → Bool
  | .updatePlaylist _ _ (some none) _ => true
  | _ => false

def ClientMessage.clearsDescription : ClientMessage → Bool
  | .command cmd => cmd.clearsDescription
  | _ => false

theorem receivedDescription_eq_self {description : Option (Option String)} :
    receivedDescription description = description ↔ description ≠ some none := by
  cases description with
  | none => simp [receivedDescription]
  | some description => cases description <;> simp [receivedDescription]

theorem clearsDescription_updatePlaylist (playlistId : String) (name : Option String)
    (description : Option (Option String)) (kind : Option PlaylistKind) :
    (WsCommand.updatePlaylist playlistId name description kind).clearsDescription = false ↔
      description ≠ some none := by
  cases description with
  | none => simp [WsCommand.clearsDescription]
  | some description => cases description <;> simp [WsCommand.clearsDescription]

theorem WsCommand.received_eq_self {f : ℚ → ℚ} {cmd : WsCommand} :
    cmd.received f = cmd ↔ cmd.clearsDescription = false ∧ ∀ q ∈ cmd.floats, f q = q := by
  cases cmd with
  | updatePlaylist playlistId name description kind =>
    rw [clearsDescription_updatePlaylist]
    simp [WsCommand.received, receivedDescription_eq_self, WsCommand.floats]
  | localSessionUpdate tracks index positionSecs status volume repeatMode shuffle =>
    cases tracks with
    | none => simp [WsCommand.received, WsCommand.clearsDescription, WsCommand.floats]
    | some tracks =>
      simp [WsCommand.received, WsCommand.clearsDescription, WsCommand.floats, map_reread_eq_self,
        and_comm]
  | _ =>
    simp [WsCommand.received, WsCommand.clearsDescription, WsCommand.floats, Track.reread_eq_self,
      map_reread_eq_self]

theorem ClientMessage.received_eq_self {f : ℚ → ℚ} {m : ClientMessage} :
    m.received f = m ↔ m.clearsDescription = false ∧ ∀ q ∈ m.floats, f q = q := by
  cases m with
  | command cmd =>
    simp [ClientMessage.received, ClientMessage.clearsDescription, ClientMessage.floats,
      WsCommand.received_eq_self]
  | nodeStateUpdate update =>
    obtain ⟨status, positionSecs, volume, mpdSongIndex, projectionGeneration⟩ := update
    simp [ClientMessage.received, ClientMessage.clearsDescription, ClientMessage.floats]
  | _ => simp [ClientMessage.received, ClientMessage.clearsDescription, ClientMessage.floats]

/-- A message survives the wire exactly when it clears no description and the parser reads its
floats as they are. -/
theorem message_survives_iff (text : Text) (m : ClientMessage) :
    ClientMessage.fromText text (m.toText text) = .ok m ↔
      m.clearsDescription = false ∧ ∀ q ∈ m.floats, text.reread q = q := by
  rw [fromText_toText, Except.ok.injEq, ClientMessage.received_eq_self]

/-- The order to clear a description arrives as an order that leaves it. -/
theorem clearDescription_lost :
    let m := ClientMessage.command (.updatePlaylist "p" none (some none) none)
    m.toText plainText =
        "\x7b\"cmd\":\"update_playlist\",\"playlist_id\":\"p\",\"description\":null\x7d" ∧
      ClientMessage.fromText plainText (m.toText plainText) =
        .ok (.command (.updatePlaylist "p" none none none)) ∧
      ClientMessage.fromText plainText (m.toText plainText) ≠ .ok m := by
  intro m
  have hread := fromText_toText plainText m
  refine ⟨by decide +kernel, hread, ?_⟩
  rw [hread]
  intro h
  have hm := (ClientMessage.received_eq_self.1 (Except.ok.inj h)).1
  exact Bool.noConfusion hm

end Kanade.Wire

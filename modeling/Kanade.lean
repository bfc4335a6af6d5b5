import Kanade.Concur.Fallible
import Kanade.Concur.Lift
import Kanade.Concur.Pool
import Kanade.Concur.Runs
import Kanade.Concur.Task
import Kanade.Concur.Times
import Kanade.Core.Alone
import Kanade.Core.Bounds
import Kanade.Core.Coherence
import Kanade.Core.Convergence
import Kanade.Core.Errors
import Kanade.Core.Identity
import Kanade.Core.Isolation
import Kanade.Core.LocalPlayback
import Kanade.Core.Mortal
import Kanade.Core.Nodes
import Kanade.Core.Ops
import Kanade.Core.Player
import Kanade.Core.Projection
import Kanade.Core.Queue
import Kanade.Core.Reports
import Kanade.Core.Roster
import Kanade.Core.Runs
import Kanade.Core.Snapshots
import Kanade.Core.State
import Kanade.Core.Targets
import Kanade.Core.Touches
import Kanade.Core.Transport
import Kanade.Core.World
import Kanade.Core.Writes
import Kanade.Db.Json
import Kanade.Db.Persist
import Kanade.Db.Reload
import Kanade.Db.Repo
import Kanade.Db.Restart
import Kanade.Db.Restore
import Kanade.Files.Path
import Kanade.Keyed.Table
import Kanade.Text.Percent
import Kanade.Ws.Dispatch
import Kanade.Ws.Guard
import Kanade.Ws.MediaPath
import Kanade.Ws.NodeMode
import Kanade.Ws.Ownership
import Kanade.Ws.Sessions
import Kanade.Hls.Cache
import Kanade.Hls.Confine
import Kanade.Concur.Stages
import Kanade.Core.Playlist
import Kanade.Db.PlaylistLists
import Kanade.Db.PlaylistView
import Kanade.Db.Stages
import Kanade.Wire.Messages
import Kanade.Text.Hex
import Kanade.Text.Url
import Kanade.Ws.MediaAuth
import Kanade.Ws.MediaFile
import Kanade.Ws.MediaKeys
import Kanade.Hls.Output
import Kanade.Hls.Playlist
import Kanade.Core.Plugin
import Kanade.Keyed.Refresh
import Kanade.Node.StateSync
import Kanade.Plugin.LastFm
import Kanade.Scanner.ScanDir
import Kanade.Web.LocalPlayback
import Kanade.Ws.FirstMessage
import Kanade.Core.Fallback
import Kanade.Core.Moving
import Kanade.Web.QueueEdits
import Kanade.Web.SendQueue
import Kanade.Web.ShuffleOrder
import Kanade.Core.Removal
import Kanade.Db.Schema
import Kanade.Db.SmartPlaylists
import Kanade.Files.System
import Kanade.Hls.Evict
import Kanade.Hls.FlacSamples
import Kanade.Hls.FlacStreaminfo
import Kanade.Hls.FlacHeaders
import Kanade.Hls.InUse
import Kanade.Hls.Opus
import Kanade.Hls.Adts
import Kanade.Hls.Mp3
import Kanade.Hls.Iff
import Kanade.Hls.Pcm
import Kanade.Hls.Alac
import Kanade.Hls.Segments
import Kanade.Hls.Generate
import Kanade.Hls.Sweep
import Kanade.Ws.PercentDecode
import Kanade.Ws.Id3
import Kanade.Ws.Range
import Kanade.Mpd.Client
import Kanade.Mpd.Renderer
import Kanade.OpenHome.Soap
import Kanade.Web.WsClient
import Kanade.Web.Requests
import Kanade.Web.Supervision
import Kanade.Ws.StateStream
import Kanade.Db.Search
import Kanade.Db.Browse
import Kanade.Node.Link
import Kanade.Wire.NodeMessages
import Kanade.Node.Session
import Kanade.Files.Walk
import Kanade.Scanner.Walk
import Kanade.Node.Proxy
import Kanade.Http.Message
import Kanade.Media.Answers
import Kanade.Media.Server

import Mathlib.Data.List.Sort
import Kanade.Concur.Fallible
import Kanade.Concur.Pool
import Kanade.Files.System
import Kanade.Hls.Cache
import Kanade.Hls.Output

/-!
# Kanade.Hls.Evict

`HlsCache` on a file system that any number of calls share: `get_or_generate`,
`generate_hls_with_options` and `enforce_size_limit_blocking`, one operation of the file system a
step, with the sweeps of the cache.

What is muxed from the source is a parameter. `HlsSegments::open` and `dir_size` are one step each, as
is making a file with its contents.
-/

namespace Kanade

open Concur Files

/-- `HlsSegments`. -/
structure CachedSegments where
  root : Path
  segmentCount : Nat
deriving DecidableEq, Repr

/-- What a step of a call does. -/
inductive CacheStep where
  /-- The lock of the key. -/
  | acquire
  | release (result : Option CachedSegments)
  | read
  /-- A directory or a file. -/
  | make
  | remove (dir : Path)
  | writing (tmpDir : Path)
  | rename (src dst : Path)
  | opened (segments : CachedSegments)
  /-- A sweep that is over the limit takes a directory. -/
  | evict (root : Path)
  | failed
  | tick
deriving DecidableEq, Repr

/-- An `HlsError` is what it prints. -/
abbrev CacheTask (α : Type) : Type := Fallible FileSystem CacheStep Empty String α

namespace CacheTask

def query {α : Type} (lab : α → CacheStep) (op : FileSystem → Except String α) : CacheTask α :=
  Fallible.sect (fun _ r => match r with
    | .ok a => lab a
    | .error _ => .failed) fun fs => (op fs, fs)

def change (lab : CacheStep) (op : FileSystem → Except String FileSystem) : CacheTask Unit :=
  Fallible.sect (fun _ r => match r with
    | .ok _ => lab
    | .error _ => .failed) fun fs =>
    match op fs with
    | .ok fs' => (.ok (), fs')
    | .error e => (.error e, fs)

def mark (lab : CacheStep) : CacheTask Unit := Fallible.sect (fun _ _ => lab) fun fs => (.ok (), fs)

end CacheTask

/-- What `write_hls_output` puts into the files: the size of each, unless it fails before. -/
structure HlsOutput where
  segments : List (Except String Nat)
  init : Except String Nat
  playlist : Except String Nat

/-- A call of `get_or_generate`, with what is muxed from its source. -/
structure HlsCall where
  trackId : String
  variant : String
  remuxed : Except String HlsOutput

def HlsCall.key (c : HlsCall) : String := c.trackId ++ "/" ++ c.variant

/-- Of the process are the working directory and the id. -/
structure HlsCache where
  root : Path
  maxSizeBytes : Nat
  cwd : Dir
  pid : Nat

structure CacheEntryInfo where
  root : Path
  size : Nat
  lastAccess : Nat

/-- The order of `sort_by_key`. -/
def CacheEntryInfo.Older (a b : CacheEntryInfo) : Prop := a.lastAccess ≤ b.lastAccess

instance : DecidableRel CacheEntryInfo.Older := fun a b => Nat.decLe a.lastAccess b.lastAccess

/-! ## HlsSegments -/

/-- Segments up to the first that is missing. -/
def segmentCount (fs : FileSystem) (d : Dir) : Nat :=
  (List.range (fs.nodes.length + 1)).findIdx fun i => !fs.pathExists (segName i :: d)

namespace HlsCache

open CacheTask FileSystem

variable (cache : HlsCache)

def dirAt (path : Path) : Dir := path.resolve cache.cwd

def ifExists (path : Path) (t : CacheTask Unit) : CacheTask Unit := do
  let there ← query (fun _ => .read) fun fs => .ok (fs.pathExists (cache.dirAt path))
  if there then t else pure ()

/-- `HlsSegments::open`. The error leaves the path out. -/
def openSegments (root : Path) : CacheTask CachedSegments :=
  query .opened fun fs =>
    if ¬ fs.pathExists ("index.m3u8" :: cache.dirAt root) ∨
        ¬ fs.pathExists ("init.mp4" :: cache.dirAt root) then
      .error "cache missing"
    else if segmentCount fs (cache.dirAt root) = 0 then
      .error "invalid data: generated HLS cache did not contain any media segments"
    else .ok { root := root, segmentCount := segmentCount fs (cache.dirAt root) }

def touch (segments : CachedSegments) : CacheTask Unit := do
  let now ← query (fun _ => .read) fun fs => .ok fs.clock
  change .make fun fs => fs.write (".last_access" :: cache.dirAt segments.root) (toString now).length

/-! ## The sweep -/

def lastAccess (root : Path) : CacheTask Nat := do
  let stamp ← query (fun _ => .read) fun fs => .ok (fs.node (".last_access" :: cache.dirAt root))
  match stamp with
  | some n => pure n.modified
  | none => do
    let dir ← query (fun _ => .read) fun fs => .ok (fs.node (cache.dirAt root))
    pure (dir.elim 0 FileNode.modified)

def dirSize (path : Path) : CacheTask Nat :=
  query (fun _ => .read) fun fs =>
    if fs.isDir (cache.dirAt path) then .ok ((fs.sizes (cache.dirAt path)).foldl addSaturating 0)
    else .error "No such file or directory"

/-- The inner loop of `collect_cache_entries`. -/
def collectVariants (trackDir : Path) : List (String × Bool) → CacheTask (List CacheEntryInfo)
  | [] => pure []
  | (name, isDir) :: names => do
    if !isDir then collectVariants trackDir names
    else do
      let root := trackDir.child name
      let cached ← query (fun _ => .read) fun fs =>
        .ok (fs.pathExists ("index.m3u8" :: cache.dirAt root))
      if !cached then collectVariants trackDir names
      else do
        let size ← cache.dirSize root
        let lastAccess ← cache.lastAccess root
        let entries ← collectVariants trackDir names
        pure (⟨root, size, lastAccess⟩ :: entries)

def collectTracks : List (String × Bool) → CacheTask (List CacheEntryInfo)
  | [] => pure []
  | (name, isDir) :: names => do
    if !isDir then collectTracks names
    else do
      let variants ← query (fun _ => .read) fun fs => fs.readDir (cache.dirAt (cache.root.child name))
      let entries ← cache.collectVariants (cache.root.child name) variants
      let others ← collectTracks names
      pure (entries ++ others)

def collectCacheEntries : CacheTask (List CacheEntryInfo) := do
  let there ← query (fun _ => .read) fun fs => .ok (fs.pathExists (cache.dirAt cache.root))
  if !there then pure []
  else do
    let tracks ← query (fun _ => .read) fun fs => fs.readDir (cache.dirAt cache.root)
    cache.collectTracks tracks

/-- The loop of `enforce_size_limit_blocking`. -/
def evictEntries (preserve : Option Path) : List CacheEntryInfo → Nat → CacheTask Unit
  | [], _ => pure ()
  | entry :: entries, totalSize => do
    if totalSize ≤ cache.maxSizeBytes then pure ()
    else if preserve = some entry.root then evictEntries preserve entries totalSize
    else do
      cache.ifExists entry.root <|
        change (.evict entry.root) fun fs => fs.removeDirAll (cache.dirAt entry.root)
      evictEntries preserve entries (totalSize - entry.size)

/-- The sum of the sizes, which wraps. -/
def totalSize (entries : List CacheEntryInfo) : Nat :=
  entries.foldl (fun total entry => (total + entry.size) % 2 ^ 64) 0

/-- `enforce_size_limit`. -/
def enforceSizeLimit (preserve : Option Path) : CacheTask Unit := do
  let entries ← cache.collectCacheEntries
  cache.evictEntries preserve (entries.insertionSort CacheEntryInfo.Older) (totalSize entries)

/-! ## The calls -/

def writeFile (path : Dir) (content : Except String Nat) : CacheTask Unit :=
  change .make fun fs => do
    let size ← content
    fs.write path size

def writeSegments (dir : Path) : Nat → List (Except String Nat) → CacheTask Unit
  | _, [] => pure ()
  | index, segment :: segments => do
    writeFile (segName index :: cache.dirAt dir) segment
    writeSegments dir (index + 1) segments

def writeHlsOutput (dir : Path) (output : HlsOutput) : CacheTask Unit := do
  query (fun _ => .read) fun _ =>
    if output.segments = [] then
      .error "invalid data: no HLS chunks were produced from source track"
    else .ok ()
  cache.writeSegments dir 0 output.segments
  writeFile ("init.mp4" :: cache.dirAt dir) output.init
  writeFile ("index.m3u8" :: cache.dirAt dir) output.playlist

def targetDir (c : HlsCall) : Path := variantDir cache.root c.trackId c.variant

def tmpDir (c : HlsCall) (secs : Nat) : Path :=
  (cache.root.join c.trackId).join (tmpName c.variant cache.pid secs)

def createParent (path : Path) : CacheTask Unit :=
  match path.parent? with
  | some parent => change .make fun fs => fs.createDirAll (cache.dirAt parent)
  | none => pure ()

/-- `generate_hls_with_options`. -/
def generateHls (c : HlsCall) : CacheTask CachedSegments := do
  change .make fun fs => fs.createDirAll (cache.dirAt cache.root)
  let secs ← query (fun _ => .read) fun fs => .ok fs.clock
  let tmpDir := cache.tmpDir c secs
  let targetDir := cache.targetDir c
  cache.ifExists tmpDir <| do
    let _ ← (change (.remove tmpDir) fun fs => fs.removeDirAll (cache.dirAt tmpDir)).attempt
  change (.writing tmpDir) fun fs => fs.createDirAll (cache.dirAt tmpDir)
  let output ← query (fun _ => .read) fun _ => c.remuxed
  cache.writeHlsOutput tmpDir output
  cache.ifExists targetDir <|
    change (.remove targetDir) fun fs => fs.removeDirAll (cache.dirAt targetDir)
  cache.createParent targetDir
  change (.rename tmpDir targetDir) fun fs => fs.rename (cache.dirAt tmpDir) (cache.dirAt targetDir)
  cache.openSegments targetDir

/-- `get_or_generate` under the lock of the key. -/
def serveLocked (c : HlsCall) : CacheTask CachedSegments := do
  cache.enforceSizeLimit none
  match ← (cache.openSegments (cache.targetDir c)).attempt with
  | .ok segments => do
    cache.touch segments
    pure segments
  | .error _ => do
    let generated ← cache.generateHls c
    cache.touch generated
    cache.enforceSizeLimit (some generated.root)
    pure generated

/-- The lock is released when the result is there, whatever it is. -/
def getOrGenerate (c : HlsCall) : CacheTask CachedSegments := do
  change .make fun fs => fs.createDirAll (cache.dirAt cache.root)
  mark .acquire
  let result ← (cache.serveLocked c).attempt
  mark (.release result.toOption)
  match result with
  | .ok segments => pure segments
  | .error e => Fallible.throw e

end HlsCache

def secondPasses : CacheTask Unit :=
  CacheTask.change .tick fun fs => .ok { fs with clock := fs.clock + 1 }

/-- The calls at work on what is in `fs`, while time passes. -/
def cachePool {ι : Type} (cache : HlsCache) (calls : ι → HlsCall) (fs : FileSystem) :
    Pool (ι ⊕ Nat) FileSystem CacheStep Empty (Except String Unit) (Except String Unit) where
  shared := fs
  task
    | .inl i => (do let _ ← cache.getOrGenerate (calls i) : CacheTask Unit)
    | .inr _ => secondPasses

end Kanade

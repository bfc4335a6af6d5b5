import Kanade.Db.Browse
import Kanade.Files.Path
import Kanade.Http.Message
import Kanade.Ws.MediaPath
import Kanade.Ws.PercentDecode
import Kanade.Ws.Range

/-!
# Kanade.Media.Server

`kanade-server-http`: what `handle_connection` of the media server writes on a connection, byte for byte.

* `MediaWorld`: the library, the files and what is found in them when the request is handled.
* `handleConnection`: the request, its route and its response, with what is written before a step fails.
* `serveFileWithRange_cases`: what is written of a file that can be read is a head and the range that is requested.
-/

namespace Kanade

namespace MediaServer

open Sql Files Http

/-- A file, with the reads that fail. -/
structure ServedFile extends DiskFile where
  fails : Nat → Bool

structure MediaWorld where
  /-- `Database::open`. -/
  db : Option LibraryDb
  /-- `File::open`. -/
  files : String → Option ServedFile
  isFile : String → Bool
  pathExists : String → Bool
  /-- `extract_embedded_picture`: the MIME type, if it is known, and the data; `none` is a panic. -/
  picture : String → Option (Option (Option String × List UInt8))
  /-- What the system says of a failure. -/
  osError : String

end MediaServer

def LibraryDb.getTrackByPath (db : LibraryDb) (filePath : String) : Option Track :=
  (db.tracks.get filePath).map TrackRow.track

def LibraryDb.getAlbumArtworkPath (db : LibraryDb) (albumId : String) : Option String :=
  (db.albums.get albumId).bind AlbumRow.artworkPath

namespace MediaServer

open Sql Files Http

/-- The state of the code is what it has written on the connection. -/
abbrev Written := Exec (List UInt8) Unit

def writeAll (bytes : List UInt8) : Written := Exec.execute fun out => .ok (out ++ bytes)

def responseHead (status : Nat) (text : String) (headers : List (String × String)) : Head where
  status := status
  reason := text
  fields := [("Access-Control-Allow-Origin", "*"), ("Access-Control-Allow-Headers", "Range")] ++ headers

def writeResponseHeaders (status : Nat) (text : String) (headers : List (String × String)) : Written :=
  writeAll (responseHead status text headers).write

def simpleHeaders (body : List UInt8) : List (String × String) :=
  [("Content-Length", toString body.length), ("Content-Type", "text/plain; charset=utf-8")]

def simpleHead (status : Nat) (text : String) (body : List UInt8) : Head :=
  responseHead status text (simpleHeaders body)

def writeSimpleResponse (status : Nat) (text : String) (body : List UInt8) : Written := do
  writeResponseHeaders status text (simpleHeaders body)
  if body = [] then pure () else writeAll body

def bytesHeaders (contentType : String) (data : List UInt8) : List (String × String) :=
  [("Content-Type", contentType), ("Content-Length", toString data.length), ("Cache-Control", "public, max-age=86400")]

def bytesHead (contentType : String) (data : List UInt8) : Head := responseHead 200 "OK" (bytesHeaders contentType data)

def serveBytes (method contentType : String) (data : List UInt8) : Written := do
  writeResponseHeaders 200 "OK" (bytesHeaders contentType data)
  if method = "HEAD" then pure () else writeAll data

section Files

variable (w : MediaWorld) (method : String)

/-- The loop that copies the part of the file; `fuel` is at least what remains. -/
def copyBody (file : ServedFile) : Nat → ReadState → Written
  | 0, _ => pure ()
  | fuel + 1, s =>
    if s.remaining = 0 then pure ()
    else if file.fails s.reads then Exec.fail ("read body: " ++ w.osError)
    else
      let buf := file.read s.reads s.position (min s.remaining readChunkSize).toNat
      if buf = [] then pure ()
      else do
        writeAll buf
        copyBody file fuel ⟨s.position + buf.length, s.remaining - UInt64.ofNat buf.length, s.reads + 1⟩

def partLength (file : ServedFile) (start last : UInt64) : UInt64 :=
  if file.totalLen = 0 then 0 else last - start + 1

def partHeaders (file : ServedFile) (contentType : String) (start last : UInt64) (status : Nat) :
    List (String × String) :=
  [("Content-Type", contentType), ("Accept-Ranges", "bytes"),
      ("Content-Length", toString (partLength file start last).toNat)] ++
    if status = 206 then [("Content-Range", contentRange start last file.totalLen)] else []

def partHead (file : ServedFile) (contentType : String) (start last : UInt64) (status : Nat) (text : String) : Head :=
  responseHead status text (partHeaders file contentType start last status)

def servePart (file : ServedFile) (contentType : String) (start last : UInt64) (status : Nat) (text : String) :
    Written := do
  writeResponseHeaders status text (partHeaders file contentType start last status)
  if method = "HEAD" ∨ partLength file start last = 0 then pure ()
  else if ¬ file.canSeek then Exec.fail ("seek: " ++ w.osError)
  else copyBody w file (partLength file start last).toNat ⟨start.toNat, partLength file start last, 0⟩

def unsatisfiableHeaders (file : ServedFile) : List (String × String) :=
  [("Content-Range", "bytes */" ++ toString file.totalLen.toNat), ("Content-Length", "0")]

def unsatisfiableHead (file : ServedFile) : Head := responseHead 416 "Range Not Satisfiable" (unsatisfiableHeaders file)

def serveFileWithRange (file : ServedFile) (contentType : String) (rangeHeader : Option String) : Written :=
  if ¬ file.hasMetadata then Exec.fail ("metadata: " ++ w.osError)
  else if ¬ file.isFile then Exec.fail "not a regular file"
  else
    match MediaServer.parseRange rangeHeader file.totalLen with
    | .ok (some (start, last)) => servePart w method file contentType start last 206 "Partial Content"
    | .ok none => servePart w method file contentType 0 (saturatingSub file.totalLen 1) 200 "OK"
    | .error .unsatisfiable => writeResponseHeaders 416 "Range Not Satisfiable" (unsatisfiableHeaders file)
    | .error .overflow => Exec.fail "attempt to subtract with overflow"

/-- `Path::file_name`. -/
def fileName (path : String) : Option String :=
  ((path.toList.splitOn '/').reverse.dropWhile noSegment).head?.bind fun name =>
    if name = ['.', '.'] then none else some (String.ofList name)

def contentTypeForPath (path : String) : String :=
  match ((fileName path).bind extension).map fun ext => String.ofList (ext.toList.map Char.toLower) with
  | some "flac" => "audio/flac"
  | some "mp3" => "audio/mpeg"
  | some "wav" => "audio/wav"
  | some "m4a" => "audio/mp4"
  | some "mp4" => "audio/mp4"
  | some "aac" => "audio/aac"
  | some "ogg" => "audio/ogg"
  | some "opus" => "audio/ogg"
  | some "aiff" => "audio/aiff"
  | some "aif" => "audio/aiff"
  | some "dsf" => "audio/x-dsf"
  | _ => "application/octet-stream"

/-- When the file cannot be served, an error response is written behind what was written of it. -/
def orErrorResponse (serve : Written) : Written := fun out =>
  match serve out with
  | (.ok (), out) => (.ok (), out)
  | (.error e, out) =>
    if "open file:".toList <:+: e.toList then
      ((do writeSimpleResponse 404 "Not Found" []; Exec.fail e) : Written) out
    else ((do writeSimpleResponse 500 "Internal Server Error" []; Exec.fail e) : Written) out

def serveStaticFile (path contentType : String) : Written :=
  match w.files path with
  | none => Exec.fail ("open file: " ++ w.osError)
  | some file => serveFileWithRange w method file contentType none

/-! ## Routes -/

/-- `split('?').next()`. -/
def beforeQuery (path : String) : String := String.ofList (Url.cut '?' path.toList).1

def serveTrack (trackId : String) (rangeHeader : Option String) : Written :=
  match w.db.bind fun db => db.getTrackById trackId with
  | none => writeSimpleResponse 404 "Track Not Found" []
  | some track =>
    match w.files track.filePath with
    | none => do
      writeSimpleResponse 404 "File Not Found" []
      Exec.fail ("open file: " ++ w.osError)
    | some file => serveFileWithRange w method file (contentTypeForPath track.filePath) rangeHeader

inductive ArtResult where
  | filePath (path : String)
  | embedded (mime : String) (data : List UInt8)
deriving DecidableEq

/-- `none` is a panic. -/
def embeddedArt (db : LibraryDb) (albumId : String) : Option (Option ArtResult) :=
  match db.getTracksByAlbumId albumId with
  | [] => some none
  | track :: _ => (w.picture track.filePath).map fun picture =>
      picture.map fun (mime, data) => .embedded (mime.getD "image/jpeg") data

def findArt (albumId : String) : Option (Option ArtResult) :=
  match w.db with
  | none => some none
  | some db =>
    match db.getAlbumArtworkPath albumId with
    | some path => if w.pathExists path then some (some (.filePath path)) else embeddedArt w db albumId
    | none => embeddedArt w db albumId

def serveArt (albumId : String) : Written :=
  match findArt w albumId with
  | some (some (.filePath path)) => orErrorResponse (serveStaticFile w method path (contentTypeForPath path))
  | some (some (.embedded mime data)) => serveBytes method mime data
  | some none => writeSimpleResponse 404 "Artwork Not Found" []
  | none => do
    writeSimpleResponse 500 "Internal Server Error" (Percent.bytes "db error")
    Exec.fail "db join: task panicked"

def isKnownTrackFile (filePath : String) : Bool :=
  filePath ≠ "" && '\x00' ∉ filePath.toList && !decide (HasDots filePath) && w.isFile filePath &&
    (w.db.bind fun db => db.getTrackByPath filePath).isSome

def serveFile (rawPath : String) (rangeHeader : Option String) : Written :=
  match MediaServer.percentDecode rawPath with
  | none => Exec.fail "byte index is not a char boundary"
  | some decoded =>
    if decoded = "" ∨ HasDots decoded then writeSimpleResponse 400 "Bad Request" []
    else if ¬ isKnownTrackFile w decoded then writeSimpleResponse 404 "Not Found" []
    else
      match w.files decoded with
      | none => writeSimpleResponse 404 "Not Found" []
      | some file => orErrorResponse (serveFileWithRange w method file (contentTypeForPath decoded) rangeHeader)

def respond (path : String) (rangeHeader : Option String) : Written :=
  if method = "OPTIONS" then writeSimpleResponse 204 "No Content" []
  else if method ≠ "GET" ∧ method ≠ "HEAD" then writeSimpleResponse 405 "Method Not Allowed" []
  else
    match stripPrefix "/media/tracks/" path with
    | some trackId => serveTrack w method (beforeQuery trackId) rangeHeader
    | none =>
      match stripPrefix "/media/art/" path with
      | some albumId => serveArt w method (beforeQuery albumId)
      | none =>
        match stripPrefix "/media/file/" path with
        | some rawPath => serveFile w method rawPath rangeHeader
        | none => writeSimpleResponse 404 "Not Found" []

end Files

/-- The last `range:` of the header lines, up to the empty line; `none` when a line cannot be read. -/
def readHeaders : List (Option String) → Option String → Option (Option String)
  | [], rangeHeader => some rangeHeader
  | none :: _, _ => none
  | some line :: lines, rangeHeader =>
    let trimmed := trim line.toList
    if trimmed = [] then some rangeHeader
    else if "range:".toList.isPrefixOf (trimmed.map Char.toLower) then
      readHeaders lines (some (String.ofList (trim (trimmed.drop 6))))
    else readHeaders lines rangeHeader

/-- `lines` is what `read_line` gives, one call after the other: lines with their ends, and `none` where it fails, as it
does on a line that is not UTF-8. Behind them the client sends nothing more. -/
def handleConnection (w : MediaWorld) (lines : List (Option String)) : Written :=
  match lines.headD (some "") with
  | none => Exec.fail ("read request line: " ++ w.osError)
  | some requestLine =>
    if trim requestLine.toList = [] then pure ()
    else
      match splitWhitespace requestLine.toList with
      | method :: path :: _ =>
        match readHeaders lines.tail none with
        | none => Exec.fail ("read header: " ++ w.osError)
        | some rangeHeader => respond w (String.ofList method) (String.ofList path) rangeHeader
      | _ => writeSimpleResponse 400 "Bad Request" []

/-- A line before the empty line cannot be read. -/
def Unreadable (lines : List (Option String)) : Prop :=
  ∃ (before : List String) (after : List (Option String)), lines = before.map some ++ none :: after ∧
    ∀ line ∈ before, trim line.toList ≠ []

theorem unreadable_cons {line : String} {lines : List (Option String)} :
    Unreadable (some line :: lines) ↔ trim line.toList ≠ [] ∧ Unreadable lines := by
  constructor
  · rintro ⟨before, after, hlines, hbefore⟩
    cases before with
    | nil => cases hlines
    | cons first before =>
      obtain ⟨hfirst, hrest⟩ := List.cons.inj hlines
      cases hfirst
      exact ⟨hbefore line List.mem_cons_self, before, after, hrest, fun l hl => hbefore l (List.mem_cons_of_mem _ hl)⟩
  · rintro ⟨hline, before, after, rfl, hbefore⟩
    exact ⟨line :: before, after, rfl, List.forall_mem_cons.2 ⟨hline, hbefore⟩⟩

theorem readHeaders_eq_none_iff {lines : List (Option String)} {rangeHeader : Option String} :
    readHeaders lines rangeHeader = none ↔ Unreadable lines := by
  induction lines generalizing rangeHeader with
  | nil =>
    refine iff_of_false (by simp [readHeaders]) ?_
    rintro ⟨before, after, hlines, -⟩
    cases before <;> cases hlines
  | cons line lines ih =>
    cases line with
    | none => exact iff_of_true rfl ⟨[], lines, rfl, by simp⟩
    | some line =>
      rw [unreadable_cons]
      unfold readHeaders
      dsimp only
      by_cases hempty : trim line.toList = []
      · rw [if_pos hempty]
        exact iff_of_false (by simp) fun h => h.1 hempty
      · rw [if_neg hempty]
        split
        · exact ih.trans (iff_and_self.2 fun _ => hempty)
        · exact ih.trans (iff_and_self.2 fun _ => hempty)

/-! ## Files that can be read -/

section Copy

variable {w : MediaWorld} {file : ServedFile} {s s' : ReadState} {out : List UInt8}

theorem step_none (h : file.step s = .ok none) : s.remaining = 0 ∨
    file.read s.reads s.position (min s.remaining readChunkSize).toNat = [] := by
  by_cases hzero : s.remaining = 0
  · exact .inl hzero
  · right
    by_contra hbuf
    unfold DiskFile.step at h
    rw [if_neg hzero] at h
    dsimp only at h
    rw [if_neg hbuf, checkedSub] at h
    split at h
    · cases h
    · cases h

theorem step_some {buf : List UInt8} (h : file.step s = .ok (some (buf, s'))) : s.remaining ≠ 0 ∧ buf ≠ [] ∧
    file.read s.reads s.position (min s.remaining readChunkSize).toNat = buf ∧
    UInt64.ofNat buf.length ≤ s.remaining ∧
    s' = ⟨s.position + buf.length, s.remaining - UInt64.ofNat buf.length, s.reads + 1⟩ := by
  unfold DiskFile.step at h
  split at h
  · cases h
  · rename_i hzero
    dsimp only at h
    split at h
    · cases h
    · rename_i hbuf
      rw [checkedSub] at h
      split at h
      · rename_i hfits
        cases h
        exact ⟨hzero, hbuf, rfl, hfits, rfl⟩
      · cases h

/-- What the stream delivers is what is written. -/
theorem copyBody_yields (hreads : ∀ i, file.fails i = false) {items : List (List UInt8)}
    (h : Unfold.Yields file.step s items) {fuel : Nat} (hfuel : s.remaining.toNat ≤ fuel) :
    copyBody w file fuel s out = (.ok (), out ++ items.flatten) := by
  induction h generalizing fuel out with
  | @stop s hstop =>
    rw [List.flatten_nil, List.append_nil]
    cases fuel with
    | zero => rfl
    | succ fuel =>
      unfold copyBody
      by_cases hzero : s.remaining = 0
      · rw [if_pos hzero]
        rfl
      · have hbuf := (step_none hstop).resolve_left hzero
        rw [if_neg hzero, if_neg (by rw [hreads]; exact Bool.false_ne_true)]
        exact congrFun (if_pos hbuf) out
  | @next s s' buf items hnext hrest ih =>
    obtain ⟨hzero, hne, hbuf, hfits, rfl⟩ := step_some hnext
    have hpos : s.remaining.toNat ≠ 0 := fun h0 => hzero (UInt64.toNat_inj.1 h0)
    have hlength : buf.length ≠ 0 := fun h0 => hne (List.length_eq_zero_iff.1 h0)
    obtain ⟨fuel, rfl⟩ : ∃ n, fuel = n + 1 := ⟨fuel - 1, by omega⟩
    have hsmall : (UInt64.ofNat buf.length).toNat = buf.length := by
      refine UInt64.toNat_ofNat_of_lt' ?_
      rw [← hbuf, DiskFile.read, List.length_take]
      have hlt := (min s.remaining readChunkSize).toNat_lt
      have hsize : UInt64.size = 2 ^ 64 := rfl
      omega
    have hrest : (s.remaining - UInt64.ofNat buf.length).toNat ≤ fuel := by
      rw [UInt64.toNat_sub_of_le _ _ hfits, hsmall]
      omega
    unfold copyBody
    rw [if_neg hzero, if_neg (by rw [hreads]; exact Bool.false_ne_true), hbuf, if_neg hne]
    refine (ih hrest).trans ?_
    rw [List.flatten_cons, List.append_assoc]

end Copy

/-! ## Heads -/

section Heads

variable {status : Nat} {text : String} {headers : List (String × String)} {value value' : String}

theorem inLine_append (h : Http.InLine value) (h' : Http.InLine value') : Http.InLine (value ++ value') := by
  unfold Http.InLine
  rw [String.toList_append, List.mem_append, List.mem_append, not_or, not_or]
  exact ⟨⟨h.1, h'.1⟩, h.2, h'.2⟩

theorem inLine_toString (n : Nat) : Http.InLine (toString n) := by
  have hdigits : (toString n).toList = Nat.toDigits 10 n := Nat.toList_repr
  have hdigit : ∀ c ∈ (toString n).toList, c.isDigit = true := by
    intro c hc
    rw [hdigits] at hc
    exact Nat.isDigit_of_mem_toDigits (by omega) (by omega) hc
  constructor
  · intro hmem
    exact absurd (hdigit _ hmem) (by decide)
  · intro hmem
    exact absurd (hdigit _ hmem) (by decide)

theorem inLine_contentRange (start last totalLen : UInt64) : Http.InLine (contentRange start last totalLen) := by
  unfold contentRange
  have hbytes : Http.InLine "bytes " := by decide
  have hminus : Http.InLine "-" := by decide
  have hslash : Http.InLine "/" := by decide
  exact inLine_append (inLine_append (inLine_append (inLine_append (inLine_append hbytes (inLine_toString _)) hminus)
    (inLine_toString _)) hslash) (inLine_toString _)

theorem inLine_contentTypeForPath (path : String) : Http.InLine (contentTypeForPath path) := by
  unfold contentTypeForPath
  split <;> decide

/-- The names of the header lines are fixed; what a head needs is that its values stay in their lines. -/
theorem clean_responseHead (htext : Http.InLine text)
    (hheaders : ∀ field ∈ headers, (Http.InLine field.1 ∧ ':' ∉ field.1.toList) ∧ Http.InLine field.2) :
    (responseHead status text headers).Clean where
  reason := htext
  names := by
    intro field hfield
    rcases List.mem_append.1 hfield with h | h
    · rcases List.mem_cons.1 h with rfl | h
      · decide
      · cases List.mem_singleton.1 h
        decide
    · exact (hheaders field h).1
  values := by
    intro field hfield
    rcases List.mem_append.1 hfield with h | h
    · rcases List.mem_cons.1 h with rfl | h
      · decide
      · cases List.mem_singleton.1 h
        decide
    · exact (hheaders field h).2

theorem field_clean {name : String} (hname : Http.InLine name ∧ ':' ∉ name.toList) (hvalue : Http.InLine value) :
    (Http.InLine (name, value).1 ∧ ':' ∉ (name, value).1.toList) ∧ Http.InLine (name, value).2 := ⟨hname, hvalue⟩

theorem clean_simpleHead (htext : Http.InLine text) (body : List UInt8) : (simpleHead status text body).Clean := by
  refine clean_responseHead htext ?_
  intro field hfield
  simp only [simpleHeaders, List.mem_cons, List.not_mem_nil, or_false] at hfield
  rcases hfield with rfl | rfl
  · exact field_clean (by decide) (inLine_toString _)
  · exact field_clean (by decide) (by decide)

theorem clean_bytesHead {contentType : String} (h : Http.InLine contentType) (data : List UInt8) :
    (bytesHead contentType data).Clean := by
  refine clean_responseHead (by decide) ?_
  intro field hfield
  simp only [bytesHeaders, List.mem_cons, List.not_mem_nil, or_false] at hfield
  rcases hfield with rfl | rfl | rfl
  · exact field_clean (by decide) h
  · exact field_clean (by decide) (inLine_toString _)
  · exact field_clean (by decide) (by decide)

theorem clean_partHead (file : ServedFile) {contentType : String} (h : Http.InLine contentType) (start last : UInt64)
    (htext : Http.InLine text) : (partHead file contentType start last status text).Clean := by
  refine clean_responseHead htext ?_
  intro field hfield
  rcases List.mem_append.1 hfield with hfield | hfield
  · simp only [List.mem_cons, List.not_mem_nil, or_false] at hfield
    rcases hfield with rfl | rfl | rfl
    · exact field_clean (by decide) h
    · exact field_clean (by decide) (by decide)
    · exact field_clean (by decide) (inLine_toString _)
  · split at hfield
    · cases List.mem_singleton.1 hfield
      exact field_clean (by decide) (inLine_contentRange _ _ _)
    · cases hfield

theorem clean_unsatisfiableHead (file : ServedFile) : (unsatisfiableHead file).Clean := by
  refine clean_responseHead (by decide) ?_
  intro field hfield
  simp only [unsatisfiableHeaders, List.mem_cons, List.not_mem_nil, or_false] at hfield
  rcases hfield with rfl | rfl
  · exact field_clean (by decide) (inLine_append (by decide) (inLine_toString _))
  · exact field_clean (by decide) (by decide)

end Heads

/-! ## A file and its range -/

def fileHead (file : ServedFile) (contentType : String) (rangeHeader : Option String) : Head :=
  match MediaServer.parseRange rangeHeader file.totalLen with
  | .ok (some (start, last)) => partHead file contentType start last 206 "Partial Content"
  | .ok none => partHead file contentType 0 (saturatingSub file.totalLen 1) 200 "OK"
  | .error _ => unsatisfiableHead file

def fileBody (method : String) (file : ServedFile) (rangeHeader : Option String) : List UInt8 :=
  if method = "HEAD" then [] else file.requested rangeHeader

section Serve

variable {w : MediaWorld} {method contentType : String} {file : ServedFile} {rangeHeader : Option String}
  {start last : UInt64} {out : List UInt8}

theorem toNat_partLength (hle : start ≤ last) (hlt : last < file.totalLen) :
    (partLength file start last).toNat = last.toNat + 1 - start.toNat := by
  have hbound := file.totalLen.toNat_lt
  have hsub := UInt64.toNat_sub_of_le last start hle
  rw [UInt64.le_iff_toNat_le] at hle
  rw [UInt64.lt_iff_toNat_lt] at hlt
  have hsome : file.totalLen ≠ 0 := by
    intro hzero
    rw [hzero] at hlt
    exact absurd hlt (Nat.not_lt_zero _)
  have hone : (1 : UInt64).toNat = 1 := UInt64.toNat_one
  rw [partLength, if_neg hsome, UInt64.toNat_add, Nat.mod_eq_of_lt (by omega), hsub, hone]
  omega

theorem toNat_partLength_all : (partLength file 0 (saturatingSub file.totalLen 1)).toNat = file.content.length := by
  have htotal := toNat_totalLen file.toDiskFile
  by_cases hzero : file.totalLen = 0
  · rw [partLength, if_pos hzero, ← htotal, hzero]
  · obtain ⟨hsub, hne⟩ := toNat_sub_one hzero
    have hlast := toNat_saturatingSub file.totalLen 1
    rw [UInt64.toNat_one] at hlast
    have hle : (0 : UInt64) ≤ saturatingSub file.totalLen 1 := by
      rw [UInt64.le_iff_toNat_le]
      exact Nat.zero_le _
    have hlt : saturatingSub file.totalLen 1 < file.totalLen := by
      rw [UInt64.lt_iff_toNat_lt]
      omega
    rw [toNat_partLength hle hlt, UInt64.toNat_zero]
    omega

theorem servePart_writes (hseek : file.canSeek = true) (hreads : ∀ i, file.fails i = false) (status : Nat)
    (text : String) (hfits : start.toNat + (partLength file start last).toNat ≤ file.content.length) :
    servePart w method file contentType start last status text out =
      (.ok (), out ++ (partHead file contentType start last status text).write ++
        if method = "HEAD" then []
        else (file.content.drop start.toNat).take (partLength file start last).toNat) := by
  unfold servePart
  show (if method = "HEAD" ∨ partLength file start last = 0 then (pure () : Written) else _) _ = _
  by_cases hhead : method = "HEAD"
  · rw [if_pos (.inl hhead), if_pos hhead, List.append_nil]
    rfl
  · rw [if_neg hhead]
    by_cases hzero : partLength file start last = 0
    · rw [if_pos (.inr hzero), hzero, UInt64.toNat_zero, List.take_zero, List.append_nil]
      rfl
    · rw [if_neg (not_or.2 ⟨hhead, hzero⟩), if_neg (not_not.2 hseek)]
      obtain ⟨items, hitems, hall⟩ := delivers_read ⟨start.toNat, partLength file start last, 0⟩ hfits
      rw [← hall]
      exact copyBody_yields hreads hitems (Nat.le_refl _)

theorem serveFileWithRange_cases (hseek : file.canSeek = true) (hreads : ∀ i, file.fails i = false)
    (contentType : String) (rangeHeader : Option String) (out : List UInt8) :
    (¬(file.hasMetadata = true ∧ file.isFile = true) ∧
        ∃ e, serveFileWithRange w method file contentType rangeHeader out = (.error e, out)) ∨
      serveFileWithRange w method file contentType rangeHeader out =
        (.ok (), out ++ (fileHead file contentType rangeHeader).write ++ fileBody method file rangeHeader) := by
  unfold serveFileWithRange
  by_cases hmeta : file.hasMetadata = true
  · by_cases hfile : file.isFile = true
    · right
      rw [if_neg (not_not.2 hmeta), if_neg (not_not.2 hfile)]
      have hin := inbounds_parseRange rangeHeader file.totalLen
      have htotal := toNat_totalLen file.toDiskFile
      unfold fileHead fileBody DiskFile.requested
      rw [parseRange_copies]
      rcases hparse : Kanade.parseRange rangeHeader file.totalLen with e | range
      · rw [hparse] at hin
        obtain rfl : e = .unsatisfiable := hin
        dsimp only
        rw [ite_self, List.append_nil]
        rfl
      · cases range with
        | none =>
          dsimp only
          have hall : (partLength file 0 (saturatingSub file.totalLen 1)).toNat = file.content.length :=
            toNat_partLength_all
          rw [servePart_writes hseek hreads 200 "OK" (by rw [hall, UInt64.toNat_zero, Nat.zero_add]), hall,
            UInt64.toNat_zero, List.drop_zero, List.take_length]
        | some part =>
          obtain ⟨start, last⟩ := part
          rw [hparse] at hin
          obtain ⟨hle, hlt⟩ := hin
          dsimp only
          have hlength : (partLength file start last).toNat = last.toNat + 1 - start.toNat := toNat_partLength hle hlt
          rw [UInt64.le_iff_toNat_le] at hle
          rw [UInt64.lt_iff_toNat_lt] at hlt
          rw [servePart_writes hseek hreads 206 "Partial Content" (by omega), hlength]
    · refine .inl ⟨fun h => hfile h.2, "not a regular file", ?_⟩
      rw [if_neg (not_not.2 hmeta), if_pos hfile]
      rfl
  · refine .inl ⟨fun h => hmeta h.1, "metadata: " ++ w.osError, ?_⟩
    rw [if_pos hmeta]
    rfl

theorem clean_fileHead (file : ServedFile) {contentType : String} (h : Http.InLine contentType)
    (rangeHeader : Option String) : (fileHead file contentType rangeHeader).Clean := by
  unfold fileHead
  split
  · exact clean_partHead file h _ _ (by decide)
  · exact clean_partHead file h _ _ (by decide)
  · exact clean_unsatisfiableHead file

theorem length_partHead (file : ServedFile) (contentType : String) (start last : UInt64) (status : Nat)
    (text : String) : (partHead file contentType start last status text).field? "Content-Length" =
      some (toString (partLength file start last).toNat) := by
  simp [Head.field?, partHead, partHeaders, responseHead, List.find?]

/-- The length that is announced is that of what is asked for. -/
theorem length_fileHead (file : ServedFile) (contentType : String) (rangeHeader : Option String) :
    (fileHead file contentType rangeHeader).field? "Content-Length" =
      some (toString (file.requested rangeHeader).length) := by
  have hin := inbounds_parseRange rangeHeader file.totalLen
  have htotal := toNat_totalLen file.toDiskFile
  unfold fileHead DiskFile.requested
  rw [parseRange_copies]
  rcases hparse : Kanade.parseRange rangeHeader file.totalLen with e | range
  · simp [Head.field?, unsatisfiableHead, unsatisfiableHeaders, responseHead, List.find?]
    rfl
  · cases range with
    | none =>
      dsimp only
      rw [length_partHead, toNat_partLength_all]
    | some part =>
      obtain ⟨start, last⟩ := part
      rw [hparse] at hin
      obtain ⟨hle, hlt⟩ := hin
      dsimp only
      rw [length_partHead, toNat_partLength hle hlt, List.length_take, List.length_drop]
      rw [UInt64.lt_iff_toNat_lt] at hlt
      congr 2
      omega

end Serve

end MediaServer

end Kanade

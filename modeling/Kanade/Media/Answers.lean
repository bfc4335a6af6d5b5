import Kanade.Media.Server
import Kanade.Ws.Artwork
import Mathlib.Data.List.TakeWhile

/-!
# Kanade.Media.Answers

What a client can read of what the media server writes.

* `Refused`, `Unread`, `Silent`, `MediaAnswer`: the answers, or none, each with what it is due to.
* `connection_answered`: what is written on a connection can be read as one response only, and it is such an answer.
* `picture_injects`: the tag of a file can add fields to the response that its picture is sent in.
-/

namespace Kanade

namespace MediaServer

open Sql Files Http

/-! ## What is answered -/

/-- Files whose reads do not fail, and pictures whose MIME types, if they have any, have no line break. -/
structure SoundWorld extends MediaWorld where
  reads : ∀ path file, files path = some file → file.canSeek = true ∧ ∀ i, file.fails i = false
  mimes : ∀ path mime data, picture path = some (some (some mime, data)) → Http.InLine mime

/-- The file of the library that a target is about, and the range header that holds for it: none for artwork. -/
inductive Targets (w : MediaWorld) (target : String) (rangeHeader : Option String) : String → Option String → Prop
  | track {db : LibraryDb} {trackId : String} {track : Track} (hdb : w.db = some db)
      (htarget : stripPrefix "/media/tracks/" target = some trackId)
      (htrack : db.getTrackById (beforeQuery trackId) = some track) :
      Targets w target rangeHeader track.filePath rangeHeader
  | art {db : LibraryDb} {albumId path : String} (hdb : w.db = some db)
      (htarget : stripPrefix "/media/art/" target = some albumId)
      (hart : db.getAlbumArtworkPath (beforeQuery albumId) = some path) : Targets w target rangeHeader path none
  | file {db : LibraryDb} {rawPath path : String} {track : Track} (hdb : w.db = some db)
      (htarget : stripPrefix "/media/file/" target = some rawPath)
      (hdecoded : MediaServer.percentDecode rawPath = some path)
      (htrack : db.getTrackByPath path = some track) : Targets w target rangeHeader path rangeHeader

/-- The track whose picture a target is about: the first of the album. -/
def PictureOf (w : MediaWorld) (target filePath : String) : Prop :=
  ∃ db albumId track rest, w.db = some db ∧ stripPrefix "/media/art/" target = some albumId ∧
    db.getTracksByAlbumId (beforeQuery albumId) = track :: rest ∧ track.filePath = filePath

/-- The refusals, each with what it is due to. -/
inductive Refused (w : MediaWorld) (method target : String) (rangeHeader : Option String) :
    Nat → String → List UInt8 → Prop
  | malformed (h : target = "") : Refused w method target rangeHeader 400 "Bad Request" []
  | options (h : method = "OPTIONS") : Refused w method target rangeHeader 204 "No Content" []
  | method (h : method ≠ "GET" ∧ method ≠ "HEAD") : Refused w method target rangeHeader 405 "Method Not Allowed" []
  | noRoute (htracks : stripPrefix "/media/tracks/" target = none) (hart : stripPrefix "/media/art/" target = none)
      (hfile : stripPrefix "/media/file/" target = none) : Refused w method target rangeHeader 404 "Not Found" []
  | noTrack {trackId : String} (htarget : stripPrefix "/media/tracks/" target = some trackId)
      (htrack : ∀ db, w.db = some db → db.getTrackById (beforeQuery trackId) = none) :
      Refused w method target rangeHeader 404 "Track Not Found" []
  | noFile {path : String} {asked : Option String} (htarget : Targets w target rangeHeader path asked)
      (hfile : w.files path = none) : Refused w method target rangeHeader 404 "File Not Found" []
  | noArt {albumId : String} (htarget : stripPrefix "/media/art/" target = some albumId)
      (hart : findArt w (beforeQuery albumId) = some none) :
      Refused w method target rangeHeader 404 "Artwork Not Found" []
  | artPanics {albumId : String} (htarget : stripPrefix "/media/art/" target = some albumId)
      (hart : findArt w (beforeQuery albumId) = none) :
      Refused w method target rangeHeader 500 "Internal Server Error" (Percent.bytes "db error")
  | badPath {rawPath path : String} (htarget : stripPrefix "/media/file/" target = some rawPath)
      (hdecoded : MediaServer.percentDecode rawPath = some path) (hpath : path = "" ∨ HasDots path) :
      Refused w method target rangeHeader 400 "Bad Request" []
  | unknownPath {rawPath path : String} (htarget : stripPrefix "/media/file/" target = some rawPath)
      (hdecoded : MediaServer.percentDecode rawPath = some path)
      (hpath : isKnownTrackFile w path = false ∨ w.files path = none) :
      Refused w method target rangeHeader 404 "Not Found" []
  /-- The system's text of the failure decides on the status. -/
  | broken {path : String} {asked : Option String} {status : Nat} {text : String}
      (htarget : Targets w target rangeHeader path asked)
      (hfile : ∀ file, w.files path = some file → ¬(file.hasMetadata = true ∧ file.isFile = true))
      (h : (status, text) = (404, "Not Found") ∨ (status, text) = (500, "Internal Server Error")) :
      Refused w method target rangeHeader status text []

inductive MediaAnswer (w : MediaWorld) (method target : String) (rangeHeader : Option String) :
    Head → List UInt8 → Prop
  | refused {status : Nat} {text : String} {body : List UInt8}
      (h : Refused w method target rangeHeader status text body) :
      MediaAnswer w method target rangeHeader (simpleHead status text body) body
  | file {path : String} {file : ServedFile} {asked : Option String}
      (htarget : Targets w target rangeHeader path asked) (hfile : w.files path = some file) :
      MediaAnswer w method target rangeHeader (fileHead file (contentTypeForPath path) asked)
        (fileBody method file asked)
  | picture {path : String} {mime : Option String} {data : List UInt8} (htarget : PictureOf w target path)
      (hpicture : w.picture path = some (some (mime, data))) :
      MediaAnswer w method target rangeHeader (bytesHead (mime.getD "image/jpeg") data)
        (if method = "HEAD" then [] else data)

/-- The connection is closed without an answer. -/
inductive Silent (w : MediaWorld) (target : String) : Prop
  /-- `percent_decode` panics. -/
  | panics {rawPath : String} (htarget : stripPrefix "/media/file/" target = some rawPath)
      (hdecoded : MediaServer.percentDecode rawPath = none)
  /-- The path of the track is no regular file. -/
  | irregular {db : LibraryDb} {trackId : String} {track : Track} {file : ServedFile} (hdb : w.db = some db)
      (htarget : stripPrefix "/media/tracks/" target = some trackId)
      (htrack : db.getTrackById (beforeQuery trackId) = some track) (hfile : w.files track.filePath = some file)
      (h : ¬(file.hasMetadata = true ∧ file.isFile = true))

/-- The code writes one answer, or nothing. -/
def Answers (w : MediaWorld) (method target : String) (rangeHeader : Option String) (x : Written) : Prop :=
  ∀ out, ((x out).2 = out ∧ Silent w target) ∨
    ∃ head body, (x out).2 = out ++ head.write ++ body ∧ MediaAnswer w method target rangeHeader head body

section Routes

variable {w : SoundWorld} {method target : String} {out : List UInt8} {rangeHeader : Option String} {status : Nat}
  {text : String} {body : List UInt8}

theorem writeSimpleResponse_apply (status : Nat) (text : String) (body : List UInt8) :
    writeSimpleResponse status text body out = (.ok (), out ++ (simpleHead status text body).write ++ body) := by
  show (if body = [] then (pure () : Written) else writeAll body) _ = _
  split
  · rename_i hbody
    rw [hbody, List.append_nil]
    rfl
  · rfl

theorem Refused.inLine (h : Refused w.toMediaWorld method target rangeHeader status text body) : Http.InLine text := by
  cases h with
  | broken htarget hfile h => rcases h with h | h <;> cases h <;> decide
  | _ => decide

theorem answers_refused (h : Refused w.toMediaWorld method target rangeHeader status text body) :
    Answers w.toMediaWorld method target rangeHeader (writeSimpleResponse status text body) := by
  intro out
  rw [writeSimpleResponse_apply]
  exact .inr ⟨_, body, rfl, .refused h⟩

/-- A refusal after which the code fails. -/
theorem answers_failed {e : String} (h : Refused w.toMediaWorld method target rangeHeader status text body) :
    Answers w.toMediaWorld method target rangeHeader (do
      writeSimpleResponse status text body
      Exec.fail e) := by
  intro out
  rw [Exec.bind_ok (writeSimpleResponse_apply status text body)]
  exact .inr ⟨_, body, rfl, .refused h⟩

/-- What `orErrorResponse` makes of a file that cannot be served. -/
theorem answers_orErrorResponse {path e : String} {asked : Option String} {x : Written}
    (htarget : Targets w.toMediaWorld target rangeHeader path asked)
    (hfile : ∀ file, w.files path = some file → ¬(file.hasMetadata = true ∧ file.isFile = true))
    (h : x out = (.error e, out)) : ((orErrorResponse x out).2 = out ∧ Silent w.toMediaWorld target) ∨
      ∃ head body, (orErrorResponse x out).2 = out ++ head.write ++ body ∧
        MediaAnswer w.toMediaWorld method target rangeHeader head body := by
  unfold orErrorResponse
  rw [h]
  dsimp only
  split
  · exact answers_failed (.broken htarget hfile (.inl rfl)) out
  · exact answers_failed (.broken htarget hfile (.inr rfl)) out

theorem answers_fileOrError {path : String} {file : ServedFile} {asked : Option String}
    (htarget : Targets w.toMediaWorld target rangeHeader path asked) (hfile : w.files path = some file) :
    Answers w.toMediaWorld method target rangeHeader (orErrorResponse
      (serveFileWithRange w.toMediaWorld method file (contentTypeForPath path) asked)) := by
  intro out
  obtain ⟨hseek, hreads⟩ := w.reads path file hfile
  rcases serveFileWithRange_cases hseek hreads (contentTypeForPath path) asked out with ⟨hbad, e, h⟩ | h
  · refine answers_orErrorResponse htarget ?_ h
    intro file' hfile'
    rw [hfile] at hfile'
    obtain rfl := Option.some.inj hfile'
    exact hbad
  · unfold orErrorResponse
    rw [h]
    exact .inr ⟨_, _, rfl, .file htarget hfile⟩

theorem answers_serveTrack {trackId : String} (htarget : stripPrefix "/media/tracks/" target = some trackId) :
    Answers w.toMediaWorld method target rangeHeader
      (serveTrack w.toMediaWorld method (beforeQuery trackId) rangeHeader) := by
  unfold serveTrack
  split
  · rename_i hnone
    refine answers_refused (.noTrack htarget ?_)
    intro db hdb
    rw [hdb] at hnone
    exact hnone
  · rename_i track htrack
    obtain ⟨db, hdb, htrack⟩ := Option.bind_eq_some_iff.1 htrack
    split
    · rename_i hfile
      exact answers_failed (.noFile (.track hdb htarget htrack) hfile)
    · rename_i file hfile
      intro out
      obtain ⟨hseek, hreads⟩ := w.reads track.filePath file hfile
      rcases serveFileWithRange_cases hseek hreads (contentTypeForPath track.filePath) rangeHeader out with
        ⟨hbad, e, h⟩ | h
      · rw [h]
        exact .inl ⟨rfl, .irregular hdb htarget htrack hfile hbad⟩
      · rw [h]
        exact .inr ⟨_, _, rfl, .file (.track hdb htarget htrack) hfile⟩

theorem serveBytes_apply (contentType : String) (data : List UInt8) :
    serveBytes method contentType data out =
      (.ok (), out ++ (bytesHead contentType data).write ++ if method = "HEAD" then [] else data) := by
  show (if method = "HEAD" then (pure () : Written) else writeAll data) _ = _
  split
  · rw [List.append_nil]
    rfl
  · rfl

theorem answers_serveBytes {path : String} {mime : Option String} {data : List UInt8}
    (htarget : PictureOf w.toMediaWorld target path) (hpicture : w.picture path = some (some (mime, data))) :
    Answers w.toMediaWorld method target rangeHeader (serveBytes method (mime.getD "image/jpeg") data) := by
  intro out
  rw [serveBytes_apply]
  exact .inr ⟨_, _, rfl, .picture htarget hpicture⟩

/-- Where the artwork of an album comes from. -/
theorem findArt_cases {albumId : String} (htarget : stripPrefix "/media/art/" target = some albumId) :
    findArt w.toMediaWorld (beforeQuery albumId) = none ∨ findArt w.toMediaWorld (beforeQuery albumId) = some none ∨
      (∃ path, findArt w.toMediaWorld (beforeQuery albumId) = some (some (.filePath path)) ∧
        Targets w.toMediaWorld target rangeHeader path none) ∨
      ∃ path mime data, findArt w.toMediaWorld (beforeQuery albumId) =
          some (some (.embedded (mime.getD "image/jpeg") data)) ∧
        PictureOf w.toMediaWorld target path ∧ w.picture path = some (some (mime, data)) := by
  have hembedded : ∀ db, w.db = some db → embeddedArt w.toMediaWorld db (beforeQuery albumId) = none ∨
      embeddedArt w.toMediaWorld db (beforeQuery albumId) = some none ∨
      ∃ path mime data, embeddedArt w.toMediaWorld db (beforeQuery albumId) =
          some (some (.embedded (mime.getD "image/jpeg") data)) ∧
        PictureOf w.toMediaWorld target path ∧ w.picture path = some (some (mime, data)) := by
    intro db hdb
    unfold embeddedArt
    cases htracks : db.getTracksByAlbumId (beforeQuery albumId) with
    | nil => exact .inr (.inl rfl)
    | cons track rest =>
      dsimp only
      cases hpicture : w.picture track.filePath with
      | none => exact .inl rfl
      | some picture =>
        cases picture with
        | none => exact .inr (.inl rfl)
        | some found =>
          obtain ⟨mime, data⟩ := found
          exact .inr (.inr ⟨track.filePath, mime, data, rfl, ⟨db, albumId, track, rest, hdb, htarget, htracks, rfl⟩,
            hpicture⟩)
  unfold findArt
  cases hdb : w.db with
  | none => exact .inr (.inl rfl)
  | some db =>
    dsimp only
    have hcases := hembedded db hdb
    cases hart : db.getAlbumArtworkPath (beforeQuery albumId) with
    | none =>
      rcases hcases with h | h | h
      · exact .inl h
      · exact .inr (.inl h)
      · exact .inr (.inr (.inr h))
    | some path =>
      dsimp only
      split
      · exact .inr (.inr (.inl ⟨path, rfl, .art hdb htarget hart⟩))
      · rcases hcases with h | h | h
        · exact .inl h
        · exact .inr (.inl h)
        · exact .inr (.inr (.inr h))

theorem answers_serveArt {albumId : String} (htarget : stripPrefix "/media/art/" target = some albumId) :
    Answers w.toMediaWorld method target rangeHeader
      (serveArt w.toMediaWorld method (beforeQuery albumId)) := by
  unfold serveArt
  rcases findArt_cases (w := w) htarget with h | h | ⟨path, h, hpath⟩ | ⟨path, mime, data, h, hpicture, hdata⟩
  · rw [h]
    exact answers_failed (.artPanics htarget h)
  · rw [h]
    exact answers_refused (.noArt htarget h)
  · rw [h]
    dsimp only
    cases hfile : w.files path with
    | none =>
      intro out
      refine answers_orErrorResponse (e := "open file: " ++ w.osError) hpath ?_ ?_
      · intro file hsome
        rw [hfile] at hsome
        cases hsome
      · rw [serveStaticFile, hfile]
        rfl
    | some file =>
      have hstatic : serveStaticFile w.toMediaWorld method path (contentTypeForPath path) =
          serveFileWithRange w.toMediaWorld method file (contentTypeForPath path) none := by
        rw [serveStaticFile, hfile]
      rw [hstatic]
      exact answers_fileOrError hpath hfile
  · rw [h]
    exact answers_serveBytes hpicture hdata

theorem answers_serveFile {rawPath : String} (htarget : stripPrefix "/media/file/" target = some rawPath) :
    Answers w.toMediaWorld method target rangeHeader
      (serveFile w.toMediaWorld method rawPath rangeHeader) := by
  unfold serveFile
  split
  · rename_i hdecoded
    exact fun out => .inl ⟨rfl, .panics htarget hdecoded⟩
  · rename_i decoded hdecoded
    split
    · rename_i hpath
      exact answers_refused (.badPath htarget hdecoded hpath)
    · split
      · rename_i hknown
        exact answers_refused (.unknownPath htarget hdecoded (.inl (Bool.eq_false_iff.2 hknown)))
      · rename_i hknown
        rw [not_not, isKnownTrackFile, Bool.and_eq_true] at hknown
        obtain ⟨track, htrack⟩ := Option.isSome_iff_exists.1 hknown.2
        obtain ⟨db, hdb, htrack⟩ := Option.bind_eq_some_iff.1 htrack
        split
        · rename_i hfile
          exact answers_refused (.unknownPath htarget hdecoded (.inr hfile))
        · rename_i file hfile
          exact answers_fileOrError (.file hdb htarget hdecoded htrack) hfile

theorem answers_respond :
    Answers w.toMediaWorld method target rangeHeader (respond w.toMediaWorld method target rangeHeader) := by
  unfold respond
  split
  · rename_i hoptions
    exact answers_refused (.options hoptions)
  · split
    · rename_i hmethod
      exact answers_refused (.method hmethod)
    · split
      · rename_i trackId htarget
        exact answers_serveTrack htarget
      · rename_i htracks
        split
        · rename_i albumId htarget
          exact answers_serveArt htarget
        · rename_i hart
          split
          · rename_i rawPath htarget
            exact answers_serveFile htarget
          · rename_i hfile
            exact answers_refused (.noRoute htracks hart hfile)

/-- An answer can be read, and announces the length of its body or of what it leaves out for `HEAD`. -/
theorem MediaAnswer.framed {head : Head} (h : MediaAnswer w.toMediaWorld method target rangeHeader head body) :
    head.Clean ∧ ∃ n, head.field? "Content-Length" = some (toString n) ∧
      (body.length = n ∨ method = "HEAD" ∧ body = []) := by
  cases h with
  | refused h =>
    refine ⟨clean_simpleHead h.inLine body, body.length, ?_, .inl rfl⟩
    simp [Head.field?, simpleHead, simpleHeaders, responseHead]
  | @file path file asked htarget hfile =>
    refine ⟨clean_fileHead file (inLine_contentTypeForPath path) asked, (file.requested asked).length,
      length_fileHead file (contentTypeForPath path) asked, ?_⟩
    unfold fileBody
    split
    · rename_i hhead
      exact .inr ⟨hhead, rfl⟩
    · exact .inl rfl
  | @picture path mime data htarget hpicture =>
    have hmime : Http.InLine (mime.getD "image/jpeg") := by
      cases mime with
      | none => decide
      | some mime => exact w.mimes path mime data hpicture
    refine ⟨clean_bytesHead hmime data, data.length, ?_, ?_⟩
    · simp [Head.field?, bytesHead, bytesHeaders, responseHead]
    · split
      · rename_i hhead
        exact .inr ⟨hhead, rfl⟩
      · exact .inl rfl

end Routes

/-! ## Connections -/

def requestWords (lines : List (Option String)) : List (List Char) :=
  splitWhitespace ((lines.headD (some "")).getD "").toList

def requestMethod (lines : List (Option String)) : String := String.ofList ((requestWords lines).headD [])

def requestTarget (lines : List (Option String)) : String := String.ofList ((requestWords lines).tail.headD [])

/-- The range header, when the header lines can be read. -/
def requestRange (lines : List (Option String)) : Option String := (readHeaders lines.tail none).join

/-- The connection is closed before the request is routed. -/
inductive Unread (lines : List (Option String)) : Prop
  | line (h : lines.headD (some "") = none)
  | blank {requestLine : String} (hline : lines.headD (some "") = some requestLine) (h : trim requestLine.toList = [])
  | headers {method path : List Char} {words : List (List Char)} (hwords : requestWords lines = method :: path :: words)
      (h : Unreadable lines.tail)

theorem handleConnection_unread (w : MediaWorld) {lines : List (Option String)} {out : List UInt8}
    (h : Unread lines) : (handleConnection w lines out).2 = out := by
  unfold handleConnection
  cases h with
  | line h =>
    rw [h]
    rfl
  | blank hline h =>
    rw [hline]
    dsimp only
    rw [if_pos h]
    rfl
  | headers hwords h =>
    unfold requestWords at hwords
    cases hline : lines.headD (some "") with
    | none => rfl
    | some requestLine =>
      rw [hline, Option.getD_some] at hwords
      dsimp only
      split
      · rfl
      · rw [hwords, readHeaders_eq_none_iff.2 h]
        rfl

theorem answers_handleConnection (w : SoundWorld) {lines : List (Option String)} (h : ¬Unread lines) :
    Answers w.toMediaWorld (requestMethod lines) (requestTarget lines) (requestRange lines)
      (handleConnection w.toMediaWorld lines) := by
  have hheaders : ∀ method path words, requestWords lines = method :: path :: words →
      ∃ rangeHeader, readHeaders lines.tail none = some rangeHeader := by
    intro method path words hwords
    exact Option.ne_none_iff_exists'.1 fun hnone => h (.headers hwords (readHeaders_eq_none_iff.1 hnone))
  unfold handleConnection requestMethod requestTarget requestRange
  unfold requestWords at *
  cases hline : lines.headD (some "") with
  | none => exact absurd (.line hline) h
  | some requestLine =>
    rw [hline, Option.getD_some] at hheaders
    dsimp only [Option.getD_some]
    rw [if_neg fun hblank => h (.blank hline hblank)]
    rcases hwords : splitWhitespace requestLine.toList with _ | ⟨method, _ | ⟨path, words⟩⟩
    · exact answers_refused (.malformed rfl)
    · exact answers_refused (.malformed rfl)
    · obtain ⟨rangeHeader, hrange⟩ := hheaders method path words hwords
      rw [hrange]
      exact answers_respond

/-- What is written on a connection is nothing, or can be read in one way: as one response of the length that it
announces, a refusal with its reason or what the library has for the target. -/
theorem connection_answered (w : SoundWorld) (lines : List (Option String)) :
    ((handleConnection w.toMediaWorld lines []).2 = [] ∧
        (Unread lines ∨ Silent w.toMediaWorld (requestTarget lines))) ∨
      ∃ head body n, Reads (handleConnection w.toMediaWorld lines []).2 head body ∧
        (∀ head' body', Reads (handleConnection w.toMediaWorld lines []).2 head' body' →
          head' = head ∧ body' = body) ∧
        head.field? "Content-Length" = some (toString n) ∧
        (body.length = n ∨ requestMethod lines = "HEAD" ∧ body = []) ∧
        MediaAnswer w.toMediaWorld (requestMethod lines) (requestTarget lines) (requestRange lines) head body := by
  by_cases hunread : Unread lines
  · exact .inl ⟨handleConnection_unread w.toMediaWorld hunread, .inl hunread⟩
  · rcases answers_handleConnection w hunread [] with ⟨hnone, hsilent⟩ | ⟨head, body, hwritten, hanswer⟩
    · exact .inl ⟨hnone, .inr hsilent⟩
    · rw [List.nil_append] at hwritten
      obtain ⟨hclean, n, hlength, hbody⟩ := hanswer.framed
      have hreads : Reads (handleConnection w.toMediaWorld lines []).2 head body := ⟨hclean, hwritten⟩
      have hunique : ∀ head' body', Reads (handleConnection w.toMediaWorld lines []).2 head' body' →
          head' = head ∧ body' = body := by
        intro head' body' h
        exact h.unique hreads
      exact .inr ⟨head, body, n, hreads, hunique, hlength, hbody, hanswer⟩

/-- A file that is read a byte at a time. -/
def percentFile : ServedFile where
  content := [1, 2, 3]
  length_lt := by decide
  isFile := true
  hasMetadata := true
  canSeek := true
  short _ := 1
  fails _ := false

def percentWorld : SoundWorld where
  db := some percentDb
  files path := if path = "/m/a/01.flac" then some percentFile else none
  isFile path := path = "/m/a/01.flac"
  pathExists path := path = "/m/a/01.flac"
  picture _ := some none
  osError := "No such file or directory"
  reads := by
    intro path file h
    split at h
    · cases h
      exact ⟨rfl, fun _ => rfl⟩
    · cases h
  mimes := by
    intro path mime data h
    cases h

theorem connection_answered_part : ∃ head,
    Reads (handleConnection percentWorld.toMediaWorld
      [some "GET /media/tracks/1?t=0 HTTP/1.1\r\n", some "Range: bytes=1-\r\n", some "\r\n"] []).2 head [2, 3] ∧
    head.status = 206 ∧ head.field? "Content-Range" = some "bytes 1-2/3" ∧
    head.field? "Content-Length" = some "2" := by
  have hwritten : (handleConnection percentWorld.toMediaWorld
      [some "GET /media/tracks/1?t=0 HTTP/1.1\r\n", some "Range: bytes=1-\r\n", some "\r\n"] []).2 =
      (partHead percentFile "audio/flac" 1 2 206 "Partial Content").write ++ [2, 3] := by
    decide +kernel
  rcases connection_answered percentWorld
      [some "GET /media/tracks/1?t=0 HTTP/1.1\r\n", some "Range: bytes=1-\r\n", some "\r\n"] with
    ⟨hnone, -⟩ | ⟨head, body, n, hreads, hunique, -⟩
  · rw [hwritten] at hnone
    exact absurd hnone (by simp)
  · have hpart : Reads _ _ [2, 3] := ⟨clean_partHead _ (by decide) 1 2 (by decide), hwritten⟩
    obtain ⟨rfl, rfl⟩ := hunique _ _ hpart
    exact ⟨_, hreads, by decide +kernel⟩

/-! ## Line breaks in MIME types -/

section Injection

variable {w : MediaWorld} {lines : List (Option String)} {albumId mime name value : String} {data : List UInt8}

theorem splitOnP_blank {cs : List Char} (h : ∀ c ∈ cs, isWhiteSpace c = true) :
    ∀ word ∈ cs.splitOnP isWhiteSpace, word = [] := by
  induction cs with
  | nil => simp
  | cons c cs ih =>
    intro word hword
    rw [List.splitOnP_cons_eq_if_modifyHead, if_pos (h c List.mem_cons_self)] at hword
    rcases List.mem_cons.1 hword with rfl | hword
    · rfl
    · exact ih (fun d hd => h d (List.mem_cons_of_mem _ hd)) word hword

theorem splitWhitespace_blank {cs : List Char} (h : trim cs = []) : splitWhitespace cs = [] := by
  have hrest : ∀ c ∈ cs.dropWhile isWhiteSpace, isWhiteSpace c = true := by
    intro c hc
    exact List.dropWhile_eq_nil_iff.1 (List.reverse_eq_nil_iff.1 h) c (List.mem_reverse.2 hc)
  have hnone : cs.dropWhile isWhiteSpace = [] := by
    rcases hdrop : cs.dropWhile isWhiteSpace with _ | ⟨c, rest⟩
    · rfl
    · have hhead := List.head?_dropWhile_not isWhiteSpace cs
      rw [hdrop] at hhead
      rw [hdrop] at hrest
      simp [hrest c List.mem_cons_self] at hhead
  unfold splitWhitespace
  rw [List.filter_eq_nil_iff]
  intro word hword
  simpa using splitOnP_blank (List.dropWhile_eq_nil_iff.1 hnone) word hword

/-- A request with a target is answered by its route. -/
theorem handleConnection_eq (h : requestTarget lines ≠ "") (hheaders : ¬Unreadable lines.tail) :
    handleConnection w lines = respond w (requestMethod lines) (requestTarget lines) (requestRange lines) := by
  obtain ⟨rangeHeader, hrange⟩ : ∃ rangeHeader, readHeaders lines.tail none = some rangeHeader :=
    Option.ne_none_iff_exists'.1 fun hnone => hheaders (readHeaders_eq_none_iff.1 hnone)
  unfold requestTarget at h
  unfold handleConnection requestMethod requestTarget requestRange
  unfold requestWords at *
  rw [hrange]
  cases hline : lines.headD (some "") with
  | none =>
    rw [hline] at h
    exact absurd rfl h
  | some requestLine =>
    rw [hline, Option.getD_some] at h
    dsimp only [Option.getD_some]
    have hblank : trim requestLine.toList ≠ [] := by
      intro hblank
      rw [splitWhitespace_blank hblank] at h
      exact h rfl
    rw [if_neg hblank]
    rcases hwords : splitWhitespace requestLine.toList with _ | ⟨method, _ | ⟨path, words⟩⟩
    · rw [hwords] at h
      exact absurd rfl h
    · rw [hwords] at h
      exact absurd rfl h
    · rfl

theorem respond_art {target : String} {rangeHeader : Option String} (htarget : target = "/media/art/" ++ albumId) :
    respond w "GET" target rangeHeader = serveArt w "GET" (beforeQuery albumId) := by
  have htracks : stripPrefix "/media/tracks/" target = none := by
    rw [Option.eq_none_iff_forall_ne_some]
    intro trackId h
    rw [stripPrefix_eq_some_iff, htarget] at h
    have hlists := congrArg String.toList h
    simp [String.toList_append] at hlists
  have hart : stripPrefix "/media/art/" target = some albumId := stripPrefix_eq_some_iff.2 htarget
  unfold respond
  rw [if_neg (by decide), if_neg (by decide), htracks, hart]

/-- The head of a picture whose MIME type has a field in it. -/
def injectedHead (mime name value : String) (data : List UInt8) : Head :=
  responseHead 200 "OK" [("Content-Type", mime), (name, value), ("Content-Length", toString data.length),
    ("Cache-Control", "public, max-age=86400")]

theorem clean_injectedHead (hmime : Http.InLine mime) (hname : Http.InLine name ∧ ':' ∉ name.toList)
    (hvalue : Http.InLine value) (data : List UInt8) : (injectedHead mime name value data).Clean := by
  refine clean_responseHead (by decide) ?_
  intro field hfield
  simp only [List.mem_cons, List.not_mem_nil, or_false] at hfield
  rcases hfield with rfl | rfl | rfl | rfl
  · exact field_clean (by decide) hmime
  · exact ⟨hname, hvalue⟩
  · exact field_clean (by decide) (inLine_toString _)
  · exact field_clean (by decide) (by decide)

theorem write_bytesHead (mime name value : String) (data : List UInt8) :
    (bytesHead (mime ++ "\r\n" ++ fieldLine (name, value)) data).write = (injectedHead mime name value data).write :=
  write_broken 200 "OK" "Content-Type" mime name value
    [("Access-Control-Allow-Origin", "*"), ("Access-Control-Allow-Headers", "Range")]
    [("Content-Length", toString data.length), ("Cache-Control", "public, max-age=86400")]

/-- What stands behind a line break in the MIME type of a picture is a field of the response. -/
theorem picture_injects (w : MediaWorld) (lines : List (Option String)) (hmethod : requestMethod lines = "GET")
    (hheaders : ¬Unreadable lines.tail) (htarget : requestTarget lines = "/media/art/" ++ albumId)
    (hart : findArt w (beforeQuery albumId) =
      some (some (.embedded (mime ++ "\r\n" ++ fieldLine (name, value)) data)))
    (hmime : Http.InLine mime) (hname : Http.InLine name ∧ ':' ∉ name.toList) (hvalue : Http.InLine value)
    (head : Head) (body : List UInt8) : Reads (handleConnection w lines []).2 head body ↔
      head = injectedHead mime name value data ∧ body = data := by
  have hne : requestTarget lines ≠ "" := by
    rw [htarget]
    intro h
    have hlists := congrArg String.toList h
    simp [String.toList_append] at hlists
  have hwritten : (handleConnection w lines []).2 = (injectedHead mime name value data).write ++ data := by
    rw [handleConnection_eq hne hheaders, hmethod, respond_art htarget, serveArt, hart]
    dsimp only
    rw [serveBytes_apply, if_neg (by decide), List.nil_append, write_bytesHead]
  have hinjected : Reads (handleConnection w lines []).2 (injectedHead mime name value data) data :=
    ⟨clean_injectedHead hmime hname hvalue data, hwritten⟩
  constructor
  · intro h
    exact h.unique hinjected
  · rintro ⟨rfl, rfl⟩
    exact hinjected

end Injection

/-- A file of one picture, whose MIME type has a field in it. -/
def taggedDsf : List UInt8 :=
  List.replicate 20 0 ++ [28, 0, 0, 0, 0, 0, 0, 0] ++ [0x49, 0x44, 0x33, 3, 0, 0, 0, 0, 0, 41] ++
    Percent.bytes "APIC" ++ [0, 0, 0, 31, 0, 0] ++
    ([0] ++ Percent.bytes "image/png\r\nSet-Cookie: a=b" ++ [0, 3, 0, 0x89])

def taggedAlbum : AlbumRow := ⟨"a", "/m", none, none⟩

def taggedTrack : TrackRow := ⟨{ id := "1", filePath := "/m/1.dsf", albumId := some taggedAlbum.id }, none⟩

theorem taggedTrack_album :
    ∀ row ∈ [taggedTrack], ∀ id ∈ row.track.albumId, id ∈ [taggedAlbum].map AlbumRow.id := by
  intro row hrow id hid
  cases List.mem_singleton.1 hrow
  cases hid
  exact List.mem_cons_self

def taggedDb : LibraryDb :=
  { LibraryDb.empty with
    albums := ⟨[taggedAlbum], List.nodup_singleton _⟩
    tracks := ⟨[taggedTrack], List.nodup_singleton _⟩
    dirPaths_nodup := List.nodup_singleton _
    trackIds_nodup := List.nodup_singleton _
    albums_of_tracks := taggedTrack_album }

def taggedWorld : MediaWorld where
  db := some taggedDb
  files _ := none
  isFile path := path = "/m/1.dsf"
  pathExists path := path = "/m/1.dsf"
  picture _ := (extractDsfPicture taggedDsf).map fun result =>
    result.toOption.map fun picture => (some picture.mimeType, picture.picData)
  osError := "No such file or directory"

theorem picture_injects_tagged :
    Reads (handleConnection taggedWorld [some "GET /media/art/a HTTP/1.1\r\n", some "\r\n"] []).2
      (injectedHead "image/png" "Set-Cookie" "a=b" [0x89]) [0x89] := by
  have htarget : requestTarget [some "GET /media/art/a HTTP/1.1\r\n", some "\r\n"] = "/media/art/" ++ "a" := by
    decide +kernel
  have hread : readHeaders [some "\r\n"] none ≠ none := by decide +kernel
  have hheaders : ¬Unreadable [some "GET /media/art/a HTTP/1.1\r\n", some "\r\n"].tail :=
    fun h => hread (readHeaders_eq_none_iff.2 h)
  exact (picture_injects taggedWorld _ (by decide +kernel) hheaders htarget (by decide +kernel) (by decide) (by decide)
    (by decide) _ _).2 ⟨rfl, rfl⟩

end MediaServer

end Kanade

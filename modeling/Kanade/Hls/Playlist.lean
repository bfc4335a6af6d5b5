import Kanade.Hls.Output
import Kanade.Text.Lines
import Kanade.Ws.MediaAuth

/-!
# Kanade.Hls.Playlist

The playlist of a variant as a player gets it, and where its URLs lead: `rewrite_m3u8_with_signed_urls`,
the routes under `/media/hls/` and the three handlers.

`playlist_chain`: the URLs of the rewritten playlist are accepted until they expire, go to the handlers
with the same track and variant, and are answered with the files of the chunks, in order.
-/

namespace Kanade

/-! ## Rewriting -/

def hlsPath (trackId variant name : String) : String :=
  "/media/hls/" ++ trackId ++ "/" ++ variant ++ "/" ++ name

def isMapTag (line : String) : Bool := "#EXT-X-MAP:".toList.isPrefixOf line.toList

/-- The line is a URI. -/
def isUriLine (line : String) : Bool := line ≠ "" ∧ line.toList.head? ≠ some '#'

section Rewrite

variable (hmac : MediaKey → String → List UInt8) (mediaBaseUrl trackId variant kid : String)
  (key : MediaKey) (exp : UInt64)

def rewriteLine (line : String) : String :=
  if "#EXT-X-MAP:URI=".toList <+: line.toList then
    "#EXT-X-MAP:URI=\"" ++
      buildSignedMediaUrl hmac mediaBaseUrl (hlsPath trackId variant "init.mp4") kid key exp ++ "\""
  else if isUriLine line then
    buildSignedMediaUrl hmac mediaBaseUrl (hlsPath trackId variant line) kid key exp
  else line

def rewriteM3u8WithSignedUrls (m3u8 : String) : String :=
  (Lines.ofString m3u8).foldl (fun out line =>
    out ++ rewriteLine hmac mediaBaseUrl trackId variant kid key exp line ++ "\n") ""

end Rewrite

/-! ## Routes -/

/-- The three handlers, and the name that the last gets. -/
inductive HlsResource where
  | playlist
  | init
  | segment (segmentName : String)
deriving DecidableEq, Repr

/-- The routes under `/media/hls/`: a fixed name goes before a parameter. -/
def hlsResource (path : String) : Option (String × String × HlsResource) :=
  match stripPrefix "/media/hls/" path with
  | none => none
  | some rest =>
    match segments rest with
    | [trackId, variant, name] => do
      let trackId ← Percent.decode trackId
      let variant ← Percent.decode variant
      if name = "index.m3u8" then some (trackId, variant, .playlist)
      else if name = "init.mp4" then some (trackId, variant, .init)
      else do
        let name ← Percent.decode name
        some (trackId, variant, .segment name)
    | _ => none

/-! ## Handlers -/

/-- `parse::<usize>`. -/
def parseUsize : List Char → Option Nat
  | '+' :: rest => (Url.parseU64 rest).map UInt64.toNat
  | cs => (Url.parseU64 cs).map UInt64.toNat

def segmentIndex (segmentName : String) : Option Nat := do
  let rest ← stripPrefix "seg" segmentName
  let digits ← ".m4s".toList.isSuffixOf? rest.toList
  parseUsize digits

/-- What the handlers look up: the tracks of the database, the directories of the cache, and what is
generated where there is nothing yet. -/
structure HlsServer where
  mediaBaseUrl : String
  isKnownTrackId : String → Bool
  variantDir : String → String → HlsDir
  generate : String → String → Except StatusCode HlsSegments

namespace HlsServer

/-- `resolve_hls_segments`, with `get_or_generate`. -/
def resolveHlsSegments (server : HlsServer) (trackId variant : String) :
    Except StatusCode HlsSegments :=
  if ¬ server.isKnownTrackId trackId then .error .notFound
  else
    match HlsSegments.openDir (server.variantDir trackId variant) with
    | .ok segments => .ok segments
    | .error _ => server.generate trackId variant

variable (server : HlsServer) (hmac : MediaKey → String → List UInt8) (store : MediaKeyStore)
  (now : UInt64)

def readFile (root : HlsDir) (name : String) : Except StatusCode (List UInt8) :=
  match root.read name with
  | some data => .ok data
  | none => .error .notFound

def hlsPlaylistHandler (trackId variant canonicalPath : String) (authQuery : MediaAuthQuery) :
    Except StatusCode String := do
  verifyMediaAuth hmac store now canonicalPath authQuery
  let segments ← server.resolveHlsSegments trackId variant
  match (segments.root.read "index.m3u8").bind Percent.ofBytes with
  | some text =>
    let key := (store.get authQuery.kid).getD (Vector.replicate 32 0)
    .ok (rewriteM3u8WithSignedUrls hmac server.mediaBaseUrl trackId variant authQuery.kid key
      authQuery.exp text)
  | none => .error .notFound

def hlsServeInit (trackId variant : String) : Except StatusCode (List UInt8) := do
  let segments ← server.resolveHlsSegments trackId variant
  readFile segments.root "init.mp4"

def hlsInitHandler (trackId variant canonicalPath : String) (authQuery : MediaAuthQuery) :
    Except StatusCode (List UInt8) := do
  verifyMediaAuth hmac store now canonicalPath authQuery
  server.hlsServeInit trackId variant

def hlsSegmentHandler (trackId variant segmentName canonicalPath : String)
    (authQuery : MediaAuthQuery) : Except StatusCode (List UInt8) := do
  verifyMediaAuth hmac store now canonicalPath authQuery
  if segmentName = "init.mp4" then server.hlsServeInit trackId variant
  else
    match segmentIndex segmentName with
    | none => .error .notFound
    | some index => do
      let segments ← server.resolveHlsSegments trackId variant
      match segments.segmentPath index with
      | none => .error .notFound
      | some name => readFile segments.root name

/-- What the handler of the resource answers. -/
def serve (trackId variant : String) (request : MediaRequest) :
    HlsResource → Except StatusCode (List UInt8)
  | .playlist =>
    (server.hlsPlaylistHandler hmac store now trackId variant request.path request.authQuery).map
      Percent.bytes
  | .init => server.hlsInitHandler hmac store now trackId variant request.path request.authQuery
  | .segment segmentName =>
    server.hlsSegmentHandler hmac store now trackId variant segmentName request.path request.authQuery

end HlsServer

/-! ## Names in URLs -/

/-- Unreserved in a URI. -/
def isUnreserved (c : Char) : Bool := c.isAlphanum ∨ c ∈ ['-', '.', '_', '~']

structure UrlName (s : String) : Prop where
  ne_empty : s ≠ ""
  unreserved : ∀ c ∈ s.toList, isUnreserved c = true
  ne_dot : s ≠ "."
  ne_dots : s ≠ ".."

/-- A scheme and a host, and slashes at the end, if any. -/
def IsOrigin (base : String) : Prop :=
  ∃ scheme host slashes, base.toList = scheme ++ "://".toList ++ host ++ List.replicate slashes '/' ∧
    (scheme = "http".toList ∨ scheme = "https".toList) ∧
    ∀ c ∈ host, c.isAlphanum = true ∨ c ∈ ['-', '.', '_', ':', '[', ']']

section Names

variable {s trackId variant name : String} {c : Char} {index : Nat}

theorem UrlName.notMem (h : UrlName s) (hc : isUnreserved c = false) : c ∉ s.toList := by
  intro hmem
  rw [h.unreserved c hmem] at hc
  cases hc

theorem urlName_segName (index : Nat) : UrlName (segName index) where
  ne_empty := segName_ne (by decide) index
  unreserved := by
    intro c hc
    have hplain : ∀ cs : List Char, cs.all isUnreserved = true → c ∈ cs → isUnreserved c = true :=
      fun cs hcs => List.all_eq_true.1 hcs c
    rw [segName_toList] at hc
    rcases List.mem_append.1 hc with hc | hc
    · exact hplain "seg".toList (by decide) hc
    rcases List.mem_append.1 hc with hc | hc
    · have hdigit := Nat.isDigit_of_mem_toDigits (by omega) (by omega) hc
      simp [isUnreserved, Char.isAlphanum, hdigit]
    · exact hplain ".m4s".toList (by decide) hc
  ne_dot := segName_ne (by decide) index
  ne_dots := segName_ne (by decide) index

theorem urlName_of_all (hne : s ≠ "") (hall : s.toList.all isUnreserved = true) (hdot : s ≠ ".")
    (hdots : s ≠ "..") : UrlName s := ⟨hne, List.all_eq_true.1 hall, hdot, hdots⟩

theorem urlName_init : UrlName "init.mp4" :=
  urlName_of_all (by decide) (by decide) (by decide) (by decide)

theorem urlName_index : UrlName "index.m3u8" :=
  urlName_of_all (by decide) (by decide) (by decide) (by decide)

theorem hlsPath_toList : (hlsPath trackId variant name).toList =
    "/media/hls/".toList ++ (trackId.toList ++ '/' :: (variant.toList ++ '/' :: name.toList)) := by
  have hslash : "/".toList = ['/'] := rfl
  unfold hlsPath
  simp only [String.toList_append, hslash, List.append_assoc, List.cons_append, List.nil_append]

theorem segments_three (ht : UrlName trackId) (hv : UrlName variant) (hn : UrlName name) :
    segments (trackId ++ "/" ++ variant ++ "/" ++ name) = [trackId, variant, name] := by
  have hslash : isUnreserved '/' = false := by decide
  have hlist : (trackId ++ "/" ++ variant ++ "/" ++ name).toList =
      trackId.toList ++ '/' :: (variant.toList ++ '/' :: name.toList) := by simp
  rw [segments, hlist, List.splitOn_append_cons_self_of_not_mem (ht.notMem hslash),
    List.splitOn_append_cons_self_of_not_mem (hv.notMem hslash),
    List.splitOn_eq_singleton (hn.notMem hslash)]
  simp [String.ofList_toList]

/-- The path has no segment that a URL parser would take away. -/
theorem segments_hlsPath (ht : UrlName trackId) (hv : UrlName variant) (hn : UrlName name) :
    segments (hlsPath trackId variant name) = ["", "media", "hls", trackId, variant, name] := by
  have hslash : isUnreserved '/' = false := by decide
  have hlist : (hlsPath trackId variant name).toList = [] ++ '/' :: ("media".toList ++ '/' ::
      ("hls".toList ++ '/' :: (trackId.toList ++ '/' :: (variant.toList ++ '/' :: name.toList)))) := by
    rw [hlsPath_toList]
    rfl
  rw [segments, hlist, List.splitOn_append_cons_self_of_not_mem List.not_mem_nil,
    List.splitOn_append_cons_self_of_not_mem (by decide),
    List.splitOn_append_cons_self_of_not_mem (by decide),
    List.splitOn_append_cons_self_of_not_mem (ht.notMem hslash),
    List.splitOn_append_cons_self_of_not_mem (hv.notMem hslash),
    List.splitOn_eq_singleton (hn.notMem hslash)]
  simp [String.ofList_toList]

theorem notMem_hlsPath (ht : UrlName trackId) (hv : UrlName variant) (hn : c ∉ name.toList)
    (hc : isUnreserved c = false) (hslash : c ≠ '/') : c ∉ (hlsPath trackId variant name).toList := by
  have hpre : c ∉ "/media/hls/".toList := by
    intro hmem
    have hplain : ∀ d ∈ "/media/hls/".toList, d = '/' ∨ isUnreserved d = true :=
      Url.forall_of_all (by decide)
    rcases hplain c hmem with heq | h
    · exact hslash heq
    · rw [h] at hc
      cases hc
  rw [hlsPath_toList, List.mem_append, List.mem_append, List.mem_cons, List.mem_append, List.mem_cons]
  simp only [hpre, ht.notMem hc, hv.notMem hc, hn, hslash, or_self, not_false_eq_true]

/-- Where a path goes that is made of plain names. -/
theorem hlsResource_hlsPath (ht : UrlName trackId) (hv : UrlName variant) (hn : UrlName name) :
    hlsResource (hlsPath trackId variant name) = some (trackId, variant,
      if name = "index.m3u8" then .playlist
      else if name = "init.mp4" then .init
      else .segment name) := by
  have hpercent : isUnreserved '%' = false := by decide
  have hrest : stripPrefix "/media/hls/" (hlsPath trackId variant name) =
      some (trackId ++ "/" ++ variant ++ "/" ++ name) := by
    rw [stripPrefix_eq_some_iff]
    unfold hlsPath
    simp only [String.append_assoc]
  unfold hlsResource
  rw [hrest]
  dsimp only
  rw [segments_three ht hv hn]
  dsimp only
  rw [Percent.decode_of_not_mem (ht.notMem hpercent), Percent.decode_of_not_mem (hv.notMem hpercent),
    Percent.decode_of_not_mem (hn.notMem hpercent)]
  simp only [Option.bind_eq_bind, Option.bind_some]
  split
  · rfl
  split
  · rfl
  · rfl

end Names

/-- The index of a segment is read back. -/
theorem segmentIndex_segName {index : Nat} (h : index < 2 ^ 64) :
    segmentIndex (segName index) = some index := by
  have hstrip : stripPrefix "seg" (segName index) = some (index.repr ++ ".m4s") := by
    rw [stripPrefix_eq_some_iff, segName, String.append_assoc]
  have hsuffix : ".m4s".toList.isSuffixOf? (index.repr ++ ".m4s").toList =
      some (Nat.toDigits 10 index) := by
    have hprefix : ".m4s".toList.reverse.isPrefixOf?
        (Nat.toDigits 10 index ++ ".m4s".toList).reverse = some (Nat.toDigits 10 index).reverse := by
      rw [List.isPrefixOf?_eq_some_iff_append_eq, List.reverse_append]
    rw [String.toList_append, Nat.toList_repr, List.isSuffixOf?, hprefix, Option.map_some,
      List.reverse_reverse]
  have hparse : Url.parseU64 (Nat.toDigits 10 index) = some (UInt64.ofNat index) := by
    have hback := Url.parseU64_toDigits (UInt64.ofNat index)
    rwa [UInt64.toNat_ofNat_of_lt' h] at hback
  have husize : parseUsize (Nat.toDigits 10 index) = (Url.parseU64 (Nat.toDigits 10 index)).map
      UInt64.toNat := by
    unfold parseUsize
    split
    · rename_i rest heq
      have hplus : '+' ∈ Nat.toDigits 10 index := by
        rw [heq]
        exact List.mem_cons_self
      exact absurd hplus (notMem_digits (by decide) index)
    · rfl
  rw [segmentIndex, hstrip, Option.bind_eq_bind, Option.bind_some, hsuffix, Option.bind_eq_bind,
    Option.bind_some, husize, hparse, Option.map_some, UInt64.toNat_ofNat_of_lt' h]

/-! ## The rewritten playlist -/

/-- What is assumed of the printer: a map tag whose first attribute is the URI for every map, a line
for every URI, and nothing else but tags, comments and empty lines. -/
structure PrintsPlaylist (segments : List PlaylistSegment) (text : String) : Prop where
  maps : List.Forall₂ (fun line uri => ∃ rest, line = "#EXT-X-MAP:URI=\"" ++ uri ++ "\"" ++ rest)
    ((Lines.ofString text).filter isMapTag) (segments.filterMap PlaylistSegment.map)
  uris : (Lines.ofString text).filter isUriLine = segments.map PlaylistSegment.uri

/-- The lines `out` of a playlist that was rewritten: the map and the URIs are replaced, and all other
lines are as before. -/
structure SignedPlaylist (text playlist : String) (out : List String) (initUrl : String)
    (segmentUrls : List String) : Prop where
  lines : playlist.toList.splitOn '\n' = out.map String.toList ++ [[]]
  others : List.Forall₂ (fun line line' => isMapTag line = false → isUriLine line = false → line' = line)
    (Lines.ofString text) out
  map : out.filter isMapTag = ["#EXT-X-MAP:URI=\"" ++ initUrl ++ "\""]
  quoted : '"' ∉ initUrl.toList
  uris : out.filter isUriLine = segmentUrls

section Origin

variable {base s : String} {c : Char}

theorem mem_trimEnd {d : Char} {cs : List Char} (h : c ∈ Url.trimEnd d cs) : c ∈ cs := by
  rw [Url.trimEnd, List.mem_reverse] at h
  exact List.mem_reverse.1 (List.dropWhile_subset _ h)

theorem trimEnd_cons {d x : Char} {cs : List Char} (h : x ≠ d) :
    ∃ rest, Url.trimEnd d (x :: cs) = x :: rest := by
  rw [Url.trimEnd, List.reverse_cons, List.dropWhile_append]
  split
  · exact ⟨[], by simp [h]⟩
  · exact ⟨(cs.reverse.dropWhile fun c => decide (c = d)).reverse, by simp⟩

/-- What an origin is made of. -/
theorem IsOrigin.notMem (h : IsOrigin base) (hc : c.isAlphanum = false)
    (hplain : c ∉ ['-', '.', '_', ':', '[', ']', '/']) : c ∉ (trimSlashes base).toList := by
  obtain ⟨scheme, host, slashes, hbase, hscheme, hhost⟩ := h
  intro hmem
  rw [trimSlashes, String.toList_ofList] at hmem
  have hmem := mem_trimEnd hmem
  rw [hbase] at hmem
  simp only [List.mem_append, List.mem_replicate] at hmem
  rcases hmem with ((hmem | hmem) | hmem) | ⟨-, rfl⟩
  · have hletter : c.isAlphanum = true := by
      rcases hscheme with rfl | rfl
      · exact List.all_eq_true.1 (by decide : "http".toList.all Char.isAlphanum = true) c hmem
      · exact List.all_eq_true.1 (by decide : "https".toList.all Char.isAlphanum = true) c hmem
    rw [hletter] at hc
    cases hc
  · have hsep : ∀ c ∈ "://".toList, c ∈ ['-', '.', '_', ':', '[', ']', '/'] :=
      Url.forall_of_all (by decide)
    exact hplain (hsep c hmem)
  · rcases hhost c hmem with h | h
    · rw [h] at hc
      cases hc
    · have hsub : ['-', '.', '_', ':', '[', ']'] ⊆ ['-', '.', '_', ':', '[', ']', '/'] := by decide
      exact hplain (hsub h)
  · exact hplain (by simp)

/-- An origin begins with a letter, and not with a `#`. -/
theorem IsOrigin.head (h : IsOrigin base) : ∃ rest, (trimSlashes base).toList = 'h' :: rest := by
  obtain ⟨scheme, host, slashes, hbase, hscheme, -⟩ := h
  obtain ⟨cs, hcs⟩ : ∃ cs, base.toList = 'h' :: cs := by
    rcases hscheme with rfl | rfl
    · exact ⟨_, hbase⟩
    · exact ⟨_, hbase⟩
  rw [trimSlashes, String.toList_ofList, hcs]
  exact trimEnd_cons (by decide)

end Origin

section Lines

variable {hmac : MediaKey → String → List UInt8} {mediaBaseUrl trackId variant kid line : String}
  {key : MediaKey} {exp : UInt64}

theorem rewrite_toList (text : String) :
    (rewriteM3u8WithSignedUrls hmac mediaBaseUrl trackId variant kid key exp text).toList =
      Lines.unlines (((Lines.ofString text).map
        (rewriteLine hmac mediaBaseUrl trackId variant kid key exp)).map String.toList) := by
  have hfold : ∀ (ls : List String) (out : String), (ls.foldl (fun out line =>
      out ++ rewriteLine hmac mediaBaseUrl trackId variant kid key exp line ++ "\n") out).toList =
      out.toList ++ Lines.unlines ((ls.map
        (rewriteLine hmac mediaBaseUrl trackId variant kid key exp)).map String.toList) := by
    intro ls
    induction ls with
    | nil => simp [Lines.unlines]
    | cons line ls ih =>
      intro out
      rw [List.foldl_cons, ih, List.map_cons, List.map_cons, Lines.unlines_cons]
      simp
  rw [rewriteM3u8WithSignedUrls, hfold, String.toList_empty, List.nil_append]

/-- A character that none of the parts has is not in the URL. -/
theorem notMem_buildSignedMediaUrl {path : String} {c : Char} (hkid : IsUuid kid)
    (hbase : c ∉ (trimSlashes mediaBaseUrl).toList) (hpath : c ∉ path.toList)
    (hc : c.isAlphanum = false) (hplain : c ∉ ['-', '?', '=', '&']) :
    c ∉ (buildSignedMediaUrl hmac mediaBaseUrl path kid key exp).toList := by
  have hfixed : ∀ text : List Char, (∀ d ∈ text, d.isAlphanum = true ∨ d ∈ ['-', '?', '=', '&']) → c ∉ text := by
    intro text htext hmem
    rcases htext c hmem with h | h
    · rw [h] at hc
      cases hc
    · exact hplain h
  have hhex : ∀ bs, c ∉ (Hex.encode bs).toList := by
    intro bs
    refine hfixed _ fun d hd => .inl (Hex.isAlphanum_of_mem_encode hd)
  have hdigits : c ∉ exp.toNat.repr.toList := by
    rw [Nat.toList_repr]
    refine hfixed _ fun d hd => .inl ?_
    have hdigit := Nat.isDigit_of_mem_toDigits (by omega) (by omega) hd
    simp [Char.isAlphanum, hdigit]
  have hkid' : c ∉ kid.toList := by
    refine hkid.notMem hc ?_
    rintro rfl
    exact hplain List.mem_cons_self
  have hkidField : c ∉ "?kid=".toList := hfixed _ (Url.forall_of_all (by decide))
  have hexpField : c ∉ "&exp=".toList := hfixed _ (Url.forall_of_all (by decide))
  have hsigField : c ∉ "&sig=".toList := hfixed _ (Url.forall_of_all (by decide))
  rw [buildSignedMediaUrl, signedUrl]
  simp only [String.toList_append, List.mem_append, hbase, hpath, hkid', hdigits, hhex, hkidField,
    hexpField, hsigField, or_self, not_false_eq_true]

theorem head_buildSignedMediaUrl {path : String} (hbase : IsOrigin mediaBaseUrl) :
    ∃ rest, (buildSignedMediaUrl hmac mediaBaseUrl path kid key exp).toList = 'h' :: rest := by
  obtain ⟨rest, hrest⟩ := hbase.head
  rw [buildSignedMediaUrl, signedUrl]
  simp only [String.toList_append, hrest, List.cons_append]
  exact ⟨_, rfl⟩

theorem isUriLine_of_head {c : Char} {rest : List Char} (h : line.toList = c :: rest) :
    isUriLine line = decide (c ≠ '#') := by
  have hne : line ≠ "" := by
    rintro rfl
    cases h
  simp [isUriLine, hne, h]

theorem isMapTag_of_head {c : Char} {rest : List Char} (h : line.toList = c :: rest) (hc : c ≠ '#') :
    isMapTag line = false := by
  rw [isMapTag, h, Bool.eq_false_iff]
  intro hpre
  rw [List.isPrefixOf_iff_prefix] at hpre
  exact hc (List.cons_prefix_cons.1 hpre).1.symm

theorem isMapTag_of_isUriLine (h : isUriLine line = true) : isMapTag line = false := by
  simp only [isUriLine, decide_eq_true_eq] at h
  cases hline : line.toList with
  | nil => rw [isMapTag, hline]; rfl
  | cons c rest =>
    refine isMapTag_of_head hline ?_
    rintro rfl
    exact h.2 (by rw [hline]; rfl)

theorem isMapTag_of_mapTag (h : "#EXT-X-MAP:URI=".toList <+: line.toList) : isMapTag line = true := by
  have htag : "#EXT-X-MAP:".toList <+: "#EXT-X-MAP:URI=".toList := by decide
  exact List.isPrefixOf_iff_prefix.2 (htag.trans h)

/-- A map tag with its URI in quotes. -/
theorem starts_mapTag (uri rest : String) :
    "#EXT-X-MAP:URI=".toList <+: ("#EXT-X-MAP:URI=\"" ++ uri ++ rest).toList := by
  have htag : "#EXT-X-MAP:URI=".toList <+: "#EXT-X-MAP:URI=\"".toList := by decide
  simp only [String.toList_append, List.append_assoc]
  exact htag.trans (List.prefix_append _ _)

/-- A line keeps its kind. -/
theorem kind_rewriteLine (hbase : IsOrigin mediaBaseUrl) (line : String) :
    isMapTag (rewriteLine hmac mediaBaseUrl trackId variant kid key exp line) = isMapTag line ∧
      isUriLine (rewriteLine hmac mediaBaseUrl trackId variant kid key exp line) = isUriLine line := by
  unfold rewriteLine
  split
  · rename_i hmap
    obtain ⟨rest, hrest⟩ := hmap
    have hline : line.toList = '#' :: ("EXT-X-MAP:URI=".toList ++ rest) := hrest.symm
    constructor
    · rw [isMapTag_of_mapTag ⟨rest, hrest⟩]
      exact isMapTag_of_mapTag (starts_mapTag _ _)
    · rw [isUriLine_of_head hline]
      simp only [isUriLine, String.toList_append, List.append_assoc]
      simp
  split
  · rename_i huri
    obtain ⟨rest, hrest⟩ : ∃ rest, (buildSignedMediaUrl hmac mediaBaseUrl
        (hlsPath trackId variant line) kid key exp).toList = 'h' :: rest :=
      head_buildSignedMediaUrl hbase
    rw [isMapTag_of_head hrest (by decide), isUriLine_of_head hrest, huri]
    exact ⟨(isMapTag_of_isUriLine huri).symm, rfl⟩
  · exact ⟨rfl, rfl⟩

theorem rewriteLine_of_isUriLine (h : isUriLine line = true) :
    rewriteLine hmac mediaBaseUrl trackId variant kid key exp line =
      buildSignedMediaUrl hmac mediaBaseUrl (hlsPath trackId variant line) kid key exp := by
  have hmap : ¬ "#EXT-X-MAP:URI=".toList <+: line.toList := by
    rintro ⟨rest, hrest⟩
    have hline : line.toList = '#' :: ("EXT-X-MAP:URI=".toList ++ rest) := hrest.symm
    rw [isUriLine_of_head hline] at h
    cases h
  rw [rewriteLine, if_neg hmap, if_pos h]

theorem rewriteLine_of_other (hmap : isMapTag line = false) (huri : isUriLine line = false) :
    rewriteLine hmac mediaBaseUrl trackId variant kid key exp line = line := by
  have hpre : ¬ "#EXT-X-MAP:URI=".toList <+: line.toList := by
    rintro ⟨rest, hrest⟩
    rw [isMapTag, ← hrest] at hmap
    cases hmap
  rw [rewriteLine, if_neg hpre, if_neg (by rw [huri]; exact Bool.false_ne_true)]

/-- A line stays one line. -/
theorem newline_notMem_rewriteLine (hbase : IsOrigin mediaBaseUrl) (ht : UrlName trackId)
    (hv : UrlName variant) (hkid : IsUuid kid) (hline : '\n' ∉ line.toList) :
    '\n' ∉ (rewriteLine hmac mediaBaseUrl trackId variant kid key exp line).toList := by
  have hurl : ∀ name : String, '\n' ∉ name.toList →
      '\n' ∉ (buildSignedMediaUrl hmac mediaBaseUrl (hlsPath trackId variant name) kid key exp).toList :=
    fun name hname => notMem_buildSignedMediaUrl hkid (hbase.notMem (by decide) (by decide))
      (notMem_hlsPath ht hv hname (by decide) (by decide)) (by decide) (by decide)
  unfold rewriteLine
  split
  · rw [String.toList_append, String.toList_append, List.mem_append, List.mem_append]
    rintro ((hmem | hmem) | hmem)
    · exact absurd hmem (by decide)
    · exact hurl "init.mp4" (by decide) hmem
    · exact absurd hmem (by decide)
  split
  · exact hurl line hline
  · exact hline

end Lines

/-! ## The segments of the playlist -/

theorem maps_playlistSegments {chunks : List SegmentChunk} (h : chunks ≠ []) :
    (playlistSegments chunks).filterMap PlaylistSegment.map = ["init.mp4"] := by
  cases chunks with
  | nil => exact absurd rfl h
  | cons chunk chunks =>
    have hrest : (chunks.mapIdx fun index chunk => ({
        map := if index + 1 = 0 then some "init.mp4" else none
        duration := chunk.duration
        uri := segName (index + 1) } : PlaylistSegment)).filterMap PlaylistSegment.map = [] := by
      rw [List.filterMap_eq_nil_iff]
      intro segment hsegment
      obtain ⟨index, hindex, rfl⟩ := List.mem_mapIdx.1 hsegment
      rfl
    rw [playlistSegments, List.mapIdx_cons, List.filterMap_cons]
    exact congrArg (List.cons "init.mp4") hrest

theorem uris_playlistSegments (chunks : List SegmentChunk) :
    (playlistSegments chunks).map PlaylistSegment.uri = (List.range chunks.length).map segName := by
  refine List.ext_getElem (by simp [playlistSegments]) ?_
  intro i hi hi'
  simp [playlistSegments]

theorem signedPlaylist {hmac : MediaKey → String → List UInt8}
    {mediaBaseUrl trackId variant kid text : String} {key : MediaKey} {exp : UInt64}
    {chunks : List SegmentChunk} (hbase : IsOrigin mediaBaseUrl) (ht : UrlName trackId)
    (hv : UrlName variant) (hkid : IsUuid kid) (hne : chunks ≠ [])
    (hprints : PrintsPlaylist (playlistSegments chunks) text) :
    SignedPlaylist text (rewriteM3u8WithSignedUrls hmac mediaBaseUrl trackId variant kid key exp text)
      ((Lines.ofString text).map (rewriteLine hmac mediaBaseUrl trackId variant kid key exp))
      (buildSignedMediaUrl hmac mediaBaseUrl (hlsPath trackId variant "init.mp4") kid key exp)
      ((List.range chunks.length).map fun i =>
        buildSignedMediaUrl hmac mediaBaseUrl (hlsPath trackId variant (segName i)) kid key exp) := by
  have hmapTag : isMapTag ∘ rewriteLine hmac mediaBaseUrl trackId variant kid key exp = isMapTag :=
    funext fun line => (kind_rewriteLine hbase line).1
  have huriLine : isUriLine ∘ rewriteLine hmac mediaBaseUrl trackId variant kid key exp = isUriLine :=
    funext fun line => (kind_rewriteLine hbase line).2
  refine ⟨?_, ?_, ?_, ?_, ?_⟩
  · rw [rewrite_toList]
    refine Lines.splitOn_unlines ?_
    intro l hl
    simp only [List.mem_map, Lines.ofString] at hl
    obtain ⟨_, ⟨_, ⟨line, hline, rfl⟩, rfl⟩, rfl⟩ := hl
    refine newline_notMem_rewriteLine hbase ht hv hkid ?_
    rw [String.toList_ofList]
    exact Lines.not_mem_of_mem_lines hline
  · rw [List.forall₂_map_right_iff, List.forall₂_same]
    exact fun line _ hmap huri => rewriteLine_of_other hmap huri
  · have hmaps := hprints.maps
    rw [maps_playlistSegments hne] at hmaps
    obtain ⟨line, hfilter, rest, rfl⟩ : ∃ line, (Lines.ofString text).filter isMapTag = [line] ∧
        ∃ rest, line = "#EXT-X-MAP:URI=\"" ++ "init.mp4" ++ "\"" ++ rest := by
      cases hlines : (Lines.ofString text).filter isMapTag with
      | nil =>
        rw [hlines] at hmaps
        cases hmaps
      | cons line lines =>
        rw [hlines] at hmaps
        cases hmaps with
        | cons hline hlines =>
          cases hlines
          exact ⟨line, rfl, hline⟩
    have hpre : "#EXT-X-MAP:URI=".toList <+:
        ("#EXT-X-MAP:URI=\"" ++ "init.mp4" ++ "\"" ++ rest).toList := by
      rw [String.append_assoc]
      exact starts_mapTag _ _
    rw [List.filter_map, hmapTag, hfilter, List.map_singleton, rewriteLine, if_pos hpre]
  · exact notMem_buildSignedMediaUrl hkid (hbase.notMem (by decide) (by decide))
      (notMem_hlsPath ht hv (by decide) (by decide) (by decide)) (by decide) (by decide)
  · have huris := hprints.uris
    rw [uris_playlistSegments] at huris
    have hrewrite : ∀ line ∈ (Lines.ofString text).filter isUriLine,
        rewriteLine hmac mediaBaseUrl trackId variant kid key exp line =
          buildSignedMediaUrl hmac mediaBaseUrl (hlsPath trackId variant line) kid key exp :=
      fun line hline => rewriteLine_of_isUriLine (List.mem_filter.1 hline).2
    rw [List.filter_map, huriLine, List.map_congr_left hrewrite, huris, List.map_map]
    rfl

/-! ## Where the URLs lead -/

/-- Until it expires, and as long as the key is stored, the request for the URL is accepted, goes to
the handler of the resource with the track and the variant, and is answered with the content. -/
def Playable (server : HlsServer) (hmac : MediaKey → String → List UInt8) (kid : String)
    (key : MediaKey) (exp : UInt64) (trackId variant : String) (resource : HlsResource)
    (content : List UInt8) (url : String) : Prop :=
  ∀ store now, store.get kid = some key → now ≤ exp → ∃ request,
    MediaRequest.ofUrl (trimSlashes server.mediaBaseUrl) url = some request ∧
    (∀ segment ∈ segments request.path, segment ≠ "." ∧ segment ≠ "..") ∧
    verifyMediaAuth hmac store now request.path request.authQuery = .ok () ∧
    hlsResource request.path = some (trackId, variant, resource) ∧
    server.serve hmac store now trackId variant request resource = .ok content

section Serve

variable {server : HlsServer} {hmac : MediaKey → String → List UInt8} {store : MediaKeyStore}
  {now exp : UInt64} {trackId variant kid name path : String} {key : MediaKey} {segs : HlsSegments}
  {authQuery : MediaAuthQuery} {content : List UInt8} {resource : HlsResource}

theorem resolveHlsSegments_ok (hknown : server.isKnownTrackId trackId = true)
    (hopen : HlsSegments.openDir (server.variantDir trackId variant) = .ok segs) :
    server.resolveHlsSegments trackId variant = .ok segs := by
  rw [HlsServer.resolveHlsSegments, if_neg (by simp [hknown]), hopen]

theorem readFile_ok {root : HlsDir} (h : root.read name = some content) :
    HlsServer.readFile root name = .ok content := by
  rw [HlsServer.readFile, h]

theorem hlsInitHandler_ok
    (hverify : verifyMediaAuth hmac store now path authQuery = .ok ())
    (hresolve : server.resolveHlsSegments trackId variant = .ok segs)
    (hread : segs.root.read "init.mp4" = some content) :
    server.hlsInitHandler hmac store now trackId variant path authQuery = .ok content := by
  rw [HlsServer.hlsInitHandler, hverify]
  show server.hlsServeInit trackId variant = _
  rw [HlsServer.hlsServeInit, hresolve]
  exact readFile_ok hread

theorem hlsSegmentHandler_ok {index : Nat} (hindex : index < 2 ^ 64)
    (hverify : verifyMediaAuth hmac store now path authQuery = .ok ())
    (hresolve : server.resolveHlsSegments trackId variant = .ok segs)
    (hpath : segs.segmentPath index = some (segName index))
    (hread : segs.root.read (segName index) = some content) :
    server.hlsSegmentHandler hmac store now trackId variant (segName index) path authQuery =
      .ok content := by
  rw [HlsServer.hlsSegmentHandler, hverify, if_neg (segName_ne (by decide) index),
    segmentIndex_segName hindex, hresolve]
  simp only [hpath, bind, Except.bind]
  exact readFile_ok hread

theorem hlsPlaylistHandler_ok {text : String}
    (hverify : verifyMediaAuth hmac store now path authQuery = .ok ())
    (hresolve : server.resolveHlsSegments trackId variant = .ok segs)
    (hread : segs.root.read "index.m3u8" = some (Percent.bytes text))
    (hkey : store.get authQuery.kid = some key) :
    server.hlsPlaylistHandler hmac store now trackId variant path authQuery =
      .ok (rewriteM3u8WithSignedUrls hmac server.mediaBaseUrl trackId variant authQuery.kid key
        authQuery.exp text) := by
  have htext : (segs.root.read "index.m3u8").bind Percent.ofBytes = some text := by
    rw [hread, Option.bind_some]
    exact Percent.ofBytes_eq_some_iff.2 rfl
  rw [HlsServer.hlsPlaylistHandler, hverify, hresolve]
  simp only [htext, hkey, Option.getD_some, bind, Except.bind]

/-- A URL that is signed for a plain name leads to the resource of that name. -/
theorem playable (ht : UrlName trackId) (hv : UrlName variant) (hn : UrlName name)
    (hresource : hlsResource (hlsPath trackId variant name) = some (trackId, variant, resource))
    (hserve : ∀ store now authQuery,
      verifyMediaAuth hmac store now (hlsPath trackId variant name) authQuery = .ok () →
      server.serve hmac store now trackId variant ⟨hlsPath trackId variant name, authQuery⟩ resource =
        .ok content) :
    Playable server hmac kid key exp trackId variant resource content
      (buildSignedMediaUrl hmac server.mediaBaseUrl (hlsPath trackId variant name) kid key exp) := by
  intro store now hkey hexp
  have hquery : '?' ∉ (hlsPath trackId variant name).toList :=
    notMem_hlsPath ht hv (hn.notMem (by decide)) (by decide) (by decide)
  obtain ⟨authQuery, hurl, -, -, hverify⟩ : ∃ authQuery,
      MediaRequest.ofUrl (trimSlashes server.mediaBaseUrl)
          (buildSignedMediaUrl hmac server.mediaBaseUrl (hlsPath trackId variant name) kid key exp) =
        some ⟨hlsPath trackId variant name, authQuery⟩ ∧ authQuery.kid = kid ∧ authQuery.exp = exp ∧
      verifyMediaAuth hmac store now (hlsPath trackId variant name) authQuery = .ok () :=
    verify_signedUrl hkey hquery hexp
  refine ⟨_, hurl, ?_, hverify, hresource, hserve store now authQuery hverify⟩
  intro segment hsegment
  dsimp only at hsegment
  rw [segments_hlsPath ht hv hn] at hsegment
  simp only [List.mem_cons, List.not_mem_nil, or_false] at hsegment
  rcases hsegment with rfl | rfl | rfl | rfl | rfl | rfl
  · decide
  · decide
  · decide
  · exact ⟨ht.ne_dot, ht.ne_dots⟩
  · exact ⟨hv.ne_dot, hv.ne_dots⟩
  · exact ⟨hn.ne_dot, hn.ne_dots⟩

end Serve

/-- The index of a variant that was written is answered with a playlist of which the other lines are as
they were printed, and whose URLs all lead to the files of the variant: that of the map to the
initialization, the `i`-th one to the `i`-th chunk. -/
theorem playlist_chain {ε μ : Type} (hmac : MediaKey → String → List UInt8) (muxer : Muxer ε μ)
    (printer : PlaylistPrinter) (track : RemuxedTrack ε) (target : Nat) (before dir : HlsDir)
    (hsamples : track.samples ≠ [])
    (hwrite : writeHlsOutput muxer printer track before target = .ok dir)
    (hprints : ∀ text,
      printer track.timescale (playlistSegments (splitIntoSegments track target)) = .ok text →
      PrintsPlaylist (playlistSegments (splitIntoSegments track target)) text)
    (server : HlsServer) (hbase : IsOrigin server.mediaBaseUrl) (trackId variant : String)
    (ht : UrlName trackId) (hv : UrlName variant) (hknown : server.isKnownTrackId trackId = true)
    (hdir : server.variantDir trackId variant = dir) (store : MediaKeyStore) (now : UInt64)
    (authQuery : MediaAuthQuery)
    (hverify :
      verifyMediaAuth hmac store now (hlsPath trackId variant "index.m3u8") authQuery = .ok ()) :
    hlsResource (hlsPath trackId variant "index.m3u8") = some (trackId, variant, .playlist) ∧
    ∃ segs text key playlist out initUrl segmentUrl init,
      HlsSegments.openDir dir = .ok segs ∧ segs.root = dir ∧
      dir.read "index.m3u8" = some (Percent.bytes text) ∧ store.get authQuery.kid = some key ∧
      server.hlsPlaylistHandler hmac store now trackId variant
        (hlsPath trackId variant "index.m3u8") authQuery = .ok playlist ∧
      SignedPlaylist text playlist out initUrl
        ((List.range (splitIntoSegments track target).length).map segmentUrl) ∧
      dir.read "init.mp4" = some init ∧
      Playable server hmac authQuery.kid key authQuery.exp trackId variant .init init initUrl ∧
      ∀ i chunk, (splitIntoSegments track target)[i]? = some chunk →
        segs.segmentPath i = some (segName i) ∧
        ∃ chunkSamples segmentMeta data,
          HoldsChunk muxer track chunk chunkSamples segmentMeta data ∧
          dir.read (segName i) = some (segmentMeta ++ data) ∧
          Playable server hmac authQuery.kid key authQuery.exp trackId variant
            (.segment (segName i)) (segmentMeta ++ data) (segmentUrl i) := by
  have hwritten := hlsWritten_of_ok hwrite
  have hne : splitIntoSegments track target ≠ [] := splitIntoSegments_ne_nil hsamples
  obtain ⟨text, htext, hindex⟩ := hwritten.playlist
  obtain ⟨-, init, -, hinit⟩ := hwritten.init
  obtain ⟨segs, hopen, hroot, hpaths⟩ := hwritten.opens hne
  obtain ⟨-, key, hkey, -⟩ := verifyMediaAuth_ok_iff.1 hverify
  have hkid : IsUuid authQuery.kid := MediaKeyStore.isUuid_of_get hkey
  have hresolve : server.resolveHlsSegments trackId variant = .ok segs :=
    resolveHlsSegments_ok hknown (by rw [hdir, hopen])
  subst hroot
  refine ⟨hlsResource_hlsPath ht hv urlName_index, segs, text, key, _, _, _, _, init, hopen, rfl, hindex,
    hkey, hlsPlaylistHandler_ok hverify hresolve hindex hkey,
    signedPlaylist hbase ht hv hkid hne (hprints text htext), hinit, ?_, ?_⟩
  · exact playable ht hv urlName_init (hlsResource_hlsPath ht hv urlName_init)
      fun store now authQuery hverify => hlsInitHandler_ok hverify hresolve hinit
  · intro i chunk hi
    obtain ⟨hlt, -⟩ := List.getElem?_eq_some_iff.1 hi
    have hlt' : i < 2 ^ 64 := Nat.lt_trans hlt (length_splitIntoSegments track target)
    obtain ⟨chunkSamples, segmentMeta, data, hholds, hread⟩ := hwritten.chunk i chunk hi
    have hresource : hlsResource (hlsPath trackId variant (segName i)) =
        some (trackId, variant, .segment (segName i)) := by
      rw [hlsResource_hlsPath ht hv (urlName_segName i), if_neg (segName_ne (by decide) i),
        if_neg (segName_ne (by decide) i)]
    refine ⟨hpaths i hlt, chunkSamples, segmentMeta, data, hholds, hread, ?_⟩
    exact playable ht hv (urlName_segName i) hresource fun store now authQuery hverify =>
      hlsSegmentHandler_ok hlt' hverify hresolve (hpaths i hlt) hread

/-! Two samples of six seconds, a byte each. -/

def sampleTrack : RemuxedTrack Unit where
  timescale := 1
  bytes := [10, 20]
  sampleEntry := some ⟨0, ()⟩
  samples := [⟨0, 1, 6, none, true, none⟩, ⟨1, 2, 6, none, true, none⟩]
  samples_lt := by decide

def sampleMuxer : Muxer Unit Unit where
  new := .ok ()
  createMediaSegmentMetadata := fun _ _ => .ok ([1], ())
  initSegmentBytes := fun _ => .ok [2]

def printSegment (segment : PlaylistSegment) : String :=
  (segment.map.elim "" fun uri => "#EXT-X-MAP:URI=\"" ++ uri ++ "\"\n") ++ "#EXTINF:6,\n" ++
    segment.uri ++ "\n"

/-- For segments of six seconds. -/
def samplePrinter : PlaylistPrinter := fun _ segments =>
  .ok ("#EXTM3U\n#EXT-X-TARGETDURATION:6\n" ++ String.join (segments.map printSegment) ++
    "#EXT-X-ENDLIST\n")

def sampleDir : HlsDir :=
  match writeHlsOutput sampleMuxer samplePrinter sampleTrack [] 6 with
  | .ok dir => dir
  | .error _ => []

def sampleServer : HlsServer where
  mediaBaseUrl := "http://host:8080/"
  isKnownTrackId := fun trackId => trackId = "t-1"
  variantDir := fun _ _ => sampleDir
  generate := fun _ _ => .error .notFound

def sampleQuery : MediaAuthQuery where
  kid := "k-1"
  exp := 900
  sig := Hex.encode
    (computeMediaSignature plainMac sampleKey (hlsPath "t-1" "lossless" "index.m3u8") 900)

example : splitIntoSegments sampleTrack 6 = [⟨0, 1, 6⟩, ⟨1, 2, 6⟩] := by decide

theorem prints_sample (text : String)
    (htext : samplePrinter 1 (playlistSegments (splitIntoSegments sampleTrack 6)) = .ok text) :
    PrintsPlaylist (playlistSegments (splitIntoSegments sampleTrack 6)) text := by
  cases htext
  have hlines : Lines.ofString ("#EXTM3U\n#EXT-X-TARGETDURATION:6\n" ++ String.join
      ((playlistSegments (splitIntoSegments sampleTrack 6)).map printSegment) ++ "#EXT-X-ENDLIST\n") =
      ["#EXTM3U", "#EXT-X-TARGETDURATION:6", "#EXT-X-MAP:URI=\"init.mp4\"", "#EXTINF:6,", segName 0,
        "#EXTINF:6,", segName 1, "#EXT-X-ENDLIST"] := by
    decide +kernel
  constructor
  · rw [hlines]
    exact .cons ⟨"", rfl⟩ .nil
  · rw [hlines]
    decide

/-- The second URL of the playlist is answered with the second chunk. -/
theorem playlist_chain_sample :
    let store := MediaKeyStore.new.generate "k-1" isUuid_sample sampleKey 0
    ∃ text playlist out initUrl segmentUrl,
      sampleServer.hlsPlaylistHandler plainMac store 899 "t-1" "lossless"
        (hlsPath "t-1" "lossless" "index.m3u8") sampleQuery = .ok playlist ∧
      SignedPlaylist text playlist out initUrl ((List.range 2).map segmentUrl) ∧
      Playable sampleServer plainMac "k-1" sampleKey 900 "t-1" "lossless" (.segment (segName 1))
        [1, 20] (segmentUrl 1) := by
  intro store
  have ht : UrlName "t-1" := urlName_of_all (by decide) (by decide) (by decide) (by decide)
  have hv : UrlName "lossless" := urlName_of_all (by decide) (by decide) (by decide) (by decide)
  have hbase : IsOrigin sampleServer.mediaBaseUrl :=
    ⟨"http".toList, "host:8080".toList, 1, by decide, .inl rfl, Url.forall_of_all (by decide)⟩
  have hverify : verifyMediaAuth plainMac store 899 (hlsPath "t-1" "lossless" "index.m3u8")
      sampleQuery = .ok () :=
    verifyMediaAuth_ok_iff.2 ⟨by decide, sampleKey, rfl, Hex.decode_encode _⟩
  obtain ⟨-, segs, text, key, playlist, out, initUrl, segmentUrl, init, -, -, -, hkey, hplaylist,
    hsigned, -, -, hchunks⟩ := playlist_chain plainMac sampleMuxer samplePrinter sampleTrack 6 []
      sampleDir (by decide) rfl prints_sample sampleServer hbase "t-1" "lossless" ht hv rfl rfl store
      899 sampleQuery hverify
  obtain rfl : sampleKey = key := Option.some.inj hkey
  obtain ⟨-, -, segmentMeta, data, -, hread, hplay⟩ := hchunks 1 ⟨1, 2, 6⟩ rfl
  have hcontent : sampleDir.read (segName 1) = some [1, 20] := by decide +kernel
  rw [Option.some.inj (hread.symm.trans hcontent)] at hplay
  exact ⟨text, playlist, out, initUrl, segmentUrl, hplaylist, hsigned, hplay⟩

end Kanade

import Kanade.Stream.ByLine
import Kanade.Text.Quoted
import Kanade.Ws.MediaAuth

/-!
# Kanade.Mpd.Renderer

The command lists that `MpdRenderer` sends for a queue, and what MPD reads them as.

* `quoteMpdArg_eq`: an argument is quoted, so that it is read as it was.
* `readCommands_iff`: a list is read as it is meant exactly if no argument has a newline.
* `command_lists_iff`: when that is so, for `set_queue` and `add`.
-/

namespace Kanade

namespace Mpd

/-! ## The text -/

/-- `replace`, of a character. -/
def replaceChar (c : Char) (text : List Char) (value : List Char) : List Char :=
  value.flatMap fun d => if d = c then text else [d]

def quoteMpdArg (value : String) : String :=
  "\"" ++ String.ofList (replaceChar '"' ['\\', '"'] (replaceChar '\\' ['\\', '\\'] value.toList)) ++ "\""

section Send

variable (hmac : MediaKey → String → List UInt8) (sha256 : String → List UInt8) (renderer : MpdRenderer)

/-- The loop over the paths, each with the time at which it is come to. -/
def pushAdds (cmd : String) (filePaths : List (String × UInt64)) : String :=
  filePaths.foldl (fun cmd path =>
    cmd ++ ("add " ++ quoteMpdArg (renderer.mediaUriAt hmac sha256 path.1 path.2) ++ "\n")) cmd

def setQueueText (filePaths : List (String × UInt64)) : String :=
  pushAdds hmac sha256 renderer "command_list_begin\nclear\n" filePaths ++ "command_list_end\n"

def addText (filePaths : List (String × UInt64)) : String :=
  pushAdds hmac sha256 renderer "command_list_begin\n" filePaths ++ "command_list_end\n"

end Send

/-! ## What MPD reads -/

/-- A line ends with a newline; what is behind the last newline is no command. -/
def readCommand (line : List Char) : Option (List (List Char)) :=
  if line.getLast? = some '\n' then Quoted.words line.dropLast else none

/-- The commands of a text, each with its arguments unquoted. -/
def readCommands (text : String) : List (Option (List (List Char))) :=
  (ByLine.lines '\n' text.toList).map readCommand

/-- What an `add` should be read as. -/
def addCommand (uri : String) : List (List Char) := ["add".toList, uri.toList]

/-- The commands before the first `add`, the `add`s in their order, and the end of the list. -/
def ReadAs (text : String) (head : List String) (uris : List String) : Prop :=
  readCommands text =
    (head.map (fun word => [word.toList]) ++ uris.map addCommand ++ [["command_list_end".toList]]).map some

/-- No newline in what the URI of a path is made of. -/
def NoNewline (renderer : MpdRenderer) (path : String) : Prop :=
  if isHttpUrl path then '\n' ∉ path.toList
  else '\n' ∉ renderer.mediaPublicBaseUrl.toList ∧ ∀ auth ∈ renderer.mediaAuth, '\n' ∉ auth.1.toList

section Quote

theorem quoteMpdArg_eq (value : String) : (quoteMpdArg value).toList = Quoted.quote value.toList := by
  have hescape : ∀ cs, replaceChar '"' ['\\', '"'] (replaceChar '\\' ['\\', '\\'] cs) = Quoted.escape cs := by
    intro cs
    unfold replaceChar Quoted.escape
    rw [List.flatMap_assoc]
    congr 1
    funext c
    by_cases hslash : c = '\\'
    · rw [hslash]
      decide
    · by_cases hquote : c = '"'
      · rw [hquote]
        decide
      · rw [if_neg hslash, if_neg (not_or.2 ⟨hslash, hquote⟩), List.flatMap_singleton, if_neg hquote]
  rw [quoteMpdArg, hescape, String.toList_append, String.toList_append]
  exact congrArg (fun cs => '"' :: (cs ++ ['"'])) String.toList_ofList


end Quote

section Lines

variable {hmac : MediaKey → String → List UInt8} {sha256 : String → List UInt8} {renderer : MpdRenderer}

theorem newline_mem_mediaUriAt (path : String) (now : UInt64) :
    '\n' ∈ (renderer.mediaUriAt hmac sha256 path now).toList ↔ ¬ NoNewline renderer path := by
  have hhex : ∀ bytes, '\n' ∉ (Hex.encode bytes).toList := by
    intro bytes hmem
    exact absurd (Hex.isAlphanum_of_mem_encode hmem) (by decide)
  have hpath : '\n' ∉ (MpdRenderer.trackPath sha256 path).toList := by
    rw [MpdRenderer.trackPath, String.toList_append, List.mem_append]
    exact not_or.2 ⟨by decide, hhex _⟩
  have hexp : ∀ n : Nat, '\n' ∉ n.repr.toList := by
    intro n
    rw [digits_repr]
    exact notMem_digits rfl n
  unfold MpdRenderer.mediaUriAt NoNewline
  by_cases hhttp : isHttpUrl path = true
  · rw [if_pos hhttp, if_pos hhttp, not_not]
  · rw [if_neg hhttp, if_neg hhttp]
    have hbase : ∀ uri : List Char, '\n' ∉ uri →
        ('\n' ∈ renderer.mediaPublicBaseUrl.toList ++ uri ↔ ¬ '\n' ∉ renderer.mediaPublicBaseUrl.toList) := by
      intro uri huri
      rw [List.mem_append, or_iff_left huri, not_not]
    cases hauth : renderer.mediaAuth with
    | none =>
      dsimp only
      rw [String.toList_append, hbase _ hpath]
      simp
    | some auth =>
      have hkid : '\n' ∉ "?kid=".toList := by decide
      have hexpName : '\n' ∉ "&exp=".toList := by decide
      have hsig : '\n' ∉ "&sig=".toList := by decide
      simp only [signedUrl, String.toList_append, List.mem_append, hpath, hexp, hhex, hkid, hexpName, hsig, or_false,
        Option.mem_some_iff, forall_eq']
      rw [not_and_or, not_not, not_not]

/-- The URIs of the paths. -/
def mediaUris (hmac : MediaKey → String → List UInt8) (sha256 : String → List UInt8) (renderer : MpdRenderer)
    (filePaths : List (String × UInt64)) : List String :=
  filePaths.map fun path => renderer.mediaUriAt hmac sha256 path.1 path.2

def addLine (uri : String) : List Char := "add".toList ++ ' ' :: Quoted.quote uri.toList

/-- The lines of a command list. -/
def commandLines (head uris : List String) : List (List Char) :=
  head.map String.toList ++ uris.map addLine ++ ["command_list_end".toList]

theorem toList_pushAdds (cmd : String) (filePaths : List (String × UInt64)) :
    (pushAdds hmac sha256 renderer cmd filePaths).toList =
      cmd.toList ++ ((mediaUris hmac sha256 renderer filePaths).map addLine).flatMap fun line => line ++ ['\n'] := by
  induction filePaths generalizing cmd with
  | nil => exact (List.append_nil _).symm
  | cons path filePaths ih =>
    have hrest := ih (cmd ++ ("add " ++ quoteMpdArg (renderer.mediaUriAt hmac sha256 path.1 path.2) ++ "\n"))
    have hline : ("add " ++ quoteMpdArg (renderer.mediaUriAt hmac sha256 path.1 path.2) ++ "\n").toList =
        addLine (renderer.mediaUriAt hmac sha256 path.1 path.2) ++ ['\n'] := by
      have hadd : "add ".toList = "add".toList ++ [' '] := by decide
      have hnewline : "\n".toList = ['\n'] := by decide
      rw [String.toList_append, String.toList_append, quoteMpdArg_eq, hadd, hnewline, addLine, List.append_assoc]
      rfl
    rw [String.toList_append, hline, List.append_assoc] at hrest
    exact hrest

theorem toList_setQueueText (filePaths : List (String × UInt64)) :
    (setQueueText hmac sha256 renderer filePaths).toList =
      (commandLines ["command_list_begin", "clear"] (mediaUris hmac sha256 renderer filePaths)).flatMap
        fun line => line ++ ['\n'] := by
  have hhead : "command_list_begin\nclear\n".toList =
      (["command_list_begin", "clear"].map String.toList).flatMap fun line => line ++ ['\n'] := by
    decide
  rw [setQueueText, String.toList_append, toList_pushAdds, hhead, commandLines, List.flatMap_append,
    List.flatMap_append, List.flatMap_singleton]
  exact congrArg _ (by decide)

theorem toList_addText (filePaths : List (String × UInt64)) :
    (addText hmac sha256 renderer filePaths).toList =
      (commandLines ["command_list_begin"] (mediaUris hmac sha256 renderer filePaths)).flatMap
        fun line => line ++ ['\n'] := by
  have hhead : "command_list_begin\n".toList =
      (["command_list_begin"].map String.toList).flatMap fun line => line ++ ['\n'] := by
    decide
  rw [addText, String.toList_append, toList_pushAdds, hhead, commandLines, List.flatMap_append,
    List.flatMap_append, List.flatMap_singleton]
  exact congrArg _ (by decide)

theorem readCommand_line (line : List Char) : readCommand (line ++ ['\n']) = Quoted.words line := by
  rw [readCommand, List.getLast?_concat, if_pos rfl, List.dropLast_concat]

theorem newline_mem_addLine {uri : String} : '\n' ∈ addLine uri ↔ '\n' ∈ uri.toList := by
  rw [addLine, Quoted.quote, List.mem_append, List.mem_cons, List.mem_cons, List.mem_append,
    Quoted.mem_escape_iff (by decide)]
  simp

theorem readCommands_iff {text : String} {head uris : List String}
    (htext : text.toList = (commandLines head uris).flatMap fun line => line ++ ['\n'])
    (hhead : ∀ word ∈ head, Quoted.words word.toList = some [word.toList] ∧ '\n' ∉ word.toList) :
    ReadAs text head uris ↔ ∀ uri ∈ uris, '\n' ∉ uri.toList := by
  have hlines : (∀ line ∈ commandLines head uris, '\n' ∉ line) ↔ ∀ uri ∈ uris, '\n' ∉ uri.toList := by
    constructor
    · intro h uri huri hmem
      refine h (addLine uri) ?_ (newline_mem_addLine.2 hmem)
      exact List.mem_append_left _ (List.mem_append_right _ (List.mem_map_of_mem huri))
    · intro h line hline
      rcases List.mem_append.1 hline with hline | hline
      · rcases List.mem_append.1 hline with hline | hline
        · obtain ⟨word, hword, rfl⟩ := List.mem_map.1 hline
          exact (hhead word hword).2
        · obtain ⟨uri, huri, rfl⟩ := List.mem_map.1 hline
          exact mt newline_mem_addLine.1 (h uri huri)
      · rw [List.mem_singleton.1 hline]
        decide
  unfold ReadAs readCommands
  rw [htext]
  constructor
  · intro hread
    have hlength := congrArg List.length hread
    rw [← hlines, ← ByLine.length_lines_iff]
    simp only [List.length_map, List.length_append, List.length_singleton] at hlength
    rw [hlength, commandLines, List.length_append, List.length_append, List.length_map, List.length_map]
    rfl
  · intro huris
    have hread : ∀ line, (readCommand ∘ fun line => line ++ ['\n']) line = Quoted.words line := readCommand_line
    have hwords : ∀ word ∈ head, Quoted.words word.toList = some [word.toList] := fun word hword =>
      (hhead word hword).1
    have hadd : ∀ uri, Quoted.words (addLine uri) = some (addCommand uri) := fun uri =>
      @Quoted.words_plain_quote ['d', 'd'] 'a' (by simp [Quoted.Plain, Quoted.isBlank]) uri.toList
    have hend : Quoted.words "command_list_end".toList = some ["command_list_end".toList] :=
      @Quoted.words_plain "ommand_list_end".toList 'c' (by simp [Quoted.Plain, Quoted.isBlank])
    rw [ByLine.lines_flatMap (hlines.2 huris), List.map_map, List.map_congr_left fun line _ => hread line,
      commandLines, List.map_append, List.map_append, List.map_append, List.map_append, List.map_map, List.map_map,
      List.map_map, List.map_map]
    exact congrArg₂ (· ++ ·) (congrArg₂ (· ++ ·) (List.map_congr_left hwords)
      (List.map_congr_left fun uri _ => hadd uri)) (congrArg (fun command => [command]) hend)

end Lines

/-- Both command lists are read as the commands they are meant to be, with the URIs of the paths, exactly if no URI
of theirs is made with a newline. -/
theorem command_lists_iff (hmac : MediaKey → String → List UInt8) (sha256 : String → List UInt8)
    (renderer : MpdRenderer) (filePaths : List (String × UInt64)) :
    (ReadAs (setQueueText hmac sha256 renderer filePaths) ["command_list_begin", "clear"]
        (filePaths.map fun path => renderer.mediaUriAt hmac sha256 path.1 path.2) ↔
      ∀ path ∈ filePaths, NoNewline renderer path.1) ∧
    (ReadAs (addText hmac sha256 renderer filePaths) ["command_list_begin"]
        (filePaths.map fun path => renderer.mediaUriAt hmac sha256 path.1 path.2) ↔
      ∀ path ∈ filePaths, NoNewline renderer path.1) := by
  have huris : (∀ uri ∈ mediaUris hmac sha256 renderer filePaths, '\n' ∉ uri.toList) ↔
      ∀ path ∈ filePaths, NoNewline renderer path.1 := by
    rw [mediaUris, List.forall_mem_map]
    apply forall₂_congr
    intro path _
    rw [newline_mem_mediaUriAt, not_not]
  constructor
  · exact (readCommands_iff (toList_setQueueText filePaths) (by decide)).trans huris
  · exact (readCommands_iff (toList_addText filePaths) (by decide)).trans huris

/-- The path of a track that a client made up. -/
theorem path_breaks_command_list :
    ¬ ReadAs (setQueueText (fun _ _ => []) (fun _ => []) ⟨"https://example.com", none⟩
      [("http://a\nstop", 1700000000)]) ["command_list_begin", "clear"] ["http://a\nstop"] := by
  have huris : mediaUris (fun _ _ => []) (fun _ => []) ⟨"https://example.com", none⟩
      [("http://a\nstop", 1700000000)] = ["http://a\nstop"] := by
    decide
  have htext := @toList_setQueueText (fun _ _ => []) (fun _ => []) ⟨"https://example.com", none⟩
    [("http://a\nstop", 1700000000)]
  rw [huris] at htext
  intro hread
  exact absurd ((readCommands_iff htext (by decide)).1 hread _ (List.mem_singleton_self _)) (by decide)

end Mpd

end Kanade

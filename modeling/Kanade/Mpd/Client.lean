import Kanade.Core.State
import Kanade.Stream.ByLine
import Kanade.Text.Terminated
import Kanade.Ws.Range

/-!
# Kanade.Mpd.Client

What `MpdClient::send` and `MpdStateSync::poll_status` read of MPD until the end of the stream.

* `outcome_iff`: which result the loop comes to, by the lines of the stream.
* `returned_iff`: when that is the right one.
* `readers_end_iff`: for both loops, from any point of a stream.
-/

namespace Kanade

namespace Mpd

def newline : UInt8 := 10

/-- `trim_end`. -/
def trimEnd (line : String) : String := String.ofList ((line.toList.reverse.dropWhile isWhiteSpace).reverse)

/-- `read_line`: the text of a line, which is empty at the end of the stream, or the error that it is no text, and
what is left to read. -/
def readLine (stream : List UInt8) : Except String String × List UInt8 :=
  match Percent.ofBytes (ByLine.takeLine newline stream).1 with
  | some line => (.ok line, (ByLine.takeLine newline stream).2)
  | none => (.error "stream did not contain valid UTF-8", (ByLine.takeLine newline stream).2)

/-- A loop over the lines: how the error of a read is told, and which lines are errors. -/
structure LineReader (ε : Type) where
  readError : String → ε
  ack : String → Option ε
  ack_empty : ack "" = none
  ack_ok : ack "OK" = none

/-- No result if so many rounds are not enough. -/
def LineReader.readLines {ε : Type} (reader : LineReader ε) :
    Nat → List UInt8 → List String → Option (Except ε (List String))
  | 0, _, _ => none
  | fuel + 1, stream, lines =>
    match readLine stream with
    | (.error e, _) => some (.error (reader.readError e))
    | (.ok line, rest) =>
      let trimmed := trimEnd line
      if trimmed = "OK" then some (.ok lines)
      else
        match reader.ack trimmed with
        | some e => some (.error e)
        | none => reader.readLines fuel rest (lines ++ [trimmed])

/-- The loop of `send`. -/
def sendReader : LineReader CoreError where
  readError e := .output ("MPD read error: " ++ e)
  ack trimmed := if "ACK".toList.isPrefixOf trimmed.toList then some (.output ("MPD error: " ++ trimmed)) else none
  ack_empty := rfl
  ack_ok := rfl

/-- The loop of `poll_status`. -/
def statusReader : LineReader String where
  readError e := "status read: " ++ e
  ack _ := none
  ack_empty := rfl
  ack_ok := rfl

/-- `send` once it is connected and what it writes is taken: the banner, then the loop. -/
def send (fuel : Nat) (stream : List UInt8) : Option (Except CoreError (List String)) :=
  match readLine stream with
  | (.error e, _) => some (.error (.output ("MPD banner read error: " ++ e)))
  | (.ok _, rest) => sendReader.readLines fuel rest []

/-! ## What should be returned -/

def lineText (line : List UInt8) : Option String := (Percent.ofBytes line).map trimEnd

def IsOk (line : List UInt8) : Prop := lineText line = some "OK"

section Reader

variable {ε : Type} (reader : LineReader ε)

def LineReader.IsAck (line : List UInt8) : Prop := ∃ text e, lineText line = some text ∧ reader.ack text = some e

def LineReader.Stops (line : List UInt8) : Prop := IsOk line ∨ reader.IsAck line

/-- The texts of the lines up to the first `OK`; an error if an `ACK` comes first, and if neither comes. -/
structure LineReader.Returned (lines : List (List UInt8)) (result : Except ε (List String)) : Prop where
  ok : ∀ before line after, lines = before ++ line :: after → (∀ l ∈ before, ¬ reader.Stops l) → IsOk line →
    ∃ texts, result = .ok texts ∧ before.map lineText = texts.map some
  ack : ∀ before line after, lines = before ++ line :: after → (∀ l ∈ before, ¬ reader.Stops l) →
    reader.IsAck line → ∃ e, result = .error e
  ended : (∀ line ∈ lines, ¬ reader.Stops line) → ∃ e, result = .error e

/-- Of the lines read before the loop and in it, one is no text or stops the loop; and if the first one that does is
`OK`, all lines before it are texts. -/
structure LineReader.Ends (read lines : List (List UInt8)) : Prop where
  stops : (∃ line ∈ read, ¬ Percent.IsUtf8 line) ∨ ∃ line ∈ lines, reader.Stops line ∨ ¬ Percent.IsUtf8 line
  texts : ∀ before line after, lines = before ++ line :: after → (∀ l ∈ before, ¬ reader.Stops l) → IsOk line →
    ∀ l ∈ read ++ before, Percent.IsUtf8 l

/-! ## The loop -/

/-- What a line makes of the texts so far: the result, or the texts to go on with. -/
def LineReader.judge (line : List UInt8) (texts : List String) : Except ε (List String) ⊕ List String :=
  match lineText line with
  | none => .inl (.error (reader.readError "stream did not contain valid UTF-8"))
  | some text =>
    if text = "OK" then .inl (.ok texts)
    else
      match reader.ack text with
      | some e => .inl (.error e)
      | none => .inr (texts ++ [text])

/-- The result by the lines, none if the lines do not lead to any. -/
def LineReader.outcome : List (List UInt8) → List String → Option (Except ε (List String))
  | [], _ => none
  | line :: lines, texts => (reader.judge line texts).elim some (LineReader.outcome lines)

end Reader

section Loop

variable {ε : Type} {reader : LineReader ε} {stream line : List UInt8} {lines before : List (List UInt8)}
  {texts : List String} {result : Except ε (List String)}

theorem readLines_succ (fuel : Nat) (stream : List UInt8) (texts : List String) :
    reader.readLines (fuel + 1) stream texts = (reader.judge (ByLine.takeLine newline stream).1 texts).elim some
      (reader.readLines fuel (ByLine.takeLine newline stream).2) := by
  rw [LineReader.readLines, readLine, LineReader.judge, lineText]
  cases Percent.ofBytes (ByLine.takeLine newline stream).1 with
  | none => rfl
  | some line =>
    dsimp only [Option.map_some]
    by_cases hok : trimEnd line = "OK"
    · rw [if_pos hok, if_pos hok]
      rfl
    · rw [if_neg hok, if_neg hok]
      cases reader.ack (trimEnd line) <;> rfl

/-- At the end of the stream an empty line is read, and another one, and so on. -/
theorem readLines_nil (fuel : Nat) (texts : List String) : reader.readLines fuel [] texts = none := by
  induction fuel generalizing texts with
  | zero => rfl
  | succ fuel ih =>
    have hempty : reader.judge [] texts = .inr (texts ++ [""]) := by
      have htext : lineText [] = some "" := by decide
      rw [LineReader.judge, htext]
      dsimp only
      rw [if_neg (by decide), reader.ack_empty]
    rw [readLines_succ, ByLine.takeLine, hempty]
    exact ih (texts ++ [""])

theorem outcome_of_readLines {fuel : Nat} (h : reader.readLines fuel stream texts = some result) :
    reader.outcome (ByLine.lines newline stream) texts = some result := by
  induction fuel generalizing stream texts with
  | zero => cases h
  | succ fuel ih =>
    by_cases hne : stream = []
    · rw [hne, readLines_nil] at h
      cases h
    · rw [ByLine.lines_eq hne, LineReader.outcome]
      rw [readLines_succ] at h
      cases hjudge : reader.judge (ByLine.takeLine newline stream).1 texts with
      | inl result' =>
        rw [hjudge] at h
        exact h
      | inr texts' =>
        rw [hjudge] at h
        exact ih h

theorem readLines_of_outcome (h : reader.outcome (ByLine.lines newline stream) texts = some result) :
    ∃ fuel, reader.readLines fuel stream texts = some result := by
  generalize hlines : ByLine.lines newline stream = lines at h
  induction lines generalizing stream texts with
  | nil => cases h
  | cons line lines ih =>
    have hne : stream ≠ [] := by
      intro hnil
      rw [hnil] at hlines
      cases hlines
    rw [ByLine.lines_eq hne] at hlines
    obtain ⟨rfl, hrest⟩ := List.cons.inj hlines
    rw [LineReader.outcome] at h
    cases hjudge : reader.judge (ByLine.takeLine newline stream).1 texts with
    | inl result' =>
      rw [hjudge] at h
      refine ⟨1, ?_⟩
      rw [readLines_succ, hjudge]
      exact h
    | inr texts' =>
      rw [hjudge] at h
      obtain ⟨fuel, hfuel⟩ := ih hrest h
      refine ⟨fuel + 1, ?_⟩
      rw [readLines_succ, hjudge]
      exact hfuel

/-- Which result the loop comes to. -/
theorem outcome_iff : (∃ fuel, reader.readLines fuel stream texts = some result) ↔
    reader.outcome (ByLine.lines newline stream) texts = some result := by
  constructor
  · rintro ⟨fuel, h⟩
    exact outcome_of_readLines h
  · exact readLines_of_outcome

/-! ## Its result -/

theorem isUtf8_iff : Percent.IsUtf8 line ↔ ∃ text, lineText line = some text := by
  rw [← Percent.isSome_ofBytes, lineText, ← Option.isSome_iff_exists, Option.isSome_map]

theorem judge_ok (h : IsOk line) : reader.judge line texts = .inl (.ok texts) := by
  rw [LineReader.judge, h]
  exact if_pos rfl

theorem not_isOk_of_isAck (h : reader.IsAck line) : ¬ IsOk line := by
  obtain ⟨text, e, htext, hack⟩ := h
  intro hok
  rw [hok] at htext
  cases htext
  rw [reader.ack_ok] at hack
  cases hack

theorem judge_ack (h : reader.IsAck line) : ∃ e, reader.judge line texts = .inl (.error e) := by
  have hok := not_isOk_of_isAck h
  obtain ⟨text, e, htext, hack⟩ := h
  have hne : text ≠ "OK" := by
    rintro rfl
    exact hok htext
  refine ⟨e, ?_⟩
  rw [LineReader.judge, htext]
  dsimp only
  rw [if_neg hne, hack]

theorem judge_notUtf8 (h : ¬ Percent.IsUtf8 line) : ∃ e, reader.judge line texts = .inl (.error e) := by
  have hnone : lineText line = none := by
    cases htext : lineText line with
    | none => rfl
    | some text => exact absurd (isUtf8_iff.2 ⟨text, htext⟩) h
  rw [LineReader.judge, hnone]
  exact ⟨_, rfl⟩

theorem judge_text (hutf8 : Percent.IsUtf8 line) (hstop : ¬ reader.Stops line) :
    ∃ text, lineText line = some text ∧ reader.judge line texts = .inr (texts ++ [text]) := by
  obtain ⟨text, htext⟩ := isUtf8_iff.1 hutf8
  have hne : text ≠ "OK" := by
    rintro rfl
    exact hstop (.inl htext)
  refine ⟨text, htext, ?_⟩
  rw [LineReader.judge, htext]
  dsimp only
  rw [if_neg hne]
  cases hack : reader.ack text with
  | none => rfl
  | some e => exact absurd (.inr ⟨text, e, htext, hack⟩) hstop

/-- Lines that are texts and do not stop the loop are kept. -/
theorem outcome_append (hbefore : ∀ l ∈ before, Percent.IsUtf8 l ∧ ¬ reader.Stops l) :
    ∃ kept, before.map lineText = kept.map some ∧
      reader.outcome (before ++ lines) texts = reader.outcome lines (texts ++ kept) := by
  induction before generalizing texts with
  | nil => exact ⟨[], rfl, by rw [List.nil_append, List.append_nil]⟩
  | cons line before ih =>
    obtain ⟨hutf8, hstop⟩ := hbefore line List.mem_cons_self
    obtain ⟨text, htext, hjudge⟩ := @judge_text ε reader line texts hutf8 hstop
    obtain ⟨kept, hkept, hrest⟩ := @ih (texts ++ [text]) fun l hl => hbefore l (List.mem_cons_of_mem _ hl)
    refine ⟨text :: kept, ?_, ?_⟩
    · rw [List.map_cons, htext, hkept]
      rfl
    · rw [List.cons_append, LineReader.outcome, hjudge]
      rw [List.append_assoc] at hrest
      exact hrest

theorem outcome_eq_none (h : ∀ l ∈ lines, Percent.IsUtf8 l ∧ ¬ reader.Stops l) : reader.outcome lines texts = none := by
  obtain ⟨kept, -, hlines⟩ := @outcome_append ε reader [] lines texts h
  rw [List.append_nil] at hlines
  exact hlines

theorem returned_of_stop {after : List (List UInt8)} (hbefore : ∀ l ∈ before, ¬ reader.Stops l)
    (hline : reader.Stops line)
    (hok : IsOk line → ∃ texts, result = .ok texts ∧ before.map lineText = texts.map some)
    (hack : reader.IsAck line → ∃ e, result = .error e) : reader.Returned (before ++ line :: after) result := by
  have hsame : ∀ before' line' after', before ++ line :: after = before' ++ line' :: after' →
      (∀ l ∈ before', ¬ reader.Stops l) → reader.Stops line' → before = before' ∧ line = line' := by
    intro before' line' after' heq hbefore' hline'
    exact Terminated.first_unique heq hbefore hbefore' hline hline'
  constructor
  · intro before' line' after' heq hbefore' hline'
    obtain ⟨rfl, rfl⟩ := hsame before' line' after' heq hbefore' (.inl hline')
    exact hok hline'
  · intro before' line' after' heq hbefore' hline'
    obtain ⟨rfl, rfl⟩ := hsame before' line' after' heq hbefore' (.inr hline')
    exact hack hline'
  · intro hnone
    exact absurd hline (hnone line (List.mem_append_right _ List.mem_cons_self))

/-- An error is right unless the first line that stops the loop is `OK`. -/
theorem returned_error {e : ε} (h : ∀ before line after, lines = before ++ line :: after →
    (∀ l ∈ before, ¬ reader.Stops l) → ¬ IsOk line) : reader.Returned lines (.error e) := by
  constructor
  · intro before line after heq hbefore hline
    exact absurd hline (h before line after heq hbefore)
  · intro before line after heq hbefore hline
    exact ⟨e, rfl⟩
  · intro hnone
    exact ⟨e, rfl⟩

theorem returned_iff : (∃ result, reader.outcome lines [] = some result ∧ reader.Returned lines result) ↔
    reader.Ends [] lines := by
  constructor
  · rintro ⟨result, houtcome, hreturned⟩
    constructor
    · refine .inr ?_
      by_contra hnone
      push Not at hnone
      rw [outcome_eq_none fun l hl => (hnone l hl).symm] at houtcome
      cases houtcome
    · intro before line after heq hbefore hok l hl
      obtain ⟨texts, -, htexts⟩ := hreturned.ok before line after heq hbefore hok
      have hmem : lineText l ∈ texts.map some := htexts ▸ List.mem_map_of_mem hl
      obtain ⟨text, -, htext⟩ := List.mem_map.1 hmem
      exact isUtf8_iff.2 ⟨text, htext.symm⟩
  · rintro ⟨hstops, htexts⟩
    rcases hstops with ⟨line, hline, -⟩ | hstops
    · cases hline
    obtain ⟨before, line, after, rfl, hbefore, hline⟩ := Terminated.exists_first hstops
    push Not at hbefore
    obtain ⟨kept, hkept, houtcome⟩ := @outcome_append ε reader (line :: after) before [] fun l hl =>
      (hbefore l hl).symm
    rw [List.nil_append, LineReader.outcome] at houtcome
    rcases hline with hline | hline
    · rcases hline with hok | hack
      · refine ⟨.ok kept, ?_, returned_of_stop (fun l hl => (hbefore l hl).1) (.inl hok)
          (fun _ => ⟨kept, rfl, hkept⟩) fun hack => absurd hok (not_isOk_of_isAck hack)⟩
        rw [houtcome, judge_ok hok]
        rfl
      · obtain ⟨e, hjudge⟩ := @judge_ack ε reader line kept hack
        refine ⟨.error e, ?_, returned_of_stop (fun l hl => (hbefore l hl).1) (.inr hack)
          (fun hok => absurd hok (not_isOk_of_isAck hack)) fun _ => ⟨e, rfl⟩⟩
        rw [houtcome, hjudge]
        rfl
    · obtain ⟨e, hjudge⟩ := @judge_notUtf8 ε reader line kept hline
      refine ⟨.error e, ?_, returned_error ?_⟩
      · rw [houtcome, hjudge]
        rfl
      · intro before' line' after' heq hbefore' hok
        rcases Terminated.append_cons_cases heq with hmem | hmem | ⟨-, rfl⟩
        · exact hline (htexts before' line' after' heq hbefore' hok line hmem)
        · exact (hbefore line' hmem).1 (.inl hok)
        · exact hline (isUtf8_iff.2 ⟨"OK", hok⟩)

end Loop

/-- Both readers end as they should exactly if the lines let them: `poll_status` at any point of the stream, `send`
behind the banner. -/
theorem readers_end_iff (stream : List UInt8) :
    ((∃ fuel result, statusReader.readLines fuel stream [] = some result ∧
        statusReader.Returned (ByLine.lines newline stream) result) ↔
      statusReader.Ends [] (ByLine.lines newline stream)) ∧
    ((∃ fuel result, send fuel stream = some result ∧
        sendReader.Returned (ByLine.lines newline (ByLine.takeLine newline stream).2) result) ↔
      sendReader.Ends [(ByLine.takeLine newline stream).1]
        (ByLine.lines newline (ByLine.takeLine newline stream).2)) := by
  have hloop : ∀ {ε : Type} (reader : LineReader ε) (stream : List UInt8),
      (∃ fuel result, reader.readLines fuel stream [] = some result ∧
        reader.Returned (ByLine.lines newline stream) result) ↔ reader.Ends [] (ByLine.lines newline stream) := by
    intro ε reader stream
    rw [← returned_iff, exists_comm]
    apply exists_congr
    intro result
    rw [← outcome_iff, exists_and_right]
  refine ⟨hloop statusReader stream, ?_⟩
  generalize hbanner : (ByLine.takeLine newline stream).1 = banner
  generalize hrest : (ByLine.takeLine newline stream).2 = rest
  by_cases hutf8 : Percent.IsUtf8 banner
  · have hsend : ∀ fuel, send fuel stream = sendReader.readLines fuel rest [] := by
      intro fuel
      obtain ⟨text, htext⟩ := Option.isSome_iff_exists.1 (Percent.isSome_ofBytes.2 hutf8)
      rw [send, readLine, hbanner, htext, hrest]
    simp only [hsend]
    rw [hloop sendReader rest]
    constructor
    · rintro ⟨hstops, htexts⟩
      refine ⟨.inr (hstops.resolve_left fun ⟨line, hline, _⟩ => absurd hline List.not_mem_nil), ?_⟩
      intro before line after heq hbefore hok l hl
      rcases List.mem_cons.1 hl with rfl | hl
      · exact hutf8
      · exact htexts before line after heq hbefore hok l hl
    · rintro ⟨hstops, htexts⟩
      refine ⟨.inr (hstops.resolve_left fun ⟨line, hline, hnot⟩ => hnot (List.mem_singleton.1 hline ▸ hutf8)), ?_⟩
      intro before line after heq hbefore hok l hl
      exact htexts before line after heq hbefore hok l (List.mem_cons_of_mem _ hl)
  · obtain ⟨e, hsend⟩ : ∃ e, ∀ fuel, send fuel stream = some (.error e) := by
      have hnone : Percent.ofBytes banner = none := by
        cases htext : Percent.ofBytes banner with
        | none => rfl
        | some text => exact absurd (Percent.isSome_ofBytes.1 (htext ▸ rfl)) hutf8
      refine ⟨.output ("MPD banner read error: " ++ "stream did not contain valid UTF-8"), fun fuel => ?_⟩
      rw [send, readLine, hbanner, hnone]
    simp only [hsend]
    constructor
    · rintro ⟨fuel, result, hresult, hreturned⟩
      cases hresult
      refine ⟨.inl ⟨banner, List.mem_singleton_self banner, hutf8⟩, ?_⟩
      intro before line after heq hbefore hok
      obtain ⟨texts, htexts, -⟩ := hreturned.ok before line after heq hbefore hok
      cases htexts
    · rintro ⟨-, htexts⟩
      refine ⟨0, .error e, rfl, returned_error ?_⟩
      intro before line after heq hbefore hok
      exact hutf8 (htexts before line after heq hbefore hok banner List.mem_cons_self)

/-- MPD goes away behind its banner, or before it answers a poll. -/
theorem readers_do_not_end : (¬ ∃ fuel result, send fuel (Percent.bytes "OK MPD 0.23.5\n") = some result) ∧
    ¬ ∃ fuel result, statusReader.readLines fuel [] [] = some result := by
  constructor
  · rintro ⟨fuel, result, h⟩
    have hread : readLine (Percent.bytes "OK MPD 0.23.5\n") = (.ok "OK MPD 0.23.5\n", []) := by
      have htake : ByLine.takeLine newline (Percent.bytes "OK MPD 0.23.5\n") =
          (Percent.bytes "OK MPD 0.23.5\n", []) := by
        decide
      rw [readLine, htake, Percent.ofBytes_eq_some_iff.2 rfl]
    rw [send, hread] at h
    dsimp only at h
    rw [readLines_nil] at h
    cases h
  · rintro ⟨fuel, result, h⟩
    rw [readLines_nil] at h
    cases h

end Mpd

end Kanade

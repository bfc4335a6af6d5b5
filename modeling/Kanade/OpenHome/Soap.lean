import Kanade.Core.State
import Kanade.Ws.Range

/-!
# Kanade.OpenHome.Soap

The requests of OpenHome control points: `parse_action`, over the events of the XML reader, and what
`handle_connection` makes of its result.

* `extractU32_eq`: what is extracted is in the first piece of text of the first element of the name.
* `arguments_iff`: when the number of the action is the one of the request.
-/

namespace Kanade

namespace OpenHome

/-! ## Events -/

/-- An event of the reader, which trims the text between two tags. Names are local; a text is none if it does not
unescape. Everything else the reader comes to is passed over. -/
inductive XmlEvent where
  | start (localName : String)
  | «end» (localName : String)
  | empty (localName : String)
  | text (content : Option String)
deriving DecidableEq, Repr

/-- `parse::<u32>`. -/
def u32FromStr (text : String) : Option UInt32 :=
  (u64FromStr text.toList).bind fun n => if n.toNat < 2 ^ 32 then some n.toUInt32 else none

/-- The loop of `extract_u32`, to the end of the events or an error of the reader. -/
def extractU32From (tag : String) : Bool → List XmlEvent → Option UInt32
  | _, [] => none
  | inside, .start localName :: events => extractU32From tag (inside || localName = tag) events
  | true, .text content :: _ => content.bind u32FromStr
  | inside, _ :: events => extractU32From tag inside events

def extractU32 (events : List XmlEvent) (tag : String) : Option UInt32 := extractU32From tag false events

/-! ## Actions -/

inductive SoapAction where
  | play
  | pause
  | stop
  | next
  | previous
  | seekSecondAbsolute (seconds : UInt32)
  | setVolume (volume : UInt8)
  | unknown (name : String)
deriving DecidableEq, Repr

/-- What follows the last `#` of the header, without double quotes and white space around it. -/
def actionName (soapActionHeader : String) : String :=
  let fragment := (soapActionHeader.toList.reverse.takeWhile (· ≠ '#')).reverse
  String.ofList (trim (Url.trimEnd '"' (fragment.dropWhile (· = '"'))))

def parseAction (soapBody : List XmlEvent) (soapActionHeader : String) : Except CoreError SoapAction :=
  let name := actionName soapActionHeader
  if name = "Play" then .ok .play
  else if name = "Pause" then .ok .pause
  else if name = "Stop" then .ok .stop
  else if name = "Next" then .ok .next
  else if name = "Previous" then .ok .previous
  else if name = "SeekSecondAbsolute" then .ok (.seekSecondAbsolute ((extractU32 soapBody "Value").getD 0))
  else if name = "SetVolume" then .ok (.setVolume (min ((extractU32 soapBody "Value").getD 50) 100).toUInt8)
  else .ok (.unknown name)

def actionNameStr : SoapAction → String
  | .play => "Play"
  | .pause => "Pause"
  | .stop => "Stop"
  | .next => "Next"
  | .previous => "Previous"
  | .seekSecondAbsolute _ => "SeekSecondAbsolute"
  | .setVolume _ => "SetVolume"
  | .unknown _ => "Unknown"

/-- The bodies that `ok_response` and `fault_response` write. -/
inductive SoapResponse where
  | ok (actionName serviceType : String)
  | fault (code : Nat) (description : String)
deriving DecidableEq, Repr

def transportService : String := "urn:av-openhome-org:service:Transport:1"

/-- The response to a request, and the core afterwards, where `dispatch` carries an action out and `describe` is
`to_string` of an error. -/
def respond {σ : Type} (describe : CoreError → String) (dispatch : SoapAction → σ → Except CoreError Unit × σ)
    (soapBody : List XmlEvent) (soapActionHeader : String) (core : σ) : SoapResponse × σ :=
  match parseAction soapBody soapActionHeader with
  | .ok action =>
    match dispatch action core with
    | (.ok (), core) => (.ok (actionNameStr action) transportService, core)
    | (.error e, core) => (.fault 501 (describe e), core)
  | .error e => (.fault 402 (describe e), core)

/-! ## The argument of a request -/

/-- The texts of an element up to its end tag, with how many elements are open inside of it. -/
def textsInside : Nat → List XmlEvent → List (Option String)
  | _, [] => []
  | depth, .start _ :: events => textsInside (depth + 1) events
  | 0, .«end» _ :: _ => []
  | depth + 1, .«end» _ :: events => textsInside depth events
  | depth, .empty _ :: events => textsInside depth events
  | depth, .text content :: events => content :: textsInside depth events

/-- The texts of the first element of a name, if there is one. -/
def firstTexts (tag : String) : List XmlEvent → Option (List (Option String))
  | [] => none
  | .start localName :: events => if localName = tag then some (textsInside 0 events) else firstTexts tag events
  | .empty localName :: events => if localName = tag then some [] else firstTexts tag events
  | .«end» _ :: events => firstTexts tag events
  | .text _ :: events => firstTexts tag events

/-- The pieces put together, if all are text. -/
def joined : List (Option String) → Option String
  | [] => some ""
  | piece :: pieces => piece.bind fun text => (joined pieces).map (text ++ ·)

/-- The number that is the text content of the first `Value` element. -/
def requested (events : List XmlEvent) : Option UInt32 :=
  ((firstTexts "Value" events).bind joined).bind u32FromStr

/-- The action has the number of the request; without one the request is refused and the core left alone. -/
structure Obeyed {σ : Type} (describe : CoreError → String) (dispatch : SoapAction → σ → Except CoreError Unit × σ)
    (action : UInt32 → SoapAction) (events : List XmlEvent) (soapActionHeader : String) (core : σ) : Prop where
  taken : ∀ n, requested events = some n → parseAction events soapActionHeader = .ok (action n)
  refused : requested events = none → ∃ e, parseAction events soapActionHeader = .error e ∧
    respond describe dispatch events soapActionHeader core = (.fault 402 (describe e), core)

/-- The first element has text that is a number, and its first piece, or `otherwise` if that is none, stands for the
same number. -/
def FirstPieceTells (otherwise : UInt32) (same : UInt32 → UInt32 → Prop) (events : List XmlEvent) : Prop :=
  ∃ piece pieces n, firstTexts "Value" events = some (piece :: pieces) ∧
    (joined (piece :: pieces)).bind u32FromStr = some n ∧ same ((piece.bind u32FromStr).getD otherwise) n

section Requests

variable {tag : String} {events : List XmlEvent} {depth : Nat} {content : Option String} {n : UInt32}

theorem extractU32From_inside {pieces : List (Option String)} (h : textsInside depth events = content :: pieces) :
    extractU32From tag true events = content.bind u32FromStr := by
  induction events generalizing depth with
  | nil => cases h
  | cons event events ih =>
    cases event with
    | start localName =>
      rw [textsInside] at h
      exact ih h
    | «end» localName =>
      cases depth with
      | zero => cases h
      | succ depth =>
        rw [textsInside] at h
        exact ih h
    | empty localName =>
      rw [textsInside] at h
      exact ih h
    | text content' =>
      rw [textsInside] at h
      cases h
      rfl

/-- What is extracted if the first element of the name has text. -/
theorem extractU32_eq {pieces : List (Option String)} (h : firstTexts tag events = some (content :: pieces)) :
    extractU32 events tag = content.bind u32FromStr := by
  unfold extractU32
  induction events with
  | nil => cases h
  | cons event events ih =>
    cases event with
    | start localName =>
      rw [firstTexts] at h
      rw [extractU32From]
      by_cases htag : localName = tag
      · rw [if_pos htag] at h
        rw [decide_eq_true htag]
        exact extractU32From_inside (Option.some.inj h)
      · rw [if_neg htag] at h
        rw [decide_eq_false htag]
        exact ih h
    | «end» localName => exact ih h
    | empty localName =>
      rw [firstTexts] at h
      by_cases htag : localName = tag
      · rw [if_pos htag] at h
        cases h
      · rw [if_neg htag] at h
        exact ih h
    | text content' => exact ih h

theorem obeyed_iff {σ : Type} {describe : CoreError → String} {dispatch : SoapAction → σ → Except CoreError Unit × σ}
    {soapActionHeader : String} {core : σ} {action : UInt32 → SoapAction} {otherwise : UInt32}
    {same : UInt32 → UInt32 → Prop}
    (hparse : parseAction events soapActionHeader = .ok (action ((extractU32 events "Value").getD otherwise)))
    (hsame : ∀ a b, action a = action b ↔ same a b) :
    Obeyed describe dispatch action events soapActionHeader core ↔ FirstPieceTells otherwise same events := by
  have hempty : u32FromStr "" = none := by decide
  constructor
  · rintro ⟨htaken, hrefused⟩
    cases hrequested : requested events with
    | none =>
      obtain ⟨e, herror, -⟩ := hrefused hrequested
      rw [hparse] at herror
      cases herror
    | some n =>
      have hok := htaken n hrequested
      rw [hparse] at hok
      unfold requested at hrequested
      cases htexts : firstTexts "Value" events with
      | none =>
        rw [htexts] at hrequested
        cases hrequested
      | some pieces =>
        rw [htexts, Option.bind_some] at hrequested
        cases pieces with
        | nil =>
          rw [joined, Option.bind_some, hempty] at hrequested
          cases hrequested
        | cons piece pieces =>
          refine ⟨piece, pieces, n, htexts, hrequested, (hsame _ _).1 ?_⟩
          rw [← extractU32_eq htexts]
          exact Except.ok.inj hok
  · rintro ⟨piece, pieces, n, htexts, hnumber, hpiece⟩
    have hrequested : requested events = some n := by
      unfold requested
      rw [htexts, Option.bind_some, hnumber]
    constructor
    · intro m hm
      rw [hrequested] at hm
      cases hm
      rw [hparse, extractU32_eq htexts, (hsame _ _).2 hpiece]
    · intro hnone
      rw [hrequested] at hnone
      cases hnone

/-- A volume up to 100 fits its type. -/
theorem setVolume_inj (a b : UInt32) : SoapAction.setVolume (min a 100).toUInt8 = .setVolume (min b 100).toUInt8 ↔
    min a 100 = min b 100 := by
  have hfits : ∀ n : UInt32, (min n 100).toUInt8.toNat = (min n 100).toNat := by
    intro n
    have hle : (min n 100).toNat ≤ 100 := by
      have hmin : min n 100 = if n ≤ 100 then n else 100 := rfl
      rw [hmin]
      split
      · rename_i hsmall
        exact UInt32.le_iff_toNat_le.1 hsmall
      · exact Nat.le_refl 100
    rw [UInt32.toNat_toUInt8]
    omega
  constructor
  · intro h
    have heq := congrArg UInt8.toNat (SoapAction.setVolume.inj h)
    rw [hfits, hfits] at heq
    exact UInt32.toNat_inj.1 heq
  · intro h
    rw [h]

end Requests

/-- For the two actions with an argument. -/
theorem arguments_iff {σ : Type} (describe : CoreError → String)
    (dispatch : SoapAction → σ → Except CoreError Unit × σ) (events : List XmlEvent) (soapActionHeader : String)
    (core : σ) :
    (actionName soapActionHeader = "SeekSecondAbsolute" →
      (Obeyed describe dispatch .seekSecondAbsolute events soapActionHeader core ↔
        FirstPieceTells 0 (fun a b => a = b) events)) ∧
    (actionName soapActionHeader = "SetVolume" →
      (Obeyed describe dispatch (fun n => .setVolume (min n 100).toUInt8) events soapActionHeader core ↔
        FirstPieceTells 50 (fun a b => min a 100 = min b 100) events)) := by
  constructor
  · intro hname
    apply obeyed_iff
    · unfold parseAction
      dsimp only
      rw [hname]
      rfl
    · intro a b
      exact ⟨SoapAction.seekSecondAbsolute.inj, congrArg _⟩
  · intro hname
    apply obeyed_iff
    · unfold parseAction
      dsimp only
      rw [hname]
      rfl
    · exact setVolume_inj

/-- An empty element, of which an action with a volume is made. -/
theorem empty_value_sets_volume : ¬ Obeyed (fun _ => "") (fun _ core => (.ok (), core))
    (fun n => .setVolume (min n 100).toUInt8) [.start "SetVolume", .empty "Value", .«end» "SetVolume"]
    "urn:av-openhome-org:service:Volume:1#SetVolume" () := by
  intro h
  obtain ⟨e, herror, -⟩ := h.refused (by decide)
  have hok : parseAction [.start "SetVolume", .empty "Value", .«end» "SetVolume"]
      "urn:av-openhome-org:service:Volume:1#SetVolume" = .ok (.setVolume 50) := by
    decide
  rw [hok] at herror
  cases herror

end OpenHome

end Kanade

import Mathlib.Data.List.Infix
import Kanade.Node.Session
import Kanade.Ws.Range

/-!
# Kanade.Node.Proxy

The proxy of a node and the loop of `main` that gets it new keys: `handle_request` with its probes and its wait,
and sessions that end, sleep and connect anew, in any order and at any times.

* `answers_justified`: what a request is answered with, and why.
* `refresh_helps_iff`: when a session that is closed for a new key is back in time for the request that asked.
-/

namespace Kanade

open Concur

/-- The path to sign for a request line, or the status of the refusal. -/
def requestedTrack (requestLine : String) : Except Nat String :=
  match splitWhitespace requestLine.toList with
  | _ :: target :: _ =>
    match "/media/tracks/".toList.isPrefixOf? (Url.cut '?' target).1 with
    | some trackId => .ok ("/media/tracks/" ++ String.ofList trackId)
    | none => .error 404
  | _ => .error 400

example : requestedTrack "GET /media/tracks/3f?x=1 HTTP/1.1\r\n" = .ok "/media/tracks/3f" := by decide +kernel

structure ProxyAnswer where
  status : Nat
  location : Option String
deriving DecidableEq, Repr

/-- Where a call of `handle_request` is. Times are in milliseconds. -/
inductive RequestStage where
  | asked (trackPath : String)
  /-- In the first `is_forbidden`. -/
  | probing (trackPath redirectUrl : String) (generation : UInt64)
  /-- In `wait_for_new_generation`, before its next look. -/
  | waiting (trackPath redirectUrl : String) (generation : UInt64) (deadline lookAt : Nat)
  | renewing (trackPath redirectUrl : String)
  /-- In the second `is_forbidden`. -/
  | reprobing (redirectUrl : String)
  | answered (answer : ProxyAnswer)

/-- Where the loop of `main` is. -/
inductive MainStage where
  /-- In `run_session`, up to the acknowledgement. -/
  | connecting
  /-- In the relay loop. -/
  | serving
  | sleeping (wakeAt : Nat)

def refreshWaitTimeout : Nat := 5000

def refreshPollInterval : Nat := 100

def maxBackoff : Nat := 30000

structure ProxyNode where
  now : Nat
  main : MainStage
  backoff : Nat
  proxy : Option ProxyState
  /-- How many messages `refresh_tx` has room for no more. -/
  refreshes : Nat
  requests : Nat → Option RequestStage
  /-- How many sessions have ended; the code does not count them. -/
  ended : Nat

inductive ProxyEvent where
  | wait (millis : Nat)
  /-- The acknowledgement of a session. -/
  | registered (kanadeBaseUrl : String) (auth : Option (String × MediaKey))
  /-- The server gives a session new keys. -/
  | pushed (kanadeBaseUrl : String) (auth : Option (String × MediaKey))
  /-- The relay loop takes a message of the proxy. -/
  | refresh
  /-- The session ends for another reason. -/
  | ended
  | wake
  /-- A request and its header lines were read. -/
  | request (i : Nat) (requestLine : String)
  | build (i : Nat) (unixNow : Option UInt64)
  | probe (i : Nat) (forbidden : Bool)
  | look (i : Nat)
  | renew (i : Nat) (unixNow : Option UInt64)
  | reprobe (i : Nat) (forbidden : Bool)

namespace ProxyNode

def start : ProxyNode := ⟨0, .connecting, 1000, none, 0, fun _ => none, 0⟩

section Step

variable (hmac : MediaKey → String → List UInt8) (w : ProxyNode)

def update (kanadeBaseUrl : String) (auth : Option (String × MediaKey)) : ProxyNode :=
  { w with proxy := some (ProxyState.update w.proxy kanadeBaseUrl auth) }

def register (kanadeBaseUrl : String) (auth : Option (String × MediaKey)) : ProxyNode :=
  match w.main with
  | .connecting => { w.update kanadeBaseUrl auth with main := .serving }
  | _ => w

def push (kanadeBaseUrl : String) (auth : Option (String × MediaKey)) : ProxyNode :=
  match w.main with
  | .serving => w.update kanadeBaseUrl auth
  | _ => w

/-- `run_session` returns. -/
def endSession : ProxyNode := { w with main := .sleeping (w.now + w.backoff), ended := w.ended + 1 }

def takeRefresh : ProxyNode :=
  match w.main with
  | .serving => if w.refreshes = 0 then w else { w.endSession with refreshes := w.refreshes - 1 }
  | _ => w

def loseSession : ProxyNode :=
  match w.main with
  | .sleeping _ => w
  | _ => w.endSession

def wakeUp : ProxyNode :=
  match w.main with
  | .sleeping wakeAt =>
    if w.now < wakeAt then w
    else { w with main := .connecting, backoff := min (w.backoff * 2) maxBackoff }
  | _ => w

def put (i : Nat) (stage : RequestStage) : ProxyNode :=
  { w with requests := fun j => if j = i then some stage else w.requests j }

def request (i : Nat) (requestLine : String) : ProxyNode :=
  if (w.requests i).isSome then w
  else
    match requestedTrack requestLine with
    | .ok trackPath => w.put i (.asked trackPath)
    | .error status => w.put i (.answered ⟨status, none⟩)

def build (i : Nat) (unixNow : Option UInt64) : ProxyNode :=
  match w.requests i with
  | some (.asked trackPath) =>
    match buildRedirectTarget hmac w.proxy unixNow trackPath with
    | none => w.put i (.answered ⟨503, none⟩)
    | some (redirectUrl, generation, hasAuth) =>
      if hasAuth then w.put i (.probing trackPath redirectUrl generation)
      else w.put i (.answered ⟨302, some redirectUrl⟩)
  | _ => w

def probe (i : Nat) (forbidden : Bool) : ProxyNode :=
  match w.requests i with
  | some (.probing trackPath redirectUrl generation) =>
    if forbidden then
      { w.put i (.waiting trackPath redirectUrl generation (w.now + refreshWaitTimeout) w.now) with
        refreshes := min (w.refreshes + 1) 8 }
    else w.put i (.answered ⟨302, some redirectUrl⟩)
  | _ => w

def look (i : Nat) : ProxyNode :=
  match w.requests i with
  | some (.waiting trackPath redirectUrl generation deadline lookAt) =>
    if w.now < lookAt then w
    else if w.now < deadline then
      if w.proxy.any fun st => generation < st.generation then w.put i (.renewing trackPath redirectUrl)
      else w.put i (.waiting trackPath redirectUrl generation deadline (w.now + refreshPollInterval))
    else w.put i (.reprobing redirectUrl)
  | _ => w

def renew (i : Nat) (unixNow : Option UInt64) : ProxyNode :=
  match w.requests i with
  | some (.renewing trackPath redirectUrl) =>
    w.put i (.reprobing ((buildRedirectTarget hmac w.proxy unixNow trackPath).elim redirectUrl Prod.fst))
  | _ => w

def reprobe (i : Nat) (forbidden : Bool) : ProxyNode :=
  match w.requests i with
  | some (.reprobing redirectUrl) =>
    w.put i (.answered (if forbidden then ⟨503, none⟩ else ⟨302, some redirectUrl⟩))
  | _ => w

end Step

def step (hmac : MediaKey → String → List UInt8) (event : ProxyEvent) (w : ProxyNode) : ProxyNode :=
  match event with
  | .wait millis => { w with now := w.now + millis }
  | .registered kanadeBaseUrl auth => w.register kanadeBaseUrl auth
  | .pushed kanadeBaseUrl auth => w.push kanadeBaseUrl auth
  | .refresh => w.takeRefresh
  | .ended => w.loseSession
  | .wake => w.wakeUp
  | .request i requestLine => w.request i requestLine
  | .build i unixNow => w.build hmac i unixNow
  | .probe i forbidden => w.probe i forbidden
  | .look i => w.look i
  | .renew i unixNow => w.renew hmac i unixNow
  | .reprobe i forbidden => w.reprobe i forbidden

def run (hmac : MediaKey → String → List UInt8) (events : List ProxyEvent) : ProxyNode :=
  runAll (step hmac) events start

/-! ## What a step does to a request -/

/-- The event takes the request to the stage. -/
inductive Moves (hmac : MediaKey → String → List UInt8) (w : ProxyNode) (i : Nat) :
    ProxyEvent → RequestStage → Prop
  | refused {requestLine : String} {status : Nat} (hnew : w.requests i = none)
      (hline : requestedTrack requestLine = .error status) :
      Moves hmac w i (.request i requestLine) (.answered ⟨status, none⟩)
  | asked {requestLine path : String} (hnew : w.requests i = none) (hline : requestedTrack requestLine = .ok path) :
      Moves hmac w i (.request i requestLine) (.asked path)
  | unready {path : String} {unixNow : Option UInt64} (hstage : w.requests i = some (.asked path))
      (hbuild : buildRedirectTarget hmac w.proxy unixNow path = none) :
      Moves hmac w i (.build i unixNow) (.answered ⟨503, none⟩)
  | signed {path url : String} {generation : UInt64} {unixNow : Option UInt64}
      (hstage : w.requests i = some (.asked path))
      (hbuild : buildRedirectTarget hmac w.proxy unixNow path = some (url, generation, true)) :
      Moves hmac w i (.build i unixNow) (.probing path url generation)
  | unsigned {path url : String} {generation : UInt64} {unixNow : Option UInt64}
      (hstage : w.requests i = some (.asked path))
      (hbuild : buildRedirectTarget hmac w.proxy unixNow path = some (url, generation, false)) :
      Moves hmac w i (.build i unixNow) (.answered ⟨302, some url⟩)
  | accepted {path url : String} {generation : UInt64} (hstage : w.requests i = some (.probing path url generation)) :
      Moves hmac w i (.probe i false) (.answered ⟨302, some url⟩)
  | rejected {path url : String} {generation : UInt64} (hstage : w.requests i = some (.probing path url generation)) :
      Moves hmac w i (.probe i true) (.waiting path url generation (w.now + refreshWaitTimeout) w.now)
  | same {path url : String} {generation : UInt64} {deadline lookAt : Nat}
      (hstage : w.requests i = some (.waiting path url generation deadline lookAt)) :
      Moves hmac w i (.look i) (.waiting path url generation deadline (w.now + refreshPollInterval))
  | newer {path url : String} {generation : UInt64} {deadline lookAt : Nat} {st : ProxyState}
      (hstage : w.requests i = some (.waiting path url generation deadline lookAt)) (hin : w.now < deadline)
      (hst : w.proxy = some st) (hnewer : generation < st.generation) :
      Moves hmac w i (.look i) (.renewing path url)
  | late {path url : String} {generation : UInt64} {deadline lookAt : Nat}
      (hstage : w.requests i = some (.waiting path url generation deadline lookAt)) (hlate : deadline ≤ w.now) :
      Moves hmac w i (.look i) (.reprobing url)
  | renewed {path url : String} {unixNow : Option UInt64} (hstage : w.requests i = some (.renewing path url)) :
      Moves hmac w i (.renew i unixNow)
        (.reprobing ((buildRedirectTarget hmac w.proxy unixNow path).elim url Prod.fst))
  | accepted' {url : String} (hstage : w.requests i = some (.reprobing url)) :
      Moves hmac w i (.reprobe i false) (.answered ⟨302, some url⟩)
  | rejected' {url : String} (hstage : w.requests i = some (.reprobing url)) :
      Moves hmac w i (.reprobe i true) (.answered ⟨503, none⟩)

section Moves

variable {hmac : MediaKey → String → List UInt8} {w : ProxyNode} {i j : Nat} {stage : RequestStage}

theorem requests_put : (w.put j stage).requests i = if i = j then some stage else w.requests i := rfl

theorem requests_register (base : String) (auth : Option (String × MediaKey)) :
    (w.register base auth).requests = w.requests := by
  unfold register
  split <;> rfl

theorem requests_push (base : String) (auth : Option (String × MediaKey)) :
    (w.push base auth).requests = w.requests := by
  unfold push
  split <;> rfl

theorem requests_takeRefresh : w.takeRefresh.requests = w.requests := by
  unfold takeRefresh
  split
  · split <;> rfl
  · rfl

theorem requests_loseSession : w.loseSession.requests = w.requests := by
  unfold loseSession
  split <;> rfl

theorem requests_wakeUp : w.wakeUp.requests = w.requests := by
  unfold wakeUp
  split
  · split <;> rfl
  · rfl

/-- A step that puts a request at a stage, seen from request `i`. -/
theorem moves_put {e : ProxyEvent} (hmoves : Moves hmac w j e stage) :
    (w.put j stage).requests i = w.requests i ∨
      ∃ stage', (w.put j stage).requests i = some stage' ∧ Moves hmac w i e stage' := by
  rw [requests_put]
  by_cases hi : i = j
  · subst hi
    rw [if_pos rfl]
    exact .inr ⟨stage, rfl, hmoves⟩
  · rw [if_neg hi]
    exact .inl rfl

theorem requests_step (hmac : MediaKey → String → List UInt8) (e : ProxyEvent) (w : ProxyNode) (i : Nat) :
    (step hmac e w).requests i = w.requests i ∨
      ∃ stage, (step hmac e w).requests i = some stage ∧ Moves hmac w i e stage := by
  cases e with
  | wait millis => exact .inl rfl
  | registered base auth => exact .inl (congrFun (requests_register base auth) i)
  | pushed base auth => exact .inl (congrFun (requests_push base auth) i)
  | refresh => exact .inl (congrFun requests_takeRefresh i)
  | ended => exact .inl (congrFun requests_loseSession i)
  | wake => exact .inl (congrFun requests_wakeUp i)
  | request j requestLine =>
    show (w.request j requestLine).requests i = _ ∨ ∃ stage, (w.request j requestLine).requests i = _ ∧ _
    unfold request
    split
    · exact .inl rfl
    · rename_i hnew
      rw [Option.not_isSome_iff_eq_none] at hnew
      split
      · rename_i hline
        exact moves_put (.asked hnew hline)
      · rename_i hline
        exact moves_put (.refused hnew hline)
  | build j unixNow =>
    show (w.build hmac j unixNow).requests i = _ ∨ ∃ stage, (w.build hmac j unixNow).requests i = _ ∧ _
    unfold build
    split
    · rename_i path hstage
      split
      · rename_i hbuild
        exact moves_put (.unready hstage hbuild)
      · rename_i url generation hasAuth hbuild
        cases hasAuth with
        | true => exact moves_put (.signed hstage hbuild)
        | false => exact moves_put (.unsigned hstage hbuild)
    · exact .inl rfl
  | probe j forbidden =>
    show (w.probe j forbidden).requests i = _ ∨ ∃ stage, (w.probe j forbidden).requests i = _ ∧ _
    unfold probe
    split
    · rename_i path url generation hstage
      cases forbidden with
      | true => exact moves_put (.rejected hstage)
      | false => exact moves_put (.accepted hstage)
    · exact .inl rfl
  | look j =>
    show (w.look j).requests i = _ ∨ ∃ stage, (w.look j).requests i = _ ∧ _
    unfold look
    split
    · rename_i path url generation deadline lookAt hstage
      split
      · exact .inl rfl
      · split
        · rename_i hin
          split
          · rename_i hnewer
            obtain ⟨st, hst, hgen⟩ := (Option.any_eq_true _ _).1 hnewer
            exact moves_put (.newer hstage hin hst (of_decide_eq_true hgen))
          · exact moves_put (.same hstage)
        · rename_i hlate
          exact moves_put (.late hstage (Nat.not_lt.1 hlate))
    · exact .inl rfl
  | renew j unixNow =>
    show (w.renew hmac j unixNow).requests i = _ ∨ ∃ stage, (w.renew hmac j unixNow).requests i = _ ∧ _
    unfold renew
    split
    · rename_i path url hstage
      exact moves_put (.renewed hstage)
    · exact .inl rfl
  | reprobe j forbidden =>
    show (w.reprobe j forbidden).requests i = _ ∨ ∃ stage, (w.reprobe j forbidden).requests i = _ ∧ _
    unfold reprobe
    split
    · rename_i url hstage
      cases forbidden with
      | true => exact moves_put (.rejected' hstage)
      | false => exact moves_put (.accepted' hstage)
    · exact .inl rfl

end Moves

/-! ## Why a request is answered as it is -/

section Justified

variable (hmac : MediaKey → String → List UInt8) (events : List ProxyEvent) (i : Nat)

/-- The event finds the request at the stage; `none` before its request line is read. -/
def Takes (stage : Option RequestStage) (e : ProxyEvent) : Prop :=
  ∃ before, before ++ [e] <+: events ∧ (run hmac before).requests i = stage

/-- The request line that is read names the track. -/
def Asks (path : String) : Prop :=
  ∃ requestLine, Takes hmac events i none (.request i requestLine) ∧ requestedTrack requestLine = .ok path

/-- What `build_redirect_target` gives the request, the first time or after the wait. -/
def Builds (path : String) (target : String × UInt64 × Bool) : Prop :=
  ∃ before unixNow, Asks hmac before i path ∧
    buildRedirectTarget hmac (run hmac before).proxy unixNow path = some target ∧
    ((before ++ [.build i unixNow] <+: events ∧ (run hmac before).requests i = some (.asked path)) ∨
      ∃ url, before ++ [.renew i unixNow] <+: events ∧ (run hmac before).requests i = some (.renewing path url))

/-- The server refuses the first URL of the request. -/
def Forbids (path : String) : Prop :=
  ∃ url generation, Takes hmac events i (some (.probing path url generation)) (.probe i true)

inductive Justified : ProxyAnswer → Prop
  /-- A signed URL is the one that the request's last probe was of, and was not refused. -/
  | redirected {path url : String} {generation : UInt64} {hasAuth : Bool}
      (hbuilds : Builds hmac events i path (url, generation, hasAuth))
      (hprobes : hasAuth = true → Takes hmac events i (some (.probing path url generation)) (.probe i false) ∨
        Forbids hmac events i path ∧ Takes hmac events i (some (.reprobing url)) (.reprobe i false)) :
      Justified ⟨302, some url⟩
  /-- When the request's first URL was to be built, no session had been acknowledged, or the clock was before 1970
  and the URL had to be signed. -/
  | unready {path : String} {before : List ProxyEvent} {unixNow : Option UInt64}
      (hbuilds : before ++ [.build i unixNow] <+: events) (hasked : Asks hmac before i path)
      (hstage : (run hmac before).requests i = some (.asked path))
      (hnone : (run hmac before).proxy = none ∨
        unixNow = none ∧ ∃ st, (run hmac before).proxy = some st ∧ st.auth.isSome) :
      Justified ⟨503, none⟩
  /-- The server refused the first URL, and then the one that the request came to after the wait. -/
  | rejected {path url : String} {generation : UInt64} {hasAuth : Bool}
      (hbuilds : Builds hmac events i path (url, generation, hasAuth)) (hforbids : Forbids hmac events i path)
      (hprobe : Takes hmac events i (some (.reprobing url)) (.reprobe i true)) : Justified ⟨503, none⟩
  | refused {requestLine : String} {status : Nat} (hread : Takes hmac events i none (.request i requestLine))
      (hline : requestedTrack requestLine = .error status) : Justified ⟨status, none⟩

/-- What is known of a request at a stage. -/
def Explains : RequestStage → Prop
  | .asked path => Asks hmac events i path
  | .probing path url generation => Builds hmac events i path (url, generation, true)
  | .waiting path url generation _ _ =>
    Builds hmac events i path (url, generation, true) ∧ Forbids hmac events i path
  | .renewing path url =>
    ∃ generation, Builds hmac events i path (url, generation, true) ∧ Forbids hmac events i path
  | .reprobing url => ∃ path generation hasAuth,
      Builds hmac events i path (url, generation, hasAuth) ∧ Forbids hmac events i path
  | .answered answer => Justified hmac events i answer

end Justified

section Explained

variable {hmac : MediaKey → String → List UInt8} {events later : List ProxyEvent} {i : Nat} {e : ProxyEvent}
  {path : String}

theorem takes_now : Takes hmac (events ++ [e]) i ((run hmac events).requests i) e :=
  ⟨events, List.prefix_rfl, rfl⟩

theorem Takes.mono {stage : Option RequestStage} (h : Takes hmac events i stage e) (hlater : events <+: later) :
    Takes hmac later i stage e := by
  obtain ⟨before, hbefore, hstage⟩ := h
  exact ⟨before, hbefore.trans hlater, hstage⟩

theorem Asks.mono (h : Asks hmac events i path) (hlater : events <+: later) : Asks hmac later i path := by
  obtain ⟨requestLine, hread, hline⟩ := h
  exact ⟨requestLine, hread.mono hlater, hline⟩

theorem Forbids.mono (h : Forbids hmac events i path) (hlater : events <+: later) : Forbids hmac later i path := by
  obtain ⟨url, generation, hprobe⟩ := h
  exact ⟨url, generation, hprobe.mono hlater⟩

theorem Builds.mono {target : String × UInt64 × Bool} (h : Builds hmac events i path target)
    (hlater : events <+: later) : Builds hmac later i path target := by
  obtain ⟨before, unixNow, hasked, hbuild, ⟨hbefore, hstage⟩ | ⟨url, hbefore, hstage⟩⟩ := h
  · exact ⟨before, unixNow, hasked, hbuild, .inl ⟨hbefore.trans hlater, hstage⟩⟩
  · exact ⟨before, unixNow, hasked, hbuild, .inr ⟨url, hbefore.trans hlater, hstage⟩⟩

theorem Builds.asks {target : String × UInt64 × Bool} (h : Builds hmac events i path target) :
    Asks hmac events i path := by
  obtain ⟨before, unixNow, hasked, -, ⟨hbefore, -⟩ | ⟨url, hbefore, -⟩⟩ := h
  · exact hasked.mono ((List.prefix_append _ _).trans hbefore)
  · exact hasked.mono ((List.prefix_append _ _).trans hbefore)

theorem Explains.mono {stage : RequestStage} (h : Explains hmac events i stage) (hlater : events <+: later) :
    Explains hmac later i stage := by
  cases stage with
  | asked path => exact Asks.mono h hlater
  | probing path url generation => exact Builds.mono h hlater
  | waiting path url generation deadline lookAt => exact ⟨h.1.mono hlater, h.2.mono hlater⟩
  | renewing path url =>
    obtain ⟨generation, hbuilds, hforbids⟩ := h
    exact ⟨generation, hbuilds.mono hlater, hforbids.mono hlater⟩
  | reprobing url =>
    obtain ⟨path, generation, hasAuth, hbuilds, hforbids⟩ := h
    exact ⟨path, generation, hasAuth, hbuilds.mono hlater, hforbids.mono hlater⟩
  | answered answer =>
    cases h with
    | redirected hbuilds hprobes =>
      refine .redirected (hbuilds.mono hlater) fun hauth => ?_
      rcases hprobes hauth with hfirst | ⟨hforbids, hlast⟩
      · exact .inl (hfirst.mono hlater)
      · exact .inr ⟨hforbids.mono hlater, hlast.mono hlater⟩
    | unready hbuilds hasked hstage hnone => exact .unready (hbuilds.trans hlater) hasked hstage hnone
    | rejected hbuilds hforbids hprobe =>
      exact .rejected (hbuilds.mono hlater) (hforbids.mono hlater) (hprobe.mono hlater)
    | refused hread hline => exact .refused (hread.mono hlater) hline

theorem unready_of_build {proxy : Option ProxyState} {unixNow : Option UInt64}
    (h : buildRedirectTarget hmac proxy unixNow path = none) :
    proxy = none ∨ unixNow = none ∧ ∃ st, proxy = some st ∧ st.auth.isSome := by
  cases proxy with
  | none => exact .inl rfl
  | some st =>
    obtain ⟨base, auth, generation⟩ := st
    cases auth with
    | none => cases h
    | some auth =>
      cases unixNow with
      | none => exact .inr ⟨rfl, _, rfl, rfl⟩
      | some now => cases h

theorem explains_moves (hall : ∀ stage, (run hmac events).requests i = some stage → Explains hmac events i stage)
    {stage : RequestStage} (hmoves : Moves hmac (run hmac events) i e stage) :
    Explains hmac (events ++ [e]) i stage := by
  have hlater : events <+: events ++ [e] := List.prefix_append _ _
  cases hmoves with
  | refused hnew hline => exact .refused (hnew ▸ takes_now) hline
  | asked hnew hline => exact ⟨_, hnew ▸ takes_now, hline⟩
  | unready hstage hbuild => exact .unready List.prefix_rfl (hall _ hstage) hstage (unready_of_build hbuild)
  | signed hstage hbuild => exact ⟨events, _, hall _ hstage, hbuild, .inl ⟨List.prefix_rfl, hstage⟩⟩
  | unsigned hstage hbuild =>
    refine .redirected ⟨events, _, hall _ hstage, hbuild, .inl ⟨List.prefix_rfl, hstage⟩⟩ ?_
    intro h
    cases h
  | accepted hstage =>
    have hbuilds : Builds hmac events i _ _ := hall _ hstage
    exact .redirected (hbuilds.mono hlater) fun _ => .inl (hstage ▸ takes_now)
  | rejected hstage =>
    have hbuilds : Builds hmac events i _ _ := hall _ hstage
    exact ⟨hbuilds.mono hlater, _, _, hstage ▸ takes_now⟩
  | same hstage =>
    obtain ⟨hbuilds, hforbids⟩ := hall _ hstage
    exact ⟨hbuilds.mono hlater, hforbids.mono hlater⟩
  | newer hstage hin hst hnewer =>
    obtain ⟨hbuilds, hforbids⟩ := hall _ hstage
    exact ⟨_, hbuilds.mono hlater, hforbids.mono hlater⟩
  | late hstage hlate =>
    obtain ⟨hbuilds, hforbids⟩ := hall _ hstage
    exact ⟨_, _, true, hbuilds.mono hlater, hforbids.mono hlater⟩
  | @renewed path url unixNow hstage =>
    obtain ⟨generation, hbuilds, hforbids⟩ := hall _ hstage
    cases hbuild : buildRedirectTarget hmac (run hmac events).proxy unixNow path with
    | none => exact ⟨path, generation, true, hbuilds.mono hlater, hforbids.mono hlater⟩
    | some target =>
      obtain ⟨url', generation', hasAuth⟩ := target
      exact ⟨path, generation', hasAuth,
        ⟨events, unixNow, hbuilds.asks, hbuild, .inr ⟨url, List.prefix_rfl, hstage⟩⟩, hforbids.mono hlater⟩
  | accepted' hstage =>
    obtain ⟨path, generation, hasAuth, hbuilds, hforbids⟩ := hall _ hstage
    exact .redirected (hbuilds.mono hlater) fun _ => .inr ⟨hforbids.mono hlater, hstage ▸ takes_now⟩
  | rejected' hstage =>
    obtain ⟨path, generation, hasAuth, hbuilds, hforbids⟩ := hall _ hstage
    exact .rejected (hbuilds.mono hlater) (hforbids.mono hlater) (hstage ▸ takes_now)

theorem run_concat (e : ProxyEvent) : run hmac (events ++ [e]) = step hmac e (run hmac events) :=
  runAll_append _ _ _

theorem explains_run (hmac : MediaKey → String → List UInt8) (events : List ProxyEvent) (i : Nat) :
    ∀ stage, (run hmac events).requests i = some stage → Explains hmac events i stage := by
  induction events using List.reverseRecOn with
  | nil =>
    intro stage h
    cases h
  | append_singleton events e ih =>
    intro stage hstage
    rw [run_concat] at hstage
    rcases requests_step hmac e (run hmac events) i with hsame | ⟨stage', hnext, hmoves⟩
    · rw [hsame] at hstage
      exact (ih stage hstage).mono (List.prefix_append _ _)
    · rw [hnext] at hstage
      cases hstage
      exact explains_moves ih hmoves

end Explained

/-- Whatever comes between, a request is answered with a redirect to a URL of its own track that was made after it
was read and that, if it is signed, the server did not refuse; or it is refused for its line, for lack of keys when
its URL was to be built, or because the server refused its first URL and, after the wait, its last. -/
theorem answers_justified (hmac : MediaKey → String → List UInt8) (events : List ProxyEvent) (i : Nat)
    {answer : ProxyAnswer} (hanswer : (run hmac events).requests i = some (.answered answer)) :
    Justified hmac events i answer := explains_run hmac events i _ hanswer

/-! ## New keys in time -/

/-- What the requests do not change, but for the messages that they leave. -/
structure Control where
  now : Nat
  main : MainStage
  backoff : Nat
  proxy : Option ProxyState
  ended : Nat

def control (w : ProxyNode) : Control := ⟨w.now, w.main, w.backoff, w.proxy, w.ended⟩

/-- The backoff of a session before which so many have ended. -/
def backoffAfter : Nat → Nat
  | 0 => 1000
  | n + 1 => min (backoffAfter n * 2) maxBackoff

/-- What a step does to the loop of `main`. -/
inductive Turns (w : ProxyNode) : ProxyEvent → Control → Prop
  | wait (millis : Nat) : Turns w (.wait millis) { w.control with now := w.now + millis }
  | registered (base : String) (auth : Option (String × MediaKey)) (hmain : w.main = .connecting) :
      Turns w (.registered base auth)
        { w.control with main := .serving, proxy := some (ProxyState.update w.proxy base auth) }
  | pushed (base : String) (auth : Option (String × MediaKey)) (hmain : w.main = .serving) :
      Turns w (.pushed base auth) { w.control with proxy := some (ProxyState.update w.proxy base auth) }
  | ends {e : ProxyEvent} (hmain : ∀ wakeAt, w.main ≠ .sleeping wakeAt) :
      Turns w e { w.control with main := .sleeping (w.now + w.backoff), ended := w.ended + 1 }
  | wakes {wakeAt : Nat} (hmain : w.main = .sleeping wakeAt) (hnow : wakeAt ≤ w.now) :
      Turns w .wake { w.control with main := .connecting, backoff := min (w.backoff * 2) maxBackoff }

section Control

variable {hmac : MediaKey → String → List UInt8} {w : ProxyNode} {i : Nat}

theorem control_request (requestLine : String) : (w.request i requestLine).control = w.control := by
  unfold request
  split
  · rfl
  · split <;> rfl

theorem control_build (unixNow : Option UInt64) : (w.build hmac i unixNow).control = w.control := by
  unfold build
  split
  · split
    · rfl
    · split <;> rfl
  · rfl

theorem control_probe (forbidden : Bool) : (w.probe i forbidden).control = w.control := by
  unfold probe
  split
  · split <;> rfl
  · rfl

theorem control_look : (w.look i).control = w.control := by
  unfold look
  split
  · split
    · rfl
    · split
      · split <;> rfl
      · rfl
  · rfl

theorem control_renew (unixNow : Option UInt64) : (w.renew hmac i unixNow).control = w.control := by
  unfold renew
  split <;> rfl

theorem control_reprobe (forbidden : Bool) : (w.reprobe i forbidden).control = w.control := by
  unfold reprobe
  split <;> rfl

theorem control_step (hmac : MediaKey → String → List UInt8) (e : ProxyEvent) (w : ProxyNode) :
    (step hmac e w).control = w.control ∨ Turns w e (step hmac e w).control := by
  cases e with
  | wait millis => exact .inr (.wait millis)
  | registered base auth =>
    show (w.register base auth).control = _ ∨ Turns w _ (w.register base auth).control
    unfold register
    split
    · rename_i hmain
      exact .inr (.registered base auth hmain)
    · exact .inl rfl
  | pushed base auth =>
    show (w.push base auth).control = _ ∨ Turns w _ (w.push base auth).control
    unfold push
    split
    · rename_i hmain
      exact .inr (.pushed base auth hmain)
    · exact .inl rfl
  | refresh =>
    show w.takeRefresh.control = _ ∨ Turns w _ w.takeRefresh.control
    unfold takeRefresh
    split
    · rename_i hmain
      split
      · exact .inl rfl
      · refine .inr (.ends fun wakeAt h => ?_)
        rw [hmain] at h
        cases h
    · exact .inl rfl
  | ended =>
    show w.loseSession.control = _ ∨ Turns w _ w.loseSession.control
    unfold loseSession
    split
    · exact .inl rfl
    · rename_i hmain
      exact .inr (.ends hmain)
  | wake =>
    show w.wakeUp.control = _ ∨ Turns w _ w.wakeUp.control
    unfold wakeUp
    split
    · rename_i wakeAt hmain
      split
      · exact .inl rfl
      · rename_i hnow
        exact .inr (.wakes hmain (Nat.not_lt.1 hnow))
    · exact .inl rfl
  | request j requestLine => exact .inl (control_request requestLine)
  | build j unixNow => exact .inl (control_build unixNow)
  | probe j forbidden => exact .inl (control_probe forbidden)
  | look j => exact .inl control_look
  | renew j unixNow => exact .inl (control_renew unixNow)
  | reprobe j forbidden => exact .inl (control_reprobe forbidden)

end Control

/-- The backoff that the next sleep takes, or this one. -/
def Control.nextBackoff (c : Control) : Nat :=
  match c.main with
  | .sleeping _ => min (c.backoff * 2) maxBackoff
  | _ => c.backoff

section Backoff

variable {hmac : MediaKey → String → List UInt8}

theorem nextBackoff_step (e : ProxyEvent) (w : ProxyNode) (h : w.control.nextBackoff = backoffAfter w.ended) :
    (step hmac e w).control.nextBackoff = backoffAfter (step hmac e w).control.ended := by
  rcases control_step hmac e w with hsame | hturns
  · rw [hsame]
    exact h
  · generalize (step hmac e w).control = c at hturns
    cases hturns with
    | wait millis => exact h
    | registered base auth hmain =>
      rw [control, Control.nextBackoff, hmain] at h
      exact h
    | pushed base auth hmain =>
      rw [control, Control.nextBackoff, hmain] at h
      rw [control, Control.nextBackoff, hmain]
      exact h
    | ends hmain =>
      have hback : w.backoff = backoffAfter w.ended := by
        rw [control, Control.nextBackoff] at h
        cases hw : w.main with
        | connecting =>
          rw [hw] at h
          exact h
        | serving =>
          rw [hw] at h
          exact h
        | sleeping wakeAt => exact absurd hw (hmain wakeAt)
      show min (w.backoff * 2) maxBackoff = min (backoffAfter w.ended * 2) maxBackoff
      rw [hback]
    | wakes hmain hnow =>
      rw [control, Control.nextBackoff, hmain] at h
      exact h

theorem backoff_of_serving (hmac : MediaKey → String → List UInt8) (events : List ProxyEvent) (hserving : (run hmac events).main = .serving) :
    (run hmac events).backoff = backoffAfter (run hmac events).ended := by
  have h : (run hmac events).control.nextBackoff = backoffAfter (run hmac events).ended :=
    runAll_keeps (I := fun w => w.control.nextBackoff = backoffAfter w.ended)
      (fun e w h => nextBackoff_step e w h) events rfl
  rw [control, Control.nextBackoff, hserving] at h
  exact h

theorem backoffAfter_lt_iff (n : Nat) : backoffAfter n < refreshWaitTimeout ↔ n ≤ 2 := by
  have hlate : ∀ n, 8000 ≤ backoffAfter (n + 3) := by
    intro n
    induction n with
    | zero => decide
    | succ n ih =>
      show 8000 ≤ min (backoffAfter (n + 3) * 2) maxBackoff
      have hmax : maxBackoff = 30000 := rfl
      omega
  constructor
  · intro h
    by_contra hn
    obtain ⟨m, rfl⟩ : ∃ m, n = m + 3 := ⟨n - 3, by omega⟩
    have := hlate m
    have hwait : refreshWaitTimeout = 5000 := rfl
    omega
  · intro h
    have hcases : n = 0 ∨ n = 1 ∨ n = 2 := by omega
    rcases hcases with rfl | rfl | rfl <;> decide

end Backoff

/-! ### Generations -/

section Generations

variable {hmac : MediaKey → String → List UInt8} {w : ProxyNode}

theorem le_saturatingAdd_one (a : UInt64) : a ≤ saturatingAdd a 1 := by
  unfold saturatingAdd
  split
  · rename_i h
    rw [UInt64.le_iff_toNat_le, UInt64.toNat_add, Nat.mod_eq_of_lt h]
    exact Nat.le_add_right _ _
  · rw [UInt64.le_iff_toNat_le]
    exact Nat.le_of_lt_succ a.toNat_lt

theorem lt_saturatingAdd_one {a : UInt64} (h : a.toNat < 2 ^ 64 - 1) : a < saturatingAdd a 1 := by
  have hsum : a.toNat + (1 : UInt64).toNat < 2 ^ 64 := by
    show a.toNat + 1 < 2 ^ 64
    omega
  rw [saturatingAdd, if_pos hsum, UInt64.lt_iff_toNat_lt, UInt64.toNat_add, Nat.mod_eq_of_lt hsum]
  exact Nat.lt_succ_self _

/-- A request's URL is of no later generation than what the proxy has. -/
def GenerationsIn (w : ProxyNode) : Prop :=
  ∀ i path url generation, w.requests i = some (.probing path url generation) →
    ∃ st, w.proxy = some st ∧ generation ≤ st.generation

theorem generation_of_build {path url : String} {unixNow : Option UInt64} {generation : UInt64} {hasAuth : Bool}
    (h : buildRedirectTarget hmac w.proxy unixNow path = some (url, generation, hasAuth)) :
    ∃ st, w.proxy = some st ∧ st.generation = generation := by
  unfold buildRedirectTarget at h
  obtain ⟨st, hst, h⟩ := Option.bind_eq_some_iff.1 h
  refine ⟨st, hst, ?_⟩
  split at h
  · obtain ⟨now, -, h⟩ := Option.bind_eq_some_iff.1 h
    exact (Prod.mk.inj (Prod.mk.inj (Option.some.inj h)).2).1
  · exact (Prod.mk.inj (Prod.mk.inj (Option.some.inj h)).2).1

/-- The proxy's generation never goes back. -/
theorem generation_step (hmac : MediaKey → String → List UInt8) (e : ProxyEvent) {st : ProxyState} (hst : w.proxy = some st) :
    ∃ st', (step hmac e w).proxy = some st' ∧ st.generation ≤ st'.generation := by
  have hupdate : ∀ base auth, st.generation ≤ (ProxyState.update w.proxy base auth).generation := by
    intro base auth
    rw [hst]
    exact le_saturatingAdd_one _
  have hproxy : (step hmac e w).proxy = (step hmac e w).control.proxy := rfl
  rw [hproxy]
  rcases control_step hmac e w with hsame | hturns
  · rw [hsame]
    exact ⟨st, hst, UInt64.le_refl _⟩
  · generalize (step hmac e w).control = c at hturns
    cases hturns with
    | wait millis => exact ⟨st, hst, UInt64.le_refl _⟩
    | registered base auth hmain => exact ⟨_, rfl, hupdate base auth⟩
    | pushed base auth hmain => exact ⟨_, rfl, hupdate base auth⟩
    | ends hmain => exact ⟨st, hst, UInt64.le_refl _⟩
    | wakes hmain hnow => exact ⟨st, hst, UInt64.le_refl _⟩

theorem generationsIn_step (e : ProxyEvent) (w : ProxyNode) (h : w.GenerationsIn) :
    (step hmac e w).GenerationsIn := by
  intro i path url generation hstage
  have hold : ∃ st, w.proxy = some st ∧ generation ≤ st.generation := by
    rcases requests_step hmac e w i with hsame | ⟨stage, hnext, hmoves⟩
    · rw [hsame] at hstage
      exact h i path url generation hstage
    · rw [hnext] at hstage
      cases hstage
      cases hmoves with
      | signed hasked hbuild =>
        obtain ⟨st, hst, hgeneration⟩ := generation_of_build hbuild
        exact ⟨st, hst, hgeneration ▸ UInt64.le_refl _⟩
  obtain ⟨st, hst, hle⟩ := hold
  obtain ⟨st', hst', hle'⟩ := generation_step hmac e hst
  exact ⟨st', hst', UInt64.le_trans hle hle'⟩

theorem generationsIn_run (events : List ProxyEvent) : (run hmac events).GenerationsIn :=
  runAll_keeps (I := GenerationsIn) (fun e w h => generationsIn_step e w h) events fun _ _ _ _ h => by cases h

end Generations

/-! ### Too late -/

section Late

variable {hmac : MediaKey → String → List UInt8} {w : ProxyNode}

/-- The keys are no newer than `generation` up to the time, and the next session will not be there before it. -/
structure Behind (deadline : Nat) (generation : UInt64) (c : Control) : Prop where
  keys : ∀ st, c.proxy = some st → st.generation ≤ generation
  main : (c.main = .serving ∧ deadline ≤ c.now + c.backoff) ∨ ∃ wakeAt, c.main = .sleeping wakeAt ∧ deadline ≤ wakeAt

/-- Nothing newer can come before the time. -/
def Late (deadline : Nat) (generation : UInt64) (c : Control) : Prop :=
  deadline ≤ c.now ∨ generation.toNat = 2 ^ 64 - 1 ∨ Behind deadline generation c

theorem late_step {deadline : Nat} {generation : UInt64} {e : ProxyEvent}
    (hpushed : ∀ base auth, e ≠ .pushed base auth) (h : Late deadline generation w.control) :
    Late deadline generation (step hmac e w).control := by
  rcases control_step hmac e w with hsame | hturns
  · rw [hsame]
    exact h
  · generalize (step hmac e w).control = c at hturns
    rcases h with hnow | hmax | ⟨hkeys, hmain⟩
    · left
      have hle : w.now ≤ c.now := by
        cases hturns with
        | wait millis => exact Nat.le_add_right _ _
        | registered base auth hmain => exact Nat.le_refl _
        | pushed base auth hmain => exact Nat.le_refl _
        | ends hmain => exact Nat.le_refl _
        | wakes hmain hwake => exact Nat.le_refl _
      exact Nat.le_trans hnow hle
    · exact .inr (.inl hmax)
    · cases hturns with
      | wait millis =>
        refine .inr (.inr ⟨hkeys, ?_⟩)
        rcases hmain with ⟨hserving, hback⟩ | hsleeping
        · refine .inl ⟨hserving, ?_⟩
          have hback : deadline ≤ w.now + w.backoff := hback
          show deadline ≤ w.now + millis + w.backoff
          omega
        · exact .inr hsleeping
      | registered base auth hconnecting =>
        rcases hmain with ⟨hserving, -⟩ | ⟨wakeAt, hsleeping, -⟩
        · exact absurd (hconnecting.symm.trans hserving) (by simp)
        · exact absurd (hconnecting.symm.trans hsleeping) (by simp)
      | pushed base auth hserving => exact absurd rfl (hpushed base auth)
      | ends hawake =>
        refine .inr (.inr ⟨hkeys, ?_⟩)
        rcases hmain with ⟨hserving, hback⟩ | ⟨wakeAt, hsleeping, -⟩
        · exact .inr ⟨_, rfl, hback⟩
        · exact absurd hsleeping (hawake wakeAt)
      | @wakes wakeAt hsleeping hnow =>
        rcases hmain with ⟨hserving, -⟩ | ⟨wakeAt', hsleeping', hlate⟩
        · exact absurd (hsleeping.symm.trans hserving) (by simp)
        · left
          have heq : wakeAt = wakeAt' := MainStage.sleeping.inj (hsleeping.symm.trans hsleeping')
          exact Nat.le_trans (heq ▸ hlate) hnow

/-- A request that waits, or that has waited without new keys. -/
def Waits (i : Nat) (generation : UInt64) (deadline : Nat) (w : ProxyNode) : Prop :=
  ∃ stage, w.requests i = some stage ∧
    ((∃ path url lookAt, stage = .waiting path url generation deadline lookAt) ∨
      (∃ url, stage = .reprobing url) ∨ ∃ answer, stage = .answered answer)

theorem not_newer_of_late {deadline : Nat} {generation : UInt64} {st : ProxyState}
    (h : Late deadline generation w.control) (hst : w.proxy = some st) (hin : w.now < deadline) :
    ¬generation < st.generation := by
  rw [UInt64.lt_iff_toNat_lt]
  rcases h with hnow | hmax | hbehind
  · exact absurd hnow (Nat.not_le_of_lt hin)
  · have := st.generation.toNat_lt
    omega
  · have hle := UInt64.le_iff_toNat_le.1 (hbehind.keys st hst)
    omega

theorem waits_step {i deadline : Nat} {generation : UInt64} {e : ProxyEvent}
    (hlate : Late deadline generation w.control) (h : w.Waits i generation deadline) :
    (step hmac e w).Waits i generation deadline := by
  obtain ⟨stage, hstage, hkind⟩ := h
  rcases requests_step hmac e w i with hsame | ⟨stage', hnext, hmoves⟩
  · exact ⟨stage, hsame.trans hstage, hkind⟩
  · refine ⟨stage', hnext, ?_⟩
    have hkind' : ∀ s, w.requests i = some s →
        (∃ path url lookAt, s = .waiting path url generation deadline lookAt) ∨
          (∃ url, s = .reprobing url) ∨ ∃ answer, s = .answered answer := by
      intro s hs
      exact Option.some.inj (hstage.symm.trans hs) ▸ hkind
    cases hmoves with
    | refused hnew hline => exact .inr (.inr ⟨_, rfl⟩)
    | asked hnew hline =>
      rw [hstage] at hnew
      cases hnew
    | unready hs hbuild => exact .inr (.inr ⟨_, rfl⟩)
    | signed hs hbuild => rcases hkind' _ hs with ⟨_, _, _, h⟩ | ⟨_, h⟩ | ⟨_, h⟩ <;> cases h
    | unsigned hs hbuild => exact .inr (.inr ⟨_, rfl⟩)
    | accepted hs => exact .inr (.inr ⟨_, rfl⟩)
    | rejected hs => rcases hkind' _ hs with ⟨_, _, _, h⟩ | ⟨_, h⟩ | ⟨_, h⟩ <;> cases h
    | same hs =>
      rcases hkind' _ hs with ⟨path, url, lookAt, h⟩ | ⟨_, h⟩ | ⟨_, h⟩
      · cases h
        exact .inl ⟨_, _, _, rfl⟩
      · cases h
      · cases h
    | newer hs hin hst hnewer =>
      rcases hkind' _ hs with ⟨path, url, lookAt, h⟩ | ⟨_, h⟩ | ⟨_, h⟩
      · cases h
        exact absurd hnewer (not_newer_of_late hlate hst hin)
      · cases h
      · cases h
    | late hs hpast => exact .inr (.inl ⟨_, rfl⟩)
    | renewed hs => exact .inr (.inl ⟨_, rfl⟩)
    | accepted' hs => exact .inr (.inr ⟨_, rfl⟩)
    | rejected' hs => exact .inr (.inr ⟨_, rfl⟩)

theorem waits_run {i deadline : Nat} {generation : UInt64} {during : List ProxyEvent}
    (hpushed : ∀ base auth, .pushed base auth ∉ during) (hlate : Late deadline generation w.control)
    (h : w.Waits i generation deadline) : (runAll (step hmac) during w).Waits i generation deadline := by
  induction during generalizing w with
  | nil => exact h
  | cons e during ih =>
    have hrest : ∀ base auth, .pushed base auth ∉ during := fun base auth hmem =>
      hpushed base auth (List.mem_cons_of_mem _ hmem)
    have hhead : ∀ base auth, e ≠ .pushed base auth := fun base auth heq => hpushed base auth (by simp [heq])
    exact ih hrest (late_step hhead hlate) (waits_step hlate h)

theorem requests_probe_self (hmac : MediaKey → String → List UInt8) {i : Nat} {path url : String} {generation : UInt64}
    (hprobing : w.requests i = some (.probing path url generation)) :
    (step hmac (.probe i true) w).requests i =
      some (.waiting path url generation (w.now + refreshWaitTimeout) w.now) := by
  show (w.probe i true).requests i = _
  rw [probe, hprobing]
  exact if_pos rfl

/-- What a look finds. -/
theorem look_newer {i deadline lookAt : Nat} {path url : String} {generation : UInt64} {st : ProxyState}
    (hwaiting : w.requests i = some (.waiting path url generation deadline lookAt)) (hlook : lookAt ≤ w.now)
    (hin : w.now < deadline) (hst : w.proxy = some st) (hnewer : generation < st.generation) :
    (w.look i).requests i = some (.renewing path url) := by
  have hany : (w.proxy.any fun st => generation < st.generation) = true := by
    rw [hst]
    exact decide_eq_true hnewer
  rw [look, hwaiting]
  dsimp only
  rw [if_neg (Nat.not_lt.2 hlook), if_pos hin, if_pos hany]
  exact if_pos rfl

/-- The next session can be acknowledged before a wait that begins now is over. -/
def Control.Soon (c : Control) : Prop :=
  match c.main with
  | .connecting => True
  | .serving => c.ended ≤ 2
  | .sleeping wakeAt => wakeAt < c.now + refreshWaitTimeout

theorem behind_of_not_soon {st : ProxyState} (hback : w.main = .serving → w.backoff = backoffAfter w.ended)
    (hst : w.proxy = some st) (hsoon : ¬w.control.Soon) :
    Behind (w.now + refreshWaitTimeout) st.generation w.control := by
  refine ⟨?_, ?_⟩
  · intro st' hst'
    cases hst.symm.trans hst'
    exact UInt64.le_refl _
  · rw [Control.Soon] at hsoon
    cases hmain : w.control.main with
    | connecting =>
      rw [hmain] at hsoon
      exact absurd trivial hsoon
    | serving =>
      rw [hmain] at hsoon
      have hlong : ¬backoffAfter w.ended < refreshWaitTimeout := fun h => hsoon ((backoffAfter_lt_iff _).1 h)
      rw [← hback hmain] at hlong
      exact .inl ⟨rfl, Nat.add_le_add_left (Nat.not_lt.1 hlong) _⟩
    | sleeping wakeAt =>
      rw [hmain] at hsoon
      exact .inr ⟨wakeAt, rfl, Nat.not_lt.1 hsoon⟩

/-- The loop of `main` has slept. -/
theorem run_wake (hmac : MediaKey → String → List UInt8) {wakeAt : Nat} (hsleeping : w.main = .sleeping wakeAt) :
    runAll (step hmac) [.wait (wakeAt - w.now), .wake] w =
      { w with
        now := w.now + (wakeAt - w.now), main := .connecting, backoff := min (w.backoff * 2) maxBackoff } := by
  show ({ w with now := w.now + (wakeAt - w.now) } : ProxyNode).wakeUp = _
  rw [wakeUp, hsleeping]
  have hawake : ¬w.now + (wakeAt - w.now) < wakeAt := by omega
  exact if_neg hawake

/-- A session that is up is closed for a message of the proxy, and the next one connects as soon as it can. -/
theorem exists_connecting (hmac : MediaKey → String → List UInt8)
    (hback : w.main = .serving → w.backoff = backoffAfter w.ended) (hmessage : 0 < w.refreshes)
    (hsoon : w.control.Soon) :
    ∃ during now backoff refreshes ended, (∀ base auth, .pushed base auth ∉ during) ∧
      w.now ≤ now ∧ now < w.now + refreshWaitTimeout ∧
      runAll (step hmac) during w =
        { w with main := .connecting, now := now, backoff := backoff, refreshes := refreshes, ended := ended } := by
  have hwait : 0 < refreshWaitTimeout := by decide
  rw [Control.Soon] at hsoon
  cases hmain : w.control.main with
  | connecting =>
    refine ⟨[], w.now, w.backoff, w.refreshes, w.ended, by simp, Nat.le_refl _, Nat.lt_add_of_pos_right hwait, ?_⟩
    have hconnecting : w.main = .connecting := hmain
    rw [← hconnecting]
    rfl
  | serving =>
    rw [hmain] at hsoon
    have hshort : w.backoff < refreshWaitTimeout := by
      rw [hback hmain]
      exact (backoffAfter_lt_iff _).2 hsoon
    have hsleep : step hmac .refresh w = { w.endSession with refreshes := w.refreshes - 1 } := by
      have hserving : w.main = .serving := hmain
      show w.takeRefresh = _
      rw [takeRefresh, hserving]
      exact if_neg (Nat.pos_iff_ne_zero.1 hmessage)
    refine ⟨.refresh :: [.wait (w.now + w.backoff - w.now), .wake], w.now + (w.now + w.backoff - w.now),
      min (w.backoff * 2) maxBackoff, w.refreshes - 1, w.ended + 1, by simp, Nat.le_add_right _ _, by omega, ?_⟩
    show runAll (step hmac) [.wait (w.now + w.backoff - w.now), .wake] (step hmac .refresh w) = _
    rw [hsleep]
    exact run_wake hmac rfl
  | sleeping wakeAt =>
    rw [hmain] at hsoon
    have hbefore : wakeAt < w.now + refreshWaitTimeout := hsoon
    exact ⟨_, w.now + (wakeAt - w.now), _, w.refreshes, w.ended, by simp, Nat.le_add_right _ _, by omega,
      run_wake hmac hmain⟩

/-- Asked for a new key, the node can only have one in time for the request if the request was late to have the
newest, or if the next session comes soon: while one is up, no more than two sessions may have ended so far, as the
backoff is never set back. -/
theorem refresh_helps_iff (hmac : MediaKey → String → List UInt8) (before : List ProxyEvent) (i : Nat)
    {path url : String} {generation : UInt64} {st : ProxyState} (hst : (run hmac before).proxy = some st)
    (hprobing : (run hmac before).requests i = some (.probing path url generation)) :
    (∃ during, (∀ base auth, .pushed base auth ∉ during) ∧
      ∃ path' url', (run hmac (before ++ .probe i true :: during)).requests i = some (.renewing path' url')) ↔
    generation < st.generation ∨ (run hmac before).control.Soon ∧ st.generation.toNat < 2 ^ 64 - 1 := by
  have hback := backoff_of_serving hmac before
  have hgenerations : ∃ st, (run hmac before).proxy = some st ∧ generation ≤ st.generation :=
    generationsIn_run before i path url generation hprobing
  have hrun : ∀ during, run hmac (before ++ .probe i true :: during) =
      runAll (step hmac) during (step hmac (.probe i true) (run hmac before)) := fun during => runAll_append _ _ _
  generalize run hmac before = w at hst hprobing hback hgenerations hrun
  obtain ⟨st', hst', hle⟩ := hgenerations
  cases hst.symm.trans hst'
  have hprobed := requests_probe_self hmac hprobing
  have hcontrol : (step hmac (.probe i true) w).control = w.control := control_probe true
  constructor
  · intro h
    obtain ⟨during, hpushed, path', url', hrenewing⟩ := h
    rw [hrun] at hrenewing
    by_contra hnot
    obtain ⟨hnewest, hsoon⟩ := not_or.1 hnot
    have hgeneration : st.generation = generation := UInt64.le_antisymm (UInt64.not_lt.1 hnewest) hle
    have hlate : Late (w.now + refreshWaitTimeout) generation w.control := by
      rw [← hgeneration]
      by_cases hmax : st.generation.toNat = 2 ^ 64 - 1
      · exact .inr (.inl hmax)
      · have hbound := st.generation.toNat_lt
        exact .inr (.inr (behind_of_not_soon hback hst fun h => hsoon ⟨h, by omega⟩))
    obtain ⟨stage, hstage, hkind⟩ := waits_run hpushed (hcontrol ▸ hlate) ⟨_, hprobed, .inl ⟨_, _, _, rfl⟩⟩
    rw [hrenewing] at hstage
    cases hstage
    rcases hkind with ⟨_, _, _, h⟩ | ⟨_, h⟩ | ⟨_, h⟩ <;> cases h
  · intro h
    have hmessage : 0 < (step hmac (.probe i true) w).refreshes := by
      show 0 < (w.probe i true).refreshes
      rw [probe, hprobing]
      exact Nat.lt_min.2 ⟨Nat.succ_pos _, by decide⟩
    generalize step hmac (.probe i true) w = v at hrun hprobed hcontrol hmessage
    obtain ⟨hnow, hmain, hbackoff, hproxy, hended⟩ := Control.mk.inj hcontrol
    rw [← hnow] at hprobed
    rcases h with hnewer | ⟨hsoon, hgeneration⟩
    · refine ⟨[.look i], by simp, path, url, ?_⟩
      rw [hrun]
      exact look_newer hprobed (Nat.le_refl _) (Nat.lt_add_of_pos_right (by decide)) (hproxy.trans hst) hnewer
    · rw [← hmain, ← hbackoff, ← hended] at hback
      obtain ⟨during, now, backoff, refreshes, ended, hpushed, hle', hlt, hduring⟩ :=
        exists_connecting hmac hback hmessage (hcontrol ▸ hsoon)
      refine ⟨during ++ [.registered "" none, .look i], ?_, path, url, ?_⟩
      · intro base auth hmem
        rcases List.mem_append.1 hmem with h | h
        · exact hpushed base auth h
        · simp at h
      · rw [hrun, runAll_append, hduring]
        refine look_newer hprobed hle' hlt rfl ?_
        rw [hproxy, hst]
        exact UInt64.lt_of_le_of_lt hle (lt_saturatingAdd_one hgeneration)

/-- A node with keys, and a request whose first URL is being probed. -/
def firstProbe : List ProxyEvent :=
  [.registered "http://kanade" (some ("k-1", sampleKey)), .request 0 "GET /media/tracks/3f HTTP/1.1\r\n",
    .build 0 (some 100)]

theorem build_signed (hmac : MediaKey → String → List UInt8) {proxy : Option ProxyState} {base kid : String}
    {key : MediaKey} {generation : UInt64} (hproxy : proxy = some ⟨base, some (kid, key), generation⟩)
    (now : UInt64) (path : String) :
    buildRedirectTarget hmac proxy (some now) path =
      some (signedUrl (trimSlashes base) path kid (saturatingAdd now mediaUrlTtlSecs)
        (ProxyState.sign hmac key path (saturatingAdd now mediaUrlTtlSecs)), generation, true) := by
  rw [hproxy, buildRedirectTarget, Option.bind_eq_bind, Option.bind_some]
  rfl

theorem firstProbe_probing : ∃ url,
    (run (fun _ _ => []) firstProbe).requests 0 = some (.probing "/media/tracks/3f" url 1) := by
  have hline : requestedTrack "GET /media/tracks/3f HTTP/1.1\r\n" = .ok "/media/tracks/3f" := by decide +kernel
  generalize hw : start.register "http://kanade" (some ("k-1", sampleKey)) = w
  have hproxy : w.proxy = some ⟨"http://kanade", some ("k-1", sampleKey), 1⟩ := by
    rw [← hw]
    rfl
  have hnew : w.requests 0 = none := by
    rw [← hw]
    rfl
  have hasked : w.request 0 "GET /media/tracks/3f HTTP/1.1\r\n" = w.put 0 (.asked "/media/tracks/3f") := by
    rw [request, hnew, hline]
    rfl
  obtain ⟨url, hurl⟩ : ∃ url,
      buildRedirectTarget (fun _ _ => []) w.proxy (some 100) "/media/tracks/3f" = some (url, 1, true) :=
    ⟨_, build_signed (fun _ _ => []) hproxy 100 "/media/tracks/3f"⟩
  refine ⟨url, ?_⟩
  show (((start.register "http://kanade" (some ("k-1", sampleKey))).request 0
    "GET /media/tracks/3f HTTP/1.1\r\n").build (fun _ _ => []) 0 (some 100)).requests 0 = _
  rw [hw, hasked, build]
  dsimp only [put]
  rw [if_pos rfl]
  dsimp only
  rw [hurl]
  rfl

theorem refresh_helps_iff_firstProbe : ∃ during, (∀ base auth, .pushed base auth ∉ during) ∧
    ∃ path url, (run (fun _ _ => []) (firstProbe ++ .probe 0 true :: during)).requests 0 =
      some (.renewing path url) := by
  obtain ⟨url, hprobing⟩ := firstProbe_probing
  exact (refresh_helps_iff (fun _ _ => []) firstProbe 0 rfl hprobing).2 (.inr ⟨Nat.zero_le 2, by decide⟩)

theorem answers_justified_redirected :
    ∃ url, Justified (fun _ _ => []) (firstProbe ++ [.probe 0 false]) 0 ⟨302, some url⟩ := by
  obtain ⟨url, hprobing⟩ := firstProbe_probing
  refine ⟨url, answers_justified (fun _ _ => []) _ 0 ?_⟩
  rw [run_concat]
  show ((run (fun _ _ => []) firstProbe).probe 0 false).requests 0 = _
  rw [probe, hprobing]
  rfl

end Late

end ProxyNode

end Kanade

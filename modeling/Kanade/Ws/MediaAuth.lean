import Kanade.Core.State
import Kanade.Text.Hex
import Kanade.Text.Url
import Kanade.Ws.MediaPath

/-!
# Kanade.Ws.MediaAuth

Signed URLs: the store of the keys, the three places that sign and the one that verifies.

`hmac` is HMAC-SHA256, of a key and a text; `sha256` is the hash of a text.
`signed_urls_agree`: what any of the signers signs is accepted until it expires, as long as the key
is stored, and the signature of a path and a time is accepted for no other.
-/

namespace Kanade

/-! ## Keys -/

/-- `[u8; 32]`. -/
abbrev MediaKey : Type := Vector UInt8 32

/-- `Uuid::new_v4().to_string()`: hexadecimal digits and hyphens. -/
def IsUuid (s : String) : Prop := ∀ c ∈ s.toList, c.isAlphanum ∨ c = '-'

structure StoredKey where
  key : MediaKey
  createdAt : Nat
deriving DecidableEq

/-- The keys by their ids. -/
structure MediaKeyStore where
  keys : String → Option StoredKey
  isUuid : ∀ kid, (keys kid).isSome → IsUuid kid

namespace MediaKeyStore

def new : MediaKeyStore where
  keys := fun _ => none
  isUuid := nofun

/-- `generate`, with the random id and key that are drawn. -/
def generate (store : MediaKeyStore) (kid : String) (huuid : IsUuid kid) (key : MediaKey) (now : Nat) :
    MediaKeyStore where
  keys := Function.update store.keys kid (some { key := key, createdAt := now })
  isUuid := by
    intro k hk
    by_cases heq : k = kid
    · exact heq ▸ huuid
    · rw [Function.update_of_ne heq] at hk
      exact store.isUuid k hk

def get (store : MediaKeyStore) (kid : String) : Option MediaKey := (store.keys kid).map StoredKey.key

def revoke (store : MediaKeyStore) (kid : String) : MediaKeyStore where
  keys := Function.update store.keys kid none
  isUuid := by
    intro k hk
    by_cases heq : k = kid
    · rw [heq, Function.update_self] at hk
      cases hk
    · rw [Function.update_of_ne heq] at hk
      exact store.isUuid k hk

/-- `duration_since` is zero for a time to come. -/
def cleanupExpired (store : MediaKeyStore) (now maxAge : Nat) : MediaKeyStore where
  keys := fun kid => (store.keys kid).filter fun k => now - k.createdAt ≤ maxAge
  isUuid := by
    intro k hk
    refine store.isUuid k ?_
    cases h : store.keys k with
    | none =>
      rw [h] at hk
      cases hk
    | some _ => rfl

end MediaKeyStore

/-! ## Signatures -/

/-- The answers other than success. -/
inductive StatusCode where
  | badRequest
  | forbidden
  | notFound
deriving DecidableEq, Repr

/-- `15 * 60` in the three crates. -/
def mediaUrlTtlSecs : UInt64 := 900

def saturatingAdd (a b : UInt64) : UInt64 :=
  if a.toNat + b.toNat < 2 ^ 64 then a + b else UInt64.ofNat (2 ^ 64 - 1)

structure MediaAuthQuery where
  kid : String
  exp : UInt64
  sig : String
deriving DecidableEq, Repr

def signedText (path : String) (exp : UInt64) : String :=
  "GET:" ++ path ++ ":" ++ exp.toNat.repr

section Signing

variable (hmac : MediaKey → String → List UInt8) (sha256 : String → List UInt8)

/-- `compute_media_signature` of the server. -/
def computeMediaSignature (key : MediaKey) (path : String) (exp : UInt64) : List UInt8 :=
  hmac key (signedText path exp)

/-- A URL with its signature, as all signers put it together. -/
def signedUrl (base path kid : String) (exp : UInt64) (signature : List UInt8) : String :=
  base ++ path ++ "?kid=" ++ kid ++ "&exp=" ++ exp.toNat.repr ++ "&sig=" ++ Hex.encode signature

/-- `trim_end_matches('/')`. -/
def trimSlashes (base : String) : String := String.ofList (Url.trimEnd '/' base.toList)

def buildSignedMediaUrl (mediaBaseUrl path kid : String) (key : MediaKey) (exp : UInt64) : String :=
  signedUrl (trimSlashes mediaBaseUrl) path kid exp (computeMediaSignature hmac key path exp)

def verifyMediaAuth (store : MediaKeyStore) (now : UInt64) (path : String)
    (authQuery : MediaAuthQuery) : Except StatusCode Unit :=
  if authQuery.exp < now then .error .forbidden
  else
    match store.get authQuery.kid with
    | none => .error .forbidden
    | some key =>
      match Hex.decode authQuery.sig with
      | none => .error .forbidden
      | some providedSig =>
        if computeMediaSignature hmac key path authQuery.exp = providedSig then .ok ()
        else .error .forbidden

/-! The renderer of the node. -/

structure MpdRenderer where
  mediaPublicBaseUrl : String
  mediaAuth : Option (String × MediaKey)

def MpdRenderer.newWithMediaAuth (mediaPublicBaseUrl kid : String) (key : MediaKey) : MpdRenderer where
  mediaPublicBaseUrl := trimSlashes mediaPublicBaseUrl
  mediaAuth := some (kid, key)

/-- `compute_media_signature` of the renderer. -/
def MpdRenderer.computeMediaSignature (key : MediaKey) (path : String) (exp : UInt64) : List UInt8 :=
  hmac key (signedText path exp)

def isHttpUrl (value : String) : Bool :=
  "http://".toList.isPrefixOf value.toList || "https://".toList.isPrefixOf value.toList

def MpdRenderer.trackPath (value : String) : String := "/media/tracks/" ++ Hex.encode (sha256 value)

def MpdRenderer.mediaUriAt (renderer : MpdRenderer) (value : String) (now : UInt64) : String :=
  if isHttpUrl value then value
  else
    match renderer.mediaAuth with
    | some (kid, key) =>
      signedUrl renderer.mediaPublicBaseUrl (trackPath sha256 value) kid
        (saturatingAdd now mediaUrlTtlSecs)
        (computeMediaSignature hmac key (trackPath sha256 value) (saturatingAdd now mediaUrlTtlSecs))
    | none => renderer.mediaPublicBaseUrl ++ trackPath sha256 value

/-! The proxy of the node. -/

structure ProxyState where
  kanadeBaseUrl : String
  auth : Option (String × MediaKey)
  generation : UInt64

/-- `sign` of the proxy. -/
def ProxyState.sign (key : MediaKey) (path : String) (exp : UInt64) : List UInt8 :=
  hmac key (signedText path exp)

/-- `now` is missing when the clock is before 1970. -/
def buildRedirectTarget (state : Option ProxyState) (now : Option UInt64) (trackPath : String) :
    Option (String × UInt64 × Bool) := do
  let st ← state
  match st.auth with
  | some (kid, key) => do
    let now ← now
    let exp := saturatingAdd now mediaUrlTtlSecs
    some (signedUrl (trimSlashes st.kanadeBaseUrl) trackPath kid exp
      (ProxyState.sign hmac key trackPath exp), st.generation, true)
  | none => some (trimSlashes st.kanadeBaseUrl ++ trackPath, st.generation, false)

end Signing

/-! ## What the server gets of a URL -/

structure MediaRequest where
  path : String
  authQuery : MediaAuthQuery
deriving DecidableEq, Repr

/-- `Query<MediaAuthQuery>`. A query with escapes is not read here. -/
def MediaAuthQuery.ofQuery (query : List Char) : Option MediaAuthQuery :=
  if '%' ∈ query ∨ '+' ∈ query then none
  else do
    let kid ← Url.field? "kid" (Url.fields query)
    let exp ← (Url.field? "exp" (Url.fields query)).bind Url.parseU64
    let sig ← Url.field? "sig" (Url.fields query)
    some { kid := String.ofList kid, exp := exp, sig := String.ofList sig }

/-- The request for a URL of the server at `base`. -/
def MediaRequest.ofUrl (base url : String) : Option MediaRequest := do
  let rest ← stripPrefix base url
  let query ← (Url.cut '?' rest.toList).2
  let authQuery ← MediaAuthQuery.ofQuery query
  some { path := String.ofList (Url.cut '?' rest.toList).1, authQuery := authQuery }

/-! ## Signers and verifier -/

theorem digits_repr (n : Nat) : n.repr.toList = Nat.toDigits 10 n := Nat.toList_repr

theorem notMem_digits {c : Char} (hc : c.isDigit = false) (n : Nat) : c ∉ Nat.toDigits 10 n := by
  intro h
  rw [Nat.isDigit_of_mem_toDigits (by omega) (by omega) h] at hc
  exact Bool.noConfusion hc

theorem signedText_toList (path : String) (exp : UInt64) : (signedText path exp).toList =
    "GET:".toList ++ (path.toList ++ ':' :: Nat.toDigits 10 exp.toNat) := by
  rw [signedText, String.toList_append, String.toList_append, String.toList_append, digits_repr,
    List.append_assoc, List.append_assoc]
  rfl

/-- The time stands behind the last colon, so that colons and digits in a path do no harm. -/
theorem signedText_injective {path path' : String} {exp exp' : UInt64}
    (h : signedText path exp = signedText path' exp') : path = path' ∧ exp = exp' := by
  have hlist := congrArg String.toList h
  rw [signedText_toList, signedText_toList] at hlist
  have hcolon : ∀ n, ':' ∉ Nat.toDigits 10 n := notMem_digits (by decide)
  obtain ⟨hpath, hexp⟩ := Url.eq_of_append_sep (hcolon _) (hcolon _) (List.append_cancel_left hlist)
  have hback := Url.parseU64_toDigits exp
  rw [hexp, Url.parseU64_toDigits] at hback
  exact ⟨String.toList_inj.1 hpath, (Option.some.inj hback).symm⟩

section Verify

variable {hmac : MediaKey → String → List UInt8} {store : MediaKeyStore} {now exp : UInt64}
  {base path kid : String} {key : MediaKey} {authQuery : MediaAuthQuery}

theorem verifyMediaAuth_ok_iff : verifyMediaAuth hmac store now path authQuery = .ok () ↔
    now ≤ authQuery.exp ∧ ∃ key, store.get authQuery.kid = some key ∧
      Hex.decode authQuery.sig = some (computeMediaSignature hmac key path authQuery.exp) := by
  unfold verifyMediaAuth
  by_cases hexp : authQuery.exp < now
  · rw [if_pos hexp]
    exact iff_of_false (fun h => nomatch h) fun h => absurd hexp (UInt64.not_lt.2 h.1)
  · rw [if_neg hexp]
    cases store.get authQuery.kid with
    | none =>
      refine iff_of_false (fun h => nomatch h) ?_
      rintro ⟨-, key, hkey, -⟩
      cases hkey
    | some key =>
      cases Hex.decode authQuery.sig with
      | none =>
        refine iff_of_false (fun h => nomatch h) ?_
        rintro ⟨-, key, -, hsig⟩
        cases hsig
      | some providedSig =>
        dsimp only
        by_cases heq : computeMediaSignature hmac key path authQuery.exp = providedSig
        · rw [if_pos heq]
          exact iff_of_true rfl ⟨UInt64.not_lt.1 hexp, key, rfl, by rw [heq]⟩
        · rw [if_neg heq]
          refine iff_of_false (fun h => nomatch h) ?_
          rintro ⟨-, key', hkey, hsig⟩
          cases hkey
          exact heq (Option.some.inj hsig).symm

theorem MediaKeyStore.isUuid_of_get (h : store.get kid = some key) : IsUuid kid := by
  refine store.isUuid kid ?_
  cases hkeys : store.keys kid with
  | none =>
    rw [MediaKeyStore.get, hkeys] at h
    cases h
  | some _ => rfl

theorem IsUuid.notMem (h : IsUuid kid) {c : Char} (hc : c.isAlphanum = false) (hne : c ≠ '-') :
    c ∉ kid.toList := by
  intro hmem
  rcases h c hmem with halnum | heq
  · rw [hc] at halnum
    exact Bool.noConfusion halnum
  · exact hne heq

/-- The fields of a signed URL. -/
def authFields (kid : String) (exp : UInt64) (sig : String) : List (List Char × List Char) :=
  [("kid".toList, kid.toList), ("exp".toList, Nat.toDigits 10 exp.toNat), ("sig".toList, sig.toList)]

theorem ofQuery_authFields (hkid : IsUuid kid) (signature : List UInt8) :
    MediaAuthQuery.ofQuery (Url.query (authFields kid exp (Hex.encode signature))) =
      some ⟨kid, exp, Hex.encode signature⟩ := by
  have hsig : ∀ c : Char, c.isAlphanum = false → c ∉ (Hex.encode signature).toList := by
    intro c hc hmem
    rw [Hex.isAlphanum_of_mem_encode hmem] at hc
    exact Bool.noConfusion hc
  have hexp : ∀ c : Char, c.isDigit = false → c ∉ Nat.toDigits 10 exp.toNat :=
    fun c hc => notMem_digits hc exp.toNat
  have hplain : ¬ ('%' ∈ Url.query (authFields kid exp (Hex.encode signature)) ∨
      '+' ∈ Url.query (authFields kid exp (Hex.encode signature))) := by
    simp [Url.query, authFields, List.intercalate, hkid.notMem, hexp, hsig]
  have hfields : Url.fields (Url.query (authFields kid exp (Hex.encode signature))) =
      authFields kid exp (Hex.encode signature) := by
    refine Url.fields_query (List.cons_ne_nil _ _) ?_
    simp [authFields, hkid.notMem, hexp, hsig]
  have hkidField : Url.field? "kid" (authFields kid exp (Hex.encode signature)) = some kid.toList := rfl
  have hexpField : Url.field? "exp" (authFields kid exp (Hex.encode signature)) =
      some (Nat.toDigits 10 exp.toNat) := rfl
  have hsigField : Url.field? "sig" (authFields kid exp (Hex.encode signature)) =
      some (Hex.encode signature).toList := rfl
  rw [MediaAuthQuery.ofQuery, if_neg hplain, hfields, hkidField, hexpField, hsigField,
    Option.bind_some, Url.parseU64_toDigits]
  simp [String.ofList_toList]

/-- The URL comes apart where it was put together. -/
theorem ofUrl_signedUrl (hkid : IsUuid kid) (hpath : '?' ∉ path.toList) (signature : List UInt8) :
    MediaRequest.ofUrl base (signedUrl base path kid exp signature) =
      some ⟨path, ⟨kid, exp, Hex.encode signature⟩⟩ := by
  have hbase : stripPrefix base (signedUrl base path kid exp signature) =
      some (path ++ ("?kid=" ++ (kid ++ ("&exp=" ++ (exp.toNat.repr ++
        ("&sig=" ++ Hex.encode signature)))))) := by
    rw [stripPrefix_eq_some_iff, signedUrl]
    simp only [String.append_assoc]
  have hrest : (path ++ ("?kid=" ++ (kid ++ ("&exp=" ++ (exp.toNat.repr ++
      ("&sig=" ++ Hex.encode signature)))))).toList =
      path.toList ++ '?' :: Url.query (authFields kid exp (Hex.encode signature)) := by
    simp [Url.query, authFields, List.intercalate]
  rw [MediaRequest.ofUrl, hbase, Option.bind_eq_bind, Option.bind_some, hrest,
    Url.cut_append hpath]
  simp [ofQuery_authFields hkid, String.ofList_toList]

/-- The request for a signed URL is accepted until the URL expires. -/
theorem verify_signedUrl (hkey : store.get kid = some key) (hpath : '?' ∉ path.toList)
    (hexp : now ≤ exp) :
    ∃ authQuery, MediaRequest.ofUrl base
        (signedUrl base path kid exp (computeMediaSignature hmac key path exp)) =
          some ⟨path, authQuery⟩ ∧
      authQuery.kid = kid ∧ authQuery.exp = exp ∧
      verifyMediaAuth hmac store now path authQuery = .ok () :=
  ⟨⟨kid, exp, Hex.encode (computeMediaSignature hmac key path exp)⟩,
    ofUrl_signedUrl (MediaKeyStore.isUuid_of_get hkey) hpath _, rfl, rfl,
    verifyMediaAuth_ok_iff.2 ⟨hexp, key, hkey, Hex.decode_encode _⟩⟩

theorem notMem_trackPath (sha256 : String → List UInt8) (value : String) :
    '?' ∉ (MpdRenderer.trackPath sha256 value).toList := by
  rw [MpdRenderer.trackPath, String.toList_append, List.mem_append]
  rintro (hmem | hmem)
  · exact absurd hmem (by decide)
  · have halnum := Hex.isAlphanum_of_mem_encode hmem
    exact Bool.noConfusion halnum

end Verify

/-- What one of the three signers signs is accepted until it expires, as long as its key is stored; and
a signature is accepted for the path and the time it was made for only. -/
theorem signed_urls_agree (hmac : MediaKey → String → List UInt8)
    (hinj : ∀ key, Function.Injective (hmac key)) (sha256 : String → List UInt8)
    (store : MediaKeyStore) (kid : String) (key : MediaKey) (hkey : store.get kid = some key) :
    (∀ (base path : String) (exp now : UInt64), '?' ∉ path.toList → now ≤ exp →
      ∃ authQuery, MediaRequest.ofUrl (trimSlashes base)
          (buildSignedMediaUrl hmac base path kid key exp) = some ⟨path, authQuery⟩ ∧
        authQuery.kid = kid ∧ authQuery.exp = exp ∧
        verifyMediaAuth hmac store now path authQuery = .ok ()) ∧
    (∀ (base value : String) (signedAt now : UInt64), isHttpUrl value = false →
      now ≤ saturatingAdd signedAt mediaUrlTtlSecs →
      ∃ authQuery, MediaRequest.ofUrl (trimSlashes base)
          ((MpdRenderer.newWithMediaAuth base kid key).mediaUriAt hmac sha256 value signedAt) =
            some ⟨MpdRenderer.trackPath sha256 value, authQuery⟩ ∧
        authQuery.kid = kid ∧ authQuery.exp = saturatingAdd signedAt mediaUrlTtlSecs ∧
        verifyMediaAuth hmac store now (MpdRenderer.trackPath sha256 value) authQuery = .ok ()) ∧
    (∀ (st : ProxyState) (trackPath : String) (signedAt now : UInt64), st.auth = some (kid, key) →
      '?' ∉ trackPath.toList → now ≤ saturatingAdd signedAt mediaUrlTtlSecs →
      ∃ url,
        buildRedirectTarget hmac (some st) (some signedAt) trackPath =
          some (url, st.generation, true) ∧
        ∃ authQuery,
          MediaRequest.ofUrl (trimSlashes st.kanadeBaseUrl) url = some ⟨trackPath, authQuery⟩ ∧
          authQuery.kid = kid ∧ authQuery.exp = saturatingAdd signedAt mediaUrlTtlSecs ∧
          verifyMediaAuth hmac store now trackPath authQuery = .ok ()) ∧
    ∀ (path path' sig : String) (exp exp' now : UInt64),
      Hex.decode sig = some (computeMediaSignature hmac key path exp) →
      verifyMediaAuth hmac store now path' ⟨kid, exp', sig⟩ = .ok () → path' = path ∧ exp' = exp := by
  refine ⟨?_, ?_, ?_, ?_⟩
  · intro base path exp now hpath hexp
    exact verify_signedUrl hkey hpath hexp
  · intro base value signedAt now hvalue hexp
    rw [MpdRenderer.mediaUriAt, if_neg (by rw [hvalue]; exact Bool.false_ne_true)]
    exact verify_signedUrl hkey (notMem_trackPath sha256 value) hexp
  · intro st trackPath signedAt now hauth hpath hexp
    have htarget : buildRedirectTarget hmac (some st) (some signedAt) trackPath =
        some (signedUrl (trimSlashes st.kanadeBaseUrl) trackPath kid
          (saturatingAdd signedAt mediaUrlTtlSecs)
          (computeMediaSignature hmac key trackPath (saturatingAdd signedAt mediaUrlTtlSecs)),
          st.generation, true) := by
      rw [buildRedirectTarget, Option.bind_eq_bind, Option.bind_some, hauth]
      rfl
    exact ⟨_, htarget, verify_signedUrl hkey hpath hexp⟩
  · intro path path' sig exp exp' now hsig h
    obtain ⟨-, key', hkey', hsig'⟩ := verifyMediaAuth_ok_iff.1 h
    obtain rfl : key' = key := Option.some.inj (hkey'.symm.trans hkey)
    have heq := Option.some.inj (hsig'.symm.trans hsig)
    exact signedText_injective (hinj key' heq)

/-- A stand-in for HMAC whose signature is the key and the text. -/
def plainMac (key : MediaKey) (text : String) : List UInt8 := key.toList ++ Percent.bytes text

theorem plainMac_injective (key : MediaKey) : Function.Injective (plainMac key) :=
  fun _ _ h => Percent.bytes_injective (List.append_cancel_left h)

def sampleKey : MediaKey := Vector.replicate 32 7

theorem isUuid_sample : IsUuid "k-1" := by
  unfold IsUuid
  exact Url.forall_of_all (by decide)

theorem signed_urls_agree_sample :
    let store := MediaKeyStore.new.generate "k-1" isUuid_sample sampleKey 0
    (∃ authQuery, MediaRequest.ofUrl (trimSlashes "http://host:8080/")
        (buildSignedMediaUrl plainMac "http://host:8080/" "/media/art/a:1" "k-1" sampleKey 900) =
          some ⟨"/media/art/a:1", authQuery⟩ ∧
      authQuery.kid = "k-1" ∧ authQuery.exp = 900 ∧
      verifyMediaAuth plainMac store 899 "/media/art/a:1" authQuery = .ok ()) ∧
    ∀ (path path' sig : String) (exp exp' now : UInt64),
      Hex.decode sig = some (computeMediaSignature plainMac sampleKey path exp) →
      verifyMediaAuth plainMac store now path' ⟨"k-1", exp', sig⟩ = .ok () →
      path' = path ∧ exp' = exp := by
  intro store
  have hagree := signed_urls_agree plainMac plainMac_injective (fun _ => []) store "k-1" sampleKey rfl
  exact ⟨hagree.1 "http://host:8080/" "/media/art/a:1" 900 899 (by decide) (by decide),
    hagree.2.2.2⟩

end Kanade

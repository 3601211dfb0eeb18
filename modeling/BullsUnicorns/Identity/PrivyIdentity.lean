import BullsUnicorns.Lib.Base
import BullsUnicorns.Identity.HouseWallets

/-!
# Proving an X account

`privyIdentity.ts`: an identity token of Privy, checked against Privy's public keys, which are kept for an hour.
`JSON.parse`, the text decoder and the curve are parameters. A number too large for a double is none of a payload's.
-/

namespace BullsUnicorns.Identity

open SingleFlight

def PRIVY_ISSUER : String := "privy.io"

def REQUIRED_ALG : String := "ES256"

def JWKS_TTL_SECONDS : ℚ := 3600

def JWKS_COOLDOWN_SECONDS : ℚ := 600

def CLOCK_SKEW_SECONDS : ℚ := 60

def MAX_IDENTITY_TOKEN_AGE_SECONDS : ℚ := 3600

def MAX_DISPLAY_NAME_CODEPOINTS : ℕ := 100

/-- The public half of a P-256 key. -/
structure EcPublicJwk where
  x : String
  y : String
deriving DecidableEq, Repr

/-- What the platform lends. -/
structure Platform where
  textDecode : List UInt8 → String
  /-- None where it throws. -/
  jsonParse : String → Option Json
  /-- `importKey` and `verify`, of signature and signing input; none where one of them throws. -/
  verify : EcPublicJwk → List UInt8 → List UInt8 → Option Bool

/-! ## Decoding -/

def isBase64UrlChar (c : Char) : Bool := isHandleChar c || c == '-'

/-- `atob` throws on a last group of one digit. -/
def base64UrlToBytes (segment : String) : Option (List UInt8) :=
  if segment = "" ∨ segment.toList.all isBase64UrlChar = false then none
  else if segment.toList.length % 4 = 1 then none
  else some (Base64.decode segment)

def jsonFrom (platform : Platform) (bytes : List UInt8) : Option Json :=
  platform.jsonParse (platform.textDecode bytes)

/-- `typeof v === "object" && v !== null`. -/
def isObject : Json → Bool
  | .obj _ | .arr _ => true
  | _ => false

structure DecodedJwt where
  kid : String
  payload : Json
  signingInput : List UInt8
  signature : List UInt8

/-- The header's key name, of a header that asks for the one algorithm and for no extension. -/
def kidOf (header : Json) : Option String :=
  if (header.get? "alg").bind Json.isString ≠ some REQUIRED_ALG then none
  else if (header.get? "crit").isSome then none
  else ((header.get? "kid").bind Json.isString).filter (· ≠ "")

def decodeJwt (platform : Platform) (token : String) : Option DecodedJwt :=
  if token = "" ∨ 8192 < utf16Length token then none
  else
    match Text.split '.' token with
    | [head, body, tail] => do
        let headerBytes ← base64UrlToBytes head
        let payloadBytes ← base64UrlToBytes body
        let signature ← (base64UrlToBytes tail).filter (·.length = 64)
        let header ← (jsonFrom platform headerBytes).filter isObject
        let payload ← (jsonFrom platform payloadBytes).filter isObject
        let kid ← kidOf header
        some ⟨kid, payload, Text.utf8 (head ++ "." ++ body), signature⟩
    | _ => none

/-! ## The X account of a payload -/

def isUrlPathChar (c : Char) : Bool := isHandleChar c || c == '.' || c == '-' || c == '/'

/-- A picture on X's CDN, or none: X's default picture is none. -/
def expandTwitterAvatarUrl (pfp : Option Json) : Option String :=
  match pfp.bind Json.isString with
  | none => none
  | some text =>
      let raw := Text.trim text
      let candidate :=
        if Text.startsWith raw "https://" then raw else "https://pbs.twimg.com/profile_images/" ++ raw
      let path := candidate.toList.drop avatarUrlPrefix.toList.length
      if raw = "" ∨ 300 < utf16Length raw then none
      else if Text.startsWith raw "default" then none
      else if ¬ Text.startsWith candidate avatarUrlPrefix ∨ path = [] ∨ path.all isUrlPathChar = false then none
      -- no empty segment after the scheme
      else if Text.includes "//" (String.ofList (candidate.toList.drop "https://".toList.length)) then none
      else some candidate

def clampDisplayName (name : Option Json) : String :=
  match name.bind Json.isString with
  | none => ""
  | some text => String.ofList ((Text.trim text).toList.take MAX_DISPLAY_NAME_CODEPOINTS)

/-- `typeof entry[key] === "string" ? entry[key].trim() : ""`. -/
def trimmedField (entry : Json) (key : String) : String :=
  (((entry.get? key).bind Json.isString).map Text.trim).getD ""

/-- `linked_accounts` is a text that holds an array. -/
def xIdentityFromClaims (platform : Platform) (payload : Json) : PrivyVerification :=
  match payload.get? "linked_accounts" with
  | none | some .null => .rejected .noXAccount
  | some (.str raw) =>
      match platform.jsonParse raw with
      | some (.arr accounts) =>
          match accounts.filter fun a => (a.get? "type").bind Json.isString = some "twitter_oauth" with
          | [] => .rejected .noXAccount
          | [entry] =>
              let xId := trimmedField entry "subject"
              let handle := trimmedField entry "username"
              if ¬ xIdRe xId then .rejected .unusableXAccount
              else if ¬ handleRe handle then .rejected .unusableXAccount
              else .ok ⟨xId, handle, clampDisplayName (entry.get? "name"), expandTwitterAvatarUrl (entry.get? "pfp")⟩
          | _ => .rejected .unusableXAccount
      | _ => .rejected .malformed
  | some _ => .rejected .malformed

/-! ## Privy's public keys -/

/-- A set of keys by name; of two entries of one name the one in front counts. -/
abbrev Jwks := List (String × EcPublicJwk)

inductive KeyLookup where
  | ok (jwk : EcPublicJwk)
  | unknownKey
  | keysUnavailable
deriving DecidableEq, Repr

/-- One entry: it invalidates the document, is passed over, or is a key. -/
def jwkFrom (key : Json) : Option (Option (String × EcPublicJwk)) :=
  let text (name : String) := (key.get? name).bind Json.isString
  if ¬ isObject key then none
  else if text "kty" ≠ some "EC" ∨ text "crv" ≠ some "P-256" then some none
  else if (key.get? "use").isSome ∧ text "use" ≠ some "sig" then some none
  else do
    let kid ← (text "kid").filter (· ≠ "")
    let x ← text "x"
    let y ← text "y"
    some (some (kid, ⟨x, y⟩))

/-- `Map.set`: a later key of one name takes the place of an earlier one. -/
def jwksFrom (body : Json) : Option Jwks :=
  match body.get? "keys" with
  | some (.arr keys) => ((keys.mapM jwkFrom).map fun out => (out.filterMap id).reverse).filter (· ≠ [])
  | _ => none

/-- `fetchOnce`, from the outcome on. -/
def fetchedKeys : FetchOutcome → Option Jwks
  | .threw => none
  | .response status body => if statusOk status then body.bind jwksFrom else none

/-- A call of `keyFor`. -/
structure KeyCall where
  kid : String
  nowSec : ℚ
deriving DecidableEq

/-- A call that awaits a refresh: the promise, and whether the set was past its TTL. -/
structure Waiting where
  promise : ℕ
  call : KeyCall
  stale : Bool

structure PrivyJwksCache where
  keys : Option Jwks
  fetchedAtSec : ℚ
  lastAttemptSec : ℚ
  flights : Flights ℚ Unit
  waiting : List Waiting

inductive KeyEffect where
  | fetch (url : String)
  | answer (call : KeyCall) (lookup : KeyLookup)

inductive KeyAct where
  | keyFor (kid : String) (nowSec : ℚ)
  | settled (id : ℕ) (outcome : FetchOutcome)
  /-- `finally`. -/
  | released (id : ℕ)
  /-- A call whose promise has ended goes on. -/
  | resumed (i : ℕ)

namespace PrivyJwksCache

def new : PrivyJwksCache := ⟨none, 0, 0, .idle, []⟩

def isStale (s : PrivyJwksCache) (nowSec : ℚ) : Bool := s.keys.isNone || JWKS_TTL_SECONDS ≤ nowSec - s.fetchedAtSec

/-- The end of `keyFor`. -/
def lookup (s : PrivyJwksCache) (kid : String) : KeyLookup :=
  match s.keys with
  | none => .keysUnavailable
  | some keys =>
      match keys.lookup kid with
      | none => .unknownKey
      | some jwk => .ok jwk

/-- `await this.refresh(now)`: it joins the fetch in flight, or starts one. -/
def refresh (s : PrivyJwksCache) (url : String) (call : KeyCall) (stale : Bool) : PrivyJwksCache × List KeyEffect :=
  match s.flights.inflight with
  | some id => ({ s with waiting := s.waiting ++ [⟨id, call, stale⟩] }, [])
  | none =>
      ({ s with
          lastAttemptSec := call.nowSec
          flights := s.flights.start call.nowSec
          waiting := s.waiting ++ [⟨s.flights.begun, call, stale⟩] },
        [.fetch url])

def keyFor (s : PrivyJwksCache) (url : String) (call : KeyCall) : PrivyJwksCache × List KeyEffect :=
  let cooledDown : Bool := JWKS_COOLDOWN_SECONDS ≤ call.nowSec - s.lastAttemptSec
  if s.isStale call.nowSec then
    if cooledDown || s.keys.isNone then s.refresh url call true
    else (s, [.answer call .keysUnavailable])
  else if (s.keys.bind (·.lookup call.kid)).isNone && cooledDown then s.refresh url call false
  else (s, [.answer call (s.lookup call.kid)])

/-- What a call answers once its refresh has ended. -/
def resume (s : PrivyJwksCache) (w : Waiting) : KeyLookup :=
  if w.stale && s.isStale w.call.nowSec then .keysUnavailable else s.lookup w.call.kid

/-- The fetch that was started at `nowSec` has come back. -/
def settle (s : PrivyJwksCache) (id : ℕ) (nowSec : ℚ) (outcome : FetchOutcome) : PrivyJwksCache :=
  match fetchedKeys outcome with
  | some fetched => { s with keys := some fetched, fetchedAtSec := nowSec, flights := s.flights.settle id () }
  | none => { s with flights := s.flights.settle id () }

end PrivyJwksCache

def privyJwksCache (url : String) : Machine PrivyJwksCache KeyAct (List KeyEffect) Unit where
  step
    | s, .keyFor kid nowSec => .ok (s.keyFor url ⟨kid, nowSec⟩)
    | s, .settled id outcome =>
        match s.flights.find? id with
        | some ⟨_, began, none⟩ => .ok (s.settle id began outcome, [])
        | _ => .error ()
    | s, .released id =>
        match s.flights.find? id with
        | some ⟨_, _, some ()⟩ => .ok ({ s with flights := s.flights.release id }, [])
        | _ => .error ()
    | s, .resumed i =>
        match s.waiting[i]? with
        | none => .error ()
        | some w =>
            if (s.flights.find? w.promise).isSome then .error ()
            else .ok ({ s with waiting := s.waiting.eraseIdx i }, [.answer w.call (s.resume w)])

/-! ## The verifier -/

def audienceMatches (aud : Option Json) (appId : String) : Bool :=
  match aud with
  | some (.str text) => text = appId
  | some (.arr items) => items.any fun a => a.isString = some appId
  | _ => false

/-- The checks before any key is asked for. -/
def claimsRejection (payload : Json) (appId : String) (nowSec : ℚ) : Option PrivyRejection :=
  let number (name : String) := (payload.get? name).bind Json.isNumber
  if (payload.get? "iss").bind Json.isString ≠ some PRIVY_ISSUER then some .wrongIssuer
  else if ¬ audienceMatches (payload.get? "aud") appId then some .wrongAudience
  else if (((payload.get? "sub").bind Json.isString).filter (· ≠ "")).isNone then some .malformed
  else
    match number "exp" with
    | none => some .expired
    | some exp =>
        if exp + CLOCK_SKEW_SECONDS ≤ nowSec then some .expired
        else
          match number "iat" with
          | none => some .stale
          | some iat =>
              if nowSec < iat - CLOCK_SKEW_SECONDS then some .stale
              else if MAX_IDENTITY_TOKEN_AGE_SECONDS < nowSec - iat then some .stale
              else none

structure PrivyVerifierDeps where
  platform : Platform
  appId : String

/-- `verify` of the verifier, where `keyFor` answers the one lookup. -/
def createPrivyVerifier (deps : PrivyVerifierDeps) (keyFor : String → KeyLookup) (token : String) (nowSec : ℚ) :
    PrivyVerification :=
  match decodeJwt deps.platform token with
  | none => .rejected .malformed
  | some decoded =>
      match claimsRejection decoded.payload deps.appId nowSec with
      | some reason => .rejected reason
      | none =>
          match keyFor decoded.kid with
          | .keysUnavailable => .rejected .keysUnavailable
          | .unknownKey => .rejected .unknownKey
          | .ok jwk =>
              match deps.platform.verify jwk decoded.signature decoded.signingInput with
              | some true => xIdentityFromClaims deps.platform decoded.payload
              | _ => .rejected .badSignature

end BullsUnicorns.Identity

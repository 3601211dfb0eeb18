import BullsUnicorns.Lib.Task
import BullsUnicorns.Identity.Challenge
import BullsUnicorns.Identity.WriteHttp
import BullsUnicorns.Identity.Lemmas.PgRegister
import BullsUnicorns.Identity.Lemmas.MemoryRegister

/-!
# The link ceremony

`rateLimit.ts`, `challengeHandler.ts` and `linkWriteHandler.ts`: a request is a task, which awaits one call
of its stores or of the two services at a time. Any number of requests are in flight together.
-/

namespace BullsUnicorns.Identity

/-! ## What the handlers await -/

inductive PrivyRejection where
  | malformed
  | unknownKey
  | badSignature
  | wrongIssuer
  | wrongAudience
  | expired
  | stale
  | noXAccount
  | unusableXAccount
  | keysUnavailable
deriving DecidableEq, Repr

inductive PrivyVerification where
  | ok (identity : XIdentity)
  | rejected (reason : PrivyRejection)
deriving DecidableEq, Repr

structure HouseList where
  wallets : List String
  unknown : Bool
deriving DecidableEq, Repr

inductive Call where
  | hit (buckets : List String) (windowStartSec : ℤ)
  | verify (token : String) (nowSec : ℤ)
  | put (challenge : Challenge)
  | consume (nonce : String) (nowSec : ℤ)
  | house
  | link (wallet : String) (identity : XIdentity) (linkedAtSec : ℤ)
  | unlink (wallet : String)
deriving DecidableEq, Repr

abbrev Call.Answer : Call → Type
  | .hit _ _ => List ℕ
  | .verify _ _ => PrivyVerification
  | .put _ => Unit
  | .consume _ _ => Option Challenge
  | .house => HouseList
  | .link _ _ _ => LinkWriteOutcome
  | .unlink _ => Option String

abbrev Handler (α : Type) : Type := Task StoreError Call.Answer α

abbrev ask (c : Call) : Handler c.Answer := Task.call c

/-! ## `rateLimit.ts` -/

def windowSeconds : ℤ := 600

def limitPerWallet : ℕ := 20

def limitPerNetwork : ℕ := 60

inductive BucketKind where
  | wallet
  | network
deriving DecidableEq, Repr

def BucketKind.label : BucketKind → String
  | .wallet => "wallet"
  | .network => "network"

def bucketKey (d : WriteDeps) (kind : BucketKind) (subject : String) : String :=
  d.hmac (kind.label ++ ":" ++ subject)

/-- `%` has the sign of the clock. -/
def windowStart (nowSec : ℤ) : ℤ := nowSec - nowSec.tmod windowSeconds

inductive RateVerdict where
  | ok
  | limited (retryAfterSec : ℤ)
deriving DecidableEq, Repr

def enforceRateLimit (d : WriteDeps) (wallet network : String) (nowSec : ℤ) : Handler RateVerdict := do
  let start := windowStart nowSec
  let walletBucket := bucketKey d .wallet (network ++ "|" ++ wallet)
  let networkBucket := bucketKey d .network network
  let counts ← ask (.hit [walletBucket, networkBucket] start)
  match counts with
  | [walletHits, networkHits] =>
      if limitPerWallet < walletHits ∨ limitPerNetwork < networkHits then
        return .limited (max 1 (start + windowSeconds - nowSec))
      else return .ok
  | _ => throw ⟨"rate limiter: expected 2 counts, got " ++ toString counts.length⟩

/-! ## `challengeHandler.ts` -/

def refuseProof : PrivyRejection → Response
  | .keysUnavailable => unavailable
  | .noXAccount => refuse 401 "no-x-account" (some "authorise X before linking") []
  | .stale => refuse 401 "stale-proof" (some "obtain a fresh identity token and retry") []
  | _ => refuse 401 "bad-proof" none []

/-- What a request brings into its handler beside itself: its one instant, and its random bytes. -/
structure Visit where
  request : Request
  nowSec : ℤ
  random : Vector UInt8 nonceBytes

/-- The nonce is made and the challenge is stored, in the words that are returned. -/
def issue (v : Visit) (wallet : String) (ceremony : Ceremony) : Handler Response := do
  let nonce := newNonce v.random
  let expiresAtSec := v.nowSec + challengeTtlSeconds
  let identity :=
    match ceremony with
    | .link identity => some identity
    | .unlink => none
  let message ← Task.ofExcept (challengeMessage
    { purpose := ceremony.purpose, origin := originFrom v.request.host, wallet := wallet,
      handle := identity.map XIdentity.handle, xId := identity.map XIdentity.xId, nonce := nonce,
      issuedAtSec := v.nowSec, expiresAtSec := expiresAtSec })
  ask (.put ⟨nonce, wallet, message, v.nowSec, expiresAtSec, ceremony⟩)
  return okJson [("message", .str message), ("nonce", .str nonce), ("expiresAt", .num expiresAtSec)]

/-- The proof of a link, and the rules for whom it names. -/
def prove (d : WriteDeps) (v : Visit) (wallet : String) (proof : Option Json) : Handler Response :=
  match proof.bind Json.isString with
  | none => return malformed "proof is required to link"
  | some token =>
      if token = "" then return malformed "proof is required to link"
      else do
        match ← ask (.verify token v.nowSec) with
        | .rejected reason => return refuseProof reason
        | .ok identity =>
            if isReservedXId d identity.xId then return refuse 403 "refused" none []
            else if isReservedHandle d identity.handle then return refuse 403 "refused" none []
            else issue v wallet (.link identity)

def purposeOf (raw : Option Json) : Option ChallengePurpose :=
  match raw.bind Json.isString with
  | some "link" => some .link
  | some "unlink" => some .unlink
  | _ => none

def handleChallenge (d : WriteDeps) (v : Visit) : Handler Response :=
  if v.request.method ≠ "POST" then return methodNotAllowed "POST"
  else
    match readJsonBody v.request with
    | .error response => return response
    | .ok body =>
        match parseWallet d (body.lookup "wallet") with
        | .error detail => return malformed detail
        | .ok wallet =>
            match purposeOf (body.lookup "purpose") with
            | none => return malformed "purpose must be \"link\" or \"unlink\""
            | some purpose => do
                match ← enforceRateLimit d wallet v.request.network v.nowSec with
                | .limited retryAfterSec => return rateLimited retryAfterSec
                | .ok =>
                    match purpose with
                    | .link => prove d v wallet (body.lookup "proof")
                    | .unlink =>
                        if (body.lookup "proof").isSome then return malformed "unlink takes no proof"
                        else issue v wallet .unlink

/-! ## `linkWriteHandler.ts` -/

structure Redemption where
  wallet : String
  nonce : String
  signature : List UInt8

def parseRedemption (d : WriteDeps) (body : List (String × Json)) : Except Response Redemption :=
  match parseWallet d (body.lookup "wallet") with
  | .error detail => .error (malformed detail)
  | .ok wallet =>
      match ((body.lookup "nonce").bind Json.isString).filter nonceRe with
      | none => .error (malformed "nonce must be 64 lowercase hex characters")
      | some nonce =>
          match signatureBytes (body.lookup "signature") with
          | none => .error (malformed "signature must be base64 of 64 bytes")
          | some signature => .ok ⟨wallet, nonce, signature⟩

/-- Over the stored bytes, under the stored wallet; what cannot be evaluated did not verify. -/
def signatureVerifies (d : WriteDeps) (challenge : Challenge) (signature : List UInt8) : Bool :=
  match d.publicKey challenge.wallet with
  | none => false
  | some key =>
      if key.length ≠ 32 then false
      else (d.ed25519Verify signature challenge.message.toUTF8 key).getD false

/-- What may be written for a redeemed challenge that its wallet signed. -/
def write (d : WriteDeps) (nowSec : ℤ) (challenge : Challenge) : Handler Response := do
  let house ← ask .house
  if house.unknown then return unavailable
  else
    match challenge.ceremony with
    | .unlink =>
        -- no house check: removing a link is safe for any wallet
        let removed ← ask (.unlink challenge.wallet)
        return okJson [("unlinked", .bool removed.isSome)]
    | .link identity =>
        if house.wallets.contains challenge.wallet then return unavailable
        else if isReservedXId d identity.xId then return refuse 403 "refused" none []
        else if isReservedHandle d identity.handle then return refuse 403 "refused" none []
        else
          match ← ask (.link challenge.wallet identity nowSec) with
          | .walletTaken =>
              return refuse 409 "wallet-taken" (some "unlink this wallet's current X account first") []
          | .linked => return okJson [("linked", .bool true)]

/-- The ceremony that a method redeems. -/
def wantedBy (method : String) : Option ChallengePurpose :=
  if method = "POST" then some .link else if method = "DELETE" then some .unlink else none

def redeem (d : WriteDeps) (v : Visit) (wanted : ChallengePurpose) (parsed : Redemption) : Handler Response := do
  match ← enforceRateLimit d parsed.wallet v.request.network v.nowSec with
  | .limited retryAfterSec => return rateLimited retryAfterSec
  | .ok =>
      -- one shot: the challenge is gone before the signature is looked at
      match ← ask (.consume parsed.nonce v.nowSec) with
      | none => return refuse 400 "expired" none []
      | some challenge =>
          if challenge.ceremony.purpose ≠ wanted then
            return malformed "challenge was issued for a different operation"
          else if challenge.wallet ≠ parsed.wallet then return malformed "challenge belongs to another wallet"
          else if !signatureVerifies d challenge parsed.signature then return refuse 401 "bad-signature" none []
          else write d v.nowSec challenge

def handleLinkWrite (d : WriteDeps) (v : Visit) : Handler Response :=
  match wantedBy v.request.method with
  | none => return methodNotAllowed "POST, DELETE"
  | some wanted =>
      match readJsonBody v.request with
      | .error response => return response
      | .ok body =>
          match parseRedemption d body with
          | .error response => return response
          | .ok parsed => redeem d v wanted parsed

/-! ## The endpoints -/

/-- `guarded`: an unexpected throw is one of our reasons. -/
def guarded (run : Handler Response) : Handler Response := run.tryCatch fun _ => return unavailable

inductive Route where
  | challenge
  | link
deriving DecidableEq, Repr

structure Arrival where
  route : Route
  visit : Visit

def endpoint (d : WriteDeps) (a : Arrival) : Handler Response :=
  match a.route with
  | .challenge => guarded (handleChallenge d a.visit)
  | .link => guarded (handleLinkWrite d a.visit)

/-! ## The stores -/

/-- What the write path needs of its storage. -/
structure WriteStore (σ : Type) where
  empty : σ
  rows : σ → List RegisterRow
  /-- The nonces of the challenges that are stored. -/
  nonces : σ → List String
  challenges : ChallengeStore σ
  links : LinkWriter σ
  rate : RateCounter σ

def pgWriteStore : WriteStore PgDb where
  empty := PgDb.empty
  rows := pgRegister.rows
  nonces db := db.xLinkChallenge.rows.map ChallengeRow.nonce
  challenges := pgChallengeStore
  links := pgLinkWriter
  rate := pgRateCounter

structure MemoryWriteStore where
  links : MemoryLinkStore
  challenges : MemoryChallengeStore
  rate : MemoryRateCounter

/-- A statement on a part of a state. -/
def Statement.on {σ τ α : Type} (get : σ → τ) (set : σ → τ → σ) (f : Statement τ α) : Statement σ α := fun s =>
  ((f (get s)).1, set s (f (get s)).2)

namespace MemoryWriteStore

def empty : MemoryWriteStore := ⟨MemoryLinkStore.empty, MemoryChallengeStore.empty, MemoryRateCounter.empty⟩

def onLinks {α : Type} : Statement MemoryLinkStore α → Statement MemoryWriteStore α :=
  Statement.on links fun s t => { s with links := t }

def onChallenges {α : Type} : Statement MemoryChallengeStore α → Statement MemoryWriteStore α :=
  Statement.on challenges fun s t => { s with challenges := t }

def onRate {α : Type} : Statement MemoryRateCounter α → Statement MemoryWriteStore α :=
  Statement.on rate fun s t => { s with rate := t }

end MemoryWriteStore

def memoryWriteStore : WriteStore MemoryWriteStore where
  empty := MemoryWriteStore.empty
  rows s := memoryRegister.rows s.links
  nonces s := s.challenges.rows.entries.map Prod.fst
  challenges :=
    { put := fun c => MemoryWriteStore.onChallenges (memoryChallengeStore.put c)
      consume := fun nonce nowSec => MemoryWriteStore.onChallenges (memoryChallengeStore.consume nonce nowSec) }
  links :=
    { link := fun wallet identity t => MemoryWriteStore.onLinks (memoryLinkWriter.link wallet identity t)
      unlink := fun wallet => MemoryWriteStore.onLinks (memoryLinkWriter.unlink wallet) }
  rate := { hit := fun buckets start => MemoryWriteStore.onRate (memoryRateCounter.hit buckets start) }

/-- What the world beside the stores answers to a call. -/
structure Outside where
  /-- The call does not get through. -/
  outage : Option StoreError
  privy : PrivyVerification
  house : HouseList
deriving DecidableEq, Repr

namespace WriteStore

variable {σ : Type} (W : WriteStore σ)

def serve (o : Outside) (c : Call) : Statement σ c.Answer := fun s =>
  match o.outage with
  | some e => (.error e, s)
  | none =>
      match c with
      | .hit buckets start => W.rate.hit buckets start s
      | .verify _ _ => (.ok o.privy, s)
      | .put challenge => W.challenges.put challenge s
      | .consume nonce nowSec => W.challenges.consume nonce nowSec s
      | .house => (.ok o.house, s)
      | .link wallet identity t => W.links.link wallet identity t s
      | .unlink wallet => W.links.unlink wallet s

abbrev Act : Type := PoolAct Arrival Outside

abbrev Event : Type := Served Arrival StoreError Call.Answer

variable (d : WriteDeps)

/-- The API after a run from empty stores. -/
def reached (acts : List Act) : Pool σ Arrival StoreError Call.Answer Response :=
  Pool.reached (endpoint d) W.serve W.empty acts

def log (acts : List Act) : List Event := Pool.log (endpoint d) W.serve W.empty acts

end WriteStore

end BullsUnicorns.Identity

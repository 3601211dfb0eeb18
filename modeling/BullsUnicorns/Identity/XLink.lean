import BullsUnicorns.Lib.Base
import BullsUnicorns.Lib.Json
import BullsUnicorns.Lib.Netstring
import BullsUnicorns.Identity.WriteHttp

/-!
# Attestations

`xLink.ts`, which verifies them in the browser, and `xLinkSign.ts` and `attest.ts`, which sign a row of the
register. The curve and the reading of a public key are parameters.
-/

namespace BullsUnicorns.Identity

open JsString

def MAX_WALLETS_PER_QUERY : ℕ := 64

def ATTESTATION_TTL_SECONDS : ℤ := 7 * 24 * 60 * 60

def CLOCK_SKEW_GRACE_SECONDS : ℤ := 5 * 60

/-- What the packages lend: noble's `ed25519` and `PublicKey`. -/
structure Curve where
  /-- Of message and secret. -/
  sign : List UInt8 → List UInt8 → List UInt8
  /-- Of signature, message and public key; none where it throws. -/
  verify : List UInt8 → List UInt8 → List UInt8 → Option Bool
  /-- None where the text is no key. -/
  publicKey : JsString → Option (List UInt8)

/-! ## The wire shape -/

/-- A claim: one row as it arrives. -/
structure LinkAttestation where
  wallet : JsString
  xId : JsString
  handle : JsString
  displayName : JsString
  avatarPath : JsString
  linkedAt : Whole
  issuedAt : Whole
  expiresAt : Whole
  sig : JsString
  keyId : JsString
deriving DecidableEq

structure DisplayName where
  unsafeText : JsString
deriving DecidableEq

/-- A fact: only a verification makes one. -/
structure LinkRecord where
  wallet : JsString
  xId : JsString
  handle : JsString
  displayName : Option DisplayName
  avatarPath : Option JsString
  linkedAt : Whole
  issuedAt : Whole
  expiresAt : Whole
deriving DecidableEq

inductive LinkRejection where
  | malformed
  | untrustedKey
  | badSignature
  | expired
  | notYetValid
  | badWallet
  | badHandle
  | badXId
  | badAvatarPath
deriving DecidableEq

inductive Verification where
  | ok (record : LinkRecord)
  | rejected (reason : LinkRejection)
deriving DecidableEq

/-! ## Field shapes -/

/-- `/^\/api\/avatar\/[0-9]{1,20}\/[0-9a-f]{64}\.webp$/` -/
def avatarPathRe (s : String) : Bool :=
  match Text.split '/' s with
  | ["", "api", "avatar", xId, file] =>
      xIdRe xId &&
        match Text.split '.' file with
        | [avatarHash, "webp"] => avatarHashRe avatarHash
        | _ => false
  | _ => false

/-- The path up to the hash. -/
def avatarFolder (xId : JsString) : JsString := ofString "/api/avatar/" ++ xId ++ ofString "/"

def avatarPathFor (xId avatarHash : JsString) : JsString := avatarFolder xId ++ avatarHash ++ ofString ".webp"

def isWalletString (v : JsString) : Bool := test walletRe v

def attestationKeyBytes (c : Curve) (v : JsString) : Option (List UInt8) :=
  (c.publicKey v).filter fun bytes => bytes.length = 32

/-! ## Canonical bytes -/

def CANONICAL_TAG : JsString := ofString "bvu.link.v1"

def netstring (value : JsString) : List UInt8 := Netstring.frame (encode value)

/-- The signed fields, in the order of the format. -/
def canonicalFields (a : LinkAttestation) : List JsString :=
  [CANONICAL_TAG, a.wallet, a.xId, a.handle, a.displayName, a.avatarPath, ofString a.linkedAt.toText,
    ofString a.issuedAt.toText, ofString a.expiresAt.toText]

def canonicalBytes (a : LinkAttestation) : List UInt8 := (canonicalFields a).flatMap netstring

/-! ## Verification -/

def asWireShape (raw : JsValue) : Option LinkAttestation := do
  let r ← raw.isRecord
  let wallet ← (JsValue.get? r "wallet").bind JsValue.isString
  let xId ← (JsValue.get? r "xId").bind JsValue.isString
  let handle ← (JsValue.get? r "handle").bind JsValue.isString
  let displayName ← (JsValue.get? r "displayName").bind JsValue.isString
  let avatarPath ← (JsValue.get? r "avatarPath").bind JsValue.isString
  let sig ← (JsValue.get? r "sig").bind JsValue.isString
  let keyId ← (JsValue.get? r "keyId").bind JsValue.isString
  let linkedAt ← (JsValue.get? r "linkedAt").bind JsValue.isFiniteInt
  let issuedAt ← (JsValue.get? r "issuedAt").bind JsValue.isFiniteInt
  let expiresAt ← (JsValue.get? r "expiresAt").bind JsValue.isFiniteInt
  return { wallet, xId, handle, displayName, avatarPath, linkedAt, issuedAt, expiresAt, sig, keyId }

/-- `atob`, of a text that the signature's expression has let through. -/
def decodeBase64 (v : JsString) : Option (List UInt8) := (ascii? v).map Base64.decode

/-- The checks of the fields, up to the clock. -/
def fieldRejection (a : LinkAttestation) : Option LinkRejection :=
  if !isWalletString a.wallet then some .badWallet
  else if !test handleRe a.handle then some .badHandle
  else if !test xIdRe a.xId then some .badXId
  else if a.avatarPath ≠ [] && !test avatarPathRe a.avatarPath then some .badAvatarPath
  else if a.avatarPath ≠ [] && !startsWith a.avatarPath (avatarFolder a.xId) then some .badAvatarPath
  else none

def clockRejection (a : LinkAttestation) (nowSec : Whole) : Option LinkRejection :=
  if a.expiresAt.val ≤ nowSec.val then some .expired
  else if (Whole.nearest (nowSec.val + CLOCK_SKEW_GRACE_SECONDS)).val < a.issuedAt.val then some .notYetValid
  else none

def signatureRejection (c : Curve) (a : LinkAttestation) (trustedKeys : List JsString) : Option LinkRejection :=
  if !trustedKeys.contains a.keyId then some .untrustedKey
  else
    match attestationKeyBytes c a.keyId with
    | none => some .untrustedKey
    | some keyBytes =>
        if !test sigRe a.sig then some .badSignature
        else
          match decodeBase64 a.sig with
          | none => some .badSignature
          | some sig =>
              if sig.length ≠ 64 then some .badSignature
              else if c.verify sig (canonicalBytes a) keyBytes = some true then none
              else some .badSignature

def recordOf (a : LinkAttestation) : LinkRecord where
  wallet := a.wallet
  xId := a.xId
  handle := a.handle
  displayName := if a.displayName = [] then none else some ⟨a.displayName⟩
  avatarPath := if a.avatarPath = [] then none else some a.avatarPath
  linkedAt := a.linkedAt
  issuedAt := a.issuedAt
  expiresAt := a.expiresAt

def verifyAttestation (c : Curve) (raw : JsValue) (trustedKeys : List JsString) (nowSec : Whole) : Verification :=
  match asWireShape raw with
  | none => .rejected .malformed
  | some a =>
      match (fieldRejection a).or ((clockRejection a nowSec).or (signatureRejection c a trustedKeys)) with
      | some reason => .rejected reason
      | none => .ok (recordOf a)

/-! ## A batch -/

/-- A map as the list of its entries, and the reasons in the order of the entries they are about. -/
structure LinkBatch where
  links : List (JsString × LinkRecord)
  rejected : List LinkRejection

/-- One entry: the first record of a wallet stays. -/
def LinkBatch.read (batch : LinkBatch) : Verification → LinkBatch
  | .ok record =>
      if (batch.links.lookup record.wallet).isSome then { batch with rejected := batch.rejected ++ [.malformed] }
      else { batch with links := batch.links ++ [(record.wallet, record)] }
  | .rejected reason => { batch with rejected := batch.rejected ++ [reason] }

/-- The entries of a response body; no body but an object has any. -/
def linksOf (raw : JsValue) : Option (List JsValue) :=
  match raw.isRecord.bind fun r => JsValue.get? r "links" with
  | some (.arr list) => some list
  | _ => none

def linkMapFrom (c : Curve) (raw : JsValue) (trustedKeys : List JsString) (nowSec : Whole) : LinkBatch :=
  match linksOf raw with
  | none => ⟨[], [.malformed]⟩
  | some listRaw =>
      (listRaw.take MAX_WALLETS_PER_QUERY).foldl
        (fun batch entry => batch.read (verifyAttestation c entry trustedKeys nowSec)) ⟨[], []⟩

/-! ## Signing -/

structure AttestationPayload where
  wallet : JsString
  xId : JsString
  handle : JsString
  displayName : JsString
  avatarPath : JsString
  linkedAt : Whole

structure AttestationKey where
  secret : List UInt8
  publicKey : JsString

/-- What is signed: the placeholder is not part of it. -/
def unsigned (payload : AttestationPayload) (key : AttestationKey) (nowSec : Whole) : LinkAttestation where
  wallet := payload.wallet
  xId := payload.xId
  handle := payload.handle
  displayName := payload.displayName
  avatarPath := payload.avatarPath
  linkedAt := payload.linkedAt
  issuedAt := nowSec
  expiresAt := Whole.nearest (nowSec.val + ATTESTATION_TTL_SECONDS)
  sig := []
  keyId := key.publicKey

def signAttestation (c : Curve) (payload : AttestationPayload) (key : AttestationKey) (nowSec : Whole) :
    LinkAttestation :=
  { unsigned payload key nowSec with
    sig := ofString (Base64.btoa (c.sign (canonicalBytes (unsigned payload key nowSec)) key.secret)) }

def rowPayload (row : LinkRow) : AttestationPayload where
  wallet := ofString row.wallet
  xId := ofString row.xId
  handle := ofString row.handle
  displayName := ofString row.displayName
  avatarPath := row.avatarHash.elim [] fun avatarHash => avatarPathFor (ofString row.xId) (ofString avatarHash)
  linkedAt := Whole.nearest row.linkedAt

def attestRow (c : Curve) (row : LinkRow) (key : AttestationKey) (nowSec : Whole) : LinkAttestation :=
  signAttestation c (rowPayload row) key nowSec

/-- What a reader has of an attestation that was sent as JSON. -/
def LinkAttestation.toJson (a : LinkAttestation) : JsValue :=
  .obj
    [(ofString "wallet", .str a.wallet), (ofString "xId", .str a.xId), (ofString "handle", .str a.handle),
     (ofString "displayName", .str a.displayName), (ofString "avatarPath", .str a.avatarPath),
     (ofString "linkedAt", .ofWhole a.linkedAt), (ofString "issuedAt", .ofWhole a.issuedAt),
     (ofString "expiresAt", .ofWhole a.expiresAt), (ofString "keyId", .str a.keyId), (ofString "sig", .str a.sig)]

end BullsUnicorns.Identity

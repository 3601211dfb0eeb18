import BullsUnicorns.Lib.Json
import BullsUnicorns.Lib.Text
import BullsUnicorns.Identity.Ingest

/-!
# The manners of the write path

`writeHttp.ts`, with the one wallet of `wallets.ts` and the refused identities of `reserved.ts`. The curve,
the key decoder and the keyed hash are parameters.
-/

namespace BullsUnicorns.Identity

/-- What the two endpoints of a deployment are wired to. -/
structure WriteDeps where
  /-- `new PublicKey(v).toBytes()`; none where it throws. -/
  publicKey : String → Option (List UInt8)
  /-- Of signature, message and key; none where it throws. -/
  ed25519Verify : List UInt8 → ByteArray → List UInt8 → Option Bool
  /-- HMAC-SHA-256 under the bucket secret, in hex. -/
  hmac : String → String
  reservedXIds : Option (List String)
  reservedHandles : Option (List String)

/-! ## Responses -/

structure Response where
  status : ℕ
  headers : List (String × String)
  body : Option Json

def jsonHeaders : List (String × String) :=
  [("Content-Type", "application/json; charset=utf-8"), ("Cache-Control", "no-store")]

def refuse (status : ℕ) (error : String) (detail : Option String) (extraHeaders : List (String × String)) : Response :=
  ⟨status, jsonHeaders ++ extraHeaders,
    some (.obj (("error", .str error) :: (detail.map fun d => ("detail", Json.str d)).toList))⟩

def okJson (fields : List (String × Json)) : Response := ⟨200, jsonHeaders, some (.obj fields)⟩

def malformed (detail : String) : Response := refuse 400 "malformed" (some detail) []

/-- One response for every reason of ours. -/
def unavailable : Response := refuse 503 "unavailable" none []

def methodNotAllowed (allow : String) : Response := ⟨405, [("Allow", allow), ("Cache-Control", "no-store")], none⟩

def rateLimited (retryAfterSec : ℤ) : Response :=
  refuse 429 "rate-limited" none [("Retry-After", toString retryAfterSec)]

/-! ## Bodies -/

/-- A request as the handlers read it. -/
structure Request where
  method : String
  contentType : Option String
  /-- `Number` of the header, where it is present; none inside where that is not finite. -/
  contentLength : Option (Option ℚ)
  /-- The length of the text and what `JSON.parse` makes of it; none where it could not be read. -/
  body : Option (ℕ × Option Json)
  host : Option String
  /-- What `clientNetwork` makes of the headers. -/
  network : String

def maxBodyBytes : ℕ := 8192

def tooLarge : Response :=
  refuse 413 "too-large" (some ("body must be under " ++ toString maxBodyBytes ++ " bytes")) []

def readJsonBody (request : Request) : Except Response (List (String × Json)) :=
  if ¬ Text.startsWith (Text.toLowerCase (request.contentType.getD "")) "application/json" then
    .error (refuse 415 "content-type" (some "expected application/json") [])
  else if (request.contentLength.join.any fun n => decide ((maxBodyBytes : ℚ) < n)) then .error tooLarge
  else
    match request.body with
    | none => .error (malformed "body could not be read")
    | some (length, parsed) =>
        -- the header was a claim, this is the fact
        if maxBodyBytes < length then .error tooLarge
        else
          match parsed with
          | none => .error (malformed "body must be JSON")
          | some (.obj fields) => .ok fields
          | some _ => .error (malformed "body must be a JSON object")

/-! ## Signatures -/

def isBase64Char (c : Char) : Bool :=
  ('A' ≤ c && c ≤ 'Z') || ('a' ≤ c && c ≤ 'z') || ('0' ≤ c && c ≤ '9') || c == '+' || c == '/'

/-- Base64 of exactly 64 bytes: 86 characters and `==`. -/
def sigRe (s : String) : Bool :=
  ofClass isBase64Char 86 86 (String.ofList (s.toList.take 86)) && s.toList.drop 86 == ['=', '=']

def base64Digit (c : Char) : ℕ :=
  if 'A' ≤ c ∧ c ≤ 'Z' then c.toNat - 65
  else if 'a' ≤ c ∧ c ≤ 'z' then c.toNat - 97 + 26
  else if '0' ≤ c ∧ c ≤ '9' then c.toNat - 48 + 52
  else if c = '+' then 62
  else 63

/-- `atob` of 86 digits: 516 bits, of which the last four say nothing. -/
def atob (digits : List Char) : List UInt8 :=
  let bits := digits.foldl (fun n c => 64 * n + base64Digit c) 0 / 16
  (List.range 64).map fun i => UInt8.ofNat (bits / 256 ^ (63 - i) % 256)

def signatureBytes (raw : Option Json) : Option (List UInt8) :=
  match raw.bind Json.isString with
  | none => none
  | some text => if sigRe text then some (atob (text.toList.take 86)) else none

example : (atob (List.replicate 85 'A' ++ ['Q'])).getLast? = some 1 := by decide +kernel

/-! ## One wallet -/

def isBase58Pubkey (d : WriteDeps) (v : String) : Bool := (d.publicKey v).any fun bytes => bytes.length == 32

def parseWallet (d : WriteDeps) (raw : Option Json) : Except String String :=
  match raw.bind Json.isString with
  | none => .error "wallet is required"
  | some text =>
      if Text.trim text = "" then .error "wallet is empty"
      else if !isBase58Pubkey d (Text.trim text) then .error "wallet must be a base58 ed25519 pubkey"
      else .ok (Text.trim text)

/-! ## Refused identities -/

def reservedHandles : List String :=
  ["bullsvsunicorns", "bullsvunicorns", "admin", "administrator", "help", "helpdesk", "moderator", "official",
   "security", "staff", "support", "team"]

def isReservedXId (d : WriteDeps) (xId : String) : Bool := (d.reservedXIds.getD reservedMockXIds).contains xId

/-- Case-folded exact membership. -/
def isReservedHandle (d : WriteDeps) (handle : String) : Bool :=
  (d.reservedHandles.getD reservedHandles).contains (Text.toLowerCase (Text.trim handle))

end BullsUnicorns.Identity

import BullsUnicorns.Lib.Base
import BullsUnicorns.Lib.Json
import BullsUnicorns.Lib.Machine
import BullsUnicorns.Lib.Text

/-!
# Who may speak for a wallet

`auth.ts` and `allowlist.ts`, with the gate that `server.ts` puts before every message and the channel
on which balances are pushed. What a guarded message then does is the engine's business.
-/

namespace BullsUnicorns.Engine

/-! ## Values of messages -/

/-- What the process takes from its runtime and its libraries. -/
structure Runtime where
  /-- `new PublicKey(value).toBytes()`, or the text of what it throws. -/
  publicKey : Option Json → Except String (List UInt8)
  /-- `nacl.sign.detached.verify(message, signature, key)`. -/
  detached : List UInt8 → List UInt8 → List UInt8 → Bool
  /-- `createHmac("sha256", secret).update(payload).digest("base64url")`. -/
  hmac : String → String → String
  numberText : ℚ → String
  /-- `Number(text)` of a text that is not all digits. -/
  number : String → Option ℚ
  /-- `String(value)` of an array or an object. -/
  objectText : Json → Except String String
  /-- `Buffer.from(value)` of what is no text. -/
  objectBytes : Option Json → Except String (List UInt8)
  /-- `toString()` of bytes that are not well formed. -/
  replaced : List UInt8 → String

def truthy : Option Json → Bool
  | none => false
  | some .null => false
  | some (.bool b) => b
  | some (.num n) => n ≠ 0
  | some (.str s) => s ≠ ""
  | some (.arr _) => true
  | some (.obj _) => true

/-- `value || ""`. -/
def orEmpty (v : Option Json) : Option Json := if truthy v then v else some (.str "")

/-- A value as `===`, a map or a set compares it: an object is equal to itself alone, so the message that
brought it tells it from any other. -/
inductive Value where
  | undefined
  | null
  | bool (b : Bool)
  | num (n : ℚ)
  | str (s : String)
  | ref (message : ℕ)
deriving DecidableEq

def Value.of (message : ℕ) : Option Json → Value
  | none => .undefined
  | some .null => .null
  | some (.bool b) => .bool b
  | some (.num n) => .num n
  | some (.str s) => .str s
  | some (.arr _) => .ref message
  | some (.obj _) => .ref message

namespace Runtime

variable (r : Runtime)

/-- `String(value)`. -/
def text : Option Json → Except String String
  | none => .ok "undefined"
  | some .null => .ok "null"
  | some (.bool b) => .ok (if b then "true" else "false")
  | some (.num n) => .ok (r.numberText n)
  | some (.str s) => .ok s
  | some v => r.objectText v

/-- `Buffer.from(value)`. -/
def bytes : Option Json → Except String (List UInt8)
  | some (.str s) => .ok (Text.utf8 s)
  | v => r.objectBytes v

def decoded (bytes : List UInt8) : String := (Text.ofUtf8 bytes).getD (r.replaced bytes)

/-- `Number(text)`. -/
def toNumber (text : String) : Option ℚ :=
  if text ≠ "" ∧ text.toList.all Char.isDigit then some (Nat.ofDigitChars 10 text.toList 0) else r.number text

end Runtime

/-! ## The deployment -/

/-- What the environment and the disk tell a process when it starts. -/
structure Deployment where
  SESSION_SECRET : String
  SESSION_TTL_MS : ℕ
  /-- Whether the allowlist is enforced: on a live chain, unless it is switched off. -/
  enforced : Bool
  WHITELIST : String
  whitelistFile : Option String

namespace Deployment

variable (d : Deployment)

/-- `load`. -/
def allow : List String :=
  ((Text.split ',' d.WHITELIST ++ d.whitelistFile.elim [] (Text.split '\n')).map Text.trim).filter fun w =>
    w ≠ "" ∧ Text.startsWith w "#" = false

/-- May this wallet play? -/
def isAllowed (wallet : Value) : Bool :=
  !d.enforced ||
    match wallet with
    | .str w => w ∈ d.allow
    | _ => false

end Deployment

/-! ## Proofs -/

abbrev SocketId := ℕ

/-- What the process holds of its sockets. `signed` is the record, kept beside it, of the payloads that
were ever signed, each with the secret it was signed with. -/
structure Gate where
  deployment : Deployment
  clients : List SocketId
  walletOf : SocketId → Value
  authed : SocketId → List Value
  nonces : SocketId → Option String
  signed : List (String × String)

/-- A process that has just started; the record goes on. -/
def Gate.start (d : Deployment) (signed : List (String × String)) : Gate :=
  ⟨d, [], fun _ => .undefined, fun _ => [], fun _ => none, signed⟩

/-- What a message finds: the clock, `Math.random().toString(36).slice(2)`, the identity of what it brings,
and the sockets that are open. -/
structure Moment where
  now : ℕ
  random : String
  message : ℕ
  isOpen : SocketId → Bool

inductive Reply where
  | authRequired
  | authChallenge (nonce : String)
  | authResult (ok : Bool) (wallet : Option Json) (msg token : Option String)
  | authResumed (ok : Bool) (msg : Option String)
  | balance (wallet : Value)
  | error (msg : String)

/-- What an event brings about: a guarded message that is carried out, and what is sent. -/
structure Output where
  acted : Option (SocketId × Value)
  sent : List (SocketId × Reply)

def Output.nothing : Output := ⟨none, []⟩
def Output.answer (ws : SocketId) (reply : Reply) : Output := ⟨none, [(ws, reply)]⟩

namespace Gate

variable (r : Runtime) (s : Gate) (ws : SocketId) (x : Moment)

def isAuthed (wallet : Value) : Bool := wallet ∈ s.authed ws

def names (wallet : Value) : Gate := { s with walletOf := Function.update s.walletOf ws wallet }

def trust (wallet : Value) : Gate := { s with authed := Function.update s.authed ws (wallet :: s.authed ws) }

def challenge : Gate × String :=
  let nonce := "Bulls vs Unicorns login " ++ toString x.now ++ " " ++ x.random
  ({ s with nonces := Function.update s.nonces ws (some nonce) }, nonce)

/-- The check of a base64 signature over a nonce. -/
def checks (wallet : Option Json) (nonce : String) (signatureB64 : Option Json) : Except String Bool := do
  let pk ← r.publicKey wallet
  let sig := Base64.decode (← r.text signatureB64)
  return sig.length = 64 ∧ r.detached (Text.utf8 nonce) sig pk

structure VerifyResult where
  ok : Bool
  wallet : Option Json
  msg : Option String

def verify (wallet signatureB64 : Option Json) : Gate × VerifyResult :=
  match s.nonces ws with
  | none => (s, ⟨false, none, some "no challenge"⟩)
  | some nonce =>
    match checks r wallet nonce signatureB64 with
    | .ok true =>
        ({ s.trust ws (.of x.message wallet) with nonces := Function.update s.nonces ws none }, ⟨true, wallet, none⟩)
    | .ok false => (s, ⟨false, wallet, none⟩)
    | .error msg => (s, ⟨false, none, some msg⟩)

/-! ## Sessions -/

def sessionPayload (data : List UInt8) (expiresAt : ℕ) : String :=
  Text.join '.' [Base64.encode data, toString expiresAt]

def withSignature (payload : String) : String := Text.join '.' [payload, r.hmac s.deployment.SESSION_SECRET payload]

def mintSession (wallet : Option Json) : Except String (Gate × String) := do
  let payload := sessionPayload (← r.bytes wallet) (x.now + s.deployment.SESSION_TTL_MS)
  return ({ s with signed := (s.deployment.SESSION_SECRET, payload) :: s.signed }, s.withSignature r payload)

/-- The wallet that a token is bound to, while it lasts. -/
def resumable (token : String) : Option String :=
  match Text.split '.' token with
  | [head, expiry, sig] =>
    if sig = r.hmac s.deployment.SESSION_SECRET (Text.join '.' [head, expiry]) then
      if ((r.toNumber expiry).any fun at' => (x.now : ℚ) < at') then some (r.decoded (Base64.decode head)) else none
    else none
  | _ => none

def resume (wallet token : String) : Gate × Bool :=
  if s.resumable r x token = some wallet then (s.trust ws (.str wallet), true) else (s, false)

/-! ## The message gate -/

def GUARDED : List String :=
  ["enter", "enterN", "withdraw", "withdrawSol", "convert", "buildDeposit", "buildSolDeposit", "deposit", "depositSol",
    "setName", "fundMe", "relayTx", "faucet"]

def guarded (m : Json) : Bool := ((m.get? "t").bind Json.isString).any fun t => t ∈ GUARDED

def pushBalance (wallet : Value) (isOpen : SocketId → Bool) : List (SocketId × Reply) :=
  (s.clients.filter fun c => isOpen c && s.walletOf c = wallet).map fun c => (c, .balance wallet)

def authResume (m : Json) : Except String (Gate × Output) := do
  let wallet ← r.text (orEmpty (m.get? "wallet"))
  let token ← r.text (orEmpty (m.get? "token"))
  match s.resume r ws x wallet token with
  | (s, true) =>
      let owner ← r.text (m.get? "wallet")
      return (s, ⟨none, (ws, .authResumed true none) :: s.pushBalance (.str owner) x.isOpen⟩)
  | (s, false) => return (s, .answer ws (.authResumed false (some "session expired")))

/-- A token that cannot be minted is an error, though the wallet is trusted by then. -/
def authVerify (m : Json) : Gate × Output :=
  let wallet := m.get? "wallet"
  if s.deployment.isAllowed (.of x.message wallet) = false then
    (s, .answer ws (.authResult false wallet (some "This wallet isn't on the launch whitelist yet.") none))
  else
    match s.verify r ws x wallet (m.get? "signature") with
    | (s, ⟨true, wallet, msg⟩) =>
      match s.mintSession r x wallet with
      | .ok (s, token) => (s, .answer ws (.authResult true wallet msg (some token)))
      | .error e => (s, .answer ws (.error e))
    | (s, ⟨false, wallet, msg⟩) => (s, .answer ws (.authResult false wallet msg none))

/-- A message that has been parsed and is within its budget. -/
def onMessage (m : Json) : Gate × Output :=
  match m with
  | .null => (s, .answer ws (.error "Cannot read properties of null (reading 'wallet')"))
  | m =>
    let wallet := Value.of x.message (m.get? "wallet")
    let s := if truthy (m.get? "wallet") then s.names ws wallet else s
    if guarded m then
      if s.isAuthed ws wallet then (s, ⟨some (ws, wallet), []⟩) else (s, .answer ws .authRequired)
    else
      match (m.get? "t").bind Json.isString with
      | some "authChallenge" => ((s.challenge ws x).1, .answer ws (.authChallenge (s.challenge ws x).2))
      | some "authResume" =>
        match s.authResume r ws x m with
        | .ok result => result
        | .error e => (s, .answer ws (.error e))
      | some "authVerify" => s.authVerify r ws x m
      | some "getBalance" => (s, if s.isAuthed ws wallet then .answer ws (.balance wallet) else .nothing)
      | _ => (s, .nothing)

/-- What a socket leaves behind. -/
def cleanup : Gate :=
  { s with
    clients := s.clients.filter (· ≠ ws)
    walletOf := Function.update s.walletOf ws .undefined
    authed := Function.update s.authed ws []
    nonces := Function.update s.nonces ws none }

end Gate

/-! ## Events -/

/-- What may happen, in any order. A balance is pushed by whatever the engine does for anybody. -/
inductive SocketEvent where
  | connect (ws : SocketId)
  | close (ws : SocketId)
  | message (ws : SocketId) (x : Moment) (m : Json)
  | pushBalance (wallet : Value) (isOpen : SocketId → Bool)
  | restart (d : Deployment)

def sockets (r : Runtime) : Machine Gate SocketEvent Output Unit where
  step s event :=
    match event with
    | .connect ws => if ws ∈ s.clients then .error () else .ok ({ s with clients := ws :: s.clients }, .nothing)
    | .close ws => .ok (s.cleanup ws, .nothing)
    | .message ws x m => if ws ∈ s.clients then .ok (s.onMessage r ws x m) else .error ()
    | .pushBalance wallet isOpen => .ok (s, ⟨none, s.pushBalance wallet isOpen⟩)
    | .restart d => .ok (.start d s.signed, .nothing)

end BullsUnicorns.Engine

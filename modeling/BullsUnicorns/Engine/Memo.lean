import BullsUnicorns.Engine.Server
import BullsUnicorns.Lib.Collate
import BullsUnicorns.Lib.Decimal
import BullsUnicorns.Lib.Machine
import BullsUnicorns.Lib.Utf16

/-!
# Anchors of settled rounds

`memo.ts`: what is written on the chain about a round. Its hash commits to the text of the results, in which the
players stand in the order of their ids.
-/

namespace BullsUnicorns.Engine

open Battle

structure AnchorPlayer where
  id : String
  name : Option String
  side : String
  bot : Bool
  inTok : ℚ
  outA : ℚ
  outB : ℚ
deriving DecidableEq

structure RoundAnchor where
  arena : String
  round : ℕ
  seedHash : String
  seed : String
  winner : String
  pot : ℚ
  players : List AnchorPlayer
deriving DecidableEq

/-- The row of an entry, with what the settlement paid to it. -/
def anchorPlayer (nameFor : String → String) (r : RoundResult) (e : Entry) : AnchorPlayer :=
  let bal := (r.settlement.get e.id).getD ⟨0, 0⟩
  let pid := walletOf e.id
  { id := pid, name := some (nameFor pid), side := e.side.key, bot := Text.includes ":bot:" e.id
    inTok := e.stake / (1 - FEE), outA := bal.bull, outB := bal.uwu }

/-- The anchor that a settlement queues. -/
def anchorOf (nameFor : String → String) (aid : ArenaId) (st : RoundState Entry RoundResult) (r : RoundResult) :
    RoundAnchor where
  arena := aid.text
  round := st.round
  seedHash := st.seedHashPublished
  seed := st.seed.getD ""
  winner := r.winner.key
  pot := (st.entries.map fun e => e.stake / (1 - FEE)).sum
  players := st.entries.map (anchorPlayer nameFor r)

/-! ## The text of the results -/

/-- A row of the results; its amounts are in millionths. -/
structure ResultRow where
  id : String
  side : String
  inTok : ℤ
  outA : ℤ
  outB : ℤ
deriving DecidableEq

def AnchorPlayer.row (f : AnchorPlayer) : ResultRow :=
  ⟨f.id, f.side, Number.millionths f.inTok, Number.millionths f.outA, Number.millionths f.outB⟩

def RoundAnchor.rows (r : RoundAnchor) : List ResultRow := r.players.map AnchorPlayer.row

def ResultRow.doc (x : ResultRow) : Doc ℤ := .arr [.str x.id, .str x.side, .num x.inTok, .num x.outA, .num x.outB]

/-- `sort((x, y) => x[0].localeCompare(y[0]))`, which is stable. -/
def sortRows (l : List ResultRow) : List ResultRow := l.mergeSort fun x y => Collate.le x.id y.id

def RoundAnchor.doc (r : RoundAnchor) : Doc ℤ :=
  .obj [("arena", .str r.arena), ("round", .num (r.round * 10 ^ 6)), ("winner", .str r.winner),
    ("seedHash", .str r.seedHash), ("seed", .str r.seed), ("players", .arr ((sortRows r.rows).map ResultRow.doc))]

def resultsPayload (r : RoundAnchor) : String := String.ofList (r.doc.stringify Number.decimals)

end BullsUnicorns.Engine

/-!
## Anchoring rounds on the chain

`memo.ts`: how rounds are written into a memo, and `flushMemos`, which posts the queue batch by batch. A call
stops at four answers of the chain, and calls of `anchorRound` and of the timer come in between.
-/

namespace BullsUnicorns.Engine

structure MemoEnv where
  ON : Bool
  BATCH : ℕ
  batch_pos : 1 ≤ BATCH
  MAX_MEMO_BYTES : ℕ
  MEMO_MIN_VAULT_SOL : ℚ
  /-- The digest of a text, in hexadecimal. -/
  sha256 : String → String

/-! ## What a memo says -/

/-- `(x || 0).toFixed(2)`. -/
def toFixed2 (x : ℚ) : String :=
  let hundredths := ⌊|x| * 100 + 1 / 2⌋.toNat
  if 10 ^ 21 ≤ |x| then String.ofList (Number.printMillionths (Number.millionths x))
  else (if x < 0 then "-" else "") ++ toString (hundredths / 100) ++ "." ++ Text.padded 10 2 (hundredths % 100)

def B58 : JsString := JsString.ofString "abcdefghijkmnopqrstuvwxyzABCDEFGHJKLMNPQRSTUVWXYZ123456789"

/-- Characters drawn from a running hash. -/
def walletishChars : ℕ → UInt32 → JsString
  | 0, _ => []
  | n + 1, h => B58.getD (h.toNat % B58.length) 0 :: walletishChars n ((h ^^^ (h >>> 13)) * 2246822507)

def walletish (seed : JsString) : JsString :=
  let h := seed.foldl (fun (h : UInt32) u => (h ^^^ UInt32.ofNat u.toNat) * 16777619) 2166136261
  let out := walletishChars 7 h
  out.take 4 ++ JsString.ofString ".." ++ out.drop 4

/-- The name of a fighter in a memo: its handle, or a piece of its address or of what stands for one. -/
def shortId (id : String) (name : Option String) : JsString :=
  let n := Text.trim (name.getD "")
  let units := JsString.ofString id
  if n ≠ "" ∧ n ≠ "You" then (JsString.ofString n).take 12
  else if Text.includes ":bot:" id then walletish units
  else units.take 4 ++ JsString.ofString ".." ++ units.drop (units.length - 3)

/-- The tokens of the two slots of a pairing. -/
def slotTokens (pair : String) : String × String :=
  if pair = "us" then ("UWU", "SOL")
  else if pair = "au" then ("ANSEM", "UWU")
  else if pair = "as" then ("ANSEM", "SOL")
  else ("A", "B")

def MemoEnv.resultsHash (env : MemoEnv) (r : RoundAnchor) : String := env.sha256 (resultsPayload r)

/-- `s.slice(0, n)`. -/
def slice (n : ℕ) (s : String) : JsString := (JsString.ofString s).take n

def playerLine (tokA tokB : String) (f : AnchorPlayer) : JsString :=
  let army := if f.side = "bull" then tokA else tokB
  shortId f.id f.name ++
    JsString.ofString (" " ++ army ++ " $" ++ toFixed2 f.inTok ++ ">$" ++ toFixed2 (f.outA + f.outB))

def MemoEnv.encodeRound (env : MemoEnv) (r : RoundAnchor) (withPlayers : Bool) : JsString :=
  let (tokA, tokB) := slotTokens (Text.firstPart '-' r.arena)
  let mode := if Text.includes "extraction" r.arena then "EXT" else "MAY"
  let win := if r.winner = "bull" then tokA else tokB
  let lines := [
    JsString.ofString ("BULLS vs UNICORNS  R" ++ toString r.round ++ "  " ++ tokA ++ "/" ++ tokB ++ " " ++ mode),
    JsString.ofString ("WINNER " ++ win ++ " | POT $" ++ toFixed2 r.pot ++ " | " ++ toString r.players.length ++
      " players"),
    JsString.ofString "commit " ++ slice 16 r.seedHash ++ JsString.ofString "  (before deploys)",
    JsString.ofString "seed   " ++ slice 16 r.seed ++ JsString.ofString "  (at fight start)",
    JsString.ofString "results " ++ slice 32 (env.resultsHash r)]
  let players := if withPlayers then r.players.map (playerLine tokA tokB) else []
  (JsString.ofString "\n").intercalate
    (lines ++ players ++ [JsString.ofString "verify bulls-arena-engine.fly.dev/fair"])

/-- Several rounds in one memo, with a rule between them. -/
def MemoEnv.encode (env : MemoEnv) (rows : List RoundAnchor) (withPlayers : Bool) : JsString :=
  (JsString.ofString "\n==========\n").intercalate (rows.map fun r => env.encodeRound r withPlayers)

def byteLength (text : JsString) : ℕ := (JsString.encode text).length

/-! ## Posting -/

/-- What a call of `flushMemos` waits for. -/
inductive Wait where
  | balance
  | blockhash
  | send
  | confirm
deriving DecidableEq

/-- A call of `flushMemos` with a memo under way: how many rounds of the queue it takes, and their text. -/
structure Flush where
  take : ℕ
  withPlayers : Bool
  text : JsString
  stage : Wait

structure Memo where
  queue : List RoundAnchor
  sending : Bool
  posted : ℕ
  failed : ℕ
  degraded : ℕ
  paused : Bool
  /-- The vault's key has been loaded. -/
  kp : Bool
  /-- The calls that wait for the chain. -/
  calls : List Flush

/-- What happens to rounds, as a step tells it. -/
inductive Fate where
  /-- Into the queue. -/
  | queued (r : RoundAnchor)
  /-- Out of the queue because no memo can hold it. -/
  | unfit (r : RoundAnchor)
  /-- On the chain, in a memo of this text. -/
  | landed (text : JsString)
  /-- Out of the queue as posted, by a call with this text. -/
  | removed (rows : List RoundAnchor) (text : JsString)
  /-- An attempt that came to nothing. -/
  | refused
  /-- Out of a queue that has grown too long. -/
  | trimmed (rows : List RoundAnchor)
deriving DecidableEq

namespace Memo

variable (env : MemoEnv)

/-- Nothing has happened yet. -/
def fresh : Memo := ⟨[], false, 0, 0, 0, false, false, []⟩

def fits (text : JsString) : Bool := byteLength text ≤ env.MAX_MEMO_BYTES

/-- The largest batch that fits with its players, or one round. -/
def shrink (queue : List RoundAnchor) : ℕ → ℕ
  | n + 2 => if fits env (env.encode (queue.take (n + 2)) true) then n + 2 else shrink queue (n + 1)
  | n => n

/-- One turn of the loop up to its first wait, or the end of the call. -/
def prepare (m : Memo) : Memo × Option Flush × List Fate :=
  match m.queue with
  | [] => ({ m with sending := false }, none, [])
  | r :: rest =>
    let take := shrink env m.queue (min m.queue.length env.BATCH)
    let full := env.encode (m.queue.take take) true
    if fits env full then (m, some ⟨take, true, full, .balance⟩, [])
    else
      let m := { m with degraded := m.degraded + 1 }
      let lean := env.encode (m.queue.take take) false
      if fits env lean then (m, some ⟨take, false, lean, .balance⟩, [])
      else ({ m with queue := rest, failed := m.failed + 1, sending := false }, none, [.unfit r])

/-- `flushMemos` up to its first wait; `loads` tells whether the vault's key can be read. -/
def flushMemos (m : Memo) (loads : Bool) : Memo × List Fate :=
  if !env.ON || m.sending || m.queue.isEmpty || m.paused then (m, [])
  else if m.kp || loads then
    let (m, call, fates) := prepare env { m with kp := true, sending := true }
    ({ m with calls := m.calls ++ call.toList }, fates)
  else (m, [])

def anchorRound (m : Memo) (r : RoundAnchor) (loads : Bool) : Memo × List Fate :=
  if env.ON then
    let m := { m with queue := m.queue ++ [r] }
    if env.BATCH ≤ m.queue.length then
      let (m, fates) := flushMemos env m loads
      (m, .queued r :: fates)
    else (m, [.queued r])
  else (m, [])

/-- The end of a call by an error: the rows stay for the next attempt, the newest 500 of them. -/
def catchError (m : Memo) (k : ℕ) : Memo × List Fate :=
  let excess := m.queue.length - 500
  let m' := { m with failed := m.failed + 1, sending := false, calls := m.calls.eraseIdx k }
  if 500 < m.queue.length then ({ m' with queue := m.queue.drop excess }, [.refused, .trimmed (m.queue.take excess)])
  else (m', [.refused])

/-- A confirmed memo: its rows leave the queue, and the loop goes on. -/
def confirmed (m : Memo) (k : ℕ) (c : Flush) : Memo × List Fate :=
  let (m', call, fates) := prepare env { m with queue := m.queue.drop c.take, posted := m.posted + c.take }
  ({ m' with calls := match call with
      | some c' => m.calls.set k c'
      | none => m.calls.eraseIdx k },
    .removed (m.queue.take c.take) c.text :: fates)

inductive Act where
  | anchorRound (r : RoundAnchor) (loads : Bool)
  /-- The timer. -/
  | flushMemos (loads : Bool)
  | memoPause (why : Bool)
  | setMemoSigner
  /-- An answer of the chain to the `k`-th waiting call: lamports, or an error. -/
  | balance (k : ℕ) (lamports : Option ℚ)
  | blockhash (k : ℕ) (ok : Bool)
  /-- A memo may land although the node answers with an error. -/
  | sent (k : ℕ) (ok landed : Bool)
  /-- It may land although the confirmation does not come, and fail on the chain although it comes. -/
  | confirmation (k : ℕ) (ok landed : Bool)

/-- The waiting call that an answer is for. -/
def call? (m : Memo) (k : ℕ) (stage : Wait) : Except Unit Flush :=
  match m.calls[k]? with
  | some c => if c.stage = stage then .ok c else .error ()
  | none => .error ()

/-- A call waits for this answer. -/
def waits (m : Memo) (k : ℕ) (stage : Wait) : Bool := (m.call? k stage).isOk

def advance (m : Memo) (k : ℕ) (c : Flush) (stage : Wait) : Memo :=
  { m with calls := m.calls.set k { c with stage := stage } }

def landedIf (landed : Bool) (c : Flush) : List Fate := if landed then [.landed c.text] else []

def step (m : Memo) : Act → Except Unit (Memo × List Fate)
  | .anchorRound r loads => .ok (anchorRound env m r loads)
  | .flushMemos loads => .ok (flushMemos env m loads)
  | .memoPause why => .ok ({ m with paused := why }, [])
  | .setMemoSigner => .ok ({ m with kp := true }, [])
  | .balance k lamports => do
    let c ← m.call? k .balance
    if lamports.getD 0 / 10 ^ 9 < env.MEMO_MIN_VAULT_SOL then
      .ok ({ m with sending := false, calls := m.calls.eraseIdx k }, [])
    else .ok (m.advance k c .blockhash, [])
  | .blockhash k ok => do
    let c ← m.call? k .blockhash
    .ok (if ok then (m.advance k c .send, []) else m.catchError k)
  | .sent k ok landed => do
    let c ← m.call? k .send
    if ok then .ok (m.advance k c .confirm, [])
    else
      let (m, fates) := m.catchError k
      .ok (m, landedIf landed c ++ fates)
  | .confirmation k ok landed => do
    let c ← m.call? k .confirm
    let (m, fates) := if ok then confirmed env m k c else m.catchError k
    .ok (m, landedIf landed c ++ fates)

end Memo

def memo (env : MemoEnv) : Machine Memo Memo.Act (List Fate) Unit where
  step := Memo.step env

end BullsUnicorns.Engine

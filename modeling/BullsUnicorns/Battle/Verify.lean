import BullsUnicorns.Battle.Browser
import BullsUnicorns.Battle.Lemmas.Rounds
import BullsUnicorns.Lib.Stringify

/-!
# The verifier of the page

The roundStart message of `server.ts`, which is sent live, to a joiner and on resync; what `startEngineRound` of
`web/index.html` keeps of it, and `verifyLastRound`, which recomputes the round from that.
-/

namespace BullsUnicorns.Battle.Browser

/-! ## The message -/

structure StartEntry where
  id : String
  wallet : String
  side : Side
  stake : ℚ
  name : String
  avatar : Option String
  bot : Bool

structure RoundStart where
  arena : String
  mode : Mode
  round : ℕ
  multiplier : ℚ
  seed : String
  seedHash : String
  /-- The field may be missing. -/
  secret : Option String
  entries : List StartEntry
  cfg : RoundConfig
  hitCount : ℕ
  winner : Side
  settlement : OrderedMap String Payout
  startedAt : ℚ
  battleMs : ℚ
  resumed : Bool

/-- What the accounts say about names, and the arena a runner is for. -/
structure Sender where
  env : RoundEnv
  arena : String
  mode : Mode
  nameFor : String → String
  avatarOf : String → Option String

def startEntry (d : Sender) (e : Entry) : StartEntry where
  id := e.id
  wallet := walletOf e.id
  side := e.side
  stake := e.stake
  name := d.nameFor e.id
  avatar := d.avatarOf (walletOf e.id)
  bot := Text.includes ":bot:" e.id

/-- `s.battleMs || cfg.battleMs`. -/
def lengthOf (d : Sender) (s : RoundState Entry RoundResult) : ℚ :=
  let ms := s.battleMs.getD 0
  if ms = 0 then (newRoundConfig d.env d.mode s.multiplier).battleMs else ms

/-- The message about a state, with what its three senders write differently. It is sent once there is a result,
and the seed is set with it. -/
def roundStart (d : Sender) (s : RoundState Entry RoundResult) (secret : Option String) (startedAt : ℚ)
    (resumed : Bool) : Option RoundStart := do
  let r ← s.result
  let seed ← s.seed
  return {
    arena := d.arena, mode := d.mode, round := s.round, multiplier := s.multiplier, seed
    seedHash := s.seedHashPublished, secret, entries := s.entries.map (startEntry d)
    cfg := newRoundConfig d.env d.mode s.multiplier, hitCount := r.hits.length, winner := r.winner
    settlement := r.settlement, startedAt, battleMs := lengthOf d s, resumed }

/-- The broadcast when the lobby is left. -/
def liveStart (d : Sender) (s : RoundState Entry RoundResult) (now : ℚ) : Option RoundStart :=
  roundStart d s s.secretRevealed now false

/-- To a page that connects during the battle. -/
def joinerStart (d : Sender) (s : RoundState Entry RoundResult) : Option RoundStart :=
  roundStart d s s.secretRevealed (s.closesAt - lengthOf d s) true

/-- To a page that asks for the rounds in flight; this sender leaves the secret out. -/
def resyncStart (d : Sender) (s : RoundState Entry RoundResult) : Option RoundStart :=
  roundStart d s none (s.closesAt - lengthOf d s) true

/-! ## The page -/

/-- `lastRound`, with every field that is read of it. -/
structure LastRound where
  round : ℕ
  seed : String
  seedHash : String
  secret : Option String
  entries : List StartEntry
  cfg : RoundConfig
  hitCount : ℕ
  winner : Side
  settlement : OrderedMap String Payout
  hits : Option (List HitLog)

/-- The world of a mode, as far as a message fills it. -/
structure World where
  roundNo : ℕ
  multiplier : ℚ
  seed : String
  seedHash : String
  eWinner : Option Side
  settlement : OrderedMap String Payout
  battleMs : ℚ
  tickMs : ℚ
  entries : List StartEntry
  lastRound : Option LastRound

/-- What is kept of a message for the verifier. -/
def lastRoundOf (m : RoundStart) : LastRound where
  round := m.round
  seed := m.seed
  seedHash := m.seedHash
  secret := none
  entries := m.entries
  cfg := m.cfg
  hitCount := m.hitCount
  winner := m.winner
  settlement := m.settlement
  hits := none

def startEngineRound (w : World) (m : RoundStart) : World :=
  { w with
    roundNo := m.round, multiplier := m.multiplier, seed := m.seed, seedHash := m.seedHash, eWinner := some m.winner
    settlement := m.settlement, battleMs := if m.battleMs = 0 then 60000 else m.battleMs, tickMs := m.cfg.tickMs
    entries := m.entries, lastRound := some (lastRoundOf m) }

def entryOf (e : StartEntry) : Entry := ⟨e.id, e.side, e.stake⟩

def payoutDoc (pay : Payout) : Doc ℚ := .obj [("bull", .num pay.bull), ("uwu", .num pay.uwu)]

def settlementDoc (settlement : OrderedMap String Payout) : Doc ℚ :=
  .obj (settlement.entries.map fun e => (e.1, payoutDoc e.2))

/-- The five lines of the verdict. -/
structure Report where
  okHash : Bool
  okDerive : Bool
  okCount : Bool
  okWin : Bool
  okSet : Bool

def Report.all (r : Report) : Bool := r.okHash && r.okDerive && r.okWin && r.okCount && r.okSet

inductive Verdict where
  | noRound
  /-- The call ends by an error before it reports anything. -/
  | throws
  | report (r : Report)

section
variable (p : Platform) (env : RoundEnv) (numbers : Printer ℚ) (fuel : ℕ)

/-- The page's own derivation. -/
def deriveSeedJS (secret : String) (entries : List StartEntry) : String :=
  p.sha256 (secret ++ "|" ++ Text.join ';' (Text.sort (entries.map fun e =>
    e.id ++ "|" ++ e.side.key ++ "|" ++ Text.toFixed8 env.toText e.stake)))

/-- The checks of a record. -/
def check (R : LastRound) : Option Report := do
  let secret := R.secret.getD ""
  let hash := if secret = "" then "" else p.sha256 secret
  let derived := if secret = "" then "" else deriveSeedJS p env secret R.entries
  let mine ← simulateRoundJS p fuel R.seed (R.entries.map entryOf) R.cfg
  return {
    okHash := decide (secret ≠ "") && hash == R.seedHash
    okDerive := decide (secret ≠ "") && derived == R.seed
    okCount := R.hitCount == 0 || mine.hits.length == R.hitCount
    okWin := mine.winner = R.winner
    okSet := Doc.stringify numbers (settlementDoc mine.settlement) =
      Doc.stringify numbers (settlementDoc R.settlement) }

/-- No verdict when the simulation does not end within its turns. -/
def verifyLastRound (w : World) : Option Verdict :=
  match w.lastRound with
  | none => some .noRound
  | some R =>
    -- the number of recorded hits is announced before the `try`
    match R.hits with
    | none => some .throws
    | some _ => (check p env numbers fuel R).map .report

end

end BullsUnicorns.Battle.Browser

import BullsUnicorns.Chain.Books
import BullsUnicorns.Lib.Machine

/-!
# The instructions on a round

Each handler reads the clock and the accounts it names, and answers the round it leaves and the event
it emits, or the error it stops with. An instruction that stops leaves every account as it was.
-/

namespace BullsUnicorns.Chain

open Word

abbrev FeeBps := { n : ℕ // n ≤ maxFeeBps }

structure Arena where
  authority : Pubkey
  roundCounter : ℕ
  feeBps : FeeBps

inductive Event where
  | roundOpened (roundNo : ℕ) (seedCommit : Bytes32) (lobbyOpenedAt lobbyClosesAt : ℤ)
  | roundAbandoned (roundNo fighterCount : ℕ)
  | seedRevealed (roundNo : ℕ) (seed : Bytes32)
  | roundSettled (roundNo : ℕ) (winner : UInt8) (pot : ℕ)
  | ticked (roundNo cursor steps : ℕ)
  | extracted (roundNo : ℕ) (player : Pubkey) (amount penalty cursor : ℕ)
  | entered (roundNo : ℕ) (player : Pubkey) (side : UInt8) (stake fee : ℕ)
  | houseSwept (roundNo fees penalties feesAccrued penaltiesAccrued : ℕ)
  | roundAccountClosed (roundNo : ℕ)
  | feeBpsChanged (previous current : ℕ)

/-- The round that `open_round` writes into a new account. -/
def openedRound (now : ℤ) (roundNo : ℕ) (seedCommit : Bytes32) (lobbySeconds : UInt32) : RoundState where
  roundNo := roundNo
  phase := .lobby
  winner := 0
  fighterCount := 0
  houseSwept := 0
  tickCount := 0
  pot := 0
  penaltiesCollected := 0
  feesCollected := 0
  seedCommit := seedCommit
  seed := zeroBytes
  lobbyOpenedAt := (lobbyWindow now lobbySeconds).1
  lobbyClosesAt := (lobbyWindow now lobbySeconds).2
  fightStartedAt := 0
  fighters := Vector.replicate maxFighters Fighter.blank

abbrev Outcome := Except ArenaError (RoundState × Option Event)

def enter (r : RoundState) (arena : Arena) (now : ℤ) (who : Pubkey) (side : UInt8) (stake : UInt64) :
    Outcome := do
  require (r.phase = .lobby) .notInLobby
  require (side = 0 ∨ side = 1) .badSide
  require (stake > 0) .zeroStake
  require (r.fighterCount < maxFighters) .roundFull
  require (lobbyIsOpen r.lobbyClosesAt now = true) .lobbyClosed
  let (r, _, fee) ← creditEntry r who side stake.toNat arena.feeBps
  pure (r, some (.entered r.roundNo who side stake.toNat fee))

def closeLobbyAndDraw (r : RoundState) (arena : Arena) (now : ℤ) (authority : Option Pubkey) :
    Outcome := do
  let byAuthority ← authorityCloseRequested authority arena.authority
  require (r.phase = .lobby) .notInLobby
  require (drawIsPermitted r.fighterCount r.lobbyClosesAt now byAuthority = true) .lobbyStillOpen
  require (enoughToFight r.fighterCount = true) .notEnoughFighters
  pure ({ r with phase := .drawing }, none)

def abandonRound (r : RoundState) (now : ℤ) : Outcome := do
  require (r.phase = .lobby) .notInLobby
  require (lobbyIsDead r.fighterCount r.lobbyClosesAt now = true) .lobbyNotAbandonable
  let (r, _) ← refundAbandonedEntry r
  pure ({ r with phase := .abandoned }, some (.roundAbandoned r.roundNo r.fighterCount))

def closeRound (r : RoundState) : Outcome := do
  require (r.phase = .settled) .notSettled
  pure (r, none)

section
variable (sha256 : List UInt8 → Bytes32)

def callbackSeed (r : RoundState) (now : ℤ) (randomness : Bytes32) : Outcome := do
  require (r.phase = .drawing) .notDrawing
  let r := { r with
    seed := randomness
    seedCommit := hashv sha256 [randomness.toList]
    phase := .fight
    fightStartedAt := now }
  pure (r, some (.seedRevealed r.roundNo randomness))

def tick (r : RoundState) (now : ℤ) (steps : UInt32) : Outcome := do
  require (steps > 0) .badStepCount
  require (r.phase = .fight) .notFighting
  require (r.fighterCount ≥ 2) .notEnoughFighters
  let (r, ran) := catchUp sha256 r now (min steps.toNat maxStepsPerCall)
  pure (r, some (.ticked r.roundNo r.tickCount ran))

def resolve (r : RoundState) (now : ℤ) : Outcome := do
  require (r.phase = .fight) .notFighting
  require (r.fighterCount ≥ 2) .notEnoughFighters
  let (r, ran) := catchUp sha256 r now maxStepsPerCall
  let isOver := fightIsOver r.fighters r.fighterCount
  if isOver = false ∧ isCaughtUp r now = false then
    pure (r, some (.ticked r.roundNo r.tickCount ran))
  else
    require (isOver = true ∨ elapsed r.fightStartedAt now ≥ fightTimeoutSeconds) .fightNotOverYet
    let winner := settleSides r.fighters r.fighterCount
    pure ({ r with winner, phase := .settled }, some (.roundSettled r.roundNo winner r.pot))

def extract (r : RoundState) (now : ℤ) (who : Pubkey) : Outcome := do
  require (r.phase = .fight) .notFighting
  let r := (catchUp sha256 r now maxStepsPerCall).1
  require (isCaughtUp r now = true) .fightBehind
  let i ← okOr
    (Prefix.find (fun f => f.wallet == who && f.dead == 0 && decide (f.hp > 0)) r.fighters
      r.fighterCount)
    .nothingToExtract
  have hi := i.isLt
  let f := r.fighters[i]
  let kept := (splitExtraction f.hp r.fighterCount r.tickCount).1
  let penalty := (splitExtraction f.hp r.fighterCount r.tickCount).2
  let banked ← okOr (checkedAdd 64 f.banked kept) .mathOverflow
  let penaltiesCollected ← okOr (checkedAdd 64 r.penaltiesCollected penalty) .mathOverflow
  pure ({ r with
    fighters := r.fighters.set i { f with banked, hp := 0, dead := 1 }
    penaltiesCollected }, some (.extracted r.roundNo who f.hp penalty r.tickCount))

end

/-! ## One round as a machine -/

/-- The instructions that take the round alone. -/
inductive RoundIx where
  | enter (who : Pubkey) (side : UInt8) (stake : UInt64)
  | closeLobbyAndDraw (authority : Option Pubkey)
  | callbackSeed (randomness : Bytes32)
  | tick (steps : UInt32)
  | extract (who : Pubkey)
  | resolve
  | abandonRound
  | closeRound

/-- A call on a round: an instruction at a clock reading under the arena's settings of that moment, or
a sweep into a treasury. -/
inductive RoundCall where
  | ix (now : ℤ) (arena : Arena) (i : RoundIx)
  | sweep (t : Treasury)

section
variable (sha256 : List UInt8 → Bytes32)

def RoundIx.exec (r : RoundState) (arena : Arena) (now : ℤ) : RoundIx → Outcome
  | .enter who side stake => Chain.enter r arena now who side stake
  | .closeLobbyAndDraw authority => Chain.closeLobbyAndDraw r arena now authority
  | .callbackSeed randomness => Chain.callbackSeed sha256 r now randomness
  | .tick steps => Chain.tick sha256 r now steps
  | .extract who => Chain.extract sha256 r now who
  | .resolve => Chain.resolve sha256 r now
  | .abandonRound => Chain.abandonRound r now
  | .closeRound => Chain.closeRound r

def sweepRound (r : RoundState) (t : Treasury) : Outcome := do
  let (r, t, fees, penalties) ← applySweep r t
  pure (r, some (.houseSwept r.roundNo fees penalties t.feesAccrued t.penaltiesAccrued))

def RoundCall.exec (r : RoundState) : RoundCall → Outcome
  | .ix now arena i => i.exec sha256 r arena now
  | .sweep t => sweepRound r t

/-- One round: its state, the calls on it and the events they emit. -/
def roundMachine : Machine RoundState RoundCall (Option Event) ArenaError where
  step r c := c.exec sha256 r

end

end BullsUnicorns.Chain

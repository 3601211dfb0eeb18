import Mathlib.Algebra.Order.Floor.Ring
import Mathlib.Data.Rat.Floor
import Mathlib.Tactic

/-!
# What the repeat rule may do with nobody watching

`autoPolicy.ts`: who signs without a dialog, the limits of a run, its tally and its profit register.
Dollars are exact numbers here, so no figure is NaN or infinite; a `bigint` is an integer.
-/

namespace BullsUnicorns.Repeat

abbrev Side := Fin 2

def UNITS_PER_USD : ℚ := 1000000

def STAKE_CAP_USD : ℚ := 100

/-- One cent. -/
def MIN_STAKE_USD : ℚ := 1 / 100

def MIN_RETAINED_ROUNDS : ℤ := 20

def unitsToUsd (units : ℤ) : ℚ := units / UNITS_PER_USD

/-- `Math.round`: a tie goes up. -/
def mathRound (x : ℚ) : ℤ := ⌊x + 1 / 2⌋

inductive PhaseName where
  | lobby | drawing | fight | settled | abandoned
deriving DecidableEq, Repr

/-! ## Who signs -/

inductive SessionOffReason where
  | fixture | burner | stopped | unaffordable | blocked
deriving DecidableEq, Repr

inductive SigningPlan where
  | session
  | openThenSession
  | wallet (reason : SessionOffReason)
deriving DecidableEq, Repr

inductive UnattendedBlock where
  | needsSession | sessionStopped | sessionUnaffordable | noSigner
deriving DecidableEq, Repr

inductive UnattendedSigning where
  | silent
  | blocked (reason : UnattendedBlock)
deriving DecidableEq, Repr

def unattendedSigning : SigningPlan → UnattendedSigning
  | .session => .silent
  | .openThenSession => .blocked .needsSession
  | .wallet .burner => .silent
  | .wallet .fixture => .silent
  | .wallet .stopped => .blocked .sessionStopped
  | .wallet .unaffordable => .blocked .sessionUnaffordable
  | .wallet .blocked => .blocked .noSigner

def UNATTENDED_REFUSED : String := "auto-deploy will not open a wallet dialog nobody is watching"

structure UnattendedEntry where
  roundNo : ℤ
  side : Side
  amountUsd : ℚ
deriving DecidableEq, Repr

/-! ## The limits -/

structure AutoLimits where
  budgetUsd : ℚ
  perRoundCapUsd : ℚ
  drawdownStopPct : Option ℚ
  maxRounds : Option ℚ
deriving DecidableEq, Repr

def DEFAULT_LIMITS : AutoLimits := ⟨250, STAKE_CAP_USD, some 50, none⟩

inductive LimitBlock where
  | drawdownStopped | drawdownUnknown | budgetSpent | roundCeiling
deriving DecidableEq, Repr

def drawdownStopUsd (limits : AutoLimits) : Option ℚ :=
  limits.drawdownStopPct.map fun pct => limits.budgetUsd * pct / 100

/-! ## What the run is up or down -/

structure RoundPlayer where
  wallet : String
  pnl : ℤ
deriving DecidableEq, Repr

structure RoundSummary where
  roundNo : ℤ
  phase : PhaseName
  players : List RoundPlayer
deriving DecidableEq, Repr

structure RunPnl where
  settledUnits : ℤ
  bookedThrough : Option ℤ
  lastEnteredRound : Option ℤ
  wallet : String
deriving DecidableEq, Repr

def EMPTY_RUN_PNL : RunPnl := ⟨0, none, none, ""⟩

inductive RunPnlReading where
  | known (usd : ℚ)
  | unreadable (bookedUsd : ℚ)
  | gap (fromRound : ℤ) (bookedUsd : ℚ)
deriving DecidableEq, Repr

def provenLossUsd : RunPnlReading → ℚ
  | .known usd => max 0 (-usd)
  | .unreadable bookedUsd => max 0 (-bookedUsd)
  | .gap _ bookedUsd => max 0 (-bookedUsd)

def roundIsFinal (phase : PhaseName) : Bool := phase = .settled || phase = .abandoned

def playerUnits (round : RoundSummary) (youPubkey : String) : ℤ :=
  ((round.players.filter (·.wallet = youPubkey)).map RoundPlayer.pnl).sum

def pnlEntered (p : RunPnl) (roundNo : ℤ) (wallet : String) : RunPnl :=
  if p.wallet ≠ "" ∧ p.wallet ≠ wallet then p
  else if p.lastEnteredRound.any (roundNo ≤ ·) then p
  else
    { p with
      wallet := wallet
      bookedThrough := if p.bookedThrough = p.lastEnteredRound then some (roundNo - 1) else p.bookedThrough
      lastEnteredRound := some roundNo }

/-- The round after the accounting cursor of a run that entered `last`. -/
def RunPnl.next (p : RunPnl) (last : ℤ) : ℤ := p.bookedThrough.getD (last - 1) + 1

/-- `byRound`: of two summaries of one round the later one. -/
def byRound (rounds : List RoundSummary) (r : ℤ) : Option RoundSummary :=
  rounds.reverse.find? (·.roundNo = r)

/-- The walk forward from `r` over at most `n` rounds. -/
def bookWalk (rounds : List RoundSummary) (youPubkey : String) :
    ℕ → ℤ → ℤ → Option ℤ → ℤ × Option ℤ
  | 0, _, units, through => (units, through)
  | n + 1, r, units, through =>
      match byRound rounds r with
      | none => (units, through)
      | some round =>
          if roundIsFinal round.phase then
            bookWalk rounds youPubkey n (r + 1) (units + playerUnits round youPubkey) (some r)
          else (units, through)

def bookSettledRounds (p : RunPnl) (rounds : List RoundSummary) (youPubkey : String) : RunPnl :=
  match p.lastEnteredRound with
  | none => p
  | some last =>
      if youPubkey = "" then p
      else if p.wallet ≠ "" ∧ p.wallet ≠ youPubkey then p
      else if last < p.next last then p
      else
        let (units, through) :=
          bookWalk rounds youPubkey (last + 1 - p.next last).toNat (p.next last) p.settledUnits p.bookedThrough
        if through = p.bookedThrough then p else { p with settledUnits := units, bookedThrough := through }

def newestRound (rounds : List RoundSummary) : Option ℤ :=
  (rounds.map RoundSummary.roundNo).max?

/-- The oldest round that the chain still keeps. -/
def guaranteedFrom (newest : ℤ) : ℤ :=
  if MIN_RETAINED_ROUNDS < newest then newest - MIN_RETAINED_ROUNDS + 1 else 1

def readRunPnl (p : RunPnl) (rounds : List RoundSummary) (youPubkey : String) : RunPnlReading :=
  match p.lastEnteredRound with
  | none => .known 0
  | some last =>
      let bookedUsd := unitsToUsd p.settledUnits
      let next := p.next last
      if youPubkey = "" then .unreadable bookedUsd
      else if p.wallet ≠ "" ∧ p.wallet ≠ youPubkey then .unreadable bookedUsd
      else if last < next then .known bookedUsd
      else
        match newestRound rounds with
        | none => .unreadable bookedUsd
        | some newest =>
            let openUnits :=
              ((rounds.filter fun round => next ≤ round.roundNo ∧ round.roundNo ≤ last).map
                (playerUnits · youPubkey)).sum
            let pending := unitsToUsd (p.settledUnits + openUnits)
            if rounds.any (·.roundNo = next) then .known pending
            else if newest < next then .known pending
            else if guaranteedFrom newest ≤ next then .unreadable bookedUsd
            else .gap next bookedUsd

/-! ## The tally -/

inductive TallyOutcome where
  | entered | missed
deriving DecidableEq, Repr

structure RunTally where
  armedAtMs : ℤ
  entered : ℕ
  spentUsd : ℚ
  missed : ℤ
  firstRound : Option ℤ
  lastRound : Option ℤ
  lastOutcome : Option TallyOutcome
deriving DecidableEq, Repr

def EMPTY_TALLY : RunTally := ⟨0, 0, 0, 0, none, none, none⟩

def tallyEntered (t : RunTally) (roundNo : ℤ) (amountUsd : ℚ) : RunTally :=
  let correctingAMiss := t.lastRound = some roundNo ∧ t.lastOutcome = some .missed
  if t.lastRound.any (roundNo < ·) then t
  else if t.lastRound = some roundNo ∧ ¬ correctingAMiss then t
  else
    { t with
      entered := t.entered + 1
      missed := if correctingAMiss then t.missed - 1 else t.missed
      spentUsd := t.spentUsd + amountUsd
      firstRound := t.firstRound.or (some roundNo)
      lastRound := some roundNo
      lastOutcome := some .entered }

def tallyMissed (t : RunTally) (roundNo : ℤ) : RunTally :=
  if t.lastRound.any (roundNo ≤ ·) then t
  else
    { t with
      missed := t.missed + 1
      firstRound := t.firstRound.or (some roundNo)
      lastRound := some roundNo
      lastOutcome := some .missed }

/-! ## What a limit says, and what may be sent under it -/

def limitBlock (limits : AutoLimits) (tally : RunTally) (pnl : RunPnlReading) : Option LimitBlock :=
  let stopUsd := drawdownStopUsd limits
  let lostUsd := provenLossUsd pnl
  let known : Bool := match pnl with
    | .known _ => true
    | _ => false
  if stopUsd.any (fun stop => 0 < lostUsd ∧ stop ≤ lostUsd) then some .drawdownStopped
  else if limits.budgetUsd - tally.spentUsd < MIN_STAKE_USD then some .budgetSpent
  else if limits.maxRounds.any (fun ceiling => ¬ (tally.entered : ℚ) < ceiling) then some .roundCeiling
  else if limits.drawdownStopPct.isSome ∧ (stopUsd = none ∨ known = false) then some .drawdownUnknown
  else none

/-- The least of what the rule asks for and what the bounds leave. -/
def roomUsd (amountUsd : ℚ) (limits : AutoLimits) (spentUsd : ℚ) : ℚ :=
  min (min amountUsd limits.perRoundCapUsd) (min (limits.budgetUsd - spentUsd) STAKE_CAP_USD)

/-- The cents nearest to the room, one fewer where those are too many. -/
def centsWithin (room : ℚ) : ℤ :=
  if room < mathRound (room * 100) / 100 then mathRound (room * 100) - 1 else mathRound (room * 100)

def clampToLimits (amountUsd : ℚ) (limits : AutoLimits) (spentUsd : ℚ) : Option ℚ :=
  if amountUsd ≤ 0 then none
  else if roomUsd amountUsd limits spentUsd < MIN_STAKE_USD then none
  else some (centsWithin (roomUsd amountUsd limits spentUsd) / 100)

/-! ## The side -/

inductive SideRule where
  | repeatLast
deriving DecidableEq, Repr

/-- How much a deposit carries, as it was armed. -/
inductive AmountRule where
  | fixed (usd : ℚ)
  | pct (pct : ℚ)
deriving DecidableEq, Repr

structure Strategy where
  amount : AmountRule
  side : SideRule
deriving DecidableEq, Repr

def chooseSide : SideRule → Option Side → Option Side
  | .repeatLast, lastSide => lastSide

end BullsUnicorns.Repeat

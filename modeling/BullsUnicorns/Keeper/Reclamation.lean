import BullsUnicorns.Keeper.Closer

/-!
# The two stops

`scripts/keeper/reclamation.ts`: the ring that the brake reads, and the stop over the gap between rounds
opened and rounds swept, with its wiring in `keeper.ts`. A number that may be anything is read as `none`
where it is not finite.
-/

namespace BullsUnicorns.Keeper

/-! ## The ring -/

/-- The ring after a history of samples. -/
def burnRing (armAfter : ℕ) (history : List ℤ) : List ℤ :=
  history.foldl (fun ring lamports => recordBurnSample ring lamports armAfter) []

/-! ## The sweep gap -/

/-- `ctx.treasury`: both counters of one poll. -/
structure TreasuryPoll where
  roundCounter : ℕ
  roundsSwept : Option ℕ
  polledAtSec : ℚ
deriving DecidableEq, Repr

structure CloserReport where
  skipped : List ℤ
  skippedTotal : Option ℚ
  strandedNeverTerminalTotal : Option ℚ
  strandedStillDelegatedTotal : Option ℚ
  closing : Bool
  caughtUpOnce : Bool
deriving DecidableEq, Repr

/-- What the stop and the report beside it read. -/
structure ReclamationState where
  arena : Option TreasuryPoll
  closer : CloserReport
  sweepStoppedSinceSec : Option ℚ
deriving DecidableEq, Repr

structure ReclamationThresholds where
  stopAtGapRounds : ℚ
  strandedAllowanceRounds : Option ℚ
deriving DecidableEq, Repr

structure SweepGapVerdict where
  gap : Option ℤ
  allowance : ℤ
  allowanceCapped : Bool
  ledgerComplete : Bool
  effectiveGap : Option ℤ
  tripped : Bool
deriving DecidableEq, Repr

def sweepGapOf (arena : Option TreasuryPoll) : Option ℤ :=
  match arena with
  | none => none
  | some poll => poll.roundsSwept.map fun swept => (poll.roundCounter : ℤ) - swept

def latchedIn (state : ReclamationState) : Bool := state.sweepStoppedSinceSec.isSome

/-- A count, where it is a finite number above zero. -/
def wholeCount (total : Option ℚ) : ℤ :=
  match total with
  | none => 0
  | some total => if 0 < total then ⌊total⌋ else 0

def strandedLedgerIsComplete (closer : CloserReport) : Bool := !closer.closing || closer.caughtUpOnce

/-- The rounds that the closer found stranded, by both ledgers. -/
def CloserReport.stranded (closer : CloserReport) : ℤ :=
  wholeCount closer.strandedNeverTerminalTotal + wholeCount closer.strandedStillDelegatedTotal

/-- A cap that cannot be read excuses nothing. -/
def ReclamationThresholds.cap (thresholds : ReclamationThresholds) : ℤ :=
  wholeCount thresholds.strandedAllowanceRounds

def sweepGapStop (state : ReclamationState) (thresholds : ReclamationThresholds) : SweepGapVerdict :=
  let gap := sweepGapOf state.arena
  let stranded := state.closer.stranded
  let cap := thresholds.cap
  let ledgerComplete := strandedLedgerIsComplete state.closer
  -- while the closer is still looking, the most that it could still find
  let allowance := if ledgerComplete then min stranded cap else max 0 (min cap (gap.getD 0))
  let effectiveGap := gap.map (· - allowance)
  let tripped :=
    if latchedIn state then true
    else
      match effectiveGap with
      | none => false
      | some effective =>
          if thresholds.stopAtGapRounds ≤ 0 then false else decide (thresholds.stopAtGapRounds ≤ effective)
  ⟨gap, allowance, decide (0 < cap) && decide (cap < stranded), ledgerComplete, effectiveGap, tripped⟩

/-! ## The stop at work -/

/-- The closer's memory, with the last treasury poll that was answered. -/
structure SweepWatch where
  ctx : KeeperContext
  treasury : Option TreasuryPoll

def reclamationStateOf (closing : Bool) (watch : SweepWatch) : ReclamationState where
  arena := watch.treasury
  closer :=
    { skipped := watch.ctx.closeSkipped.sample
      skippedTotal := some watch.ctx.closeSkipped.total
      strandedNeverTerminalTotal := some watch.ctx.closeStrandedNeverTerminal.total
      strandedStillDelegatedTotal := some watch.ctx.closeStrandedStillDelegated.total
      closing := closing
      caughtUpOnce := watch.ctx.closeCursorCaughtUp }
  sweepStoppedSinceSec := watch.ctx.sweepStopSince

inductive SweepPass where
  | closeOneFinishedRound (pass : ClosePass)
  | pollTreasury (poll : TreasuryPoll)
  /-- What the pass says of the sweep is not looked at: the stop is asked. -/
  | openNextRound (pass : OpenPass)

/-- Does this attempt to open a round get as far as the sweep-gap stop? Once it has latched nothing else
is asked. -/
def asksSweepGap (cfg : Config) (ctx : KeeperContext) (pass : OpenPass) : Bool :=
  ctx.sweepStopSince.isSome ||
    match pass.affordsAnotherRound with
    | .error _ => false
    | .ok none => false
    | .ok (some lamportsBefore) =>
        !(burnBrake (sampleBurn cfg ctx lamportsBefore).1.burnSamplesLamports cfg.maxBurnLamportsPerRound
          cfg.burnArmAfterRounds cfg.burnSampleRounds).tripped

/-- One pass, with the verdict of the sweep-gap stop where it was asked. -/
def SweepWatch.step (cfg : Config) (thresholds : ReclamationThresholds) (closing : Bool) (watch : SweepWatch) :
    SweepPass → SweepWatch × List KeeperEvent × Option SweepGapVerdict
  | .closeOneFinishedRound pass =>
      let (ctx, events) := Keeper.closeOneFinishedRound cfg closing watch.ctx pass
      ({ watch with ctx := ctx }, events, none)
  | .pollTreasury poll => ({ watch with treasury := some poll }, [], none)
  | .openNextRound pass =>
      let verdict := sweepGapStop (reclamationStateOf closing watch) thresholds
      let (ctx, events) := Keeper.openNextRound cfg watch.ctx { pass with sweepIsKeepingUp := !verdict.tripped }
      ({ watch with ctx := ctx }, events, if asksSweepGap cfg watch.ctx pass then some verdict else none)

def sweepWatch (cfg : Config) (thresholds : ReclamationThresholds) (closing : Bool) :
    Machine SweepWatch SweepPass (List KeeperEvent × Option SweepGapVerdict) Empty where
  step watch pass := .ok (watch.step cfg thresholds closing pass)

end BullsUnicorns.Keeper

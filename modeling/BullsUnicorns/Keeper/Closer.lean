import BullsUnicorns.Keeper.LobbyPolicy
import BullsUnicorns.Lib.Machine
import Mathlib.Tactic

/-!
# Past the rounds that are already closed

`scripts/keeper/closeCursor.ts`: one batched existence probe after another, from a round up to the
retention boundary. What the chain and the clock answer is an argument; the probes issued and their
answers come back beside the result.
-/

namespace BullsUnicorns.Keeper

def closeCursorProbeBatch : ℕ := 100

def probeIsWorthARead (cursor : ℤ) (knownLiveAt : Option ℤ) (through : ℤ) (batch : ℤ) : Bool :=
  if knownLiveAt = some cursor then false else through - cursor + 1 ≥ batch

inductive CloseCursorStop where
  | found
  | caughtUp
  | noRounds
  | batchCap
  | deadline
  | failed
deriving DecidableEq

/-- A read that was rejected, and one that answered nothing about the rounds it was asked about. -/
inductive ProbeError (ε : Type) where
  | rejected (reason : ε)
  | answeredNothing (asked : ℕ) (startingAt : ℤ)
deriving DecidableEq

/-- One read: the rounds it asked about, and the answer. -/
abbrev Probed (ε : Type) := List ℤ × Except ε (List Bool)

structure CloseCursorScan (ε : Type) where
  cursor : ℤ
  stoppedBecause : CloseCursorStop
  skipped : ℤ
  batches : ℕ
  elapsedMs : ℤ
  error : Option (ProbeError ε)
  catchUpAhead : Bool
  probes : List (Probed ε)

/-- The options of a scan. The `i`-th read is answered by `probe i`, the `i`-th look at the clock by
`nowMs i`; no budget is the infinite one. -/
structure CloseCursorScanOptions (ε : Type) where
  start : ℤ
  through : ℤ
  probe : ℕ → List ℤ → Except ε (List Bool)
  nowMs : ℕ → ℤ
  budgetMs : Option ℤ
  maxBatches : ℤ
  batch : ℤ

namespace CloseCursorScanOptions

variable {ε : Type} (opts : CloseCursorScanOptions ε)

/-- The result of a scan that stops after `looks` looks at the clock. -/
def done (probes : List (Probed ε)) (looks : ℕ) (cursor : ℤ) (stoppedBecause : CloseCursorStop)
    (error : Option (ProbeError ε)) : CloseCursorScan ε where
  cursor
  stoppedBecause
  skipped := cursor - opts.start
  batches := probes.length
  elapsedMs := opts.nowMs looks - opts.nowMs 0
  error
  catchUpAhead := stoppedBecause ≠ .found ∧ cursor > opts.start ∧ cursor ≤ opts.through
  probes

/-- At most `batch` rounds from the cursor on, none past `through`. -/
def window (cursor : ℤ) : List ℤ :=
  (List.range (min opts.batch (opts.through - cursor + 1)).toNat).map fun i : ℕ => cursor + i

def overBudget (elapsed : ℤ) : Bool :=
  match opts.budgetMs with
  | none => false
  | some budget => elapsed ≥ budget

/-- The loop. Every turn that goes on has moved the cursor, so the rounds left bound the turns. -/
def scan : ℕ → ℤ → List (Probed ε) → CloseCursorScan ε
  | 0, cursor, probes => opts.done probes (probes.length + 1) cursor .caughtUp none
  | turns + 1, cursor, probes =>
      if cursor ≤ opts.through then
        if (probes.length : ℤ) ≥ opts.maxBatches then
          opts.done probes (probes.length + 1) cursor .batchCap none
        else if opts.overBudget (opts.nowMs (probes.length + 1) - opts.nowMs 0) then
          opts.done probes (probes.length + 2) cursor .deadline none
        else
          let answer := opts.probe probes.length (opts.window cursor)
          let read := probes ++ [(opts.window cursor, answer)]
          match answer with
          | .error reason => opts.done read (read.length + 1) cursor .failed (some (.rejected reason))
          | .ok existing =>
              -- only the prefix that both lists have is believed
              let believed := (opts.window cursor).zip existing
              match believed.find? Prod.snd with
              | some living => opts.done read (read.length + 1) living.1 .found none
              | none =>
                  if believed.length = 0 then
                    opts.done read (read.length + 1) cursor .failed
                      (some (.answeredNothing (opts.window cursor).length cursor))
                  else scan turns (cursor + believed.length) read
      else opts.done probes (probes.length + 1) cursor .caughtUp none

end CloseCursorScanOptions

def findOldestLivingRound {ε : Type} (opts : CloseCursorScanOptions ε) : CloseCursorScan ε :=
  if opts.through < opts.start then opts.done [] 1 opts.start .noRounds none
  else if opts.batch < 1 then opts.done [] 1 opts.start .batchCap none
  else opts.scan (opts.through + 1 - opts.start).toNat opts.start []

end BullsUnicorns.Keeper

/-!
## Reclaiming rent, and watching whether it comes back

The passes of `keeper.ts` that move the close cursor (`seedCloseCursor`, `skipClosedRoundsAhead`,
`closeOneFinishedRound`, with `roundCloser.ts`), and `openNextRound` as far as it samples the burn.
Each pass is handed what the chain and the clock answer, and tells what it asked, sent and recorded.
-/

namespace BullsUnicorns.Keeper

open Chain (Phase)

def closeAttemptsPerRound : ℕ := 3
def closeLossSample : ℕ := 50
def closeCursorScanSeconds : ℤ := 20
def closeCursorScanMaxBatches : ℤ := 200

def Config.burnSampleRounds (cfg : Config) : ℕ := cfg.roundRetention
def Config.burnArmAfterRounds (cfg : Config) : ℕ := 2 * cfg.roundRetention + 5

/-! ## The decision on one round -/

inductive AdvanceReason where
  | alreadyClosed
  | neverTerminal
  | stillDelegated
deriving DecidableEq

inductive CloseAction where
  | close
  | sweepFirst
  | advance (because : AdvanceReason)
deriving DecidableEq

/-- A round as the router answers it; an older program has no sweep flag. -/
structure RoundAnswer where
  phase : Phase
  houseSwept : Option UInt8
deriving DecidableEq

def RoundAnswer.swept (round : RoundAnswer) : Bool := round.houseSwept.getD 0 != 0

def decideClose (round : Option RoundAnswer) (delegated : Bool) : CloseAction :=
  match round with
  | none => .advance .alreadyClosed
  | some round =>
      if round.phase ≠ .settled ∧ round.phase ≠ .abandoned then .advance .neverTerminal
      else if delegated then .advance .stillDelegated
      else if !round.swept then .sweepFirst
      else .close

def isPastRetention (roundNo roundCounter : ℤ) (retention : ℕ) : Bool :=
  roundNo + retention ≤ roundCounter

def housekeepingIsWelcome (phase : Option Phase) : Bool :=
  phase ≠ some .drawing ∧ phase ≠ some .fight

/-! ## What is lost -/

inductive CloseLoss where
  | skipped
  | neverTerminal
  | stillDelegated
deriving DecidableEq

structure CloseLossLedger where
  sample : List ℤ
  total : ℕ

def CloseLossLedger.empty : CloseLossLedger := ⟨[], 0⟩

def recordCloseLoss (ledger : CloseLossLedger) (roundNo : ℤ) : CloseLossLedger where
  sample :=
    let sample := ledger.sample ++ [roundNo]
    if sample.length > closeLossSample then sample.tail else sample
  total := ledger.total + 1

/-! ## The burn

`burnBrake` and its ring, of `reclamation.ts`; means are exact. -/

def recordBurnSample (samples : List ℤ) (lamports : ℤ) (cap : ℕ) : List ℤ :=
  if cap = 0 then []
  else
    let samples := samples ++ [lamports]
    samples.drop (samples.length - cap)

structure BurnVerdict where
  armed : Bool
  samples : ℕ
  meanLamportsPerRound : Option ℚ
  tripped : Bool
deriving DecidableEq, Repr

def burnBrake (samples : List ℤ) (thresholdLamports : ℚ) (armAfter windowSamples : ℕ) : BurnVerdict :=
  let observed := samples.length
  let armed := decide (0 < armAfter) && decide (armAfter ≤ observed)
  if windowSamples = 0 then ⟨false, 0, none, false⟩
  else
    let window := samples.drop (samples.length - windowSamples)
    if window.length = 0 then ⟨armed, 0, none, false⟩
    else
      let mean : ℚ := window.sum / window.length
      ⟨armed, window.length, some mean, armed && decide (thresholdLamports < mean)⟩

/-! ## The keeper's memory -/

structure KeeperContext where
  closeCursor : ℤ
  closeCursorKnownLiveAt : Option ℤ
  closeCatchUpAhead : Bool
  closeCursorCaughtUp : Bool
  closeAttempts : ℕ
  closeRetryAfterSec : ℚ
  closeSkipped : CloseLossLedger
  closeStrandedNeverTerminal : CloseLossLedger
  closeStrandedStillDelegated : CloseLossLedger
  burnSamplesLamports : List ℤ
  lastOpenLamports : Option ℤ
  sweepStopSince : Option ℚ

/-- What `send` answers where it does not throw. Under `--dry-run` nothing is sent, and nothing throws. -/
structure SendOutcome where
  sent : Bool
deriving DecidableEq

/-- The transaction is really sent, whether it lands or throws. -/
def goesOut : Except String SendOutcome → Bool
  | .ok outcome => outcome.sent
  | .error _ => true

/-- What a pass asks of the chain, sends to it and writes down. -/
inductive KeeperEvent where
  | probed (read : Probed String)
  | fetched (roundNo : ℤ) (answer : Option RoundAnswer)
  | ownerRead (roundNo : ℤ) (delegated : Bool)
  | closeSent (roundNo : ℤ) (accepted : Bool)
  | closeHeldBack (roundNo : ℤ)
  | recorded (loss : CloseLoss) (roundNo : ℤ)
  | catchUp (ahead : Bool)
  | sampled (lamports : ℤ)
  | openLanded (lamportsBefore : ℤ)
deriving DecidableEq

namespace KeeperContext

def recordLoss (ctx : KeeperContext) : CloseLoss → KeeperContext
  | .skipped => { ctx with closeSkipped := recordCloseLoss ctx.closeSkipped ctx.closeCursor }
  | .neverTerminal => { ctx with
      closeStrandedNeverTerminal := recordCloseLoss ctx.closeStrandedNeverTerminal ctx.closeCursor }
  | .stillDelegated => { ctx with
      closeStrandedStillDelegated := recordCloseLoss ctx.closeStrandedStillDelegated ctx.closeCursor }

/-- `closeCursor += 1n; closeAttempts = 0`. -/
def moveOn (ctx : KeeperContext) : KeeperContext :=
  { ctx with closeCursor := ctx.closeCursor + 1, closeAttempts := 0 }

/-- A round under the cursor that exists ends a catch-up, and is known to be there. -/
def seen (ctx : KeeperContext) (round : Option RoundAnswer) : KeeperContext × List KeeperEvent :=
  match round with
  | none => (ctx, [])
  | some _ =>
      ({ ctx with closeCatchUpAhead := false, closeCursorKnownLiveAt := some ctx.closeCursor },
        [.catchUp false])

end KeeperContext

/-! ## The closer -/

/-- What one pass of the closer reads: the state of the pass, and the answers of the chain and the
clock, each used where the pass gets that far. -/
structure ClosePass where
  nowSec : ℚ
  roundCounter : ℕ
  currentPhase : Option Phase
  probe : List ℤ → Except String (List Bool)
  nowMs : ℕ → ℤ
  fetchRound : Except String (Option RoundAnswer)
  isDelegated : Except String Bool
  sendClose : Except String SendOutcome

def ClosePass.through (cfg : Config) (pass : ClosePass) : ℤ := pass.roundCounter - cfg.roundRetention

/-- The one read that a pass may spend on a skip. -/
def ClosePass.options (cfg : Config) (ctx : KeeperContext) (pass : ClosePass) :
    CloseCursorScanOptions String where
  start := ctx.closeCursor
  through := pass.through cfg
  probe := fun _ => pass.probe
  nowMs := pass.nowMs
  budgetMs := none
  maxBatches := 1
  batch := closeCursorProbeBatch

def skipClosedRoundsAhead (cfg : Config) (ctx : KeeperContext) (pass : ClosePass) :
    KeeperContext × List KeeperEvent :=
  if !probeIsWorthARead ctx.closeCursor ctx.closeCursorKnownLiveAt (pass.through cfg)
      closeCursorProbeBatch then (ctx, [])
  else
    let scan := findOldestLivingRound (pass.options cfg ctx)
    let asked := scan.probes.map .probed
    if scan.stoppedBecause = .failed then (ctx, asked)
    else if scan.catchUpAhead then
      ({ ctx with closeCatchUpAhead := true, closeCursor := scan.cursor }, asked ++ [.catchUp true])
    else ({ ctx with closeCursor := scan.cursor }, asked)

def sendClose (cfg : Config) (ctx : KeeperContext) (pass : ClosePass) : KeeperContext × List KeeperEvent :=
  match pass.sendClose with
  -- the cursor moves also where nothing was sent
  | .ok outcome =>
      (ctx.moveOn,
        [if outcome.sent then .closeSent ctx.closeCursor true else .closeHeldBack ctx.closeCursor])
  | .error _ =>
      let ctx := { ctx with
        closeAttempts := ctx.closeAttempts + 1
        closeRetryAfterSec := pass.nowSec + cfg.closeRetrySeconds }
      if ctx.closeAttempts ≥ closeAttemptsPerRound then
        ((ctx.recordLoss .skipped).moveOn,
          [.closeSent ctx.closeCursor false, .recorded .skipped ctx.closeCursor])
      else (ctx, [.closeSent ctx.closeCursor false])

def actOn (cfg : Config) (ctx : KeeperContext) (pass : ClosePass) :
    CloseAction → KeeperContext × List KeeperEvent
  | .advance .alreadyClosed => (ctx.moveOn, [])
  | .advance .neverTerminal =>
      ((ctx.recordLoss .neverTerminal).moveOn, [.recorded .neverTerminal ctx.closeCursor])
  | .advance .stillDelegated =>
      ((ctx.recordLoss .stillDelegated).moveOn, [.recorded .stillDelegated ctx.closeCursor])
  -- the sweep is sent from here, and whatever becomes of it the cursor stays
  | .sweepFirst => (ctx, [])
  | .close => sendClose cfg ctx pass

/-- The round under the cursor, once it has been read. A read of its owner that fails ends the pass. -/
def examine (cfg : Config) (ctx : KeeperContext) (pass : ClosePass) (round : Option RoundAnswer) :
    KeeperContext × List KeeperEvent :=
  let fetched := KeeperEvent.fetched ctx.closeCursor round
  let (ctx, saw) := ctx.seen round
  match if round.isNone then .ok false else pass.isDelegated with
  | .error _ => (ctx, fetched :: saw)
  | .ok delegated =>
      let owner := if round.isNone then [] else [KeeperEvent.ownerRead ctx.closeCursor delegated]
      let (ctx, did) := actOn cfg ctx pass (decideClose round delegated)
      (ctx, fetched :: saw ++ owner ++ did)

/-- The pass after the skip. -/
def walk (cfg : Config) (ctx : KeeperContext) (pass : ClosePass) : KeeperContext × List KeeperEvent :=
  if !isPastRetention ctx.closeCursor pass.roundCounter cfg.roundRetention then
    ({ ctx with closeCatchUpAhead := false, closeCursorCaughtUp := true }, [.catchUp false])
  else
    match pass.fetchRound with
    | .error _ => (ctx, [])
    | .ok round => examine cfg ctx pass round

def closeOneFinishedRound (cfg : Config) (closing : Bool) (ctx : KeeperContext) (pass : ClosePass) :
    KeeperContext × List KeeperEvent :=
  if !closing || !housekeepingIsWelcome pass.currentPhase || decide (pass.nowSec < ctx.closeRetryAfterSec)
  then (ctx, [])
  else
    let (ctx, skipped) := skipClosedRoundsAhead cfg ctx pass
    let (ctx, walked) := walk cfg ctx pass
    (ctx, skipped ++ walked)

/-! ## Opening a round -/

/-- What one attempt to open a round reads: the funding guard's answer, the verdict of the sweep-gap
stop, and what became of the transaction. -/
structure OpenPass where
  nowSec : ℚ
  affordsAnotherRound : Except String (Option ℤ)
  sweepIsKeepingUp : Bool
  sendOpen : Except String SendOutcome

/-- The ring with the newest sample, where one is taken. -/
def sampleBurn (cfg : Config) (ctx : KeeperContext) (lamportsBefore : ℤ) :
    KeeperContext × List KeeperEvent :=
  match ctx.lastOpenLamports with
  | some last =>
      if ctx.closeCatchUpAhead then (ctx, [])
      else
        ({ ctx with
            burnSamplesLamports :=
              recordBurnSample ctx.burnSamplesLamports (last - lamportsBefore) cfg.burnArmAfterRounds },
          [.sampled (last - lamportsBefore)])
  | none => (ctx, [])

def openNextRound (cfg : Config) (ctx : KeeperContext) (pass : OpenPass) :
    KeeperContext × List KeeperEvent :=
  if ctx.sweepStopSince.isSome then (ctx, [])
  else
    match pass.affordsAnotherRound with
    | .error _ => (ctx, [])
    | .ok none => (ctx, [])
    | .ok (some lamportsBefore) =>
        let (ctx, sampled) := sampleBurn cfg ctx lamportsBefore
        if (burnBrake ctx.burnSamplesLamports cfg.maxBurnLamportsPerRound cfg.burnArmAfterRounds
            cfg.burnSampleRounds).tripped then (ctx, sampled)
        else if !pass.sweepIsKeepingUp then ({ ctx with sweepStopSince := some pass.nowSec }, sampled)
        else
          match pass.sendOpen with
          | .error _ => (ctx, sampled)
          | .ok outcome =>
              if !outcome.sent then (ctx, sampled)
              else
                ({ ctx with
                    lastOpenLamports := if ctx.closeCatchUpAhead then none else some lamportsBefore },
                  sampled ++ [.openLanded lamportsBefore])

/-! ## The keeper's run -/

/-- What the boot scan reads. -/
structure BootScan where
  roundCounter : ℕ
  probe : ℕ → List ℤ → Except String (List Bool)
  nowMs : ℕ → ℤ

def BootScan.options (cfg : Config) (boot : BootScan) : CloseCursorScanOptions String where
  start := 1
  through := boot.roundCounter - cfg.roundRetention
  probe := boot.probe
  nowMs := boot.nowMs
  budgetMs := some (closeCursorScanSeconds * 1000)
  maxBatches := closeCursorScanMaxBatches
  batch := closeCursorProbeBatch

/-- The context a boot begins with, and what its scan asked. -/
def seedCloseCursor (cfg : Config) (closing : Bool) (boot : BootScan) : KeeperContext × List KeeperEvent :=
  let scan := findOldestLivingRound (boot.options cfg)
  ({  closeCursor := if closing then scan.cursor else 1
      closeCursorKnownLiveAt :=
        if closing && decide (scan.stoppedBecause = .found) then some scan.cursor else none
      closeCatchUpAhead := closing && scan.catchUpAhead
      closeCursorCaughtUp := false
      closeAttempts := 0
      closeRetryAfterSec := 0
      closeSkipped := .empty
      closeStrandedNeverTerminal := .empty
      closeStrandedStillDelegated := .empty
      burnSamplesLamports := []
      lastOpenLamports := none
      sweepStopSince := none },
    if closing then scan.probes.map .probed ++ [.catchUp scan.catchUpAhead] else [.catchUp false])

inductive KeeperPass where
  | closeOneFinishedRound (pass : ClosePass)
  | openNextRound (pass : OpenPass)

/-- The close that a pass may come to is really sent. -/
def KeeperPass.closeGoesOut : KeeperPass → Bool
  | .closeOneFinishedRound pass => goesOut pass.sendClose
  | .openNextRound _ => true

/-- The reading of `Arena.round_counter` that a pass acts on. -/
def KeeperPass.roundCounter : KeeperPass → Option ℕ
  | .closeOneFinishedRound pass => some pass.roundCounter
  | .openNextRound _ => none

/-- The passes of the main loop that touch the closer or the burn samples. None is refused. -/
def keeper (cfg : Config) (closing : Bool) :
    Machine KeeperContext KeeperPass (List KeeperEvent) Empty where
  step ctx
    | .closeOneFinishedRound pass => .ok (closeOneFinishedRound cfg closing ctx pass)
    | .openNextRound pass => .ok (openNextRound cfg ctx pass)

/-- Everything asked, sent and recorded since the process began. -/
def history (booted : List KeeperEvent) (log : List (KeeperPass × List KeeperEvent)) : List KeeperEvent :=
  booted ++ log.flatMap Prod.snd

end BullsUnicorns.Keeper

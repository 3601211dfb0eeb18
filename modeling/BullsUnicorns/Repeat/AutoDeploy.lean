import BullsUnicorns.Repeat.AutoPolicy

/-!
# Repeat every round

`autoDeploy.ts`: what is armed, the one attempt record, the decision and the transitions.
-/

namespace BullsUnicorns.Repeat

def MAX_TRIES : ℕ := 3

def RETRY_BACKOFF_MS : ℤ := 2000

inductive AttemptOutcome where
  | sending | landed | retrying | abandoned
deriving DecidableEq, Repr

inductive AbandonReason where
  | entriesClosed | phaseMovedOn | retriesExhausted | roundMovedOn | sessionLapsed
deriving DecidableEq, Repr

structure AutoDeployAttempt where
  roundNo : ℤ
  outcome : AttemptOutcome
  tries : ℕ
  nextTryAtMs : Option ℤ
  signature : Option String
  error : Option String
  abandonedBecause : Option AbandonReason
deriving DecidableEq, Repr

structure AutoDeployState where
  armed : Bool
  side : Option Side
  rule : AmountRule
  floorRound : Option ℤ
  attempt : Option AutoDeployAttempt
  sideRule : SideRule
  limits : AutoLimits
  tally : RunTally
  pnl : RunPnl
  deadSessionEpoch : Option ℕ
deriving DecidableEq, Repr

def ARMED_BY_DEFAULT : Bool := false

def INITIAL_AUTO_DEPLOY : AutoDeployState where
  armed := ARMED_BY_DEFAULT
  side := none
  rule := .fixed 5
  floorRound := none
  attempt := none
  sideRule := .repeatLast
  limits := DEFAULT_LIMITS
  tally := EMPTY_TALLY
  pnl := EMPTY_RUN_PNL
  deadSessionEpoch := none

/-! ## How much -/

structure SimBalances where
  ansem : ℚ
  uwu : ℚ
deriving DecidableEq, Repr

def simBankrollUsd (balances : SimBalances) : ℚ := min balances.ansem balances.uwu

/-- The dollars that the rule names, before rounding. -/
def AmountRule.rawUsd (rule : AmountRule) (simWalletUsd : ℚ) : ℚ :=
  match rule with
  | .fixed usd => usd
  | .pct share => simWalletUsd * share / 100

def resolveAmountUsd (rule : AmountRule) (simWalletUsd : ℚ) : Option ℚ :=
  if rule.rawUsd simWalletUsd < MIN_STAKE_USD then none
  else some (min STAKE_CAP_USD (mathRound (rule.rawUsd simWalletUsd * 100) / 100))

/-! ## The decision -/

inductive HoldReason where
  | disarmed | noSide | noRound | roundChanging | waitingForNextRound | deployedThisRound | missedThisRound
  | sending | alreadyIn | amountUnusable | busy | backingOff | sessionLapsed
  | signing (reason : UnattendedBlock)
  | limit (block : LimitBlock)
deriving DecidableEq, Repr

inductive AutoDeployDecision where
  | fire (entry : UnattendedEntry) (attemptNo : ℕ)
  | abandon (roundNo : ℤ) (reason : AbandonReason)
  | hold (reason : HoldReason)
deriving DecidableEq, Repr

structure AutoDeployInput where
  state : AutoDeployState
  roundNo : Option ℤ
  targetRoundNo : Option ℤ
  phase : Option PhaseName
  entriesOpen : Bool
  alreadyIn : Bool
  entering : Bool
  amountUsd : Option ℚ
  signing : UnattendedSigning
  sessionEpoch : ℕ
  roundLog : List RoundSummary
  youPubkey : String
  nowMs : ℤ

/-- The attempt record, where it is about this round. -/
def AutoDeployState.attemptAt (state : AutoDeployState) (roundNo : ℤ) : Option AutoDeployAttempt :=
  state.attempt.filter (·.roundNo = roundNo)

/-- What holds a round on the strength of the attempt record alone. -/
def attemptHold (state : AutoDeployState) (roundNo : ℤ) : Option HoldReason :=
  match (state.attemptAt roundNo).map AutoDeployAttempt.outcome with
  | some .landed => some .deployedThisRound
  | some .abandoned => some .missedThisRound
  | some .sending => some .sending
  | _ => if state.attempt.map AutoDeployAttempt.outcome = some .sending then some .sending else none

/-- What may be sent now, or the hold that says why nothing may. -/
def sendable (input : AutoDeployInput) : Except HoldReason ℚ :=
  let state := input.state
  match limitBlock state.limits state.tally (readRunPnl state.pnl input.roundLog input.youPubkey) with
  | some limited => .error (.limit limited)
  | none =>
      match input.amountUsd with
      | none => .error .amountUnusable
      | some amountUsd =>
          match clampToLimits amountUsd state.limits state.tally.spentUsd with
          | none => .error .amountUnusable
          | some sendableUsd => .ok sendableUsd

/-- The end of the ladder: the round is one that the rule means to enter. -/
def decideIntended (input : AutoDeployInput) (side : Side) (roundNo : ℤ) (sendableUsd : ℚ) :
    AutoDeployDecision :=
  let attempt := input.state.attemptAt roundNo
  if input.phase ≠ some .lobby then .abandon roundNo .phaseMovedOn
  else if !input.entriesOpen then .abandon roundNo .entriesClosed
  else if attempt.any (MAX_TRIES ≤ ·.tries) then .abandon roundNo .retriesExhausted
  else if input.entering then .hold .busy
  else if (attempt.bind AutoDeployAttempt.nextTryAtMs).any (input.nowMs < ·) then .hold .backingOff
  else .fire ⟨roundNo, side, sendableUsd⟩ ((attempt.map AutoDeployAttempt.tries).getD 0 + 1)

def decideAutoDeploy (input : AutoDeployInput) : AutoDeployDecision :=
  let state := input.state
  if !state.armed then .hold .disarmed
  else
    match chooseSide state.sideRule state.side with
    | none => .hold .noSide
    | some side =>
        match input.roundNo with
        | none => .hold .noRound
        | some roundNo =>
            if input.targetRoundNo ≠ some roundNo then .hold .roundChanging
            else if state.floorRound.any (roundNo ≤ ·) then .hold .waitingForNextRound
            else
              match attemptHold state roundNo with
              | some reason => .hold reason
              | none =>
                  if input.alreadyIn then .hold .alreadyIn
                  else if state.deadSessionEpoch = some input.sessionEpoch then .hold .sessionLapsed
                  else
                    match input.signing with
                    | .blocked reason => .hold (.signing reason)
                    | .silent =>
                        match sendable input with
                        | .error reason => .hold reason
                        | .ok sendableUsd => decideIntended input side roundNo sendableUsd

/-! ## The transitions -/

def armWith (state : AutoDeployState) (strategy : Strategy) (limits : AutoLimits) (visibleRoundNo : Option ℤ)
    (nowMs : ℤ) : AutoDeployState :=
  { state with
    armed := true
    rule := strategy.amount
    sideRule := strategy.side
    limits := limits
    floorRound := visibleRoundNo
    attempt := none
    tally := { EMPTY_TALLY with armedAtMs := nowMs }
    pnl := EMPTY_RUN_PNL
    deadSessionEpoch := none }

def arm (state : AutoDeployState) (rule : AmountRule) (visibleRoundNo : Option ℤ) (nowMs : ℤ) :
    AutoDeployState :=
  armWith state ⟨rule, state.sideRule⟩ state.limits visibleRoundNo nowMs

def disarm (state : AutoDeployState) : AutoDeployState := { state with armed := false }

/-- `setRule`; an unchanged rule changes nothing. -/
def setRule (state : AutoDeployState) (rule : AmountRule) : AutoDeployState := { state with rule := rule }

/-- `setLimits`; unchanged limits change nothing. -/
def setLimits (state : AutoDeployState) (limits : AutoLimits) : AutoDeployState :=
  { state with limits := limits }

def noteDeploy (state : AutoDeployState) (side : Side) : AutoDeployState := { state with side := some side }

def noteRoundEntered (state : AutoDeployState) (roundNo : ℤ) : AutoDeployState :=
  if state.attempt.any (roundNo < ·.roundNo) then state
  else
    let prior := state.attemptAt roundNo
    if prior.map AutoDeployAttempt.outcome = some .landed then state
    else
      { state with
        attempt := some
          { roundNo := roundNo
            outcome := .landed
            tries := (prior.map AutoDeployAttempt.tries).getD 0
            nextTryAtMs := none
            signature := prior.bind AutoDeployAttempt.signature
            error := none
            abandonedBecause := none } }

def beginAttempt (state : AutoDeployState) (roundNo : ℤ) : AutoDeployState :=
  let prior := state.attemptAt roundNo
  { state with
    attempt := some
      { roundNo := roundNo
        outcome := .sending
        tries := (prior.map AutoDeployAttempt.tries).getD 0
        nextTryAtMs := none
        signature := none
        error := prior.bind AutoDeployAttempt.error
        abandonedBecause := none } }

def attemptLanded (state : AutoDeployState) (roundNo : ℤ) (signature : String) (amountUsd : ℚ)
    (wallet : String) : AutoDeployState :=
  match state.attemptAt roundNo with
  | none => state
  | some attempt =>
      { state with
        attempt := some
          { attempt with
            outcome := .landed
            tries := attempt.tries + 1
            nextTryAtMs := none
            signature := some signature
            error := none }
        tally := tallyEntered state.tally roundNo amountUsd
        pnl := pnlEntered state.pnl roundNo wallet }

def bookRunPnl (state : AutoDeployState) (roundLog : List RoundSummary) (youPubkey : String) :
    AutoDeployState :=
  { state with pnl := bookSettledRounds state.pnl roundLog youPubkey }

def attemptFailed (state : AutoDeployState) (roundNo : ℤ) (error : String) (nowMs : ℤ) : AutoDeployState :=
  match state.attemptAt roundNo with
  | none => state
  | some attempt =>
      if attempt.outcome = .landed then state
      else
        { state with
          attempt := some
            { attempt with
              outcome := .retrying
              tries := attempt.tries + 1
              nextTryAtMs := some (nowMs + RETRY_BACKOFF_MS)
              error := some error } }

def abandonAttempt (state : AutoDeployState) (roundNo : ℤ) (reason : AbandonReason) : AutoDeployState :=
  let prior := state.attemptAt roundNo
  { state with
    attempt := some
      { roundNo := roundNo
        outcome := .abandoned
        tries := (prior.map AutoDeployAttempt.tries).getD 0
        nextTryAtMs := none
        signature := none
        error := prior.bind AutoDeployAttempt.error
        abandonedBecause := some reason }
    tally := tallyMissed state.tally roundNo }

def noteSessionRefused (state : AutoDeployState) (roundNo : ℤ) (sessionEpoch : ℕ) : AutoDeployState :=
  { abandonAttempt state roundNo .sessionLapsed with deadSessionEpoch := some sessionEpoch }

def expireStaleAttempt (state : AutoDeployState) (roundNo : Option ℤ) : AutoDeployState :=
  match state.attempt, roundNo with
  | some a, some r =>
      if a.roundNo < r ∧ a.outcome = .retrying then abandonAttempt state a.roundNo .roundMovedOn else state
  | _, _ => state

end BullsUnicorns.Repeat

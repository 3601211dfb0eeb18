import BullsUnicorns.Keeper.Closer

/-!
# Sweeping the house's take

`sweepHouseTake` of `keeper.ts`, as `closeOneFinishedRound` calls it, with the state that an idle pass
reads (`chainClient.ts`) and what the program can encode (`programFeatures.ts`).
-/

namespace BullsUnicorns.Keeper

open Chain (Phase)

/-! ## What the program can encode -/

/-- Instructions with their accounts, and types with their fields, by name. -/
structure IdlShape where
  instructions : List (String × List String)
  types : List (String × List String)

def hasInstruction (idl : IdlShape) (name : String) : Bool :=
  idl.instructions.any fun ix => ix.1 = name

def instructionTakesAccount (idl : IdlShape) (instruction account : String) : Bool :=
  match idl.instructions.find? fun candidate => candidate.1 = instruction with
  | none => false
  | some ix => ix.2.any fun a => a = account

def accountHasField (idl : IdlShape) (account field : String) : Bool :=
  match idl.types.find? fun t => t.1 = account with
  | none => false
  | some type => type.2.any fun f => f = field

structure ProgramFeatures where
  authorityEarlyClose : Bool
  houseTakeSweep : Bool
  roundAccountClose : Bool
deriving DecidableEq

def programFeaturesOf (idl : IdlShape) : ProgramFeatures :=
  let houseTakeSweep := hasInstruction idl "sweep_house_take" && hasInstruction idl "init_treasury" &&
    accountHasField idl "Round" "house_swept"
  { authorityEarlyClose := instructionTakesAccount idl "close_lobby_and_draw" "authority" &&
      instructionTakesAccount idl "close_lobby_and_draw" "arena"
    houseTakeSweep
    roundAccountClose := hasInstruction idl "close_round_account" &&
      instructionTakesAccount idl "close_round_account" "authority" && houseTakeSweep }

/-- A keeper that cannot sweep does not close. -/
theorem programFeaturesOf_sweep {idl : IdlShape} (h : (programFeaturesOf idl).roundAccountClose = true) :
    (programFeaturesOf idl).houseTakeSweep = true := by
  simp only [programFeaturesOf, Bool.and_eq_true] at h ⊢
  exact h.2

/-! ## The state of a pass -/

/-- What the chain and the clock answer when a pass begins, each used where the read gets that far. -/
structure ChainAnswers where
  nowSec : ℚ
  arena : Option ℕ
  fetchRound : Option RoundAnswer
  isDelegated : Bool

structure KeeperChainState where
  nowSec : ℚ
  roundCounter : ℕ
  round : Option RoundAnswer
  /-- About the current round, and only where its phase makes the owner matter. -/
  roundDelegated : Option Bool

def delegationDecidesSomething (round : Option RoundAnswer) : Bool :=
  match round with
  | none => false
  | some round => round.phase = .lobby ∨ round.phase = .settled ∨ round.phase = .abandoned

def readChainState (answers : ChainAnswers) : KeeperChainState :=
  match answers.arena with
  | none => ⟨answers.nowSec, 0, none, none⟩
  | some 0 => ⟨answers.nowSec, 0, none, none⟩
  | some counter =>
      ⟨answers.nowSec, counter, answers.fetchRound,
        if delegationDecidesSomething answers.fetchRound then some answers.isDelegated else none⟩

/-! ## The sweep -/

def sweepRetrySeconds : ℚ := 3

structure SweepAnswers where
  treasuryExists : Except String Bool
  sendInit : Except String SendOutcome
  sendSweep : Except String SendOutcome

/-- The transaction that the treasury account asks for is really sent. -/
def SweepAnswers.goesOut (answers : SweepAnswers) : Bool :=
  match answers.treasuryExists with
  | .error _ => false
  | .ok false => Keeper.goesOut answers.sendInit
  | .ok true => Keeper.goesOut answers.sendSweep

inductive SweepEvent where
  | initTreasurySent (accepted : Bool)
  | initTreasuryHeldBack
  | sweepSent (roundNo : ℤ) (accepted : Bool)
  | sweepHeldBack (roundNo : ℤ)
deriving DecidableEq

/-- Whatever throws is caught and backs the sweep off. -/
def sweepHouseTake (features : ProgramFeatures) (state : KeeperChainState) (round : RoundAnswer)
    (roundNo : ℤ) (sweepRetryAfterSec : ℚ) (answers : SweepAnswers) : ℚ × List SweepEvent :=
  if !features.houseTakeSweep then (sweepRetryAfterSec, [])
  else if round.swept then (sweepRetryAfterSec, [])
  else if state.roundDelegated ≠ some false then (sweepRetryAfterSec, [])
  else if state.nowSec < sweepRetryAfterSec then (sweepRetryAfterSec, [])
  else
    let backedOff := state.nowSec + sweepRetrySeconds
    match answers.treasuryExists with
    | .error _ => (backedOff, [])
    | .ok false =>
        match answers.sendInit with
        | .ok outcome =>
            (sweepRetryAfterSec, [if outcome.sent then .initTreasurySent true else .initTreasuryHeldBack])
        | .error _ => (backedOff, [.initTreasurySent false])
    | .ok true =>
        match answers.sendSweep with
        | .ok outcome =>
            (sweepRetryAfterSec, [if outcome.sent then .sweepSent roundNo true else .sweepHeldBack roundNo])
        | .error _ => (backedOff, [.sweepSent roundNo false])

/-! ## An idle pass -/

/-- An idle pass: the state it begins with, and the answers it gets where it goes that far. -/
structure IdlePass where
  chain : ChainAnswers
  probe : List ℤ → Except String (List Bool)
  nowMs : ℕ → ℤ
  fetchRound : Except String (Option RoundAnswer)
  isDelegated : Except String Bool
  sendClose : Except String SendOutcome
  sweep : SweepAnswers

def IdlePass.state (pass : IdlePass) : KeeperChainState := readChainState pass.chain

def IdlePass.close (pass : IdlePass) : ClosePass where
  nowSec := pass.state.nowSec
  roundCounter := pass.state.roundCounter
  currentPhase := pass.state.round.map RoundAnswer.phase
  probe := pass.probe
  nowMs := pass.nowMs
  fetchRound := pass.fetchRound
  isDelegated := pass.isDelegated
  sendClose := pass.sendClose

/-- The round, if any, on which a pass of the closer decides `sweep-first`. -/
def heldForSweep (cfg : Config) (closing : Bool) (ctx : KeeperContext) (pass : ClosePass) :
    Option (ℤ × RoundAnswer) :=
  if !closing || !housekeepingIsWelcome pass.currentPhase || decide (pass.nowSec < ctx.closeRetryAfterSec)
  then none
  else
    let cursor := (skipClosedRoundsAhead cfg ctx pass).1.closeCursor
    if !isPastRetention cursor pass.roundCounter cfg.roundRetention then none
    else
      match pass.fetchRound, pass.isDelegated with
      | .ok (some round), .ok delegated =>
          if decideClose (some round) delegated = .sweepFirst then some (cursor, round) else none
      | _, _ => none

structure Housekept where
  ctx : KeeperContext
  events : List KeeperEvent
  sweepRetryAfterSec : ℚ
  sent : List SweepEvent

/-- `closeOneFinishedRound` with the sweep it calls. -/
def housekeep (cfg : Config) (closeRounds : Bool) (features : ProgramFeatures) (ctx : KeeperContext)
    (sweepRetryAfterSec : ℚ) (pass : IdlePass) : Housekept :=
  let closing := closeRounds && features.roundAccountClose
  let closed := closeOneFinishedRound cfg closing ctx pass.close
  let swept :=
    match heldForSweep cfg closing ctx pass.close with
    | none => (sweepRetryAfterSec, [])
    | some (roundNo, round) => sweepHouseTake features pass.state round roundNo sweepRetryAfterSec pass.sweep
  ⟨closed.1, closed.2, swept.1, swept.2⟩

end BullsUnicorns.Keeper

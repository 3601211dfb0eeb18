import BullsUnicorns.Chain.Rules
import Mathlib.Data.Rat.Floor

/-!
# What to do with a lobby, right now

`scripts/keeper/lobbyPolicy.ts` with the two drivers of `keeper.ts` that act on it: `driveLobby`, which
latches the first real entry, and `driveDrawing`, which gives a draw up. Seconds are exact numbers; the
chain's own stamps are whole.
-/

namespace BullsUnicorns.Keeper

open Chain (Phase)

/-! ## Settings -/

def clockSkewMarginSeconds : ℕ := 2
def defaultLobbySeconds : ℕ := 60
def minFightersToFight : ℕ := 2
def scheduleCloseRetrySeconds : ℕ := 30

/-- What the environment may set, within the checks that let the process start. -/
structure Config where
  realPlayerGraceSeconds : ℚ
  drawTimeoutSeconds : ℚ
  roundRetention : ℕ
  closeRetrySeconds : ℚ
  maxBurnLamportsPerRound : ℤ
  grace_bounds : (Chain.minLobbySeconds : ℚ) ≤ realPlayerGraceSeconds ∧
    realPlayerGraceSeconds ≤ Chain.maxLobbySeconds
  timeout_pos : 0 < drawTimeoutSeconds
  retention_floor : Chain.minRetainedRounds ≤ roundRetention

/-- Nothing set. -/
def Config.fallback : Config where
  realPlayerGraceSeconds := 45
  drawTimeoutSeconds := 90
  roundRetention := Chain.minRetainedRounds
  closeRetrySeconds := 30
  maxBurnLamportsPerRound := 5000000
  grace_bounds := by norm_num [Chain.minLobbySeconds, Chain.maxLobbySeconds]
  timeout_pos := by norm_num
  retention_floor := Nat.le_refl _

/-! ## The plan -/

/-- `Math.floor(nowSec) < lobbyClosesAtSec`. -/
def lobbyIsOpen (lobbyClosesAtSec : ℤ) (nowSec : ℚ) : Bool := ⌊nowSec⌋ < lobbyClosesAtSec

inductive LobbyStep where
  | wait
  | closeEarly
  | closeToSchedule
  | close
  | abandon
  | waitForFighters
deriving DecidableEq

structure LobbyView where
  nowSec : ℚ
  lobbyClosesAt : ℤ
  fighterCount : ℕ
  realFighterCount : ℕ
  firstRealEntryObservedAtSec : Option ℚ
  holdOpen : Bool
  houseOnly : Bool
  scheduleCloseRetryAfterSec : ℚ

structure LobbyPlan where
  step : LobbyStep
  heldOpen : Bool
  entriesCloseAt : Option ℚ
  drawAt : ℚ

def lobbyIsHeldOpen (phase : Phase) (lobbyClosesAt : ℤ) (nowSec : ℚ) (realFighterCount : ℕ)
    (holdOpen houseOnly : Bool) : Bool :=
  holdOpen && !houseOnly && decide (phase = .lobby) && realFighterCount == 0 &&
    lobbyIsOpen lobbyClosesAt nowSec

def deadlineIsOffSchedule (view : LobbyView) : Bool :=
  view.holdOpen && view.houseOnly &&
    decide (view.lobbyClosesAt - view.nowSec > (defaultLobbySeconds + clockSkewMarginSeconds : ℕ))

def scheduleCloseIsDue (view : LobbyView) : Bool :=
  deadlineIsOffSchedule view && decide (view.fighterCount ≥ minFightersToFight) &&
    decide (view.nowSec ≥ view.scheduleCloseRetryAfterSec)

/-- When entries close: a grace after the first real entry, and no later than the chain's deadline. -/
def LobbyView.entriesCloseAt (cfg : Config) (view : LobbyView) : Option ℚ :=
  if view.holdOpen then
    view.firstRealEntryObservedAtSec.map fun seen =>
      min (seen + cfg.realPlayerGraceSeconds) view.lobbyClosesAt
  else none

def LobbyView.step (cfg : Config) (view : LobbyView) : LobbyStep :=
  if !lobbyIsOpen view.lobbyClosesAt view.nowSec then
    if view.nowSec < view.lobbyClosesAt + clockSkewMarginSeconds then .wait
    else if view.fighterCount < minFightersToFight then .abandon else .close
  else
    match view.entriesCloseAt cfg with
    | none => if scheduleCloseIsDue view then .closeToSchedule else .wait
    | some closesAt =>
        if view.nowSec < closesAt then .wait
        else if view.fighterCount < minFightersToFight then .waitForFighters
        else .closeEarly

def planLobby (cfg : Config) (view : LobbyView) : LobbyPlan where
  step := view.step cfg
  heldOpen := lobbyIsHeldOpen .lobby view.lobbyClosesAt view.nowSec view.realFighterCount view.holdOpen
    view.houseOnly
  entriesCloseAt := view.entriesCloseAt cfg
  drawAt := (view.entriesCloseAt cfg).getD view.lobbyClosesAt

/-! ## One round's passes -/

/-- The keeper's memory of one round, as far as its lobby goes. -/
structure RoundTimeline where
  firstRealEntryObservedAtSec : Option ℚ
  scheduleCloseRetryAfterSec : ℚ

def freshTimeline : RoundTimeline := ⟨none, 0⟩

/-- What a pass reads of a lobby. -/
structure LobbyPass where
  nowSec : ℤ
  fighterCount : ℕ
  realCount : ℕ

section
variable (cfg : Config) (holdOpen houseOnly : Bool) (lobbyClosesAt : ℤ)

def driveLobby (timeline : RoundTimeline) (pass : LobbyPass) : RoundTimeline × LobbyPlan :=
  let firstRealEntryObservedAtSec :=
    if pass.realCount > 0 then some (timeline.firstRealEntryObservedAtSec.getD pass.nowSec)
    else timeline.firstRealEntryObservedAtSec
  let plan := planLobby cfg {
    nowSec := pass.nowSec
    lobbyClosesAt
    fighterCount := pass.fighterCount
    realFighterCount := pass.realCount
    firstRealEntryObservedAtSec
    holdOpen
    houseOnly
    scheduleCloseRetryAfterSec := timeline.scheduleCloseRetryAfterSec }
  -- `closeLobbyOntoSchedule` stamps its backoff before it sends
  let scheduleCloseRetryAfterSec :=
    if plan.step = .closeToSchedule then (pass.nowSec : ℚ) + scheduleCloseRetrySeconds
    else timeline.scheduleCloseRetryAfterSec
  (⟨firstRealEntryObservedAtSec, scheduleCloseRetryAfterSec⟩, plan)

/-- The plans of a run of passes over one round, each with its pass. -/
def lobbyPlans (timeline : RoundTimeline) : List LobbyPass → List (LobbyPass × LobbyPlan)
  | [] => []
  | pass :: passes =>
      let (timeline, plan) := driveLobby cfg holdOpen houseOnly lobbyClosesAt timeline pass
      (pass, plan) :: lobbyPlans timeline passes

end

/-! ## The draw -/

inductive DrawingStep where
  | wait
  /-- Record the round as wedged and open the next one. -/
  | wedgeAndMoveOn (drawingFor : ℤ)
deriving DecidableEq

def driveDrawing (cfg : Config) (nowSec lobbyClosesAt : ℤ) : DrawingStep :=
  let drawingFor := nowSec - lobbyClosesAt
  if (drawingFor : ℚ) ≤ cfg.drawTimeoutSeconds then .wait else .wedgeAndMoveOn drawingFor

end BullsUnicorns.Keeper

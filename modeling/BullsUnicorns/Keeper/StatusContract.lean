import BullsUnicorns.Lib.Json
import Mathlib.Data.Rat.Floor

/-!
# The keeper's status, as both ends know it

`src/v2/data/keeperStatus.ts`: the shape that the keeper writes and the page reads, the parser of what
comes off the network, and the questions the page asks. A `number` is a rational: every finite double is
one.
-/

namespace BullsUnicorns.Keeper

def keeperStatusSchema : ℚ := 6

def phaseName : List String := ["Lobby", "Drawing", "Fight", "Settled", "Abandoned"]

/-- A phase has two encodings, and a round whose two disagree is not one. -/
structure KeeperRoundStatus where
  no : ℚ
  pda : String
  phase : String
  phaseCode : ℕ
  lobbyOpenedAt : ℚ
  lobbyClosesAt : ℚ
  fightStartedAt : ℚ
  fighterCount : ℚ
  heldOpen : Bool
  winner : ℚ
  pot : String
  named : phaseName[phaseCode]? = some phase
  pot_u64 : isU64String pot = true
deriving DecidableEq

structure KeeperError where
  at_ : ℚ
  context : String
deriving DecidableEq

structure KeeperLowBalance where
  since : ℚ
  lamports : String
  floorLamports : String
  lamports_u64 : isU64String lamports = true
  floor_u64 : isU64String floorLamports = true
deriving DecidableEq

inductive NotOpeningReason where
  | lowBalance
  | rentNotReclaimed
  | rentNotSwept
deriving DecidableEq

def NotOpeningReason.text : NotOpeningReason → String
  | .lowBalance => "low-balance"
  | .rentNotReclaimed => "rent-not-reclaimed"
  | .rentNotSwept => "rent-not-swept"

structure ErValidator where
  identity : String
  fqdn : String
deriving DecidableEq

structure KeeperHealth where
  startedAt : ℚ
  heartbeatAt : ℚ
  heartbeatIntervalSeconds : ℚ
  staleAfterSeconds : ℚ
  roundsCompleted : ℚ
  lastError : Option KeeperError
  stalledSince : Option ℚ
  wedgedRounds : List ℚ
  lowBalance : Option KeeperLowBalance
  notOpeningRounds : Option NotOpeningReason
  houseOnlyRounds : Bool
deriving DecidableEq

structure KeeperChain where
  programId : String
  arenaPda : String
  erValidator : Option ErValidator
deriving DecidableEq

/-- `schema` and `chain.cluster` have one value each and are only written and checked. -/
structure KeeperStatus where
  keeper : KeeperHealth
  chain : KeeperChain
  round : Option KeeperRoundStatus
  entriesCloseAt : Option ℚ
  nextLobbyOpensAt : Option ℚ
deriving DecidableEq

/-! ## Writing -/

def KeeperRoundStatus.toJson (round : KeeperRoundStatus) : Json := .obj [
  ("no", .num round.no),
  ("pda", .str round.pda),
  ("phase", .str round.phase),
  ("phaseCode", .num round.phaseCode),
  ("lobbyOpenedAt", .num round.lobbyOpenedAt),
  ("lobbyClosesAt", .num round.lobbyClosesAt),
  ("fightStartedAt", .num round.fightStartedAt),
  ("fighterCount", .num round.fighterCount),
  ("heldOpen", .bool round.heldOpen),
  ("winner", .num round.winner),
  ("pot", .str round.pot)]

def KeeperError.toJson (error : KeeperError) : Json :=
  .obj [("at", .num error.at_), ("context", .str error.context)]

def KeeperLowBalance.toJson (low : KeeperLowBalance) : Json := .obj [
  ("since", .num low.since),
  ("lamports", .str low.lamports),
  ("floorLamports", .str low.floorLamports)]

def NotOpeningReason.toJson (reason : NotOpeningReason) : Json := .str reason.text

def ErValidator.toJson (validator : ErValidator) : Json :=
  .obj [("identity", .str validator.identity), ("fqdn", .str validator.fqdn)]

def KeeperHealth.toJson (keeper : KeeperHealth) : Json := .obj [
  ("startedAt", .num keeper.startedAt),
  ("heartbeatAt", .num keeper.heartbeatAt),
  ("heartbeatIntervalSeconds", .num keeper.heartbeatIntervalSeconds),
  ("staleAfterSeconds", .num keeper.staleAfterSeconds),
  ("roundsCompleted", .num keeper.roundsCompleted),
  ("lastError", .ofOption KeeperError.toJson keeper.lastError),
  ("stalledSince", .ofOption .num keeper.stalledSince),
  ("wedgedRounds", .arr (keeper.wedgedRounds.map .num)),
  ("lowBalance", .ofOption KeeperLowBalance.toJson keeper.lowBalance),
  ("notOpeningRounds", .ofOption NotOpeningReason.toJson keeper.notOpeningRounds),
  ("houseOnlyRounds", .bool keeper.houseOnlyRounds)]

def KeeperChain.toJson (chain : KeeperChain) : Json := .obj [
  ("cluster", .str "devnet"),
  ("programId", .str chain.programId),
  ("arenaPda", .str chain.arenaPda),
  ("erValidator", .ofOption ErValidator.toJson chain.erValidator)]

/-- The payload of both channels. -/
def serializeKeeperStatus (status : KeeperStatus) : Json := .obj [
  ("schema", .num keeperStatusSchema),
  ("keeper", status.keeper.toJson),
  ("chain", status.chain.toJson),
  ("round", .ofOption KeeperRoundStatus.toJson status.round),
  ("entriesCloseAt", .ofOption .num status.entriesCloseAt),
  ("nextLobbyOpensAt", .ofOption .num status.nextLobbyOpensAt)]

/-! ## Reading -/

open Json (field orNull isRecord isNumber isString isBoolean isNumberArray)

def notOpeningReasons : List NotOpeningReason := [.lowBalance, .rentNotReclaimed, .rentNotSwept]

def isNotOpeningReason (raw : Json) : Option NotOpeningReason := do
  let text ← isString raw
  notOpeningReasons.find? fun reason => reason.text == text

def parseError (raw : Json) : Option KeeperError := do
  let e ← isRecord raw
  let at_ ← field e "at" isNumber
  let context ← field e "context" isString
  return { at_, context }

def parseLowBalance (raw : Json) : Option KeeperLowBalance := do
  let low ← isRecord raw
  let since ← field low "since" isNumber
  let lamports ← field low "lamports" isString
  let floorLamports ← field low "floorLamports" isString
  if lamports_u64 : isU64String lamports = true then
    if floor_u64 : isU64String floorLamports = true then
      return { since, lamports, floorLamports, lamports_u64, floor_u64 }
    else none
  else none

/-- `Number.isInteger(phaseCode) && phaseCode >= 0`. -/
def wholeCode (phaseCode : ℚ) : Option ℕ :=
  if phaseCode.den = 1 ∧ 0 ≤ phaseCode.num then some phaseCode.num.toNat else none

def parseRound (raw : Json) : Option KeeperRoundStatus := do
  let round ← isRecord raw
  let no ← field round "no" isNumber
  let phaseCode ← field round "phaseCode" isNumber
  let lobbyOpenedAt ← field round "lobbyOpenedAt" isNumber
  let lobbyClosesAt ← field round "lobbyClosesAt" isNumber
  let fightStartedAt ← field round "fightStartedAt" isNumber
  let fighterCount ← field round "fighterCount" isNumber
  let heldOpen ← field round "heldOpen" isBoolean
  let winner ← field round "winner" isNumber
  let pda ← field round "pda" isString
  let pot ← field round "pot" isString
  if pot_u64 : isU64String pot = true then
    let phaseCode ← wholeCode phaseCode
    let phase ← field round "phase" isString
    -- the two encodings of one fact have to agree
    if named : phaseName[phaseCode]? = some phase then
      return { no, pda, phase, phaseCode, lobbyOpenedAt, lobbyClosesAt, fightStartedAt, fighterCount,
               heldOpen, winner, pot, named, pot_u64 }
    else none
  else none

def parseErValidator (raw : Json) : Option ErValidator := do
  let v ← isRecord raw
  let identity ← field v "identity" isString
  let fqdn ← field v "fqdn" isString
  return { identity, fqdn }

def parseKeeper (raw : Json) : Option KeeperHealth := do
  let k ← isRecord raw
  let startedAt ← field k "startedAt" isNumber
  let heartbeatAt ← field k "heartbeatAt" isNumber
  let heartbeatIntervalSeconds ← field k "heartbeatIntervalSeconds" isNumber
  let staleAfterSeconds ← field k "staleAfterSeconds" isNumber
  let roundsCompleted ← field k "roundsCompleted" isNumber
  let wedgedRounds ← field k "wedgedRounds" isNumberArray
  let lastError ← field k "lastError" (orNull parseError)
  let stalledSince ← field k "stalledSince" (orNull isNumber)
  let lowBalance ← field k "lowBalance" (orNull parseLowBalance)
  let notOpeningRounds ← field k "notOpeningRounds" (orNull isNotOpeningReason)
  let houseOnlyRounds ← field k "houseOnlyRounds" isBoolean
  return { startedAt, heartbeatAt, heartbeatIntervalSeconds, staleAfterSeconds, roundsCompleted, lastError,
           stalledSince, wedgedRounds, lowBalance, notOpeningRounds, houseOnlyRounds }

def parseChain (raw : Json) : Option KeeperChain := do
  let c ← isRecord raw
  let cluster ← field c "cluster" isString
  guard (cluster = "devnet")
  let programId ← field c "programId" isString
  let arenaPda ← field c "arenaPda" isString
  let erValidator ← field c "erValidator" (orNull parseErValidator)
  return { programId, arenaPda, erValidator }

def parseKeeperStatus (raw : Json) : Option KeeperStatus := do
  let status ← isRecord raw
  let schema ← field status "schema" isNumber
  guard (schema = keeperStatusSchema)
  let keeper ← field status "keeper" parseKeeper
  let chain ← field status "chain" parseChain
  let round ← field status "round" (orNull parseRound)
  let nextLobbyOpensAt ← field status "nextLobbyOpensAt" (orNull isNumber)
  let entriesCloseAt ← field status "entriesCloseAt" (orNull isNumber)
  return { keeper, chain, round, entriesCloseAt, nextLobbyOpensAt }

/-! ## The questions the page asks -/

def isKeeperStale (status : KeeperStatus) (nowSec : ℚ) : Bool :=
  nowSec - status.keeper.heartbeatAt > status.keeper.staleAfterSeconds

def isKeeperStalled (status : KeeperStatus) (nowSec : ℚ) : Bool :=
  status.keeper.stalledSince.isSome && !isKeeperStale status nowSec

inductive KeeperCountdown where
  | entriesClose (seconds : ℤ)
  | nextLobby (seconds : ℤ)
  | waitingForPlayers
  | none
deriving DecidableEq

def secondsUntil (deadlineSec nowSec : ℚ) : ℤ := max 0 ⌈deadlineSec - nowSec⌉

def keeperCountdown (status : Option KeeperStatus) (nowSec : ℚ) : KeeperCountdown :=
  match status with
  | .none => .none
  | some status =>
      if isKeeperStale status nowSec || isKeeperStalled status nowSec then .none
      else
        match status.round with
        | .none => .none
        | some round =>
            if round.phase = "Lobby" then
              if round.heldOpen then .waitingForPlayers
              else
                match status.entriesCloseAt with
                | some entriesCloseAt =>
                    if entriesCloseAt ≤ nowSec then .none
                    else .entriesClose (secondsUntil entriesCloseAt nowSec)
                | .none =>
                    if round.lobbyClosesAt ≤ nowSec then .none
                    else .entriesClose (secondsUntil round.lobbyClosesAt nowSec)
            else if round.phase = "Settled" ∨ round.phase = "Abandoned" then
              if status.keeper.notOpeningRounds.isSome then .none
              else
                match status.nextLobbyOpensAt with
                | .none => .none
                | some opensAt =>
                    if opensAt ≤ nowSec then .none else .nextLobby (secondsUntil opensAt nowSec)
            else .none

end BullsUnicorns.Keeper

import BullsUnicorns.Keeper.StatusContract
import BullsUnicorns.Lib.Machine
import BullsUnicorns.Lib.Whole

/-!
# Publishing the keeper's status

`scripts/keeper/statusFile.ts`: the round as the account reports it, the two rules that decide what
countdown may be published beside it, and the publisher, whose setters propose and whose renders decide.
-/

namespace BullsUnicorns.Keeper

/-! ## The round -/

/-- What the status takes from a round account. -/
structure RawRoundAccount where
  roundNo : UInt64
  phase : UInt8
  lobbyOpenedAt : Int64
  lobbyClosesAt : Int64
  fightStartedAt : Int64
  fighterCount : UInt16
  winner : UInt8
  pot : UInt64

def roundStatusFrom (round : RawRoundAccount) (roundPda : String) (heldOpen : Bool) :
    Except String KeeperRoundStatus :=
  match named : phaseName[round.phase.toNat]? with
  | none => .error ("round " ++ roundPda ++ " reports phase " ++ toString round.phase.toNat ++
      ", which is not one of " ++ "/".intercalate phaseName)
  | some phase => .ok {
      no := Number.ofNat round.roundNo.toNat
      pda := roundPda
      phase
      phaseCode := round.phase.toNat
      lobbyOpenedAt := Number.ofInt round.lobbyOpenedAt.toInt
      lobbyClosesAt := Number.ofInt round.lobbyClosesAt.toInt
      fightStartedAt := Number.ofInt round.fightStartedAt.toInt
      fighterCount := round.fighterCount.toNat
      heldOpen
      winner := round.winner.toNat
      pot := toString round.pot.toNat
      named
      pot_u64 := isU64String_toString round.pot }

/-! ## The countdown rules -/

/-- What has already been promised, for which round. -/
structure CountdownLatch where
  roundNo : ℚ
  at_ : ℚ
deriving DecidableEq

/-- `Phase.Settled` and `Phase.Abandoned`. -/
def holdPhases : List ℕ := [3, 4]

def honestNextLobbyOpensAt (round : Option KeeperRoundStatus) (candidate : Option ℚ)
    (latch : Option CountdownLatch) : Option ℚ × Option CountdownLatch :=
  match round with
  | none => (none, latch)
  | some round =>
      if round.phaseCode ∉ holdPhases then (none, latch)
      else
        match latch.filter fun held => held.roundNo = round.no with
        | some held => (some held.at_, latch)
        | none =>
            match candidate with
            | none => (none, latch)
            | some at_ => (some at_, some ⟨round.no, at_⟩)

def honestEntriesCloseAt (round : Option KeeperRoundStatus) (candidate : Option ℚ) : Option ℚ :=
  match round with
  | none => none
  | some round => if round.phaseCode ≠ 0 then none else candidate

/-! ## The publisher -/

structure StatusPublisherOptions where
  programId : String
  arenaPda : String
  houseOnlyRounds : Bool
  heartbeatIntervalSeconds : ℚ
  staleAfterSeconds : ℚ

/-- A funding report: a balance and a floor in lamports. -/
structure LowBalanceReport where
  lamports : UInt64
  floorLamports : UInt64
  nowSec : ℚ

structure StatusPublisher where
  status : KeeperStatus
  latch : Option CountdownLatch
  proposedNextLobbyOpensAt : Option ℚ
  proposedEntriesCloseAt : Option ℚ

inductive PublisherCall where
  | setErValidator (validator : Option ErValidator)
  | setRound (round : Option KeeperRoundStatus)
  | setNextLobbyOpensAt (at_ : Option ℚ)
  | setEntriesCloseAt (at_ : Option ℚ)
  | setLastError (err : Option KeeperError)
  | setStalledSince (at_ : Option ℚ)
  | setLowBalance (low : Option LowBalanceReport)
  | setNotOpeningRounds (reason : Option NotOpeningReason)
  | addWedgedRound (roundNo : ℚ)
  | setRoundsCompleted (count : ℚ)
  | publish
  | heartbeat (nowSec : ℚ)

namespace StatusPublisher

/-- Reconcile. What comes out is what both channels emit. -/
def render (publisher : StatusPublisher) : StatusPublisher :=
  let decided := honestNextLobbyOpensAt publisher.status.round publisher.proposedNextLobbyOpensAt
    publisher.latch
  { publisher with
    latch := decided.2
    status := { publisher.status with
      nextLobbyOpensAt := decided.1
      entriesCloseAt :=
        honestEntriesCloseAt publisher.status.round publisher.proposedEntriesCloseAt } }

/-- Change the keeper's own half of the status. -/
def setKeeper (publisher : StatusPublisher) (keeper : KeeperHealth) : StatusPublisher :=
  { publisher with status := { publisher.status with keeper } }

def setLowBalance (keeper : KeeperHealth) (low : Option LowBalanceReport) : KeeperHealth :=
  match low with
  | none => { keeper with lowBalance := none }
  | some low => { keeper with
      lowBalance := some {
        since := (keeper.lowBalance.map (·.since)).getD low.nowSec
        lamports := toString low.lamports.toNat
        floorLamports := toString low.floorLamports.toNat
        lamports_u64 := isU64String_toString low.lamports
        floor_u64 := isU64String_toString low.floorLamports } }

/-- The publisher after a call, and the status that the call rendered. -/
def call (publisher : StatusPublisher) : PublisherCall → StatusPublisher × Option KeeperStatus
  | .setErValidator erValidator => ({ publisher with
      status := { publisher.status with chain := { publisher.status.chain with erValidator } } }, none)
  | .setRound round => ({ publisher with status := { publisher.status with round } }, none)
  | .setNextLobbyOpensAt at_ => ({ publisher with proposedNextLobbyOpensAt := at_ }, none)
  | .setEntriesCloseAt at_ => ({ publisher with proposedEntriesCloseAt := at_ }, none)
  | .setLastError lastError => (publisher.setKeeper { publisher.status.keeper with lastError }, none)
  | .setStalledSince stalledSince =>
      (publisher.setKeeper { publisher.status.keeper with stalledSince }, none)
  | .setLowBalance low => (publisher.setKeeper (setLowBalance publisher.status.keeper low), none)
  | .setNotOpeningRounds notOpeningRounds =>
      (publisher.setKeeper { publisher.status.keeper with notOpeningRounds }, none)
  | .addWedgedRound roundNo =>
      if roundNo ∈ publisher.status.keeper.wedgedRounds then (publisher, none)
      else (publisher.setKeeper { publisher.status.keeper with
        wedgedRounds := publisher.status.keeper.wedgedRounds ++ [roundNo] }, none)
  | .setRoundsCompleted roundsCompleted =>
      (publisher.setKeeper { publisher.status.keeper with roundsCompleted }, none)
  | .publish => (publisher.render, some publisher.render.status)
  | .heartbeat heartbeatAt =>
      let beating := publisher.setKeeper { publisher.status.keeper with heartbeatAt }
      (beating.render, some beating.render.status)

end StatusPublisher

/-- The publisher is rendered once as it is made. -/
def createStatusPublisher (options : StatusPublisherOptions) (startedAt : ℚ) : StatusPublisher :=
  StatusPublisher.render {
    status := {
      keeper := {
        startedAt
        heartbeatAt := startedAt
        heartbeatIntervalSeconds := options.heartbeatIntervalSeconds
        staleAfterSeconds := options.staleAfterSeconds
        roundsCompleted := 0
        lastError := none
        stalledSince := none
        wedgedRounds := []
        lowBalance := none
        notOpeningRounds := none
        houseOnlyRounds := options.houseOnlyRounds }
      chain := { programId := options.programId, arenaPda := options.arenaPda, erValidator := none }
      round := none
      entriesCloseAt := none
      nextLobbyOpensAt := none }
    latch := none
    proposedNextLobbyOpensAt := none
    proposedEntriesCloseAt := none }

def statusPublisher : Machine StatusPublisher PublisherCall (Option KeeperStatus) Empty where
  step publisher call := .ok (publisher.call call)

/-- Every status rendered since the publisher was made, the first one included. -/
def rendered (options : StatusPublisherOptions) (startedAt : ℚ) (calls : List PublisherCall) :
    List KeeperStatus :=
  (createStatusPublisher options startedAt).status ::
    (statusPublisher.accepted (createStatusPublisher options startedAt) calls).filterMap Prod.snd

end BullsUnicorns.Keeper

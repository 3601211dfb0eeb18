import BullsUnicorns.Chain.Books
import BullsUnicorns.Keeper.LobbyPolicy
import BullsUnicorns.Lib.Whole

/-!
# How many house fighters, when, and on which side

`scripts/keeper/houseSizing.ts` with the settings it reads from `config.ts`. Fractions of the arrival
window are exact numbers.
-/

namespace BullsUnicorns.Keeper

/-- What the environment may set about the house, within the checks that let the process start. -/
structure HouseConfig extends Config where
  arrivalTailSeconds : ℚ
  walletCount : ℕ
  boardTarget : ℕ
  displacement : ℕ
  stakeMinUsd : ℕ
  stakeMaxUsd : ℕ
  tail_lt_grace : arrivalTailSeconds < realPlayerGraceSeconds
  tail_gt_margin : (clockSkewMarginSeconds : ℚ) < arrivalTailSeconds
  wallets_bounds : 2 ≤ walletCount ∧ walletCount ≤ 64
  board_pos : 1 ≤ boardTarget
  stake_band : 1 ≤ stakeMinUsd ∧ stakeMinUsd ≤ stakeMaxUsd
  staffed : max minFightersToFight (boardTarget - displacement) ≤ walletCount

/-- Nothing set. -/
def HouseConfig.fallback : HouseConfig where
  toConfig := Config.fallback
  arrivalTailSeconds := 5
  walletCount := 10
  boardTarget := 10
  displacement := 1
  stakeMinUsd := 5
  stakeMaxUsd := 20
  tail_lt_grace := by norm_num [Config.fallback]
  tail_gt_margin := by norm_num [clockSkewMarginSeconds]
  wallets_bounds := by decide
  board_pos := by decide
  stake_band := by decide
  staffed := by decide

/-- Seats held for real players who have not arrived. -/
def HouseConfig.realSeatsReserved (cfg : HouseConfig) : ℕ :=
  max 4 ⌈4 * cfg.realPlayerGraceSeconds / Chain.minLobbySeconds⌉₊

def houseFloor : ℤ := 2
def houseMaxWithoutRealPlayer : ℤ := 1

inductive EmptyRoomPolicy where
  | unfightable
  | houseOnly
deriving DecidableEq

structure SideCounts where
  side0 : ℕ
  side1 : ℕ
deriving DecidableEq

/-! ## How many -/

def houseFighterCount (cfg : HouseConfig) (real : SideCounts) (policy : EmptyRoomPolicy) : ℤ :=
  let realTotal : ℤ := real.side0 + real.side1
  if realTotal = 0 ∧ policy = .unfightable then houseMaxWithoutRealPlayer
  else
    let throttled := max (houseFloor - realTotal) (cfg.boardTarget - cfg.displacement * realTotal)
    let cover : ℤ := (if real.side0 = 0 then 1 else 0) + (if real.side1 = 0 then 1 else 0)
    max 0 (min cfg.walletCount (max throttled cover))

/-! ## When -/

def arrivalFraction (cfg : HouseConfig) (nowSec drawAt : ℚ) : ℚ :=
  let windowStart := drawAt - cfg.realPlayerGraceSeconds
  let windowEnd := drawAt - cfg.arrivalTailSeconds
  let span := windowEnd - windowStart
  if span ≤ 0 then 1
  else
    let fraction := (nowSec - windowStart) / span
    if fraction < 0 then 0 else if fraction > 1 then 1 else fraction

/-- The `lowbias32` finalizer. -/
def avalanche (value : ℕ) : UInt32 :=
  let h := UInt32.ofNat value
  let h := h ^^^ (h >>> 16)
  let h := h * 0x21f0aaad
  let h := h ^^^ (h >>> 15)
  let h := h * 0x735a2d97
  h ^^^ (h >>> 15)

def mix (roundNo walletIndex : ℕ) : UInt32 :=
  let combined := avalanche roundNo ^^^ (avalanche walletIndex + 0x9e3779b9)
  avalanche combined.toNat

def arrivalsDueBy (roundNo : ℕ) (target : ℤ) (fraction : ℚ) : ℤ :=
  if target ≤ 0 then 0
  else if fraction ≥ 1 then target
  else if target = 1 then 1
  else
    let n := target.toNat
    let draws := (List.range n).map fun k => ((mix roundNo (k + 1)).toNat : ℚ) / 2 ^ 32
    let draws := draws.mergeSort (· ≤ ·)
    let first := draws.headD 0
    let spread := draws.getLastD 0 - first
    if spread ≤ 0 then n
    else
      let threshold := first + fraction * spread
      (draws.takeWhile (· ≤ threshold)).length

/-! ## Where and for how much -/

inductive Side where
  | side0
  | side1
deriving DecidableEq

/-- The side as an entry carries it. -/
def Side.byte : Side → UInt8
  | .side0 => 0
  | .side1 => 1

/-- The loop of `allocateHouseSides`: onto the smaller side, a tie onto side 0. -/
def allocateFrom : ℕ → SideCounts → List Side
  | 0, _ => []
  | count + 1, filled =>
      if filled.side1 < filled.side0 then
        .side1 :: allocateFrom count { filled with side1 := filled.side1 + 1 }
      else .side0 :: allocateFrom count { filled with side0 := filled.side0 + 1 }

def allocateHouseSides (count : ℤ) (real : SideCounts) : List Side :=
  allocateFrom count.toNat real

def unitsPerUsd : ℕ := 1000000

def houseStake (cfg : HouseConfig) (roundNo walletIndex : ℕ) : ℕ :=
  let span := cfg.stakeMaxUsd - cfg.stakeMinUsd + 1
  let usd := cfg.stakeMinUsd + (mix roundNo walletIndex).toNat % span
  usd * unitsPerUsd

end BullsUnicorns.Keeper

/-!
## What the house should enter right now

`plannedHouseEntries` of `scripts/keeper/houseBank.ts`, with the bank and its classifier. A round is
the account of the program; a wallet's text is its address.
-/

namespace BullsUnicorns.Keeper

open Chain (Pubkey RoundState)

/-- Every key the house holds; the first `count` of them may enter a round. -/
structure HouseBank (count : ℕ) where
  bankPubkeys : List Pubkey
  distinct : bankPubkeys.Nodup
  enough : count ≤ bankPubkeys.length

structure HouseWallet where
  index : ℕ
  pubkey : Pubkey
deriving DecidableEq

structure FighterSplit where
  real : SideCounts
  house : SideCounts
  houseIn : List Pubkey

def FighterSplit.realCount (split : FighterSplit) : ℕ := split.real.side0 + split.real.side1
def FighterSplit.houseCount (split : FighterSplit) : ℕ := split.house.side0 + split.house.side1

/-- Who sits in the round, by wallet and side. -/
def seated (round : RoundState) : List (Pubkey × UInt8) :=
  (round.fighters.toList.take round.fighterCount).map fun f => (f.wallet, f.side)

namespace HouseBank

variable {count : ℕ} (bank : HouseBank count)

def active : List HouseWallet :=
  (bank.bankPubkeys.take count).zipIdx.map fun p => ⟨p.2, p.1⟩

def isHouse (pubkey : Pubkey) : Bool := pubkey ∈ bank.bankPubkeys

/-- A side that is not 0 counts as side 1. -/
def classify (round : RoundState) : FighterSplit :=
  let counts (house : Bool) : SideCounts :=
    ⟨(seated round).countP fun f => bank.isHouse f.1 = house ∧ f.2 = 0,
      (seated round).countP fun f => bank.isHouse f.1 = house ∧ f.2 ≠ 0⟩
  { real := counts false
    house := counts true
    houseIn := ((seated round).map Prod.fst).filter bank.isHouse }

end HouseBank

structure HouseEntry where
  wallet : HouseWallet
  side : Side
  stake : ℕ
deriving DecidableEq

structure HouseLobbyView where
  drawAt : ℚ
  emptyRoom : EmptyRoomPolicy

structure HousePlan where
  entries : List HouseEntry
  split : FighterSplit
  houseTarget : ℤ

/-! ## The plan in numbers -/

def roomMustBeFightable (split : FighterSplit) (emptyRoom : EmptyRoomPolicy) : Bool :=
  split.realCount > 0 ∨ emptyRoom = .houseOnly

/-- The board, throttled by the clock; `Number(roundNo)` is the double nearest to it. -/
def targetBeforeSeats (cfg : HouseConfig) (split : FighterSplit) (roundNo : ℕ) (nowSec : ℚ)
    (lobby : HouseLobbyView) : ℤ :=
  if split.realCount = 0 ∧ lobby.emptyRoom = .unfightable then houseMaxWithoutRealPlayer
  else
    let board := houseFighterCount cfg split.real lobby.emptyRoom
    let due := arrivalsDueBy (Number.ofNat roundNo) board (arrivalFraction cfg nowSec lobby.drawAt)
    let fightability := if split.realCount < minFightersToFight then houseFloor else 0
    max fightability (min board due)

def houseCeiling (cfg : HouseConfig) (seats : ℤ) (split : FighterSplit) : ℤ :=
  max 0 (seats - split.realCount - cfg.realSeatsReserved)

/-- What each side lacks of the policy's own distribution; negative where the house is past it. -/
def deficits (target : ℤ) (split : FighterSplit) : ℤ × ℤ :=
  let wanted := allocateHouseSides target split.real
  ((wanted.count .side0 : ℤ) - split.house.side0, (wanted.count .side1 : ℤ) - split.house.side1)

structure Shortfall where
  count : ℤ
  need0 : ℤ
  need1 : ℤ

/-- A floor and two ceilings: one fighter onto an empty side, the policy with its reservation, and the
seats there are. -/
def shortfallOf (cfg : HouseConfig) (seats target : ℤ) (split : FighterSplit) (emptyRoom : EmptyRoomPolicy) :
    Shortfall :=
  let need := deficits target split
  let grow :=
    if roomMustBeFightable split emptyRoom then max 0 need.1 + max 0 need.2
    else target - split.houseCount
  let occupied0 := split.real.side0 + split.house.side0
  let occupied1 := split.real.side1 + split.house.side1
  let coverFloor : ℤ :=
    if roomMustBeFightable split emptyRoom ∧ (occupied0 = 0 ∨ occupied1 = 0) then 1 else 0
  let need :=
    if coverFloor > 0 then
      if occupied0 = 0 then (max need.1 1, need.2) else (need.1, max need.2 1)
    else need
  let ceilingRoom := max 0 (houseCeiling cfg seats split - split.houseCount)
  let freeSeats := max 0 (seats - split.realCount - split.houseCount)
  ⟨min (max (min grow ceilingRoom) coverFloor) freeSeats, need.1, need.2⟩

/-! ## The plan -/

/-- The loop over the wallets, with how many entries are still to be made. -/
def placeEntries (cfg : HouseConfig) (roundNo : ℕ) : List HouseWallet → ℕ → ℤ → ℤ → List HouseEntry
  | [], _, _, _ => []
  | _ :: _, 0, _, _ => []
  | wallet :: rest, left + 1, need0, need1 =>
      let stake := houseStake cfg (Number.ofNat roundNo) wallet.index
      if need0 ≥ need1 then
        if need0 ≤ 0 then placeEntries cfg roundNo rest (left + 1) need0 need1
        else ⟨wallet, .side0, stake⟩ :: placeEntries cfg roundNo rest left (need0 - 1) need1
      else
        if need1 ≤ 0 then placeEntries cfg roundNo rest (left + 1) need0 need1
        else ⟨wallet, .side1, stake⟩ :: placeEntries cfg roundNo rest left need0 (need1 - 1)

def freeWallets {count : ℕ} (bank : HouseBank count) (split : FighterSplit) : List HouseWallet :=
  bank.active.filter fun w => w.pubkey ∉ split.houseIn

/-- The active wallets that hold no seat, from a place in the pool that moves with the round. -/
def rotated {count : ℕ} (bank : HouseBank count) (split : FighterSplit) (roundNo : ℕ) : List HouseWallet :=
  let free := bank.active.filter fun w => w.pubkey ∉ split.houseIn
  let offset := if free.length > 0 then roundNo % free.length else 0
  free.drop offset ++ free.take offset

def plannedHouseEntries (cfg : HouseConfig) (bank : HouseBank cfg.walletCount) (round : RoundState)
    (roundNo : ℕ) (nowSec : ℚ) (lobby : HouseLobbyView) : HousePlan :=
  let split := bank.classify round
  if lobby.drawAt - nowSec ≤ clockSkewMarginSeconds then ⟨[], split, 0⟩
  else
    let seats : ℤ := round.fighters.toList.length
    let target := min (targetBeforeSeats cfg split roundNo nowSec lobby) (houseCeiling cfg seats split)
    let short := shortfallOf cfg seats target split lobby.emptyRoom
    if short.count ≤ 0 then ⟨[], split, target⟩
    else
      ⟨placeEntries cfg roundNo (rotated bank split roundNo) short.count.toNat short.need0 short.need1, split,
        target⟩

end BullsUnicorns.Keeper

import BullsUnicorns.Chain.State
import BullsUnicorns.Mirror.ErSim

/-!
# The public verifier

`er-demo/src/ui/verifyRound.ts` with what it rests on: the decoding of a round account
(`chain/useRound.ts`) and the replay of a fight from its entries (`sim/hitEvents.ts`). `toBase58` is
the wallet library's.
-/

namespace BullsUnicorns.Mirror

open Chain (Bytes32 Pubkey)

/-! ## A decoded round -/

structure FighterState where
  wallet : Pubkey
  side : ℕ
  dead : Bool
  stake : ℤ
  hp : ℤ
  banked : ℤ

structure RoundState where
  winner : ℕ
  tickCount : ℤ
  pot : ℤ
  penaltiesCollected : ℤ
  feesCollected : ℤ
  seed : List UInt8
  fighters : List FighterState

def toPlainFighter (f : Chain.Fighter) : FighterState :=
  ⟨f.wallet, f.side.toNat, f.dead != 0, f.stake, f.hp, f.banked⟩

def toPlainRound (raw : Chain.RoundState) : RoundState where
  winner := raw.winner.toNat
  tickCount := raw.tickCount
  pot := raw.pot
  penaltiesCollected := raw.penaltiesCollected
  feesCollected := raw.feesCollected
  seed := raw.seed.toList
  fighters := (raw.fighters.toList.take raw.fighterCount).map toPlainFighter

/-! ## The replay -/

structure HitEventEntry where
  wallet : String
  side : ℕ
  stake : ℤ

def buildRoundFromEntries (seed : List UInt8) (entries : List HitEventEntry) : ERRound :=
  entries.foldl (fun round e => { round with
    fighters := round.fighters ++ [⟨e.wallet, e.side, 0, e.stake, e.stake, 0⟩]
    pot := round.pot + e.stake }) (newRound seed)

section
variable (sha256 : List UInt8 → Bytes32)

def computeHitEvents (round : ERRound) (steps : ℕ) : Except JsError (ERRound × List HitEvent) :=
  ErDemo.tick sha256 round steps

def runFullFight (seed : List UInt8) (entries : List HitEventEntry) (steps : ℕ) :
    Except JsError (ERRound × List HitEvent) :=
  computeHitEvents sha256 (buildRoundFromEntries seed entries) steps

end

/-! ## The verdict -/

inductive VerifyVerdict where
  | verified
  | extractionLikely
  | mismatch
deriving DecidableEq

structure Compared where
  hp : ℤ
  banked : ℤ
  dead : Bool
deriving DecidableEq

structure FighterComparison where
  wallet : String
  side : ℕ
  onChain : Compared
  recomputed : Compared
  sameState : Bool
  extractionSignature : Bool

structure VerifyResult where
  verdict : VerifyVerdict
  steps : ℕ
  winnerOnChain : ℕ
  winnerRecomputed : ℕ
  winnerMatches : Bool
  fighters : List FighterComparison
  potOnChain : ℤ
  potRecordedOnChain : ℤ
  potMatchesStakesOnChain : Bool
  totalValueOnChain : ℤ
  penaltiesCollectedOnChain : ℤ
  feesCollectedOnChain : ℤ
  houseTookOnChain : ℤ
  grossDepositsOnChain : ℤ
  conservationHoldsOnChain : Bool

def isOutOfPlay (f : Compared) : Bool := f.dead && f.hp == 0

/-- `Map.get` on `new Map(entries)`: of two entries with one key the later stands. -/
def mapGet {α : Type} (entries : List (String × α)) (key : String) : Option α :=
  (entries.reverse.find? fun e => e.1 == key).map Prod.snd

def fighterKey (wallet : String) (side : ℕ) : String := wallet ++ ":" ++ toString side

section
variable (toBase58 : Pubkey → String)

def compareFighter (recomputedByKey : List (String × ERFighter)) (f : FighterState) : FighterComparison :=
  let r := mapGet recomputedByKey (fighterKey (toBase58 f.wallet) f.side)
  let recomputedState : Compared :=
    ⟨(r.map ERFighter.hp).getD 0, (r.map ERFighter.banked).getD 0, r.map ERFighter.dead == some 1⟩
  let onChainState : Compared := ⟨f.hp, f.banked, f.dead⟩
  let sameState := onChainState.hp == recomputedState.hp && onChainState.banked == recomputedState.banked
    && onChainState.dead == recomputedState.dead
  ⟨toBase58 f.wallet, f.side, onChainState, recomputedState, sameState,
    !sameState && isOutOfPlay onChainState⟩

def verifyRound (sha256 : List UInt8 → Bytes32) (round : RoundState) : Except JsError VerifyResult := do
  let entries : List HitEventEntry := round.fighters.map fun f => ⟨toBase58 f.wallet, f.side, f.stake⟩
  -- `Number(tickCount)`, of a decoded u64
  let steps := Number.ofNat round.tickCount.toNat
  let (recomputed, _) ← runFullFight sha256 round.seed entries steps
  let winnerRecomputed := (settle recomputed).2
  let potOnChain := round.fighters.foldl (fun sum f => sum + f.stake) 0
  let potMatchesStakesOnChain := round.pot == potOnChain
  let totalValueOnChain := round.fighters.foldl (fun sum f => sum + f.hp + f.banked) 0
  let houseTookOnChain := round.penaltiesCollected + round.feesCollected
  let grossDepositsOnChain := potOnChain + round.feesCollected
  let conservationHoldsOnChain := totalValueOnChain + houseTookOnChain == grossDepositsOnChain
  let recomputedByKey := recomputed.fighters.map fun f => (fighterKey f.wallet f.side, f)
  let fighters := round.fighters.map (compareFighter toBase58 recomputedByKey)
  let winnerOnChain := if round.winner = 1 then 1 else 0
  let winnerMatches := winnerOnChain == winnerRecomputed
  let allFightersMatch := fighters.all FighterComparison.sameState
  let anyExtractionSignature := fighters.any FighterComparison.extractionSignature
  let verdict : VerifyVerdict :=
    if winnerMatches && allFightersMatch then .verified
    else if conservationHoldsOnChain && potMatchesStakesOnChain && anyExtractionSignature then
      .extractionLikely
    else .mismatch
  pure {
    verdict, steps, winnerOnChain, winnerRecomputed, winnerMatches, fighters, potOnChain
    potRecordedOnChain := round.pot
    potMatchesStakesOnChain, totalValueOnChain
    penaltiesCollectedOnChain := round.penaltiesCollected
    feesCollectedOnChain := round.feesCollected
    houseTookOnChain, grossDepositsOnChain, conservationHoldsOnChain }

end

end BullsUnicorns.Mirror

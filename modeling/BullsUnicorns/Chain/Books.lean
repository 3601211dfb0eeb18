import BullsUnicorns.Chain.Rules
import BullsUnicorns.Lib.Word

/-!
# The books

The functions that move the money totals, with every way they refuse: an entry, the refund of a round
that never happened, the sweep of a finished one, and the conditions on closing an account.
-/

namespace BullsUnicorns.Chain

open Word

inductive ArenaError where
  | feeTooHigh
  | roundOutOfOrder
  | notInLobby
  | notFighting
  | notSettled
  | badSide
  | zeroStake
  | roundFull
  | badStepCount
  | notDrawing
  | notEnoughFighters
  | nothingToExtract
  | mathOverflow
  | fightNotOverYet
  | lobbyClosed
  | lobbyStillOpen
  | lobbyNotAbandonable
  | roundNotTerminal
  | alreadySwept
  | notTheAuthority
  | roundNotSwept
  | roundTooRecent
  | fightBehind
  | conservationBroken
deriving DecidableEq

structure Treasury where
  feesAccrued : ℕ
  penaltiesAccrued : ℕ
  roundsSwept : ℕ
deriving DecidableEq

/-- No authority account asks for nothing; a wrong one is an error. -/
def authorityCloseRequested (supplied : Option Pubkey) (arenaAuthority : Pubkey) :
    Except ArenaError Bool :=
  match supplied with
  | none => .ok false
  | some key => if key = arenaAuthority then .ok true else .error .notTheAuthority

/-- The entrant's slot: topped up when the wallet is on that side already, else a new one. -/
def seatEntry (r : RoundState) (who : Pubkey) (side : UInt8) (net : ℕ) :
    Except ArenaError RoundState :=
  match Prefix.find (fun f => f.wallet == who && f.side == side) r.fighters r.fighterCount with
  | some i => do
      let f := r.fighters[i]
      let stake ← okOr (checkedAdd 64 f.stake net) .mathOverflow
      let hp ← okOr (checkedAdd 64 f.hp net) .mathOverflow
      pure { r with fighters := r.fighters.set i { f with stake, hp } }
  | none =>
      if h : r.fighterCount < maxFighters then
        let f : Fighter := ⟨who, net, net, 0, side, 0⟩
        .ok { r with
          fighters := r.fighters.set r.fighterCount f
          fighterCount := r.fighterCount + 1 }
      else .error .roundFull

def creditEntry (r : RoundState) (who : Pubkey) (side : UInt8) (stake feeBps : ℕ) :
    Except ArenaError (RoundState × ℕ × ℕ) := do
  let net := (splitEntry stake feeBps).1
  let fee := (splitEntry stake feeBps).2
  let r ← seatEntry r who side net
  let pot ← okOr (checkedAdd 64 r.pot net) .mathOverflow
  let feesCollected ← okOr (checkedAdd 64 r.feesCollected fee) .mathOverflow
  pure ({ r with pot, feesCollected }, net, fee)

/-- Give back the entry fee of a round that never happened; answers what was refunded. -/
def refundAbandonedEntry (r : RoundState) : Except ArenaError (RoundState × ℕ) := do
  require (enoughToFight r.fighterCount = false) .lobbyNotAbandonable
  let fee := r.feesCollected
  if fee = 0 then
    pure (r, 0)
  else
    require (r.fighterCount = 1) .conservationBroken
    let f := r.fighters[0]
    let stake ← okOr (checkedAdd 64 f.stake fee) .mathOverflow
    let hp ← okOr (checkedAdd 64 f.hp fee) .mathOverflow
    let pot ← okOr (checkedAdd 64 r.pot fee) .mathOverflow
    pure ({ r with
      fighters := r.fighters.set 0 { f with stake, hp }
      pot
      feesCollected := 0 }, fee)

/-- Add a finished round's take to the treasury, once; answers what the round contributed. -/
def applySweep (r : RoundState) (t : Treasury) :
    Except ArenaError (RoundState × Treasury × ℕ × ℕ) := do
  require r.phase.terminal .roundNotTerminal
  require (r.isSwept = false) .alreadySwept
  require (r.conserves = true) .conservationBroken
  let r := { r with houseSwept := 1 }
  let feesAccrued ← okOr (checkedAdd 64 t.feesAccrued r.feesCollected) .mathOverflow
  let penaltiesAccrued ← okOr (checkedAdd 64 t.penaltiesAccrued r.penaltiesCollected) .mathOverflow
  let roundsSwept ← okOr (checkedAdd 64 t.roundsSwept 1) .mathOverflow
  pure (r, ⟨feesAccrued, penaltiesAccrued, roundsSwept⟩, r.feesCollected, r.penaltiesCollected)

def checkClosePermitted (r : RoundState) (arenaRoundCounter : ℕ) : Except ArenaError Unit := do
  require r.phase.terminal .roundNotTerminal
  require (r.isSwept = true) .roundNotSwept
  require ((checkedAdd 64 r.roundNo minRetainedRounds).any (· ≤ arenaRoundCounter) = true)
    .roundTooRecent

end BullsUnicorns.Chain

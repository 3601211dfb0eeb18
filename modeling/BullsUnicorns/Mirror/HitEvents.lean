import BullsUnicorns.Mirror.VerifyRound

/-!
# The exchanges of a fight as a list

The rest of `er-demo/src/sim/hitEvents.ts`, with the observer of `tick` and the `extract` of
`erSim.ts`. The canvas reads a fight off this list alone.
-/

namespace BullsUnicorns.Mirror

open Chain (Bytes32)

/-! ## Leaving the ring -/

structure Extraction where
  taken : ℤ
  kept : ℤ
  penalty : ℤ
deriving DecidableEq

/-- The slot `extract` empties for a wallet. -/
def leaver (fighters : List ERFighter) (wallet : String) : Option ℕ :=
  fighters.findIdx? fun x => x.wallet = wallet ∧ x.dead = 0 ∧ x.hp > 0

def ERFighter.leaves (f : ERFighter) (kept : ℤ) : ERFighter :=
  { f with banked := f.banked + kept, hp := 0, dead := 1 }

def extract (round : ERRound) (wallet : String) : Except JsError (ERRound × Extraction) :=
  match leaver round.fighters wallet with
  | none => .error (.error "NothingToExtract")
  | some i => do
      let f ← slot round.fighters i
      let taken := f.hp
      let (kept, penalty) := splitExtraction taken round.fighters.length round.tickCount
      pure ({ round with
        fighters := round.fighters.set i (f.leaves kept)
        penaltiesCollected := round.penaltiesCollected + penalty }, ⟨taken, kept, penalty⟩)

/-- What stands after `extract`, whether it threw or not. -/
def afterExtract (round : ERRound) (wallet : String) : ERRound :=
  match extract round wallet with
  | .ok (out, _) => out
  | .error _ => round

/-! ## The observer -/

section
variable (sha256 : List UInt8 → Bytes32)

/-- In place: what is written to the defender is there when the attacker's slot is the same one. -/
def applyHitEvent (fighters : List ERFighter) (event : HitEvent) :
    Except JsError (List ERFighter) := do
  let defender ← slot fighters event.defenderId
  let fighters := fighters.set event.defenderId { defender with hp := defender.hp - event.amount }
  let attacker ← slot fighters event.attackerId
  let fighters :=
    fighters.set event.attackerId { attacker with banked := attacker.banked + event.amount }
  let defender ← slot fighters event.defenderId
  if defender.hp = 0 then pure (fighters.set event.defenderId { defender with dead := 1 })
  else pure fighters

/-! ## A fight with players leaving it, and its list played back -/

inductive Move where
  | run (steps : ℕ)
  | leave (wallet : String)

/-- An entry of the list: an exchange, or a call of `extract` with the cursor it was made at. -/
inductive Told where
  | hit (event : HitEvent)
  | left (wallet : String) (cursor : ℤ)
deriving DecidableEq

end

/-- The same `extract` on a copy of the fighters. -/
def leaveCopy (fighters : List ERFighter) (wallet : String) (cursor : ℤ) : List ERFighter :=
  (afterExtract { newRound [] with fighters := fighters, tickCount := cursor } wallet).fighters

def Told.apply (fighters : List ERFighter) : Told → Except JsError (List ERFighter)
  | .hit event => applyHitEvent fighters event
  | .left wallet cursor => .ok (leaveCopy fighters wallet cursor)

def playBack (fighters : List ERFighter) (told : List Told) : Except JsError (List ERFighter) :=
  told.foldlM Told.apply fighters

end BullsUnicorns.Mirror

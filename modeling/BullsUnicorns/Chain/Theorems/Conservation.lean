import BullsUnicorns.Chain.Lemmas.Clock

/-!
# Conservation

Every round the program can produce adds up, so nothing in its arithmetic is ever clipped.
-/

namespace BullsUnicorns.Chain

open Word Replay

/-! ## The loops, reporting a truncation

The fight and the verdict with every saturating addition and subtraction replaced by one that answers
`none` where the saturating one would clip.
-/

def tradeChecked (h : Bytes32) (n : ℕ) (fighters : Vector Fighter maxFighters) :
    Option (Vector Fighter maxFighters) :=
  let a := (drawPair h n).1
  let d := (drawPair h n).2
  if ha : a < maxFighters then
    if hd : d < maxFighters then
      let att := fighters[a]
      let dfd := fighters[d]
      if mayStrike att dfd then
        let dmg := blow att dfd (rollOf h)
        if dmg = 0 then some fighters
        else do
          let hp ← checkedSub dfd.hp dmg
          let banked ← checkedAdd 64 att.banked dmg
          some ((fighters.set d { dfd with hp, dead := if hp = 0 then 1 else dfd.dead }).set a
            { att with banked })
      else some fighters
    else some fighters
  else some fighters

section
variable (sha256 : List UInt8 → Bytes32)

def exchangeChecked (seed : Bytes32) (n step : ℕ) (fighters : Vector Fighter maxFighters) :
    Option (Vector Fighter maxFighters) :=
  tradeChecked (hashv sha256 [seed.toList, u64ToLeBytes step]) n fighters

def advanceFightChecked (fighters : Vector Fighter maxFighters) (n : ℕ) (seed : Bytes32)
    (cursor steps : ℕ) : Option (Vector Fighter maxFighters) :=
  if n < 2 then some fighters
  else do
    let stop ← checkedAdd 64 cursor steps
    iterFrom (fun step fs => fs.bind (exchangeChecked sha256 seed n step)) cursor (stop - cursor)
      (some fighters)

def tallyChecked (v : ℕ × ℕ) (f : Fighter) : Option (ℕ × ℕ) := do
  let x ← checkedAdd 64 f.hp f.banked
  if f.side = 0 then
    let a ← checkedAdd 64 v.1 x
    some (a, v.2)
  else
    let b ← checkedAdd 64 v.2 x
    some (v.1, b)

def settleSidesChecked (fighters : Vector Fighter maxFighters) (n : ℕ) : Option UInt8 := do
  let v ← (fighters.toList.take n).foldlM tallyChecked (0, 0)
  some (if v.1 ≥ v.2 then 0 else 1)

def catchUpChecked (r : RoundState) (now : ℤ) (limit : ℕ) : Option (RoundState × ℕ) :=
  let n := r.fighterCount
  if n < 2 then some (r, 0)
  else
    let target := canonicalCursor r.fightStartedAt n now
    if target ≤ r.tickCount then some (r, 0)
    else do
      let steps := min (target - r.tickCount) limit
      let fighters ← advanceFightChecked sha256 r.fighters n r.seed r.tickCount steps
      some ({ r with fighters, tickCount := r.tickCount + steps }, steps)

end

section
variable {sha256 : List UInt8 → Bytes32} {seed : Bytes32} {n : ℕ} {r : RoundState}

theorem tradeChecked_eq (h : Bytes32) (hn : 2 ≤ n) (hk : n ≤ maxFighters)
    {fs : Vector Fighter maxFighters} (hfit : Prefix.sum Fighter.holds fs n < 2 ^ 64) :
    tradeChecked h n fs = some (trade h n fs) := by
  obtain ⟨ha, hd, hne⟩ := drawPair_lt h hn
  have hia : (drawPair h n).1 < maxFighters := by omega
  have hid : (drawPair h n).2 < maxFighters := by omega
  have hle : blow fs[(drawPair h n).1] fs[(drawPair h n).2] (rollOf h) ≤ fs[(drawPair h n).2].hp :=
    blow_rollOf_le _ _ h
  have hfits : fs[(drawPair h n).1].banked +
      blow fs[(drawPair h n).1] fs[(drawPair h n).2] (rollOf h) < 2 ^ 64 :=
    raid_fits hk ha hd hne hfit hle
  simp only [tradeChecked, trade, dif_pos (And.intro hia hid), dif_pos hia, dif_pos hid,
    checkedSub_of_le hle, checkedAdd_of_lt hfits,
    Option.bind_eq_bind, Option.bind_some, Fighter.struck, Fighter.raids, satSub, satAdd_of_lt hfits]
  split
  · split
    · rfl
    · rfl
  · rfl

theorem advanceFightChecked_eq (hk : n ≤ maxFighters) {fs : Vector Fighter maxFighters}
    (hfit : Prefix.sum Fighter.holds fs n < 2 ^ 64) {cursor steps : ℕ} (hc : cursor + steps < 2 ^ 64) :
    advanceFightChecked sha256 fs n seed cursor steps =
      some (advanceFight sha256 fs n seed cursor steps) := by
  unfold advanceFightChecked advanceFight
  split
  · rfl
  · rename_i hn
    rw [checkedAdd_of_lt hc, satAdd_of_lt hc, Option.bind_eq_bind, Option.bind_some]
    refine (iterFrom_simulation (R := fun o gs => o = some gs ∧ Prefix.sum Fighter.holds gs n < 2 ^ 64)
      ?_ ⟨rfl, hfit⟩).1
    rintro j _ gs - - ⟨rfl, hgs⟩
    exact ⟨tradeChecked_eq _ (by omega) hk hgs,
      (exchange_held (by omega) hk j hgs).trans_lt hgs⟩

theorem foldlM_tallyChecked (fs : List Fighter) (v : ℕ × ℕ)
    (hfit : v.1 + v.2 + (fs.map Fighter.holds).sum < 2 ^ 64) :
    fs.foldlM tallyChecked v = some (fs.foldl tally v) := by
  induction fs generalizing v with
  | nil => rfl
  | cons f fs ih =>
      simp only [List.map_cons, List.sum_cons, Fighter.holds] at hfit
      have hx : satAdd 64 f.hp f.banked = f.hp + f.banked := satAdd_of_lt (by omega)
      have ht : tallyChecked v f = some (tally v f) := by
        simp only [tallyChecked, tally, checkedAdd_of_lt (show f.hp + f.banked < 2 ^ 64 by omega), hx,
          Option.bind_eq_bind, Option.bind_some]
        split
        · rw [checkedAdd_of_lt (by omega), satAdd_of_lt (by omega), Option.bind_some]
        · rw [checkedAdd_of_lt (by omega), satAdd_of_lt (by omega), Option.bind_some]
      rw [List.foldlM_cons, ht, Option.bind_eq_bind, Option.bind_some, List.foldl_cons]
      refine ih _ ?_
      simp only [tally, hx]
      split
      · simp only [satAdd_of_lt (show v.1 + (f.hp + f.banked) < 2 ^ 64 by omega)]; omega
      · simp only [satAdd_of_lt (show v.2 + (f.hp + f.banked) < 2 ^ 64 by omega)]; omega

theorem settleSidesChecked_eq {fs : Vector Fighter maxFighters}
    (hfit : Prefix.sum Fighter.holds fs n < 2 ^ 64) :
    settleSidesChecked fs n = some (settleSides fs n) := by
  rw [settleSidesChecked, foldlM_tallyChecked _ _ (by simpa [Prefix.sum] using hfit)]
  rfl

theorem catchUpChecked_eq (hi : Inv r) (now : ℤ) (limit : ℕ) :
    catchUpChecked sha256 r now limit = some (catchUp sha256 r now limit) := by
  have hlt := canonicalCursor_lt r.fightStartedAt now r.fighterCount
  simp only [catchUpChecked, catchUp]
  split
  · rfl
  · split
    · rfl
    · rw [advanceFightChecked_eq hi.lineup.count_le hi.balanced.held_lt (by omega)]
      rfl

theorem catchUp_held (hi : Inv r) (now : ℤ) (limit : ℕ) :
    (catchUp sha256 r now limit).1.held = r.held := by
  by_cases hn : r.fighterCount < 2
  · simp [catchUp, hn]
  · rw [catchUp_eq]
    exact advanced_held (by omega) hi.lineup.count_le hi.balanced.held_lt _

end

/-! ## What was paid at the door -/

def RoundCall.gross : RoundCall → ℕ
  | .ix _ _ (.enter _ _ stake) => stake.toNat
  | _ => 0

def grossPaid (log : List (RoundCall × Option Event)) : ℕ := (log.map fun x => x.1.gross).sum

section
variable {sha256 : List UInt8 → Bytes32} {r r' : RoundState} {c : RoundCall} {e : Option Event}

theorem gross_step (h : Effect sha256 r c r' e) :
    r'.pot + r'.feesCollected = r.pot + r.feesCollected + c.gross := by
  cases h with
  | @topUp now arena who side stake net fee i ok split live seat pot fees =>
      have ha := splitEntry_add stake.toNat arena.feeBps.property
      rw [split] at ha
      simp only [RoundCall.gross] at *
      omega
  | @join now arena who side stake net fee ok split fresh pot fees =>
      have ha := splitEntry_add stake.toNat arena.feeBps.property
      rw [split] at ha
      simp only [RoundCall.gross] at *
      omega
  | draw lobby permitted enough => rfl
  | seed drawing => rfl
  | tick ok ran => rfl
  | grind ok ran standing behind => rfl
  | settle ok ran ended => rfl
  | extract phase ran upToDate found split banked penalties => rfl
  | abandon lobby late few free => rfl
  | refund lobby late one pot => rfl
  | close settled => rfl
  | sweep terminal unswept conserves fees penalties rounds => rfl

theorem gross_run (h₀ : r.pot = 0 ∧ r.feesCollected = 0) (calls : List RoundCall) :
    ((roundMachine sha256).run r calls).pot + ((roundMachine sha256).run r calls).feesCollected =
      grossPaid ((roundMachine sha256).accepted r calls) := by
  refine Machine.run_history (m := roundMachine sha256)
    (H := fun log (s : RoundState) => s.pot + s.feesCollected = grossPaid log) ?_ (h := [])
    (by simp [h₀, grossPaid]) calls
  intro log s c s' e hs h
  rw [gross_step (step_effect h), hs]
  simp [grossPaid]

/-- The books in their gross form: what the players hold and what the house took is what was paid. -/
theorem gross_books (hi : Inv r) {gross : ℕ} (h : r.grossDeposits = some gross) :
    ∃ held took, r.playersHold = some held ∧ r.houseTook = some took ∧ held + took = gross := by
  have hring := hi.balanced.ring
  obtain ⟨hfit, rfl⟩ := checkedAdd_eq_some.mp h
  refine ⟨r.held, r.penaltiesCollected + r.feesCollected, ?_, ?_, by omega⟩
  · exact RoundState.playersHold_eq_some.mpr ⟨hi.lineup.count_le, hi.balanced.held_lt, rfl⟩
  · exact checkedAdd_of_lt (by omega)

end

/-- The money of a round adds up after every run, and the sweep never finds otherwise. -/
theorem conservation (sha256 : List UInt8 → Bytes32) (opened : ℤ) (roundNo : ℕ)
    (seedCommit : Bytes32) (lobbySeconds : UInt32) (calls : List RoundCall) :
    let m := roundMachine sha256
    let r₀ := openedRound opened roundNo seedCommit lobbySeconds
    let r := m.run r₀ calls
    r.conserves = true ∧
    Prefix.sum (fun f => f.hp + f.banked) r.fighters r.fighterCount + r.penaltiesCollected = r.pot ∧
    Prefix.sum (fun f => f.stake) r.fighters r.fighterCount = r.pot ∧
    r.pot + r.feesCollected = grossPaid (m.accepted r₀ calls) ∧
    (∀ now limit, catchUpChecked sha256 r now limit = some (catchUp sha256 r now limit)) ∧
    settleSidesChecked r.fighters r.fighterCount = some (settleSides r.fighters r.fighterCount) ∧
    (∀ now limit, let s := (catchUp sha256 r now limit).1
      settleSidesChecked s.fighters s.fighterCount = some (settleSides s.fighters s.fighterCount)) ∧
    ∀ t, applySweep r t ≠ .error .conservationBroken := by
  intro m r₀ r
  have hi : Inv r := inv_reachable opened roundNo seedCommit lobbySeconds calls
  have hc : r.conserves = true :=
    (RoundState.conserves_iff hi.balanced.pot_lt).mpr ⟨hi.lineup.count_le, hi.balanced.ring⟩
  refine ⟨hc, hi.balanced.ring, hi.balanced.stakes, gross_run ⟨rfl, rfl⟩ calls, catchUpChecked_eq hi,
    settleSidesChecked_eq hi.balanced.held_lt, ?verdict, ?sweep⟩
  case verdict =>
    intro now limit s
    exact settleSidesChecked_eq ((catchUp_held hi now limit).trans_lt hi.balanced.held_lt)
  case sweep =>
    intro t h
    simp [applySweep, bind_eq_error, hc, pure, Except.pure] at h

end BullsUnicorns.Chain

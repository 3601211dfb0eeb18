import BullsUnicorns.Engine.Arenas
import BullsUnicorns.Engine.Ledger
import BullsUnicorns.Lib.Machine
import BullsUnicorns.Lib.OrderedMap

/-!
# The books against the chain

`recover-float.ts`: the two corrections of the house float. One credits the pool with what the vault holds
and no account owns, the other writes off what the pool claims and the vault does not hold. Amounts are exact.
-/

namespace BullsUnicorns.Engine

/-- Why nothing was moved, with the figures of the text. -/
inductive Reason where
  | noPoolWallets
  /-- `chain holds … but players are owed …` -/
  | owed (chainHeld player : ℚ)
  /-- `INSOLVENT: ledger … > backing …` -/
  | insolvent (house target : ℚ)
  | alreadyInSync
  /-- `gap … below minimum …` -/
  | belowMinimum (gap minGap : ℚ)
  | noChainReading
  /-- `no excess (claimed … vs chain …)` -/
  | noExcess (claimed chainHeld : ℚ)
  /-- `REFUSED: players owed … exceed chain …` -/
  | realShortfall (player chainHeld : ℚ)
  /-- `REFUSED: excess … exceeds pool holdings …` -/
  | exceedsPool (excess poolHeld : ℚ)
  /-- `REFUSED: excess … is …% of house float` -/
  | tooLarge (excess percent : ℚ)
deriving DecidableEq

/-- `moved` or `wrote`, with the house float before and after. -/
structure Correction where
  moved : ℚ
  fromHouse : ℚ
  toHouse : ℚ
  reason : Option Reason
deriving DecidableEq

section
variable (pool : List String) (l : Ledger) (f : Field)

def poolAccts : List Account := l.values.filter fun a => pool.contains a.id

/-- What the pool wallets and the other house accounts hold. -/
def houseFloat : ℚ := ((l.values.filter fun a => pool.contains a.id || a.isBot).map (·.bal f)).sum

/-- What players are owed. -/
def playersOwed : ℚ := ((l.values.filter fun a => !(pool.contains a.id || a.isBot)).map (·.bal f)).sum

def poolHeld : ℚ := ((poolAccts pool l).map (·.bal f)).sum

/-- Set one field of every pool wallet. -/
def setPool (g : ℚ → ℚ) : Ledger :=
  l.map fun a => if pool.contains a.id then { a with bal := Function.update a.bal f (g (a.bal f)) } else a

/-- Credit the pool, in equal parts, with what the vault holds beyond what is owed and staked. -/
def resyncPoolToChain (chainHeld minGap openStake : ℚ) : Ledger × Correction :=
  let house := houseFloat pool l f
  let player := playersOwed pool l f
  let refuse := fun reason => (l, (⟨0, house, house, some reason⟩ : Correction))
  if (poolAccts pool l).length = 0 then refuse .noPoolWallets
  else
    let target := chainHeld - player - openStake
    if ¬ 0 < target then refuse (.owed chainHeld player)
    else
      let gap := target - house
      if gap ≤ 1 / 10000 then refuse (if gap < -(1 / 10000) then .insolvent house target else .alreadyInSync)
      else if gap < minGap then refuse (.belowMinimum gap minGap)
      else
        let each := gap / (poolAccts pool l).length
        (setPool pool l f (· + each), ⟨gap, house, house + gap, none⟩)

/-- `opts` of the write-down; nothing is the default. -/
structure WriteDownOpts where
  maxFrac : Option ℚ
  minExcess : Option ℚ
deriving DecidableEq

def WriteDownOpts.frac (opts : WriteDownOpts) : ℚ := opts.maxFrac.getD (1 / 4)

def WriteDownOpts.least (opts : WriteDownOpts) : ℚ := opts.minExcess.getD 0

/-- What the books claim beyond the chain. -/
def excessOf (chainHeld openStake : ℚ) : ℚ := houseFloat pool l f + playersOwed pool l f + openStake - chainHeld

/-- Write off what the books claim beyond the chain, from each pool wallet in proportion. Of a pool that
holds nothing there is no proportion: its balances become `NaN`, and there is no ledger. -/
def writeDownOverclaim (chainHeld openStake : ℚ) (opts : WriteDownOpts) : Option (Ledger × Correction) :=
  let house := houseFloat pool l f
  let player := playersOwed pool l f
  let refuse := fun reason => some (l, (⟨0, house, house, some reason⟩ : Correction))
  if (poolAccts pool l).length = 0 then refuse .noPoolWallets
  else if ¬ 0 < chainHeld then refuse .noChainReading
  else
    let excess := excessOf pool l f chainHeld openStake
    if excess ≤ opts.least then refuse (.noExcess (house + player + openStake) chainHeld)
    else if chainHeld < player then refuse (.realShortfall player chainHeld)
    else
      let held := poolHeld pool l f
      if held < excess then refuse (.exceedsPool excess held)
      else if 0 < house ∧ opts.frac < excess / house then refuse (.tooLarge excess (excess / house * 100))
      else if held = 0 then none
      else some (setPool pool l f fun x => max 0 (x - excess * (x / held)), ⟨excess, house, house - excess, none⟩)

end

end BullsUnicorns.Engine

/-!
## The solvency guard

`reconcile.ts`: a cycle takes the liabilities and the SOL price, reads the vault, and compares. Cycles run
beside each other: each waits for its reads, and the last of them ends it. Amounts are exact, hence finite.
-/

namespace BullsUnicorns.Engine

/-- `ENFORCE`, whether both mints are configured, and the decimals of a token. -/
structure ReconcileEnv where
  enforce : Bool
  chainReady : Bool
  DECIMALS : ℕ

/-! ## The comparison -/

structure Row where
  asset : Field
  liability : ℚ
  holdings : ℚ
  unpriced : Bool
  unit : String
deriving DecidableEq

structure AssetRecon where
  asset : Field
  liability : ℚ
  holdings : ℚ
  ok : Bool
  shortfall : ℚ
  unpriced : Bool
  unit : String
deriving DecidableEq

structure ReconReport where
  at' : ℚ
  ok : Bool
  assets : List AssetRecon
  skipped : Option String
deriving DecidableEq

def EPS : ℚ := 1 / 10000

def evaluateRow (r : Row) : AssetRecon :=
  if r.unpriced then ⟨r.asset, 0, r.holdings, true, 0, true, r.unit⟩
  else
    let shortfall := max 0 (r.liability - r.holdings)
    ⟨r.asset, r.liability, r.holdings, shortfall ≤ EPS, shortfall, false, r.unit⟩

def evaluate (rows : List Row) (now : ℚ) : ReconReport :=
  let assets := rows.map evaluateRow
  ⟨now, assets.all (·.ok), assets, none⟩

/-! ## A cycle -/

/-- Whole tokens of two kinds, and SOL in dollars. -/
structure Liabilities where
  bull : ℚ
  uwu : ℚ
  solUsd : ℚ
deriving DecidableEq

/-- What the node answers in the end, after the retries. -/
abbrev Rpc := Except String ℕ

/-- A cycle that waits: what it took at its start, and how its reads have ended so far. -/
structure Cycle where
  L : Liabilities
  px : Option ℚ
  reads : List Rpc

/-- `catch { return 0; }` -/
def solBalance : Rpc → Except String ℚ
  | .ok lamports => .ok (lamports / 10 ^ 9)
  | .error _ => .ok 0

def vaultTokenBalance (env : ReconcileEnv) : Rpc → Except String ℚ
  | .ok amount => .ok (amount / 10 ^ env.DECIMALS)
  | .error _ => .ok 0

/-- `px > 0`, with the price. -/
def priced (px : Option ℚ) : Option ℚ := px.filter fun p => 0 < p

/-- SOL owed in dollars against SOL held; without a price it cannot be compared. -/
def solRow (c : Cycle) (held : ℚ) : Row :=
  match priced c.px with
  | none => if 0 < c.L.solUsd then ⟨.sol, c.L.solUsd, held, true, "SOL"⟩ else ⟨.sol, 0, held, false, "SOL"⟩
  | some p => ⟨.sol, c.L.solUsd / p, held, false, "SOL"⟩

/-- The rows once the last read has ended, or the error of one; nothing while one is awaited. -/
def Cycle.rows (env : ReconcileEnv) (c : Cycle) : Option (Except String (List Row)) :=
  match c.reads with
  | [] => none
  | sol :: tokens =>
    match solBalance sol with
    | .error e => some (.error e)
    | .ok held =>
      if !env.chainReady then some (.ok [solRow c held])
      else match tokens with
        | [] => none
        | bull :: rest =>
          match vaultTokenBalance env bull with
          | .error e => some (.error e)
          | .ok bullHeld =>
            match rest with
            | [] => none
            | uwu :: _ =>
              match vaultTokenBalance env uwu with
              | .error e => some (.error e)
              | .ok uwuHeld => some (.ok [solRow c held, ⟨.bull, c.L.bull, bullHeld, false, "BULL"⟩,
                  ⟨.uwu, c.L.uwu, uwuHeld, false, "UWU"⟩])

/-! ## The daemon -/

/-- The lines of the console, with the assets they name. -/
inductive ReconLog where
  | unbacked (bad : List AssetRecon)
  | breach (bad : List AssetRecon)
  | healthyAgain

structure Recon where
  frozen : Bool
  last : Option ReconReport
  warnedTestChain : Bool
  cycles : OrderedMap ℕ Cycle
  started : ℕ

def Recon.boot : Recon := ⟨false, none, false, OrderedMap.empty, 0⟩

/-- The end of a cycle whose rows are there: the flag follows the report. -/
def Recon.conclude (env : ReconcileEnv) (s : Recon) (rows : List Row) (now : ℚ) : Recon × Option ReconLog :=
  let report := evaluate rows now
  let s := { s with last := some report }
  let bad := report.assets.filter fun a => !a.ok
  if !report.ok && !env.enforce then
    if s.warnedTestChain then (s, none) else ({ s with warnedTestChain := true }, some (.unbacked bad))
  else if !report.ok && !s.frozen then ({ s with frozen := true }, some (.breach bad))
  else if report.ok && s.frozen then ({ s with frozen := false }, some .healthyAgain)
  else (s, none)

/-- The end of a cycle that threw: skipped, with the figures of the last report. -/
def Recon.skip (s : Recon) (message : String) (now : ℚ) : Recon :=
  { s with last := some ⟨now, (s.last.map (·.ok)).getD true, (s.last.map (·.assets)).getD [], some message⟩ }

/-- `runOnce` is called, or the node ends a read that a cycle waits for. -/
inductive ReconAct where
  | start (L : Liabilities) (px : Option ℚ)
  | settle (id : ℕ) (rpc : Rpc) (now : ℚ)

/-- The cycle that an act has ended, with its number, and the line it wrote. -/
structure ReconOut where
  finished : Option (ℕ × Cycle)
  log : Option ReconLog

def Recon.settle (env : ReconcileEnv) (s : Recon) (id : ℕ) (c : Cycle) (now : ℚ) : Recon × ReconOut :=
  match c.rows env with
  | none => ({ s with cycles := s.cycles.set id c }, ⟨none, none⟩)
  | some (.error e) => ({ s.skip e now with cycles := s.cycles.delete id }, ⟨some (id, c), none⟩)
  | some (.ok rows) =>
    let (s', log) := s.conclude env rows now
    ({ s' with cycles := s.cycles.delete id }, ⟨some (id, c), log⟩)

/-- The daemon: refused is the end of a read that no cycle waits for. -/
def reconcile (env : ReconcileEnv) : Machine Recon ReconAct ReconOut Unit where
  step s
    | .start L px =>
      .ok ({ s with cycles := s.cycles.set s.started ⟨L, px, []⟩, started := s.started + 1 }, ⟨none, none⟩)
    | .settle id rpc now =>
      match s.cycles.get id with
      | none => .error ()
      | some c => .ok (s.settle env id { c with reads := c.reads ++ [rpc] } now)

end BullsUnicorns.Engine

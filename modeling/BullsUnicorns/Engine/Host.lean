import BullsUnicorns.Engine.Convert
import BullsUnicorns.Engine.Process

/-!
# The process, its cash desk and its store

`server.ts` and `ledger.ts`: deposits, withdrawals and converts beside the rounds, the queue of snapshots, and a
shutdown and a start with the store between them. Most handlers end in `persist`, which is an event of its own here.
-/

namespace BullsUnicorns.Engine

open Battle

structure HostEnv where
  settings : Settings
  convert : ConvertEnv
  pool : convert.pool = settings.pool

/-! ## Deposits and withdrawals -/

/-- The balance that a side is deposited to and withdrawn from. -/
def sideField (side : Side) : Field := if side = .bull then .bull else .uwu

/-- A deposit of SOL that the chain bears out, in dollars at the live price. -/
def depositSol (wallet : String) (sol px : ℚ) (l : Ledger) : Ledger :=
  if px ≤ 0 then l
  else if sol ≤ 0 then l
  else
    let units := sol * px
    (acct l wallet .bull).modify wallet fun a =>
      { a.add .sol units with depIn := a.depIn + units, depInSol := a.depInSol + units }

/-- A deposit of tokens that the chain bears out. -/
def deposit (wallet : String) (side : Side) (credited : ℚ) (l : Ledger) : Ledger :=
  if credited ≤ 0 then l
  else (acct l wallet side).modify wallet fun a => { a.add (sideField side) credited with depIn := a.depIn + credited }

/-- A withdrawal that has been debited and waits for the chain. -/
structure Payout where
  wallet : String
  field : Field
  units : ℚ

def withdrawSol (isFrozen : Bool) (wallet : String) (units : Option ℚ) (px : ℚ) (l : Ledger) : Ledger × Option Payout :=
  if isFrozen ∨ px ≤ 0 then (l, none)
  else
    let l := acct l wallet .bull
    let units := min (money units) (l.bal wallet .sol)
    if units < MIN_ENTRY then (l, none) else (l.add wallet .sol (-units), some ⟨wallet, .sol, units⟩)

def withdraw (isFrozen : Bool) (wallet : String) (side : Side) (amount : Option ℚ) (l : Ledger) :
    Ledger × Option Payout :=
  if isFrozen ∨ (side ≠ .bull ∧ side ≠ .uwu) then (l, none)
  else
    let l := acct l wallet side
    let amt := min (money amount) (l.bal wallet (sideField side))
    if amt < 1 / 100 then (l, none) else (l.add wallet (sideField side) (-amt), some ⟨wallet, sideField side, amt⟩)

/-- The chain has paid. -/
def Payout.sent (p : Payout) (l : Ledger) : Ledger :=
  l.modify p.wallet fun a =>
    { a with
      wOut := a.wOut + p.units
      wOutSol := if p.field = .sol then a.wOutSol + p.units else a.wOutSol }

/-- The chain has not paid. -/
def Payout.failed (p : Payout) (l : Ledger) : Ledger := l.add p.wallet p.field p.units

/-! ## The host -/

structure Host where
  engine : State
  /-- The converts; the ledger that they work on is the engine's. -/
  desk : Desk
  payouts : List Payout
  db : Database
  /-- The snapshot that waits to be written: the accounts of these ids, as they will be then. -/
  latest : Option (List String)
  pending : Bool
  /-- The rounds that earlier processes have settled. -/
  history : List (Arena × ℕ)

namespace Host

def setLedger (h : Host) (l : Ledger) : Host := { h with engine := { h.engine with ledger := l } }

/-- A handler of a withdrawal as far as its wait. -/
def withdrawal (h : Host) (r : Ledger × Option Payout) : Host :=
  { h.setLedger r.1 with payouts := h.payouts ++ r.2.toList }

/-- The end of the wait of the `i`th withdrawal. -/
def payout (h : Host) (i : ℕ) (g : Payout → Ledger → Ledger) : Host :=
  match h.payouts[i]? with
  | some p => { h.setLedger (g p h.engine.ledger) with payouts := h.payouts.eraseIdx i }
  | none => h

/-! ### The queue of snapshots -/

/-- Queue a snapshot of the accounts that have activity. -/
def persist (h : Host) : Host :=
  { h with latest := some ((h.engine.ledger.values.filter hasActivity).map (·.id)), pending := true }

/-- A queued snapshot when it is written: it holds the accounts and the counters by reference. -/
def snapshotOf (h : Host) (ids : List String) : Snapshot :=
  ⟨ids.filterMap h.engine.ledger.get, some h.engine.roundsByArena⟩

def write (h : Host) (throws : ℕ → Bool) : Host :=
  match h.latest with
  | some ids => { h with db := writeSnapshot throws (h.snapshotOf ids) h.db }
  | none => h

/-- The timer of the queue runs out. -/
def timer (h : Host) (throws : ℕ → Bool) : Host :=
  if h.pending then { h with pending := false }.write throws else h

def flush (h : Host) (throws : ℕ → Bool) : Host := { h with pending := false }.write throws

/-! ### Shutdown and start -/

/-- A new process on what the store holds. What the vault holds stays. -/
def start (env : HostEnv) (db : Database) (b : BootDraw) (vault : Field → ℚ) (history : List (Arena × ℕ)) (e : State) :
    Host :=
  let accounts := ((loadSnapshot db).map (·.accounts)).getD []
  let engine := Engine.start env.settings accounts { e with roundsByArena := (restored db).2 } b
  { engine, desk := .boot engine.ledger vault, payouts := [], db, latest := none, pending := false, history }

/-- Every round that has been settled, by this process or an earlier one. -/
def used (h : Host) : List (Arena × ℕ) := h.history ++ h.engine.settled.map fun r => (r.arena, r.round)

/-- The process as it is when it saves for the last time. -/
def leaving (env : HostEnv) (signal : Option Quotes) (h : Host) : Host :=
  { h with engine := Engine.leaving env.settings signal h.engine }

/-- The last save, which reaches the disk. -/
def saved (h : Host) : Host := h.persist.flush fun _ => false

/-- The process goes down, by a signal or otherwise, and a new one comes up. -/
def restart (env : HostEnv) (signal : Option Quotes) (b : BootDraw) (h : Host) : Host :=
  let h := (h.leaving env signal).saved
  start env h.db b h.desk.vault h.used h.engine

/-- No process before. -/
def State.none (s : Settings) (b : BootDraw) : State where
  ledger := OrderedMap.empty
  two aid := freshLobby s.platform s.round 1 (b.lobby (.two aid))
  many aid := freshLobby s.platform s.round 1 (b.lobby (.many aid))
  seq := 0
  prices := OrderedMap.empty
  matchedBook := OrderedMap.empty
  botScanOffset := 0
  roundsByArena _ := 0
  boot := 0
  flows := []
  settled := []
  payments := []
  forgotten := []

/-- The first process, on an empty store. -/
def first (env : HostEnv) (b : BootDraw) (vault : Field → ℚ) : Host :=
  start env .empty b vault [] (State.none env.settings b)

end Host

/-! ## Events -/

inductive HostEvent where
  | serve (event : Event)
  /-- A message that opens the account of its wallet and moves nothing. -/
  | join (wallet : String) (side : Side)
  | depositSol (wallet : String) (sol px : ℚ)
  | deposit (wallet : String) (side : Side) (credited : ℚ)
  | withdrawSol (isFrozen : Bool) (wallet : String) (units : Option ℚ) (px : ℚ)
  | withdraw (isFrozen : Bool) (wallet : String) (side : Side) (amount : Option ℚ)
  | payoutSent (i : ℕ)
  | payoutFailed (i : ℕ)
  | convert (event : ConvertEvent)
  | persist
  | timer (throws : ℕ → Bool)
  | flush (throws : ℕ → Bool)
  | restart (signal : Option Quotes) (b : BootDraw)

def Host.step (env : HostEnv) (h : Host) : HostEvent → Except Unit (Host × Unit)
  -- a restart goes through the store
  | .serve (.restart _ _) => .error ()
  | .serve event => ((Engine.engine env.settings).step h.engine event).map fun r => ({ h with engine := r.1 }, ())
  | .join wallet side => .ok (h.setLedger (acct h.engine.ledger wallet side), ())
  | .depositSol wallet sol px => .ok (h.setLedger (Engine.depositSol wallet sol px h.engine.ledger), ())
  | .deposit wallet side credited => .ok (h.setLedger (Engine.deposit wallet side credited h.engine.ledger), ())
  | .withdrawSol isFrozen wallet units px =>
    .ok (h.withdrawal (Engine.withdrawSol isFrozen wallet units px h.engine.ledger), ())
  | .withdraw isFrozen wallet side amount =>
    .ok (h.withdrawal (Engine.withdraw isFrozen wallet side amount h.engine.ledger), ())
  | .payoutSent i => .ok (h.payout i Payout.sent, ())
  | .payoutFailed i => .ok (h.payout i Payout.failed, ())
  | .convert (.elsewhere _) => .error ()
  | .convert event => (Desk.step env.convert { h.desk with ledger := h.engine.ledger } event).map fun r =>
    ({ h.setLedger r.1.ledger with desk := r.1 }, ())
  | .persist => .ok (h.persist, ())
  | .timer throws => .ok (h.timer throws, ())
  | .flush throws => .ok (h.flush throws, ())
  | .restart signal b => .ok (h.restart env signal b, ())

def host (env : HostEnv) : Machine Host HostEvent Unit Unit where
  step := Host.step env

end BullsUnicorns.Engine

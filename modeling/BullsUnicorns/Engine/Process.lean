import BullsUnicorns.Engine.Teams
import BullsUnicorns.Lib.Machine

/-!
# The process

Shutdown and start of the engine, and the events that it serves while it runs.
-/

namespace BullsUnicorns.Engine

open Battle

variable (s : Settings)

/-! ## Shutdown -/

/-- The entries of the round that an arena is in: id, field and stake. -/
def State.book (e : State) : Arena → List (String × Field × ℚ)
  | .two aid => (e.two aid).state.entries.map fun en => (en.id, slotField aid en.side, en.stake)
  | .many aid => (e.many aid).state.entries.map fun en => (en.id, aid.field (teamOfEntry s en.id), en.stake)

/-- One stake goes back, with the fee that was taken at entry. -/
def giveBack (q : Quotes) (arena : Arena) (round : ℕ) (e : State) (entry : String × Field × ℚ) : State :=
  let id := walletOf entry.1
  match e.ledger.get id with
  | none => e
  | some _ =>
    let e := e.freeze arena round entry.2.1 q
    let units := unitsAtRound e arena round entry.2.1 (entry.2.2 / (1 - FEE))
    if 0 < units then e.post arena round id entry.2.1 units else e

def refundOpenRounds (q : Quotes) (e : State) : State :=
  (liveArenas s).foldl (fun e arena => (State.book s e arena).foldl (giveBack q arena (e.roundOf arena)) e) e

/-- What `persist` and then `flush` write of the ledger. -/
def snapshot (e : State) : List Account := e.ledger.values.filter hasActivity

/-! ## Start -/

/-- SOL units of a player that no deposit backs are written off. -/
def writeOff (a : Account) : Account :=
  if a.isBot then a
  else
    let backed := max 0 (a.depInSol - a.wOutSol)
    if backed + 1 / 10000 < a.bal .sol then { a with bal := Function.update a.bal .sol backed } else a

def restore (accounts : List Account) : Ledger :=
  accounts.foldl (fun l a => l.set a.id (writeOff a)) OrderedMap.empty

/-- `initBotBank`: the pool wallets become house accounts. -/
def adopt (pool : List String) (l : Ledger) : Ledger :=
  pool.foldl (fun l id => l.modify id fun a => { a with isBot := true }) l

/-- What the new process draws, and the prices that it reads. -/
structure BootDraw where
  lobby : Arena → Draw
  bots : Arena → ℕ → BotDraw
  quotes : Quotes

/-- `seedBots`, from the `i`th on, with `n` to go. -/
def seedBots (q : Quotes) (aid : ArenaId) (d : ℕ → BotDraw) : ℕ → ℕ → State → State
  | _, 0, e => e
  | i, n + 1, e =>
    match newBot s e q aid (if i % 2 = 1 then .uwu else .bull) (d i) with
    | (e, true) => seedBots q aid d (i + 1) n e
    | (e, false) => e

/-- The first bots of an arena. -/
def seedArena (b : BootDraw) (e : State) : Arena → State
  | .two aid =>
    let (bots, e) := botsFor e aid.text
    if bots.length = 0 then seedBots s b.quotes aid (b.bots (.two aid)) 0 s.SEED_BOTS e else e
  | .many aid => populateN s b.quotes aid s.SEED_BOTS 500 (b.bots (.many aid)) e

/-- A fresh process on what the last one wrote. The record goes on. -/
def start (accounts : List Account) (e : State) (b : BootDraw) : State :=
  let lobby := fun {E R : Type} (arena : Arena) => (freshLobby s.platform s.round (e.roundsByArena arena + 1)
    (b.lobby arena) : Runner E R)
  let e : State := {
    ledger := adopt s.pool (restore accounts)
    two := fun aid => lobby (.two aid)
    many := fun aid => lobby (.many aid)
    seq := 0, prices := OrderedMap.empty, matchedBook := OrderedMap.empty, botScanOffset := 0
    roundsByArena := e.roundsByArena, boot := e.boot + 1, flows := e.flows, settled := [], payments := []
    forgotten := [] }
  (liveArenas s).foldl (seedArena s b) (pruneOrphans s e)

/-- The engine goes down, by a signal at some prices or otherwise. -/
def leaving (signal : Option Quotes) (e : State) : State :=
  match signal with
  | some q => refundOpenRounds s q e
  | none => e

/-- It comes up again. -/
def restart (signal : Option Quotes) (b : BootDraw) (e : State) : State :=
  let e := leaving s signal e
  start s (snapshot e) e b

/-! ## Events -/

inductive Event where
  | enter (q : Quotes) (u : ℕ → ℚ) (m : EnterMsg)
  | botsEnter (q : Quotes) (aid : ArenaId) (pick : Side → Pick) (d : ℕ → PlayDraw)
  | ensureMinimumEntries (q : Quotes) (aid : ArenaId) (d : Side → ℕ → BotDraw)
  | matchPlayerStake (q : Quotes) (aid : ArenaId) (side : Side) (stakeUsd : ℚ) (u : ℕ → ℚ)
  | tick (q : Quotes) (aid : ArenaId) (now : ℚ) (draw : Draw) (d : ℕ → BotDraw)
  | enterN (q : Quotes) (m : EnterNMsg)
  | botsEnterN (q : Quotes) (aid : NArena) (pick : Pick) (d : ℕ → PlayDraw)
  | tickN (q : Quotes) (aid : NArena) (now : ℚ) (draw : Draw) (d : ℕ → BotDraw)
  | newBot (q : Quotes) (aid : ArenaId) (side : Side) (d : BotDraw)
  | newBotN (q : Quotes) (aid : NArena) (d : BotDraw)
  | capPopulation (q : Quotes) (aid : ArenaId)
  | levelBots (q : Quotes)
  | restart (signal : Option Quotes) (b : BootDraw)

/-- The arena whose runner an event needs. -/
def Event.arena : Event → Option Arena
  | .enter _ _ m => some (.two m.aid)
  | .botsEnter _ aid _ _ => some (.two aid)
  | .ensureMinimumEntries _ aid _ => some (.two aid)
  | .matchPlayerStake _ aid _ _ _ => some (.two aid)
  | .tick _ aid _ _ _ => some (.two aid)
  | .enterN _ m => some (.many m.aid)
  | .botsEnterN _ aid _ _ => some (.many aid)
  | .tickN _ aid _ _ _ => some (.many aid)
  | .newBot _ aid _ _ => some (.two aid)
  | .newBotN _ aid _ => some (.many aid)
  | .capPopulation _ aid => some (.two aid)
  | .levelBots _ => none
  | .restart _ _ => none

/-- What an event does. -/
def State.serve (e : State) : Event → State
  | .enter q u m => enterMessage s q u m e
  | .botsEnter q aid pick d => botsEnter s q aid pick d e
  | .ensureMinimumEntries q aid d => ensureMinimumEntries s q aid d e
  | .matchPlayerStake q aid side stakeUsd u => matchPlayerStake s q aid side stakeUsd u e
  | .tick q aid now draw d => tickArena s q aid now draw d e
  | .enterN q m => enterNMessage s q m e
  | .botsEnterN q aid pick d => botsEnterN s q aid pick d e
  | .tickN q aid now draw d => tickArenaN s q aid now draw d e
  | .newBot q aid side d => (newBot s e q aid side d).1
  | .newBotN q aid d => (newBotN s e q aid d).1
  | .capPopulation q aid => capPopulation s e q aid
  | .levelBots q => levelBots s e q
  | .restart signal b => restart s signal b e

/-- The engine: there is a runner only for an arena that is switched on. -/
def engine : Machine State Event Unit Unit where
  step e event := if event.arena.all fun arena => s.enabled arena then .ok (State.serve s e event, ()) else .error ()

/-!
## The store

`store.ts`: the ledger as rows of a database, rewritten in one transaction, and the counters beside it. Of what a
snapshot holds besides the accounts only `roundsByArena` is read by what is modelled here.
-/

structure Snapshot where
  accounts : List Account
  roundsByArena : Option (Arena → ℕ)

/-- The tables `accounts` and `meta`; a table without the row `roundsByArena` has no value for it. -/
structure Database where
  accounts : OrderedMap String Account
  roundsByArena : Option (Arena → ℕ)

def Database.empty : Database := ⟨OrderedMap.empty, none⟩

inductive Statement where
  | clearAccounts
  | putAccount (a : Account)
  | putMeta (roundsByArena : Arena → ℕ)

def Statement.run (db : Database) : Statement → Database
  | .clearAccounts => { db with accounts := OrderedMap.empty }
  | .putAccount a => { db with accounts := db.accounts.set a.id a }
  | .putMeta roundsByArena => { db with roundsByArena := some roundsByArena }

/-- What `writeSnapshot` runs between BEGIN and COMMIT. -/
def Snapshot.statements (snap : Snapshot) : List Statement :=
  .clearAccounts :: snap.accounts.map .putAccount ++ (snap.roundsByArena.map .putMeta).toList

/-- The statements from the `n`th on, and the commit after the last. Any of them may throw. -/
def execute (throws : ℕ → Bool) : ℕ → List Statement → Database → Except Unit Database
  | n, [], db => if throws n then .error () else .ok db
  | n, statement :: rest, db => if throws n then .error () else execute throws (n + 1) rest (statement.run db)

/-- One transaction: what throws rolls back to the rows that were there. -/
def writeSnapshot (throws : ℕ → Bool) (snap : Snapshot) (db : Database) : Database :=
  match execute throws 0 snap.statements db with
  | .ok db' => db'
  | .error () => db

/-- Without an account there is no snapshot, whatever `meta` holds. -/
def loadSnapshot (db : Database) : Option Snapshot :=
  if db.accounts.values = [] then none else some ⟨db.accounts.values, db.roundsByArena⟩

/-- `restore` in a fresh process: the ledger, and `roundsByArena`. -/
def restored (db : Database) : Ledger × (Arena → ℕ) :=
  match loadSnapshot db with
  | none => (OrderedMap.empty, fun _ => 0)
  | some snap => (restore snap.accounts, snap.roundsByArena.getD fun _ => 0)

end BullsUnicorns.Engine

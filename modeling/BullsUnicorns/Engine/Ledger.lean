import BullsUnicorns.Engine.Arenas

/-!
# The ledger and the bot bank

`ledger.ts` and `bot-bank.ts`: accounts in insertion order, the treasury, and the pool of house wallets that
bots draw from and return to. Amounts are exact.
-/

namespace BullsUnicorns.Engine

open Battle

structure Account where
  id : String
  side : Side
  bal : Field → ℚ
  isBot : Bool
  dep : ℚ
  ret : ℚ
  games : ℕ
  depIn : ℚ
  wOut : ℚ
  depInSol : ℚ
  wOutSol : ℚ
  /-- Who brought them; empty when nobody did. -/
  refBy : String
  refEarned : ℚ
  /-- What a bot is born with, and whether it has been retired. -/
  temper : Option ℚ
  skip : Option ℚ
  nteam : Option ℕ
  retired : Bool

/-- An account as `acct` makes it. -/
def Account.fresh (id : String) (side : Side) (isBot : Bool) : Account :=
  { id, side, bal := fun _ => 0, isBot, dep := 0, ret := 0, games := 0, depIn := 0, wOut := 0, depInSol := 0
    wOutSol := 0, refBy := "", refEarned := 0, temper := none, skip := none, nteam := none, retired := false }

instance : Inhabited Account := ⟨Account.fresh "" .bull false⟩

def Account.add (a : Account) (f : Field) (x : ℚ) : Account := { a with bal := Function.update a.bal f (a.bal f + x) }

abbrev Ledger := OrderedMap String Account

/-- Change an account that is there. -/
def Ledger.modify (l : Ledger) (id : String) (g : Account → Account) : Ledger :=
  match l.get id with
  | some a => l.set id (g a)
  | none => l

def Ledger.add (l : Ledger) (id : String) (f : Field) (x : ℚ) : Ledger := l.modify id (·.add f x)

def Ledger.bal (l : Ledger) (id : String) (f : Field) : ℚ := ((l.get id).map (·.bal f)).getD 0

def TREASURY_ID : String := "__versus_treasury__"

/-- Get or create: the account of a wallet. -/
def acct (l : Ledger) (wallet : String) (side : Side) : Ledger :=
  match l.get wallet with
  | some _ => l
  | none => l.set wallet (Account.fresh wallet side false)

def treasuryAcct (l : Ledger) : Ledger :=
  match l.get TREASURY_ID with
  | some _ => l
  | none => l.set TREASURY_ID (Account.fresh TREASURY_ID .bull true)

/-- Has this account ever touched money? -/
def hasActivity (a : Account) : Bool :=
  a.isBot || decide (0 < a.bal .bull) || decide (0 < a.bal .uwu) || decide (0 < a.bal .sol) || decide (0 < a.dep) ||
    decide (0 < a.ret) || decide (0 < a.games) || decide (0 < a.depIn) || decide (0 < a.wOut) || decide (0 < a.refEarned)

/-! ## The pool -/

/-- The house wallets that have an account. -/
def poolAccounts (pool : List String) (l : Ledger) : List String := pool.filter fun id => (l.get id).isSome

def poolBalance (pool : List String) (l : Ledger) (f : Field) : ℚ := ((poolAccounts pool l).map (l.bal · f)).sum

/-- Take up to `left` from the wallets in order; what could not be taken comes back. -/
def takeFromPool (f : Field) : List String → ℚ → Ledger → Ledger × ℚ
  | [], left, l => (l, left)
  | id :: ids, left, l =>
    if left ≤ 0 then (l, left)
    else
      let take := min (l.bal id f) left
      if take ≤ 0 then takeFromPool f ids left l else takeFromPool f ids (left - take) (l.add id f (-take))

/-- Take up to `want`, never more than a fair share of what is there. -/
def drawBank (pool : List String) (l : Ledger) (f : Field) (want spread : ℚ) : Ledger × ℚ :=
  if want ≤ 0 then (l, 0)
  else
    let share := poolBalance pool l f / max 1 spread
    let target := min want share
    if target ≤ 0 then (l, 0)
    else
      let (l, left) := takeFromPool f (poolAccounts pool l) target l
      (l, target - left)

/-- The wallet that holds the least. -/
def poorest (l : Ledger) (f : Field) : List String → Option String
  | [] => none
  | id :: ids => some (ids.foldl (fun target a => if l.bal a f < l.bal target f then a else target) id)

/-- Give money back to the pool. -/
def returnBank (pool : List String) (l : Ledger) (f : Field) (amount : ℚ) : Ledger :=
  if amount ≤ 0 then l
  else match poorest l f (poolAccounts pool l) with
    | none => l
    | some target => l.add target f amount

def botBankReady (pool : List String) (l : Ledger) : Bool :=
  decide (0 < pool.length) &&
    decide (0 < poolBalance pool l .bull + poolBalance pool l .uwu + poolBalance pool l .sol)

end BullsUnicorns.Engine

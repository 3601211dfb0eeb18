import BullsUnicorns.Engine.Bots
import BullsUnicorns.Engine.Lemmas.Ledger
import BullsUnicorns.Lib.Machine

/-!
# Converting one coin into another

`server.ts`, `swap.ts` and `bot-bank.ts`: the convert message, the house that answers it from its pool, and the
swap that the vault makes else, on a live chain. A handler waits for the vault's balance and for its swap, and
the chain goes on beside it. Amounts are exact, and what the vault holds is without the network fees that it pays.
-/

namespace BullsUnicorns.Engine

/-- Everybody but the treasury, which pays the fees of the memos and may be below zero. -/
def IsWallet (id : String) : Prop := id ≠ TREASURY_ID

/-- What the process is started with. The pool wallets are distinct, and the treasury is none of them. -/
structure ConvertEnv where
  pool : List String
  OTC_ENABLED : Bool
  OTC_FEE_TOKEN : ℚ
  OTC_FEE_SOL : ℚ
  OTC_MAX_FRACTION : ℚ
  CONVERT_COOLDOWN_MS : ℚ
  SOL_FEE_RESERVE : ℚ
  /-- Whether the mints are configured, and their decimals. -/
  mints : Bool
  decimals : ℕ
  MAX_PRICE_IMPACT : ℚ
  /-- `SLIPPAGE_BPS`, as a share. -/
  slippage : ℚ
  slippage_nonneg : 0 ≤ slippage
  pool_nodup : pool.Nodup
  pool_wallets : ∀ id ∈ pool, IsWallet id

def CONVERT_FEE : ℚ := 3 / 1000

/-! ## The pool -/

/-- Take from the wallets in order until nothing to speak of is left; what is left comes back. -/
def takeInOrder (f : Field) : List String → ℚ → Ledger → Ledger × ℚ
  | [], left, l => (l, left)
  | id :: ids, left, l =>
    if left ≤ 1 / 10 ^ 12 then (l, left)
    else
      let take := min (l.bal id f) left
      if take ≤ 0 then takeInOrder f ids left l else takeInOrder f ids (left - take) (l.add id f (-take))

/-- Take an exact amount out of the house pool, or nothing. -/
def takeExact (pool : List String) (l : Ledger) (f : Field) (amount : ℚ) : Ledger × Bool :=
  if amount ≤ 0 then (l, false)
  else if poolBalance pool l f + 1 / 10 ^ 9 < amount then (l, false)
  else
    let (l, left) := takeInOrder f (poolAccounts pool l) amount l
    (l, decide (left ≤ 1 / 10 ^ 9))

/-! ## The swap -/

/-- What Jupiter answers: raw units of the coin that comes out, and the price impact. -/
structure Quote where
  outAmount : ℕ
  impact : ℚ
deriving DecidableEq

/-- A swap on the chain: not sent, sent, landed with what it paid in raw units, or never to land. -/
inductive Tx where
  | none
  | sent (q : Quote)
  | landed (q : Quote) (fill : ℕ)
  | dead
deriving DecidableEq, Inhabited

/-- Where a handler is. -/
inductive Stage where
  /-- It waits for the balance of the vault. -/
  | reading
  | swapping
  /-- It is over: the house answered with so much, the swap was credited, or the player was refunded. -/
  | otc (outUnits : ℚ)
  | converted
  | refunded

def Stage.isOpen : Stage → Bool
  | .reading => true
  | .swapping => true
  | _ => false

/-- A convert that has passed its checks, and the record of what it did: to the balances of its player, to the
pool, and to what the ledger claims beyond the vault. -/
structure Job where
  wallet : String
  from' : Field
  to' : Field
  amt : ℚ
  solPx : ℚ
  stage : Stage
  tx : Tx
  moved : Field → ℚ
  pooled : Field → ℚ
  gap : Field → ℚ

/-- Ledger units per token: `sol` is held in USD. -/
def Job.unit (job : Job) (f : Field) : ℚ := if f = .sol then job.solPx else 1

def decOf (env : ConvertEnv) (f : Field) : ℕ := if f = .sol then 9 else env.decimals

/-- The tokens that go into the swap. -/
def Job.amtTokens (job : Job) : ℚ := if job.from' = .sol then job.amt / job.solPx else job.amt

/-- The same in raw units. -/
def Job.raw (env : ConvertEnv) (job : Job) : ℤ := ⌊job.amtTokens * 10 ^ decOf env job.from'⌋

/-! ## The state -/

structure Desk where
  ledger : Ledger
  /-- What the vault holds, in tokens. -/
  vault : Field → ℚ
  lastConvertAt : String → Option ℚ
  inFlightConvert : String → Bool
  jobs : List Job

structure ConvertMsg where
  wallet : String
  /-- A field that is not one of the three reads as nothing. -/
  to' : Option Field
  from' : Option Field
  amount : Option ℚ

/-- What the engine reads when the message comes: a price that is not there reads as zero. -/
structure ConvertReadings where
  isFrozen : Bool
  now : ℚ
  /-- `usdPerUnitSafe` -/
  px : Field → ℚ
  solUsd : ℚ
  /-- `priceUSD("sol")` -/
  solPx : ℚ
  lastChain : Field → ℚ

def CFIELDS : List Field := [.bull, .uwu, .sol]

/-- The largest other balance. -/
def largestOther (bal : Field → ℚ) (to' : Field) : Field :=
  ((CFIELDS.filter fun f => f ≠ to').mergeSort fun x y => bal y ≤ bal x).headD to'

def otcFeeFor (env : ConvertEnv) (a b : Field) : ℚ := if a = .sol ∨ b = .sol then env.OTC_FEE_SOL else env.OTC_FEE_TOKEN

def amountOf (v : Option ℚ) : ℚ := max 0 (v.getD 0)

namespace Desk

/-- What every player but one is owed of a field. -/
def owedToOthers (l : Ledger) (wallet : String) (f : Field) : ℚ :=
  ((l.values.filter fun a => a.id ≠ wallet ∧ a.isBot = false).map fun a => a.bal f).sum

/-- The most that one convert may take of a field. -/
def otcCap (env : ConvertEnv) (r : ConvertReadings) (l : Ledger) (wallet : String) (to' : Field) : ℚ :=
  let heldOnChain := if to' = .sol then r.lastChain .sol * r.solUsd else r.lastChain to'
  max 0 (heldOnChain - owedToOthers l wallet to') * env.OTC_MAX_FRACTION

def otcUnits (env : ConvertEnv) (r : ConvertReadings) (amt : ℚ) (from' to' : Field) : ℚ :=
  amt * r.px from' * (1 - otcFeeFor env from' to') / r.px to'

/-- Whether the house answers, from its own pool. -/
def offers (env : ConvertEnv) (r : ConvertReadings) (l : Ledger) (wallet : String) (amt : ℚ) (from' to' : Field) :
    Bool :=
  let outUnits := otcUnits env r amt from' to'
  env.OTC_ENABLED && decide (0 < r.px from') && decide (0 < r.px to') && decide (0 < outUnits) &&
    decide (outUnits ≤ otcCap env r l wallet to')

/-- The house as the counterparty: the ledger after it, and what it pays out. -/
def otc (env : ConvertEnv) (r : ConvertReadings) (l : Ledger) (wallet : String) (amt : ℚ) (from' to' : Field) :
    Ledger × Option ℚ :=
  if offers env r l wallet amt from' to' then
    let outUnits := otcUnits env r amt from' to'
    match takeExact env.pool l to' outUnits with
    | (l, true) => (returnBank env.pool l from' amt, some outUnits)
    | (l, false) => (l, none)
  else (l, none)

/-- What the ledger holds of a field beyond the vault, at the price that a convert was made at. -/
def claim (job : Job) (d : Desk) (f : Field) : ℚ := total everybody d.ledger f - job.unit f * d.vault f

/-- Write into the record of a convert what a step of it did. -/
def record (d d' : Desk) (job : Job) : Job :=
  { job with
    moved := fun f => job.moved f + (d'.ledger.bal job.wallet f - d.ledger.bal job.wallet f)
    gap := fun f => job.gap f + (claim job d' f - claim job d f) }

/-- A step of the `i`th convert. -/
def advance (d : Desk) (i : ℕ) (job : Job) (d' : Desk) : Desk := { d' with jobs := d.jobs.set i (record d d' job) }

/-- The ledger, the cooldown and the mark of a wallet as a handler leaves them. -/
def setWallet (d : Desk) (l : Ledger) (wallet : String) (at' : Option ℚ) (mark : Bool) : Desk :=
  { d with
    ledger := l
    lastConvertAt := Function.update d.lastConvertAt wallet at'
    inFlightConvert := Function.update d.inFlightConvert wallet mark }

/-- The exit that puts the amount back. -/
def refund (d : Desk) (i : ℕ) (job : Job) : Desk :=
  advance d i { job with stage := .refunded }
    (setWallet d (d.ledger.add job.wallet job.from' job.amt) job.wallet none false)

/-- The field that a message converts from. -/
def fromOf (m : ConvertMsg) (bal : Field → ℚ) (to' : Field) : Field :=
  match m.from' with
  | some f => if f = to' then largestOther bal to' else f
  | none => largestOther bal to'

/-- The amount of a message: all there is when it names none. -/
def amtOf (m : ConvertMsg) (avail : ℚ) : ℚ := min (if 0 < amountOf m.amount then amountOf m.amount else avail) avail

/-- What a message asks for, once it has passed the checks of amount and cooldown: from, to and how much. -/
def asks (env : ConvertEnv) (m : ConvertMsg) (r : ConvertReadings) (d : Desk) : Option (Field × Field × ℚ) :=
  let to' := m.to'.getD .uwu
  let from' := fromOf m (d.ledger.bal m.wallet) to'
  let amt := amtOf m (d.ledger.bal m.wallet from')
  if amt < 1 / 100 then none
  else if r.now - (d.lastConvertAt m.wallet).getD 0 < env.CONVERT_COOLDOWN_MS then none
  else some (from', to', amt)

/-- A message that has passed its checks: the debit, and where its handler stops first. -/
def begins (env : ConvertEnv) (r : ConvertReadings) (d : Desk) (wallet : String) (amt : ℚ) (from' to' : Field) : Desk :=
  let job : Job := ⟨wallet, from', to', amt, r.solPx, .swapping, .none, fun _ => 0, fun _ => 0, fun _ => 0⟩
  let debited := d.ledger.add wallet from' (-amt)
  match otc env r debited wallet amt from' to' with
  | (l, some outUnits) =>
    let held : Part := fun id _ => decide (id ∈ env.pool)
    let job := { job with stage := .otc outUnits, pooled := fun f => total held l f - total held debited f }
    let d' := setWallet d (l.add wallet to' outUnits) wallet (some r.now) false
    { d' with jobs := d.jobs ++ [record d d' job] }
  | (l, none) =>
    if (from' = .sol ∨ to' = .sol) ∧ r.solPx ≤ 0 then
      let d' := setWallet d (l.add wallet from' amt) wallet none false
      { d' with jobs := d.jobs ++ [record d d' { job with stage := .refunded }] }
    else
      let d' := setWallet d l wallet (some r.now) true
      { d' with jobs := d.jobs ++ [record d d' { job with stage := if from' = .sol then .reading else .swapping }] }

/-- The account of the wallet is there before the checks. -/
def opened (m : ConvertMsg) (d : Desk) : Desk :=
  { d with ledger := acct d.ledger m.wallet (if m.to'.getD .uwu = .bull then .bull else .uwu) }

/-- The convert message. -/
def convert (env : ConvertEnv) (m : ConvertMsg) (r : ConvertReadings) (d : Desk) : Desk :=
  if r.isFrozen then d
  else if d.inFlightConvert m.wallet then d
  else
    let d := d.opened m
    match asks env m r d with
    | none => d
    | some (from', to', amt) => begins env r d m.wallet amt from' to'

/-! ## What comes back -/

/-- The vault's balance of SOL, in tokens; zero when it cannot be read. -/
def balanceRead (env : ConvertEnv) (i : ℕ) (job : Job) (held : ℚ) (d : Desk) : Desk :=
  if max 0 (held - env.SOL_FEE_RESERVE) < job.amtTokens then refund d i job
  else { d with jobs := d.jobs.set i { job with stage := .swapping } }

/-- `swapExact` up to its transaction: the amount, the quote, and whether Jupiter built the swap. -/
def quoted (env : ConvertEnv) (i : ℕ) (job : Job) (quote : Option Quote) (built : Bool) (d : Desk) : Desk :=
  if env.mints = false ∨ job.raw env ≤ 0 then refund d i job
  else match quote with
    | none => refund d i job
    | some q =>
      if env.MAX_PRICE_IMPACT < |q.impact| ∨ built = false then refund d i job
      else { d with jobs := d.jobs.set i { job with tx := .sent q } }

/-- The swap lands. -/
def lands (env : ConvertEnv) (i : ℕ) (job : Job) (q : Quote) (fill : ℕ) (d : Desk) : Desk :=
  let vault := fun f =>
    d.vault f - (if f = job.from' then (job.raw env : ℚ) / 10 ^ decOf env job.from' else 0) +
      if f = job.to' then (fill : ℚ) / 10 ^ decOf env job.to' else 0
  advance d i { job with tx := .landed q fill } { d with vault }

/-- What `swapExact` returns for a confirmed swap is what the route promised. -/
def outAmount (env : ConvertEnv) (job : Job) (q : Quote) : ℚ := (q.outAmount : ℚ) / 10 ^ decOf env job.to'

/-- The exit that credits the swap. -/
def credit (env : ConvertEnv) (i : ℕ) (job : Job) (q : Quote) (d : Desk) : Desk :=
  let outUnits := outAmount env job q * job.unit job.to'
  let fee := outUnits * CONVERT_FEE
  let credited := max 0 (outUnits - fee)
  advance d i { job with stage := .converted }
    (setWallet d (d.ledger.add job.wallet job.to' credited) job.wallet (d.lastConvertAt job.wallet) false)

end Desk

/-! ## Runs -/

/-- No wallet has a negative balance. -/
def Ledger.Solvent (l : Ledger) : Prop := l.NonnegOf IsWallet

/-- What the other handlers of the engine do in one go: anything that leaves the ledger solvent and closes no account;
and whatever moves the vault. -/
structure Elsewhere where
  ledger : Ledger → Ledger
  vault : (Field → ℚ) → Field → ℚ
  solvent : ∀ l : Ledger, l.Solvent → (ledger l).Solvent
  stays : ∀ (l : Ledger) id, (l.get id).isSome → ((ledger l).get id).isSome

inductive ConvertEvent where
  | convert (m : ConvertMsg) (r : ConvertReadings)
  | balanceRead (i : ℕ) (held : ℚ)
  | quoted (i : ℕ) (quote : Option Quote) (built : Bool)
  | lands (i : ℕ) (fill : ℕ)
  /-- The swap fails on the chain, or its blockhash runs out. -/
  | dies (i : ℕ)
  /-- The confirmation is read. -/
  | confirmed (i : ℕ)
  /-- The confirmation throws: the chain says that the swap failed, or it times out, or the request is lost. -/
  | threw (i : ℕ)
  | elsewhere (o : Elsewhere)

/-- The end of a wait of the `i`th convert, for which the chain and the handler must be where it says. -/
def Desk.resume (d : Desk) (i : ℕ) (g : Job → Option Desk) : Except Unit (Desk × Unit) :=
  match d.jobs[i]?.bind g with
  | some d => .ok (d, ())
  | none => .error ()

def Desk.step (env : ConvertEnv) (d : Desk) : ConvertEvent → Except Unit (Desk × Unit)
  | .convert m r => .ok (d.convert env m r, ())
  | .balanceRead i held => d.resume i fun job =>
    match job.stage with
    | .reading => some (d.balanceRead env i job held)
    | _ => none
  | .quoted i quote built => d.resume i fun job =>
    match job.stage, job.tx with
    | .swapping, .none => some (d.quoted env i job quote built)
    | _, _ => none
  | .lands i fill => d.resume i fun job =>
    match job.tx with
    | .sent q => if q.outAmount * (1 - env.slippage) ≤ (fill : ℚ) then some (d.lands env i job q fill) else none
    | _ => none
  | .dies i => d.resume i fun job =>
    match job.tx with
    | .sent _ => some { d with jobs := d.jobs.set i { job with tx := .dead } }
    | _ => none
  | .confirmed i => d.resume i fun job =>
    match job.stage, job.tx with
    | .swapping, .landed q _ => some (d.credit env i job q)
    | _, _ => none
  | .threw i => d.resume i fun job =>
    match job.stage, job.tx with
    | .swapping, .none => none
    | .swapping, _ => some (d.refund i job)
    | _, _ => none
  | .elsewhere o => .ok ({ d with ledger := o.ledger d.ledger, vault := o.vault d.vault }, ())

def convertDesk (env : ConvertEnv) : Machine Desk ConvertEvent Unit Unit where
  step := Desk.step env

/-- A process that starts on a ledger. -/
def Desk.boot (ledger : Ledger) (vault : Field → ℚ) : Desk := ⟨ledger, vault, fun _ => none, fun _ => false, []⟩

/-!
## Calls of the bot bank

`bot-bank.ts` as a machine over the ledger: what the pool is asked for and given back, in any order, and what it
says it has granted.
-/

inductive PoolCall where
  | draw (field : Field) (want spread : ℚ)
  | take (field : Field) (amount : ℚ)
  | giveBack (field : Field) (amount : ℚ)
deriving DecidableEq

def PoolCall.field : PoolCall → Field
  | .draw f _ _ => f
  | .take f _ => f
  | .giveBack f _ => f

/-- The ledger after a call, and what the call says it has granted. -/
def PoolCall.run (pool : List String) (l : Ledger) : PoolCall → Ledger × ℚ
  | .draw f want spread => drawBank pool l f want spread
  | .take f amount =>
      let (l, given) := takeExact pool l f amount
      (l, if given then amount else 0)
  | .giveBack f amount => (returnBank pool l f amount, 0)

/-- A refused amount is not returned. -/
def PoolCall.returned : PoolCall → ℚ
  | .giveBack _ amount => max 0 amount
  | _ => 0

def PoolCall.isTake : PoolCall → Bool
  | .take _ _ => true
  | _ => false

def botBank (pool : List String) : Machine Ledger PoolCall ℚ Empty where
  step l call := .ok (call.run pool l)

/-- What was returned of a field in the calls of a log. -/
def returnedIn (f : Field) (log : List (PoolCall × ℚ)) : ℚ :=
  ((log.filter (·.1.field = f)).map fun entry => entry.1.returned).sum

/-- What was granted. -/
def grantedIn (f : Field) (log : List (PoolCall × ℚ)) : ℚ :=
  ((log.filter (·.1.field = f)).map Prod.snd).sum

def takesIn (f : Field) (log : List (PoolCall × ℚ)) : ℕ :=
  (log.filter (·.1.field = f)).countP (·.1.isTake)

end BullsUnicorns.Engine

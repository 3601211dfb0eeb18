import BullsUnicorns.Engine.Host

/-!
# Custody

`chain-ops.ts`, and the messages of `server.ts` that credit what has been paid in and send what is paid out. A
verification and a payment each wait for the chain, and other messages come in between. What a step moves over the
edge of the ledger, and in the vault, is its output. Amounts are exact rationals: a difference of two balances is not
rounded, as it is among doubles.
-/

namespace BullsUnicorns.Engine

open Battle

def LAMPORTS_PER_SOL : ℚ := 10 ^ 9

/-- The base units of a whole token. -/
def UNIT : ℚ := 10 ^ 6

def toBase (whole : ℚ) : ℤ := ⌊whole * UNIT + 1 / 2⌋

def toWhole (base : ℤ) : ℚ := base / UNIT

/-! ## The chain -/

structure TokenBalance where
  owner : String
  mint : String
  uiAmount : Option ℚ

/-- A confirmed transaction as the node parses it; a list that is absent is empty. -/
structure ParsedTx where
  err : Bool
  accountKeys : List String
  preBalances : List ℕ
  postBalances : List ℕ
  preTokenBalances : List TokenBalance
  postTokenBalances : List TokenBalance

/-- A transaction that a browser has signed. -/
structure Instruction where
  programId : String
  keys : List String

structure SignedTx where
  sig : String
  /-- In bytes. -/
  length : ℕ
  /-- Its fee payer and its instructions, when it is a legacy transaction. -/
  legacy : Option (Option String × List Instruction)

structure CustodyEnv where
  host : HostEnv
  /-- The vault's key, and the mints of the two tokens. -/
  vault : String
  bullMint : String
  uwuMint : String
  /-- The vault's own token accounts, as far as they can be derived. -/
  vaultAtas : List String

def mintFor (env : CustodyEnv) : Side → Option String
  | .bull => some env.bullMint
  | .uwu => some env.uwuMint
  | .other _ _ => none

/-- What the vault holds of a mint among these accounts. -/
def findBal (vault mint : String) (balances : List TokenBalance) : ℚ :=
  ((balances.find? fun b => b.owner = vault ∧ b.mint = mint).bind (·.uiAmount)).getD 0

/-- By how much a transaction raised the vault's balance of a token. -/
def tokenDelta (vault mint : String) (tx : ParsedTx) : ℚ :=
  findBal vault mint tx.postTokenBalances - findBal vault mint tx.preTokenBalances

/-- By how much it raised the vault's lamports, in SOL. -/
def solDelta (vault : String) (tx : ParsedTx) : ℚ :=
  match tx.accountKeys.idxOf? vault with
  | none => 0
  | some idx => (((tx.postBalances[idx]?).getD 0 : ℚ) - ((tx.preBalances[idx]?).getD 0 : ℚ)) / LAMPORTS_PER_SOL

/-- What a transaction brought the vault of a field; nothing when it failed. -/
def rise (env : CustodyEnv) (f : Field) (tx : ParsedTx) : ℚ :=
  if tx.err then 0
  else match f with
    | .bull => tokenDelta env.vault env.bullMint tx
    | .uwu => tokenDelta env.vault env.uwuMint tx
    | .sol => solDelta env.vault tx

/-! ## What may be relayed -/

def RELAY_OK_PROGRAMS : List String := [
  "11111111111111111111111111111111",
  "TokenkegQfeZyiNwAJbNbGKPFXCWuBvf9Ss623VQ5DA",
  "ATokenGPvbdGVxr1b2hvZbsiqW5xWH25efTNsLJA8knL",
  "ComputeBudget111111111111111111111111111111"]

def vaultTargets (env : CustodyEnv) : List String := env.vault :: env.vaultAtas

/-- Why a transaction is not relayed for a wallet. -/
def inspectRelayTx (env : CustodyEnv) (signed : SignedTx) (wallet : String) : Option String :=
  if signed.length = 0 then some "empty transaction"
  else if 1500 < signed.length then some "transaction too large"
  else match signed.legacy with
    | none => some "only legacy deposit transactions may be relayed"
    | some (feePayer, instructions) =>
      if feePayer ≠ some wallet then some "fee payer is not the authenticated wallet"
      else if instructions.any fun ix => !RELAY_OK_PROGRAMS.contains ix.programId then
        some "unexpected program in transaction"
      else if instructions.any fun ix => ix.keys.any (vaultTargets env).contains then none
      else some "transaction does not pay the vault"

/-! ## The state -/

/-- What a message deposits: SOL at the price that it found, or a token. -/
inductive Asset where
  | sol (px : ℚ)
  | token (side : Side)

def Asset.field : Asset → Field
  | .sol _ => .sol
  | .token side => sideField side

/-- What a whole one of it is credited as. -/
def Asset.price : Asset → ℚ
  | .sol px => px
  | .token _ => 1

/-- A message that waits for its transaction to be read. -/
structure Verification where
  wallet : String
  sig : String
  asset : Asset

structure Custody where
  host : Host
  /-- Which process this is. -/
  boot : ℕ
  chain : OrderedMap String ParsedTx
  seenSigs : List String
  inFlightSigs : List String
  verifying : List Verification
  /-- Of each payment that a handler waits for, whether it has landed. -/
  landed : List Bool
  /-- Payments that nobody waits for and that have not landed, and whether they were given back. -/
  loose : List (Payout × Bool)

structure Credit where
  boot : ℕ
  sig : String
  wallet : String
  field : Field
  units : ℚ

/-- What a step moves. -/
inductive Move where
  /-- A transaction lands that is no payment of the vault's. -/
  | rose (sig : String) (tx : ParsedTx)
  | credit (c : Credit)
  | debit (p : Payout)
  /-- A payment lands. -/
  | paid (p : Payout)
  | refund (p : Payout)
  /-- What the rest of the engine has done to all accounts together. -/
  | other (change : Field → ℚ)

namespace Custody

variable (env : CustodyEnv)

/-- The first process, before anybody has paid. -/
def first (b : BootDraw) (vault : Field → ℚ) : Custody where
  host := .first env.host b vault
  boot := 0
  chain := OrderedMap.empty
  seenSigs := []
  inFlightSigs := []
  verifying := []
  landed := []
  loose := []

def ledger (c : Custody) : Ledger := c.host.engine.ledger

/-! ## Deposits -/

/-- Reserve a signature for verification. -/
def claimSig (c : Custody) (sig : String) : Option Custody :=
  if sig ∈ c.seenSigs ∨ sig ∈ c.inFlightSigs then none else some { c with inFlightSigs := c.inFlightSigs ++ [sig] }

/-- `verifySolDeposit` and `verifyDeposit` as far as their wait. -/
def verify (c : Custody) (v : Verification) : Custody :=
  match c.claimSig v.sig with
  | none => c
  | some c => { c with verifying := c.verifying ++ [v] }

/-- A deposit of a token. A side without a mint throws before the wait, and the reservation goes with it. -/
def verifyDeposit (c : Custody) (wallet sig : String) (side : Side) : Custody :=
  match mintFor env side with
  | none => c
  | some _ => c.verify ⟨wallet, sig, .token side⟩

/-- A deposit of SOL, when there is a price. -/
def verifySolDeposit (c : Custody) (wallet sig : String) (px : ℚ) : Custody :=
  if px ≤ 0 then c else c.verify ⟨wallet, sig, .sol px⟩

/-- The end of a verification, whatever it has found. -/
def release (c : Custody) (i : ℕ) (v : Verification) : Custody :=
  { c with inFlightSigs := c.inFlightSigs.filter (· ≠ v.sig), verifying := c.verifying.eraseIdx i }

/-- The account of whoever asked gets what the vault got. -/
def bank (v : Verification) (delta : ℚ) (l : Ledger) : Ledger :=
  match v.asset with
  | .sol px => depositSol v.wallet delta px l
  | .token side => deposit v.wallet side delta l

/-- The transaction has been read. -/
def verified (c : Custody) (i : ℕ) (v : Verification) (tx : ParsedTx) : Custody × List Move :=
  let delta := rise env v.asset.field tx
  if delta ≤ 0 then (c.release i v, [])
  else
    let c := { c with seenSigs := c.seenSigs ++ [v.sig] }.release i v
    ({ c with host := c.host.setLedger (bank v delta c.ledger) },
      [.credit ⟨c.boot, v.sig, v.wallet, v.asset.field, delta * v.asset.price⟩])

/-- What `getParsedTransaction` does. -/
inductive Answer where
  | threw
  | absent
  | found
deriving DecidableEq

def answered (c : Custody) (i : ℕ) (answer : Answer) : Except Unit (Custody × List Move) :=
  match c.verifying[i]? with
  | none => .error ()
  | some v => match answer with
    | .threw => .ok (c.release i v, [])
    | .absent => .ok (c.release i v, [])
    | .found => match c.chain.get v.sig with
      | none => .error ()
      | some tx => .ok (c.verified env i v tx)

/-! ## Payments -/

/-- A handler of a withdrawal as far as its wait. -/
def withdrawal (c : Custody) (r : Ledger × Option Payout) : Custody × List Move :=
  ({ c with host := c.host.withdrawal r, landed := c.landed ++ r.2.toList.map fun _ => false },
    r.2.toList.map Move.debit)

/-- The `i`th payment that a handler waits for, and whether it has landed. -/
def waiting? (c : Custody) (i : ℕ) : Option (Payout × Bool) :=
  match c.host.payouts[i]?, c.landed[i]? with
  | some p, some landed => some (p, landed)
  | _, _ => none

/-- A transaction that pays: of a token it takes the amount in whole base units, and nothing else. -/
def pays (p : Payout) (tx : ParsedTx) : Bool :=
  [Field.bull, .uwu].all fun f => rise env f tx = if f = p.field then -toWhole (toBase p.units) else 0

/-- A payment lands under a signature of its own. -/
def land (c : Custody) (p : Payout) (sig : String) (tx : ParsedTx) : Except Unit (Custody × List Move) :=
  if (c.chain.get sig).isNone && pays env p tx then .ok ({ c with chain := c.chain.set sig tx }, [.paid p]) else .error ()

/-- The end of a wait. A payment that has not landed by then may land later. -/
def settled (c : Custody) (i : ℕ) (p : Payout) (landed back : Bool) : Custody :=
  { c with
    host := c.host.payout i (if back then Payout.failed else Payout.sent)
    landed := c.landed.eraseIdx i
    loose := if landed || !back then c.loose else c.loose ++ [(p, true)] }

/-! ## Events -/

/-- The events of the host that money moves by over the edge of the ledger. -/
def edge : HostEvent → Bool
  | .depositSol _ _ _ | .deposit _ _ _ | .withdrawSol _ _ _ _ | .withdraw _ _ _ _ => true
  | .payoutSent _ | .payoutFailed _ | .restart _ _ => true
  | _ => false

inductive Event where
  /-- Everything else that happens to the engine. -/
  | host (event : HostEvent)
  /-- A transaction of anybody's is confirmed. -/
  | confirmed (sig : String) (tx : ParsedTx)
  | depositSol (wallet sig : String) (px : ℚ)
  | deposit (wallet sig : String) (side : Side)
  /-- After the broadcast of what may be relayed. -/
  | relayTx (wallet : String) (signed : SignedTx) (isSol : Bool) (side : Side) (px : ℚ)
  | answered (i : ℕ) (answer : Answer)
  | withdrawSol (isFrozen : Bool) (wallet : String) (units : Option ℚ) (px : ℚ)
  | withdraw (isFrozen : Bool) (wallet : String) (side : Side) (amount : Option ℚ)
  /-- The payment of the `i`th handler that waits lands. -/
  | lands (i : ℕ) (sig : String) (tx : ParsedTx)
  /-- The `i`th payment that nobody waits for lands. -/
  | landsLate (i : ℕ) (sig : String) (tx : ParsedTx)
  /-- The transfer returns a signature. -/
  | returned (i : ℕ)
  | threw (i : ℕ)
  | restart (signal : Option Quotes) (b : BootDraw)

/-- What has happened to all accounts together. -/
def change (l l' : Ledger) : Field → ℚ := fun f => total everybody l' f - total everybody l f

/-- A new process on what the store holds. Nobody waits for the payments that are under way. -/
def restart (c : Custody) (signal : Option Quotes) (b : BootDraw) : Custody where
  host := c.host.restart env.host signal b
  boot := c.boot + 1
  chain := c.chain
  seenSigs := []
  inFlightSigs := []
  verifying := []
  landed := []
  loose := c.loose ++ ((c.host.payouts.zip c.landed).filter fun w => !w.2).map fun w => (w.1, false)

def step (c : Custody) : Event → Except Unit (Custody × List Move)
  | .host event =>
    if edge event then .error ()
    else (Host.step env.host c.host event).map fun r =>
      ({ c with host := r.1 }, [.other (change c.ledger r.1.engine.ledger)])
  | .confirmed sig tx =>
    if (c.chain.get sig).isSome then .error () else .ok ({ c with chain := c.chain.set sig tx }, [.rose sig tx])
  | .depositSol wallet sig px => .ok (c.verifySolDeposit wallet sig px, [])
  | .deposit wallet sig side => .ok (c.verifyDeposit env wallet sig side, [])
  | .relayTx wallet signed isSol side px =>
    if (inspectRelayTx env signed wallet).isSome then .ok (c, [])
    else if isSol then .ok (c.verifySolDeposit wallet signed.sig px, [])
    else .ok (c.verifyDeposit env wallet signed.sig (if side = .bull then .bull else .uwu), [])
  | .answered i answer => c.answered env i answer
  | .withdrawSol isFrozen wallet units px => .ok (c.withdrawal (Engine.withdrawSol isFrozen wallet units px c.ledger))
  | .withdraw isFrozen wallet side amount => .ok (c.withdrawal (Engine.withdraw isFrozen wallet side amount c.ledger))
  | .lands i sig tx =>
    match c.waiting? i with
    | some (p, false) => { c with landed := c.landed.set i true }.land env p sig tx
    | _ => .error ()
  | .landsLate i sig tx =>
    match c.loose[i]? with
    | some (p, _) => { c with loose := c.loose.eraseIdx i }.land env p sig tx
    | none => .error ()
  | .returned i =>
    match c.waiting? i with
    | some (p, landed) => if p.field = .sol ∨ landed then .ok (c.settled i p landed false, []) else .error ()
    | none => .error ()
  | .threw i =>
    match c.waiting? i with
    | some (p, landed) => .ok (c.settled i p landed true, [.refund p])
    | none => .error ()
  | .restart signal b =>
    let c' := c.restart env signal b
    .ok (c', [.other (change c.ledger c'.ledger)])

end Custody

end BullsUnicorns.Engine

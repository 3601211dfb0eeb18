import BullsUnicorns.Engine.Ledger
import BullsUnicorns.Engine.RoundPrices

/-!
# The bots

The state of the engine and its house: how prices are frozen and forgotten, how bots are made, scanned, retired and
levelled. Random numbers and price readings are inputs, and amounts and prices are exact rationals.
-/

namespace BullsUnicorns.Engine

open Battle

/-- The text of a public key has none of the signs that ids of the engine are made with. -/
def IsKey (id : String) : Prop := ':' ∉ id.toList ∧ '|' ∉ id.toList ∧ '_' ∉ id.toList

/-- What the process is started with. The least stake of a bot is positive, and pool wallets are public keys. -/
structure Settings where
  platform : Platform
  round : RoundEnv
  /-- The arenas that are switched on. -/
  enabled : Arena → Bool
  pool : List String
  FAKE_BANK_OK : Bool
  BOT_BANK_MIN : ℚ
  BOT_BANK_MAX : ℚ
  BOT_STAKE_MIN : ℚ
  BOT_STAKE_MAX : ℚ
  BOT_BANK_USD_MIN : ℚ
  BOT_BANK_USD_MAX : ℚ
  BOT_STAKE_USD_MIN : ℚ
  BOT_BUST_USD : ℚ
  BOT_MAX_BANK_USD : ℚ
  BOT_MIN_RUNWAY : ℚ
  BOT_FUND_SPREAD : ℚ
  BOT_COMMIT_MIN : ℚ
  BOT_COMMIT_MAX : ℚ
  MATCH_RATIO : ℚ
  SWARM_SIZE : ℕ
  MIN_PER_SIDE : ℕ
  PLAY_MIN : ℕ
  PLAY_MAX : ℕ
  PLAY_IDLE_MAX : ℕ
  PLAY_SCALE_USD : ℚ
  POP_MIN : ℤ
  POP_MAX : ℤ
  POP_START : ℤ
  POP_GROWTH : ℚ
  POP_ROTATIONS : ℕ
  SEED_BOTS : ℕ
  /-- How a number is written as text, and read back. -/
  numText : ℚ → String
  readNum : String → ℚ
  read_text : ∀ x, readNum (numText x) = x
  text_clean : ∀ x, '|' ∉ (numText x).toList
  stake_pos : 0 < BOT_STAKE_USD_MIN
  bank_nonneg : 0 ≤ BOT_MAX_BANK_USD
  pool_keys : ∀ id ∈ pool, IsKey id

/-- What the price feed says at one moment: a reading of zero is stale, and then the last good one counts. -/
structure Quotes where
  usdPerUnit : Field → ℚ
  lastGood : Field → ℚ
  sol : usdPerUnit .sol = 1

def Quotes.safe (q : Quotes) (f : Field) : ℚ := if 0 < q.usdPerUnit f then q.usdPerUnit f else q.lastGood f

def unitsForUsd (q : Quotes) (f : Field) (usd : ℚ) : ℚ := if 0 < q.usdPerUnit f then usd / q.usdPerUnit f else 0

/-! ## The state -/

/-- A movement of tokens by an entry or a settlement, as the record keeps it. -/
structure Flow where
  /-- The process that made it. -/
  boot : ℕ
  arena : Arena
  round : ℕ
  account : String
  isBot : Bool
  field : Field
  amount : ℚ

/-- A round that was settled, with the ids of its entries. -/
structure Settled where
  arena : Arena
  round : ℕ
  entries : List String

/-- The credit of an entry by a settlement. -/
structure Payment where
  arena : Arena
  round : ℕ
  entry : String
deriving DecidableEq

structure State where
  ledger : Ledger
  two : ArenaId → Runner Entry RoundResult
  many : NArena → Runner EntryN ResultN
  seq : ℕ
  /-- The frozen prices of the rounds. A field without a price has none or zero. -/
  prices : OrderedMap RoundKey (Field → ℚ)
  /-- What the house has committed in response to players. -/
  matchedBook : OrderedMap (ArenaId × ℕ) Totals
  botScanOffset : ℕ
  roundsByArena : Arena → ℕ
  /-- How often the process was started before. -/
  boot : ℕ
  /-- The record: every movement, and in this process the settled rounds, the credits, and the rounds whose prices
  were forgotten while they were open. -/
  flows : List Flow
  settled : List Settled
  payments : List Payment
  forgotten : List RoundKey

def State.account (e : State) (id : String) : Account := (e.ledger.get id).getD default

/-- The round an arena is in. -/
def State.roundOf (e : State) : Arena → ℕ
  | .two aid => (e.two aid).state.round
  | .many aid => (e.many aid).state.round

/-- The frozen price of a field in a round, zero until there is one. -/
def State.roundPx (e : State) (k : Arena × ℕ × Field) : ℚ := ((e.prices.get (k.1, k.2.1)).getD fun _ => 0) k.2.2

/-- Credit or debit an account for an entry or a settlement of a round. -/
def State.post (e : State) (arena : Arena) (round : ℕ) (id : String) (f : Field) (x : ℚ) : State :=
  let flow : Flow := ⟨e.boot, arena, round, id, (e.account id).isBot, f, x⟩
  { e with ledger := e.ledger.add id f x, flows := e.flows ++ [flow] }

/-- Change an account in ways that move no tokens. -/
def State.touch (e : State) (id : String) (g : Account → Account) : State := { e with ledger := e.ledger.modify id g }

/-- Bank the fee of an entry. -/
def State.bankFee (e : State) (arena : Arena) (round : ℕ) (f : Field) (tokens : ℚ) : State :=
  if tokens ≤ 0 then e else { e with ledger := treasuryAcct e.ledger }.post arena round TREASURY_ID f tokens

variable (s : Settings)

/-! ## Prices -/

/-- What a call of `pxForRound` makes of the prices. -/
def frozen (prices : OrderedMap RoundKey (Field → ℚ)) (k : RoundKey) (f : Field) (q : Quotes) :
    OrderedMap RoundKey (Field → ℚ) :=
  (RoundPrices.pxForRound q.usdPerUnit k f ⟨q.lastGood, prices, OrderedMap.empty⟩).2.roundPx

/-- The open rounds that have prices, but not among the given ones. -/
def State.forgets (e : State) (prices : OrderedMap RoundKey (Field → ℚ)) : List RoundKey :=
  (e.prices.entries.map Prod.fst).filter fun k => decide (e.roundOf k.1 = k.2) && (prices.get k).isNone

/-- A call of `pxForRound`. -/
def State.freeze (e : State) (arena : Arena) (round : ℕ) (f : Field) (q : Quotes) : State :=
  let prices := frozen e.prices (arena, round) f q
  { e with prices, forgotten := e.forgotten ++ e.forgets prices }

def unitsAtRound (e : State) (arena : Arena) (round : ℕ) (f : Field) (usd : ℚ) : ℚ :=
  if 0 < e.roundPx (arena, round, f) then usd / e.roundPx (arena, round, f) else 0

/-! ## The population -/

def botId (arena : String) (n : ℕ) : String := arena ++ ":bot:" ++ toString n

def isArenaBot (arena : String) (a : Account) : Bool :=
  a.isBot && !a.retired && Text.startsWith a.id (arena ++ ":")

/-- The bots of an arena, from a place in the list that moves on with every scan. -/
def botsFor (e : State) (arena : String) : List String × State :=
  let all := (e.ledger.values.filter (isArenaBot arena)).map (·.id)
  if all.length < 2 then (all, e)
  else
    let k := e.botScanOffset % all.length
    (all.drop k ++ all.take k, { e with botScanOffset := e.botScanOffset + 1 })

/-- The whole house float in dollars. -/
def floatUsd (e : State) (q : Quotes) : ℚ :=
  let held := fun f => poolBalance s.pool e.ledger f +
    ((e.ledger.values.filter fun a => a.isBot && !a.retired).map (·.bal f)).sum
  held .bull * q.usdPerUnit .bull + held .uwu * q.usdPerUnit .uwu + held .sol

/-- How many bots the float can field; nothing is no limit. -/
def popAffordable (e : State) (q : Quotes) : Option ℤ :=
  if !botBankReady s.pool e.ledger && s.FAKE_BANK_OK then none
  else
    let perBot := max s.BOT_BANK_USD_MIN (s.BOT_STAKE_USD_MIN * s.BOT_MIN_RUNWAY)
    if perBot ≤ 0 then some 0 else some ⌊floatUsd s e q / perBot⌋

def bankFor (l : Ledger) (f : Field) (want spread : ℚ) : Ledger × ℚ :=
  if botBankReady s.pool l then drawBank s.pool l f want spread
  else (l, if s.FAKE_BANK_OK then want else 0)

/-- The random numbers of a new bot. -/
structure BotDraw where
  bank : ℚ
  temper : ℚ
  skip : ℚ
  team : ℚ
  team_mem : 0 ≤ team ∧ team < 1

def bankWanted (q : Quotes) (f : Field) (u : ℚ) : ℚ :=
  if 0 < s.BOT_BANK_MIN then s.BOT_BANK_MIN + u * (s.BOT_BANK_MAX - s.BOT_BANK_MIN)
  else unitsForUsd q f (s.BOT_BANK_USD_MIN + u * (s.BOT_BANK_USD_MAX - s.BOT_BANK_USD_MIN))

def minStakeOf (q : Quotes) (f : Field) : ℚ :=
  if 0 < s.BOT_STAKE_MIN then s.BOT_STAKE_MIN else unitsForUsd q f s.BOT_STAKE_USD_MIN

/-- A bot with a bank in one token, drawn from the pool; when that does not buy a stake it goes back and
there is no bot. -/
def makeBot (e : State) (q : Quotes) (a : Account) (f : Field) (want spread : ℚ) : State × Bool :=
  let (l, got) := bankFor s e.ledger f want spread
  if got < minStakeOf s q f then ({ e with ledger := returnBank s.pool l f got }, false)
  else ({ e with ledger := l.set a.id (a.add f got) }, true)

def newBot (e : State) (q : Quotes) (aid : ArenaId) (side : Side) (d : BotDraw) : State × Bool :=
  let e := { e with seq := e.seq + 1 }
  let a := { Account.fresh (botId aid.text e.seq) side true with temper := some d.temper, skip := some d.skip }
  let f := slotField aid side
  let spreadN := max 1 (match popAffordable s e q with
    | some n => min (n : ℚ) s.BOT_FUND_SPREAD
    | none => s.BOT_FUND_SPREAD)
  makeBot s e q a f (bankWanted s q f d.bank) spreadN

/-- `teams === 0 ? 0 : Math.floor(Math.random() * teams)`. -/
def NArena.rollTeam (aid : NArena) (u : ℚ) : ℕ := if aid.teams = 0 then 0 else ⌊u * aid.teams⌋.toNat

def newBotN (e : State) (q : Quotes) (aid : NArena) (d : BotDraw) : State × Bool :=
  let e := { e with seq := e.seq + 1 }
  let team := aid.rollTeam d.team
  let a := { Account.fresh (botId aid.text e.seq) (if team = 1 then .uwu else .bull) true with nteam := some team }
  let f := FIELD (aid.tokAt (if aid.teams = 0 then 0 else team))
  makeBot s e q a f (bankWanted s q f d.bank) (max 1 (((popAffordable s e q).getD 1 : ℤ) : ℚ))

/-- Give one field of an account back to the pool. -/
def handBack (l : Ledger) (id : String) (f : Field) : Ledger :=
  let left := l.bal id f
  if left ≤ 0 then l else (returnBank s.pool l f left).modify id fun a => { a with bal := Function.update a.bal f 0 }

/-- Retire a bot; its record stays. -/
def retireBot (e : State) (id : String) : State :=
  let l := handBack s (handBack s (handBack s e.ledger id .bull) id .uwu) id .sol
  { e with ledger := l.modify id fun a => { a with retired := true } }

/-- What an account is worth at the given prices. -/
def worth (price : Field → ℚ) (a : Account) : ℚ := a.bal .bull * price .bull + a.bal .uwu * price .uwu + a.bal .sol

/-- Retire the poorest bots of an arena beyond a few rotations of entrants. -/
def capPopulation (e : State) (q : Quotes) (aid : ArenaId) : State :=
  let perSideCap := if 0 < s.PLAY_MAX then s.PLAY_MAX else 9
  let target := max 6 (perSideCap * 2 * s.POP_ROTATIONS)
  let (bots, e) := botsFor e aid.text
  if bots.length ≤ target then e
  else
    let byWorth := bots.mergeSort fun x y => worth q.safe (e.account x) ≤ worth q.safe (e.account y)
    (byWorth.take (bots.length - target)).foldl (retireBot s) e

/-- Skim one field of a bot down to the ceiling. -/
def levelField (q : Quotes) (e : State) (id : String) (f : Field) : State :=
  let px := if f = .sol then 1 else q.safe f
  if px ≤ 0 then e
  else
    let usd := e.ledger.bal id f * px
    if usd ≤ s.BOT_MAX_BANK_USD then e
    else
      let skimTok := (usd - s.BOT_MAX_BANK_USD) / px
      { e with ledger := returnBank s.pool (e.ledger.add id f (-skimTok)) f skimTok }

def levelBot (q : Quotes) (e : State) (id : String) : State :=
  let a := e.account id
  if !a.isBot || a.retired || s.pool.contains id then e
  else [Field.bull, Field.uwu, Field.sol].foldl (fun e f => levelField s q e id f) e

def levelBots (e : State) (q : Quotes) : State :=
  if !botBankReady s.pool e.ledger then e
  else (e.ledger.values.map (·.id)).foldl (levelBot s q) e

/-- The arenas that are switched on, two-team ones first. -/
def liveArenas : List Arena := allArenas.filter fun arena => s.enabled arena

/-- Retire the bots whose arena is switched off. -/
def pruneOrphans (e : State) : State :=
  let live := (liveArenas s).map Arena.text
  ((e.ledger.values.filter fun a => a.isBot && Text.includes ":bot:" a.id &&
    !live.contains (Text.firstPart ':' a.id)).map (·.id)).foldl (retireBot s) e

end BullsUnicorns.Engine

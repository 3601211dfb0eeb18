import BullsUnicorns.Engine.Server

/-!
# Arenas of many teams

`server.ts`: the enterN message, the bots of these arenas, and the settlement of their rounds.
-/

namespace BullsUnicorns.Engine

open Battle

variable (s : Settings)

def entryIdN (owner : String) (team : ℚ) : String := owner ++ "|" ++ s.numText team

/-- `Number(key.split("|")[1])`. -/
def teamOfEntry (id : String) : ℚ :=
  s.readNum (Text.firstPart '|' (String.ofList ((id.toList.dropWhile (· ≠ '|')).drop 1)))

/-- The field that an entry of a team is staked in and paid in. -/
def NArena.field (aid : NArena) (team : ℚ) : Field := FIELD (aid.tokAt (if aid.teams = 0 then 0 else team))

def State.enterRoundN (e : State) (aid : NArena) (owner : String) (team stake : ℚ) : State :=
  let entered := enter (RoundRunnerN s.platform s.round aid.eco aid.teams) (e.many aid) (entryIdN s owner team) team stake
  { e with many := Function.update e.many aid entered.2 }

/-! ## Entries -/

/-- An enterN message from a socket that has proved control of the wallet: `Number(m.team)` and `Number(m.stake)`
are nothing when they are not numbers. -/
structure EnterNMsg where
  wallet : String
  aid : NArena
  team : Option ℚ
  stake : Option ℚ
  key : IsKey wallet

def EnterNMsg.slot (m : EnterNMsg) : ℚ :=
  if m.aid.teams = 0 then 0 else max 0 (min ((m.aid.teams : ℚ) - 1) (m.team.getD 0))

/-- What the wallet has staked on the team in this round. -/
def alreadyN (e : State) (m : EnterNMsg) : ℚ :=
  (((e.many m.aid).state.entries.filter fun en => en.id = entryIdN s m.wallet m.slot).map
    fun en => en.stake / (1 - FEE)).sum

def stakeForN (e : State) (m : EnterNMsg) : ℚ :=
  let f := m.aid.field m.slot
  let px := e.roundPx (.many m.aid, e.roundOf (.many m.aid), f)
  min (min (money m.stake) (e.ledger.bal m.wallet f)) (max 0 (CAP - alreadyN s e m) / px)

def deployPlayerN (e : State) (m : EnterNMsg) (stake usd : ℚ) : State :=
  let f := m.aid.field m.slot
  let round := e.roundOf (.many m.aid)
  let e := (e.touch m.wallet fun a => { a with dep := a.dep + usd }).post (.many m.aid) round m.wallet f (-stake)
  State.enterRoundN s (e.bankFee (.many m.aid) round f (stake * FEE)) m.aid m.wallet m.slot (usd * (1 - FEE))

def enterNMessage (q : Quotes) (m : EnterNMsg) (e : State) : State :=
  if !s.enabled (.many m.aid) then e
  else if (e.many m.aid).state.phase ≠ .lobby then e
  else
    let f := m.aid.field m.slot
    let round := e.roundOf (.many m.aid)
    let e := { e with ledger := acct e.ledger m.wallet .bull }.freeze (.many m.aid) round f q
    let px := e.roundPx (.many m.aid, round, f)
    if px ≤ 0 then e
    else
      let stake := stakeForN s e m
      if stake * px < MIN_ENTRY then e else deployPlayerN s e m stake (stake * px)

/-! ## Bots -/

/-- The fee of a bot goes back to the pool. -/
def State.returnFee (e : State) (arena : Arena) (round : ℕ) (f : Field) (amount : ℚ) : State :=
  if amount ≤ 0 then e
  else match poorest e.ledger f (poolAccounts s.pool e.ledger) with
    | none => e
    | some target => e.post arena round target f amount

def deployBotN (e : State) (aid : NArena) (id : String) (team tokens usd : ℚ) : State :=
  let f := aid.field team
  let round := e.roundOf (.many aid)
  let e := (e.post (.many aid) round id f (-tokens)).returnFee s (.many aid) round f (tokens * FEE)
  State.enterRoundN s (e.touch id fun a => { a with dep := a.dep + usd }) aid id team (usd * (1 - FEE))

def botStakeN (bankroll minStake u : ℚ) : ℚ :=
  if 0 < s.BOT_STAKE_MAX then min (minStake + u * (s.BOT_STAKE_MAX - minStake)) bankroll
  else min (min (max minStake (bankroll * (18 / 100 + u * (37 / 100)))) CAP) bankroll

/-- One bot enters, or sits out. -/
def botEnterN (q : Quotes) (aid : NArena) (st : State × (ℕ → PlayDraw)) (id : String) : State × (ℕ → PlayDraw) :=
  let (e, d) := st
  let rest := fun i => d (i + 1)
  if s.PLAY_MAX = 0 ∧ (d 0).skip < 25 / 100 then (e, rest)
  else
    let team : ℚ := if aid.teams = 0 then 0 else ((e.account id).nteam.getD 0 : ℕ)
    let f := aid.field team
    let minStake := minStakeOf s q f
    let stake := botStakeN s (e.ledger.bal id f) minStake (d 0).stake
    if minStake ≤ 0 ∨ stake < minStake then (e, rest)
    else
      let round := e.roundOf (.many aid)
      let e := e.freeze (.many aid) round f q
      let usd := stake * e.roundPx (.many aid, round, f)
      if usd ≤ 0 then (e, rest) else (deployBotN s e aid id team stake usd, rest)

def botsEnterN (q : Quotes) (aid : NArena) (pick : Pick) (d : ℕ → PlayDraw) (e : State) : State :=
  if (e.many aid).state.phase ≠ .lobby then e
  else
    let (bots, e) := botsFor e aid.text
    let pool := if 0 < s.PLAY_MAX then
        (pick.order bots).take (s.PLAY_MIN + ⌊pick.count * max 1 ((s.PLAY_MAX : ℚ) - s.PLAY_MIN + 1)⌋.toNat)
      else bots
    (pool.foldl (botEnterN s q aid) (e, d)).1

/-! ## Settlement -/

/-- One fighter's payout, in the token of its own team. -/
def payFighterN (q : Quotes) (aid : NArena) (round : ℕ) (e : State) (pay : String × ℚ) : State :=
  let id := walletOf pay.1
  match e.ledger.get id with
  | none => e
  | some _ =>
    let f := aid.field (teamOfEntry s pay.1)
    let e := e.freeze (.many aid) round f q
    let ret := unitsAtRound e (.many aid) round f pay.2
    let usd := ret * e.roundPx (.many aid, round, f)
    let e := (e.post (.many aid) round id f ret).touch id fun a => { a with games := a.games + 1, ret := a.ret + usd }
    { e with payments := e.payments ++ [⟨.many aid, round, pay.1⟩] }

/-- A bot after a round: retired when its own coin no longer buys a stake. -/
def reviewBotN (q : Quotes) (aid : NArena) (e : State) (id : String) : State :=
  let f := aid.field ((e.account id).nteam.getD 0 : ℕ)
  if e.ledger.bal id f * q.safe f < s.BOT_BUST_USD then retireBot s e id else e

/-- New bots until the target is met or none can be funded. -/
def populateN (q : Quotes) (aid : NArena) (target : ℤ) : ℕ → (ℕ → BotDraw) → State → State
  | 0, _, e => e
  | n + 1, d, e =>
    let (bots, e) := botsFor e aid.text
    if (bots.length : ℤ) < target then
      match newBotN s e q aid (d 0) with
      | (e, true) => populateN q aid target n (fun i => d (i + 1)) e
      | (e, false) => e
    else e

def renewN (q : Quotes) (aid : NArena) (realPlaying : ℕ) (d : ℕ → BotDraw) (e : State) : State :=
  let (bots, e) := botsFor e aid.text
  let e := bots.foldl (reviewBotN s q aid) e
  let e := { e with roundsByArena := Function.update e.roundsByArena (.many aid) (e.roundsByArena (.many aid) + 1) }
  let target := popTarget s e q (.many aid) realPlaying
  populateN s q aid target (target.toNat + e.ledger.entries.length + 1) d e

def onSettleN (q : Quotes) (aid : NArena) (r : ResultN) (st : RoundState EntryN ResultN) (d : ℕ → BotDraw) (e : State) :
    State :=
  let e := r.settlement.entries.foldl (payFighterN s q aid st.round) e
  renewN s q aid (st.entries.filter fun en => !Text.includes ":bot:" en.id).length d e

def tickArenaN (q : Quotes) (aid : NArena) (now : ℚ) (draw : Draw) (d : ℕ → BotDraw) (e : State) : State :=
  let c := RoundRunnerN s.platform s.round aid.eco aid.teams
  match tick s.platform s.round c (e.many aid) now draw with
  | (r, .returns _) => { e with many := Function.update e.many aid r }
  | (r, .awaits result) =>
    let e := onSettleN s q aid result r.state d { e with many := Function.update e.many aid r }
    let lobby := freshLobby s.platform s.round (r.state.round + 1) draw
    { e with
      many := Function.update e.many aid lobby
      settled := e.settled ++ [⟨.many aid, r.state.round, r.state.entries.map (·.id)⟩] }

end BullsUnicorns.Engine

import BullsUnicorns.Engine.Bots

/-!
# Entries and settlements

`server.ts`: the enter messages, the house that answers and fills a lobby, and the settlement of a round.
-/

namespace BullsUnicorns.Engine

open Battle

variable (s : Settings)

/-! ## Two-team entries -/

def entryId (owner : String) (side : Side) : String := owner ++ "|" ++ side.key

/-- A stake into the lobby of an arena. -/
def State.enterRound (e : State) (aid : ArenaId) (owner : String) (side : Side) (stake : ℚ) : State :=
  let entered := enter (RoundRunner s.platform s.round aid.eco) (e.two aid) (entryId owner side) side stake
  { e with two := Function.update e.two aid entered.2 }

/-- A bot's stake: its tokens leave the account, the fee is banked, and the rest plays, in dollars. -/
def deployBot (e : State) (aid : ArenaId) (id : String) (side : Side) (tokens usd : ℚ) : State :=
  let f := slotField aid side
  let round := e.roundOf (.two aid)
  let e := (e.touch id fun a => { a with dep := a.dep + usd }).post (.two aid) round id f (-tokens)
  State.enterRound s (e.bankFee (.two aid) round f (tokens * FEE)) aid id side (usd * (1 - FEE))

/-- A bot that is short draws from the pool, as one fighter of the whole. -/
def topUp (e : State) (id : String) (f : Field) (amount : ℚ) : State × ℚ :=
  let (l, drawn) := drawBank s.pool e.ledger f amount 1
  if 0 < drawn then ({ e with ledger := l.add id f drawn }, drawn) else ({ e with ledger := l }, drawn)

def foeOf (side : Side) : Side := if side = .bull then .uwu else .bull

/-- A field of the book of answers, by the side that answers. -/
def answered (m : Totals) (foe : Side) : ℚ := if foe = .bull then m.bull else m.uwu

def answer (m : Totals) (foe : Side) (give : ℚ) : Totals :=
  if foe = .bull then { m with bull := m.bull + give } else { m with uwu := m.uwu + give }

/-- The book of a round, made when it is missing; the oldest half goes when there are too many. -/
def openBook (e : State) (key : ArenaId × ℕ) : State :=
  match e.matchedBook.get key with
  | some _ => e
  | none =>
    let book := e.matchedBook.set key ⟨0, 0⟩
    { e with matchedBook := if 64 < book.entries.length then book.drop 32 else book }

/-- What the house gave is credited against the answer of its side. -/
def noteAnswer (e : State) (key : ArenaId × ℕ) (foe : Side) (give : ℚ) : State :=
  match e.matchedBook.get key with
  | some m => { e with matchedBook := e.matchedBook.set key (answer m foe give) }
  | none => e

/-- Top a bot up to what it wants to give, and the dollars that it then has. -/
def topUpTo (e : State) (id : String) (f : Field) (px want : ℚ) : State × ℚ :=
  let held := e.ledger.bal id f * px
  if held < want then
    let (e, drawn) := topUp s e id f ((want - held) / px)
    (e, if 0 < drawn then held + drawn * px else held)
  else (e, held)

/-- One bot's part of an answer. The state carries what is still needed and how many have been asked. -/
def answerWith (aid : ArenaId) (foe : Side) (px : ℚ) (spread : ℕ) (u : ℕ → ℚ) (st : State × ℚ × ℕ) (id : String) :
    State × ℚ × ℕ :=
  let (e, need, idx) := st
  if need ≤ MIN_ENTRY then st
  else
    let f := slotField aid foe
    -- uneven slices: each takes 60% to 140% of a fair share
    let fair := need / max 1 ((spread : ℚ) - idx)
    let want := min need (fair * (6 / 10 + u idx * (8 / 10)))
    let (e, held) := topUpTo s e id f px want
    let give := min (min want held) CAP
    if give < MIN_ENTRY then (e, need, idx + 1)
    else
      let e := deployBot s e aid id foe (give / px) give
      (noteAnswer e (aid, e.roundOf (.two aid)) foe give, need - give, idx + 1)

/-- The house takes the other side of a player's stake. -/
def matchPlayerStake (q : Quotes) (aid : ArenaId) (playerSide : Side) (stakeUsd : ℚ) (u : ℕ → ℚ) (e : State) : State :=
  let round := (e.two aid).state
  if round.phase ≠ .lobby then e
  else
    let foe := foeOf playerSide
    let e := e.freeze (.two aid) round.round (slotField aid foe) q
    let px := e.roundPx (.two aid, round.round, slotField aid foe)
    if px ≤ 0 then e
    else
      let e := openBook e (aid, round.round)
      let need := stakeUsd * s.MATCH_RATIO - answered ((e.matchedBook.get (aid, round.round)).getD ⟨0, 0⟩) foe
      if need ≤ MIN_ENTRY then e
      else
        let (all, e) := botsFor e aid.text
        let entered := fun id => (e.two aid).state.entries.any fun en => en.id = entryId id foe
        let roster := (all.filter fun id => !entered id) ++ all.filter entered
        let spread := max 1 (min roster.length s.SWARM_SIZE)
        (roster.foldl (answerWith s aid foe px spread u) (e, need, 0)).1

/-- The `ref` field of an enter message: its text, and whether it is the wallet itself. -/
structure Ref where
  text : String
  isWallet : Bool

/-- An enter message, from a socket that has proved control of the wallet. An arena that is not known falls
back to one that is. -/
structure EnterMsg where
  wallet : String
  aid : ArenaId
  side : Side
  stake : Option ℚ
  ref : Option Ref
  key : IsKey wallet

/-- `money`: a finite number that is not negative, else nothing. -/
def money (v : Option ℚ) : ℚ :=
  match v with
  | some n => if 0 ≤ n then n else 0
  | none => 0

/-- What is left of the cap on one side of a round. -/
def headroom (e : State) (m : EnterMsg) : ℚ :=
  max 0 (CAP - (((e.two m.aid).state.entries.filter fun en => en.id = entryId m.wallet m.side).map
    fun en => en.stake / (1 - FEE)).sum)

/-- The stake that a message is good for, in tokens. -/
def stakeFor (e : State) (m : EnterMsg) : ℚ :=
  let f := slotField m.aid m.side
  let px := e.roundPx (.two m.aid, (e.two m.aid).state.round, f)
  min (min (money m.stake) (e.ledger.bal m.wallet f)) (headroom e m / px)

/-- Who referred the account once the message is read. -/
def refOf (a : Account) (m : EnterMsg) : String :=
  match m.ref with
  | some ref => if a.refBy = "" ∧ !ref.isWallet then ref.text else a.refBy
  | none => a.refBy

/-- The cut of who brought the account, in the token that the side is named after. -/
def payReferrer (e : State) (m : EnterMsg) (round : ℕ) (refBy : String) (refCut : ℚ) : State :=
  let e := { e with ledger := acct e.ledger refBy m.side }
  (e.touch refBy fun r => { r with refEarned := r.refEarned + refCut }).post (.two m.aid) round refBy
    (if m.side = .bull then .bull else .uwu) refCut

/-- A stake of a player: debit, referral, fee and entry. -/
def deployPlayer (e : State) (m : EnterMsg) (stake px : ℚ) : State :=
  let f := slotField m.aid m.side
  let round := e.roundOf (.two m.aid)
  let refBy := refOf (e.account m.wallet) m
  let e := (e.touch m.wallet fun a => { a with dep := a.dep + stake * px, side := m.side, refBy }).post
    (.two m.aid) round m.wallet f (-stake)
  let fee := stake * FEE
  let refCut := if refBy = "" then 0 else fee * (1 / 10)
  let e := if refBy = "" then e else payReferrer e m round refBy refCut
  State.enterRound s (e.bankFee (.two m.aid) round f (fee - refCut)) m.aid m.wallet m.side (stake * px * (1 - FEE))

/-- An enter message as far as its checks: the account is made, the price frozen. -/
def prepared (q : Quotes) (m : EnterMsg) (e : State) : State :=
  let e := { e with ledger := acct e.ledger m.wallet m.side }
  if (e.two m.aid).state.phase ≠ .lobby then e
  else e.freeze (.two m.aid) (e.two m.aid).state.round (slotField m.aid m.side) q

/-- Whether a prepared message passes the checks. -/
def accepts (e : State) (m : EnterMsg) : Bool :=
  let round := (e.two m.aid).state
  let px := e.roundPx (.two m.aid, round.round, slotField m.aid m.side)
  decide (round.phase = .lobby) && decide (0 < px) && decide (MIN_ENTRY ≤ headroom e m) &&
    decide (MIN_ENTRY ≤ stakeFor e m * px)

def enterMessage (q : Quotes) (u : ℕ → ℚ) (m : EnterMsg) (e : State) : State :=
  if !s.enabled (.two m.aid) then e
  else
    let e := prepared q m e
    if !accepts e m then e
    else
      let px := e.roundPx (.two m.aid, (e.two m.aid).state.round, slotField m.aid m.side)
      let stake := stakeFor e m
      matchPlayerStake s q m.aid m.side (stake * px) u (deployPlayer s e m stake px)

/-! ## Filling a lobby -/

/-- Make the bots that one side is short of, a bounded number of times. -/
def fillSide (q : Quotes) (aid : ArenaId) (side : Side) : ℕ → (ℕ → BotDraw) → State → State
  | 0, _, e => e
  | n + 1, d, e =>
    let (bots, e) := botsFor e aid.text
    if (bots.filter fun id => (e.account id).side = side).length < s.MIN_PER_SIDE then
      match newBot s e q aid side (d 0) with
      | (e, true) => fillSide q aid side n (fun i => d (i + 1)) e
      | (e, false) => e
    else e

/-- One bot towards the minimum of a side. The state carries how many the side has. -/
def addMinimum (aid : ArenaId) (side : Side) (px : ℚ) (st : State × ℕ) (id : String) : State × ℕ :=
  let (e, count) := st
  let minUsd := s.BOT_STAKE_USD_MIN
  if s.MIN_PER_SIDE ≤ count then st
  else if (e.two aid).state.entries.any fun en => en.id = entryId id side then st
  else
    let (e, bal) := topUpTo s e id (slotField aid side) px minUsd
    if bal < minUsd then (e, count) else (deployBot s e aid id side (minUsd / px) minUsd, count + 1)

def ensureSide (q : Quotes) (aid : ArenaId) (d : Side → ℕ → BotDraw) (e : State) (side : Side) : State :=
  let round := (e.two aid).state.round
  let f := slotField aid side
  let e := e.freeze (.two aid) round f q
  let px := e.roundPx (.two aid, round, f)
  if px ≤ 0 then e
  else
    let count := ((e.two aid).state.entries.filter fun en => en.side = side).length
    if s.MIN_PER_SIDE ≤ count then e
    else
      let e := fillSide s q aid side (s.MIN_PER_SIDE * 2) (d side) e
      let (bots, e) := botsFor e aid.text
      (bots.foldl (addMinimum s aid side px) (e, count)).1

def ensureMinimumEntries (q : Quotes) (aid : ArenaId) (d : Side → ℕ → BotDraw) (e : State) : State :=
  if (e.two aid).state.phase ≠ .lobby then e
  else [Side.bull, Side.uwu].foldl (ensureSide s q aid d) e

/-- The random numbers of one bot that may play. -/
structure PlayDraw where
  skip : ℚ
  side : ℚ
  stake : ℚ

/-- The random order and number of those picked from one side. -/
structure Pick where
  order : List String → List String
  perm : ∀ l, (order l).Perm l
  count : ℚ

/-- A bot's side for this round: what it can pay for, by a weighted coin when it can pay for both. -/
def chooseSide (q : Quotes) (aid : ArenaId) (a : Account) (u : ℚ) : Side :=
  let fA := slotField aid .bull
  let fB := slotField aid .uwu
  let okA := minStakeOf s q fA ≤ a.bal fA
  let okB := minStakeOf s q fB ≤ a.bal fB
  if okA ∧ okB then
    let vA := a.bal fA * q.safe fA
    let vB := a.bal fB * q.safe fB
    let pA := if 0 < vA + vB then vA / (vA + vB) else 5 / 10
    if u < 25 / 100 + 5 / 10 * pA then .bull else .uwu
  else if okA then .bull else if okB then .uwu else a.side

def botStake (bankroll minStake : ℚ) (a : Account) (u : ℚ) : ℚ :=
  if 0 < s.BOT_STAKE_MAX then min (minStake + u * (s.BOT_STAKE_MAX - minStake)) bankroll
  else min (min (max minStake (bankroll * (s.BOT_COMMIT_MIN + u * (s.BOT_COMMIT_MAX - s.BOT_COMMIT_MIN)) *
    a.temper.getD 1)) CAP) bankroll

/-- One bot enters, or sits out. -/
def botEnter (q : Quotes) (aid : ArenaId) (st : State × (ℕ → PlayDraw)) (id : String) : State × (ℕ → PlayDraw) :=
  let (e, d) := st
  let rest := fun i => d (i + 1)
  let a := e.account id
  if s.PLAY_MAX = 0 ∧ (d 0).skip < a.skip.getD (25 / 100) then (e, rest)
  else
    let side := chooseSide s q aid a (d 0).side
    let e := e.touch id fun a => { a with side }
    let f := slotField aid side
    let minStake := minStakeOf s q f
    let stake := botStake s (a.bal f) minStake a (d 0).stake
    if minStake ≤ 0 ∨ stake < minStake then (e, rest)
    else
      let round := (e.two aid).state.round
      let e := e.freeze (.two aid) round f q
      let usdN := stake * e.roundPx (.two aid, round, f)
      if usdN ≤ 0 then (e, rest) else (deployBot s e aid id side stake usdN, rest)

/-- The room a lobby has on each side, from the stakes of players. -/
def roomFor (e : State) (aid : ArenaId) : ℕ :=
  let humanUsd := (((e.two aid).state.entries.filter fun en => !Text.includes ":bot:" en.id).map
    fun en => en.stake / (1 - FEE)).sum
  let IDLE_MAX := max 1 s.PLAY_IDLE_MAX
  let opened := if 0 < humanUsd then IDLE_MAX + ⌈humanUsd / s.PLAY_SCALE_USD⌉.toNat else IDLE_MAX
  min s.PLAY_MAX (max IDLE_MAX opened)

def pickSide (e : State) (bots : List String) (hi : ℕ) (side : Side) (pick : Pick) : List String :=
  let lo := min s.PLAY_MIN hi
  let want := lo + ⌊pick.count * max 1 ((hi : ℚ) - lo + 1)⌋.toNat
  (pick.order (bots.filter fun id => (e.account id).side = side)).take want

def botsEnter (q : Quotes) (aid : ArenaId) (pick : Side → Pick) (d : ℕ → PlayDraw) (e : State) : State :=
  let e := capPopulation s e q aid
  if (e.two aid).state.phase ≠ .lobby then e
  else
    let (bots, e) := botsFor e aid.text
    let pool := if 0 < s.PLAY_MAX then
        pickSide s e bots (roomFor s e aid) .bull (pick .bull) ++ pickSide s e bots (roomFor s e aid) .uwu (pick .uwu)
      else bots
    (pool.foldl (botEnter s q aid) (e, d)).1

/-! ## Settlement -/

/-- One fighter's payout, each side in its own token at the price of the round. -/
def payFighter (q : Quotes) (aid : ArenaId) (round : ℕ) (e : State) (pay : String × Payout) : State :=
  let id := walletOf pay.1
  match e.ledger.get id with
  | none => e
  | some _ =>
    let fA := slotField aid .bull
    let fB := slotField aid .uwu
    let e := (e.freeze (.two aid) round fA q).freeze (.two aid) round fB q
    let retA := unitsAtRound e (.two aid) round fA pay.2.bull
    let retB := unitsAtRound e (.two aid) round fB pay.2.uwu
    let ret := retA * e.roundPx (.two aid, round, fA) + retB * e.roundPx (.two aid, round, fB)
    let e := (e.post (.two aid) round id fA retA).post (.two aid) round id fB retB
    let e := e.touch id fun a => { a with games := a.games + 1, ret := a.ret + ret }
    { e with payments := e.payments ++ [⟨.two aid, round, pay.1⟩] }

/-- A bot after a round: it changes to the side of the coin it holds, and is retired when its own coin no
longer buys a stake. -/
def reviewBot (q : Quotes) (aid : ArenaId) (e : State) (id : String) : State :=
  let a := e.account id
  let own := slotField aid a.side
  let usdA := a.bal (slotField aid .bull) * q.safe (slotField aid .bull)
  let usdB := a.bal (slotField aid .uwu) * q.safe (slotField aid .uwu)
  let want : Side := if usdB ≤ usdA then .bull else .uwu
  let e := if a.side ≠ want ∧ s.BOT_BUST_USD ≤ max usdA usdB then e.touch id fun a => { a with side := want } else e
  if a.bal own * q.safe own < s.BOT_BUST_USD then retireBot s e id else e

/-- The population that an arena may grow to, given the players in the settled round. -/
def popTarget (e : State) (q : Quotes) (arena : Arena) (realPlaying : ℕ) : ℤ :=
  let popCap := min s.POP_MAX (s.POP_START + ⌊(e.roundsByArena arena : ℚ) * s.POP_GROWTH⌋)
  let wanted := max s.POP_MIN (popCap - realPlaying * 2)
  match popAffordable s e q with
  | some n => min wanted n
  | none => wanted

/-- New bots until the target is met or none can be funded. -/
def populate (q : Quotes) (aid : ArenaId) (target : ℤ) : ℕ → (ℕ → BotDraw) → State → State
  | 0, _, e => e
  | n + 1, d, e =>
    let (bots, e) := botsFor e aid.text
    if (bots.length : ℤ) < target then
      let (first, e) := botsFor e aid.text
      let (second, e) := botsFor e aid.text
      let side : Side := if (first.filter fun id => (e.account id).side = .bull).length ≤
        (second.filter fun id => (e.account id).side = .uwu).length then .bull else .uwu
      match newBot s e q aid side (d 0) with
      | (e, true) => populate q aid target n (fun i => d (i + 1)) e
      | (e, false) => e
    else e

/-- Retire what is broke, count the round, and let new bots in. -/
def renew (q : Quotes) (aid : ArenaId) (realPlaying : ℕ) (d : ℕ → BotDraw) (e : State) : State :=
  let (bots, e) := botsFor e aid.text
  let e := bots.foldl (reviewBot s q aid) e
  let e := { e with roundsByArena := Function.update e.roundsByArena (.two aid) (e.roundsByArena (.two aid) + 1) }
  let target := popTarget s e q (.two aid) realPlaying
  populate s q aid target (target.toNat + e.ledger.entries.length + 1) d e

def onSettle (q : Quotes) (aid : ArenaId) (r : RoundResult) (st : RoundState Entry RoundResult) (d : ℕ → BotDraw)
    (e : State) : State :=
  let e := r.settlement.entries.foldl (payFighter q aid st.round) e
  -- the history of rounds asks for both prices
  let e := (e.freeze (.two aid) st.round (slotField aid .bull) q).freeze (.two aid) st.round (slotField aid .uwu) q
  renew s q aid (st.entries.filter fun en => !Text.includes ":bot:" en.id).length d e

/-- A call of a runner's `tick`, with the settlement that it waits for and the next lobby. -/
def tickArena (q : Quotes) (aid : ArenaId) (now : ℚ) (draw : Draw) (d : ℕ → BotDraw) (e : State) : State :=
  let c := RoundRunner s.platform s.round aid.eco
  match tick s.platform s.round c (e.two aid) now draw with
  | (r, .returns _) => { e with two := Function.update e.two aid r }
  | (r, .awaits result) =>
    let e := onSettle s q aid result r.state d { e with two := Function.update e.two aid r }
    let lobby := freshLobby s.platform s.round (r.state.round + 1) draw
    { e with
      two := Function.update e.two aid lobby
      settled := e.settled ++ [⟨.two aid, r.state.round, r.state.entries.map (·.id)⟩] }

end BullsUnicorns.Engine

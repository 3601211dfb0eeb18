import BullsUnicorns.Lib.Machine
import BullsUnicorns.Lib.Text
import BullsUnicorns.Repeat.AutoDeploy

/-!
# The page that drives the rule

`useAutoDeploy.ts`: what a failed send means, what a confirmation records, and the hook's own clock.
A page does one act at a time: a tick of the clock, a press, a deposit that lands on the chain, its
confirmation reaching `onEntered`, the report of the promise that waited for it. Of the rounds that
the write path targets only their order is asked: they do not decrease.
-/

namespace BullsUnicorns.Repeat

/-! ## What a failed send means -/

inductive WalletFaultCode where
  | notInstalled | rejected | connectFailed | disconnected | wrongNetwork | sessionExpired | unknown
deriving DecidableEq, Repr

/-- Something thrown: its message where it is an `Error`, and what `classifyWalletError` makes of it. -/
structure Thrown where
  message : Option String
  code : WalletFaultCode
  short : String
deriving DecidableEq, Repr

def isUnattendedRefusal (e : Thrown) : Bool := e.message = some UNATTENDED_REFUSED

inductive SendFailure where
  | sessionLapsed | retry
deriving DecidableEq, Repr

def classifySendFailure (e : Thrown) : SendFailure :=
  if isUnattendedRefusal e then .retry
  else if e.code = .sessionExpired then .sessionLapsed
  else .retry

def messageOf (e : Thrown) : String :=
  match e.message with
  | some message => if Text.trim message = "" then e.short else message
  | none => e.short

/-! ## Confirmations and reports -/

def walletSwapped (previous next : String) : Bool := previous ≠ "" && next ≠ "" && previous ≠ next

def bookConfirmedDeposit (state : AutoDeployState) (side : Side) (roundNo : Option ℤ) : AutoDeployState :=
  match roundNo with
  | none => noteDeploy state side
  | some r =>
      if state.attempt.map AutoDeployAttempt.outcome = some .sending then noteDeploy state side
      else noteRoundEntered (noteDeploy state side) r

/-- How the promise of a send settles: the confirmed signature, or what was thrown. -/
inductive Settled where
  | confirmed (signature : String)
  | failed (error : Thrown)
deriving DecidableEq, Repr

structure SendOutcome where
  roundNo : ℤ
  amountUsd : ℚ
  sessionEpochAtSend : ℕ
  walletAtSend : String
  settled : Settled
  nowMs : ℤ

def applySendOutcome (state : AutoDeployState) (outcome : SendOutcome) : AutoDeployState :=
  match outcome.settled with
  | .confirmed signature =>
      attemptLanded state outcome.roundNo signature outcome.amountUsd outcome.walletAtSend
  | .failed error =>
      match classifySendFailure error with
      | .sessionLapsed => noteSessionRefused state outcome.roundNo outcome.sessionEpochAtSend
      | .retry => attemptFailed state outcome.roundNo (messageOf error) outcome.nowMs

/-! ## The hook -/

def ENTRY_CLOSE_GUARD_MS : ℤ := 2000

structure LiveFighter where
  isYou : Bool
deriving DecidableEq, Repr

structure LiveRound where
  roundNo : ℤ
  phase : PhaseName
  lobbyClosesAtMs : Option ℤ
  fighters : List LiveFighter
deriving DecidableEq, Repr

def entriesOpen (live : Option LiveRound) (nowMs : ℤ) : Bool :=
  match live with
  | none => false
  | some live =>
      if live.phase ≠ .lobby then false
      else
        match live.lobbyClosesAtMs with
        | none => true
        | some closesAt => nowMs + ENTRY_CLOSE_GUARD_MS < closesAt

/-- `AutoDeployParams`, as a render hands them to the hook. The play gate and the signing plan are what
`signing` is made of. -/
structure Params where
  live : Option LiveRound
  targetRoundNo : Option ℤ
  entering : Bool
  simWalletUsd : ℚ
  gated : Bool
  plan : SigningPlan
  sessionEpoch : ℕ
  roundLog : List RoundSummary
  youPubkey : String
deriving DecidableEq, Repr

/-- The provider asks the play gate before the plan. -/
def Params.signing (p : Params) : UnattendedSigning :=
  if p.gated then .blocked .noSigner else unattendedSigning p.plan

/-- What one tick asks `decideAutoDeploy`. -/
def Params.input (p : Params) (state : AutoDeployState) (nowMs : ℤ) : AutoDeployInput where
  state := state
  roundNo := p.live.map LiveRound.roundNo
  targetRoundNo := p.targetRoundNo
  phase := p.live.map LiveRound.phase
  entriesOpen := entriesOpen p.live nowMs
  alreadyIn := p.live.any (·.fighters.any LiveFighter.isYou)
  entering := p.entering
  amountUsd := resolveAmountUsd state.rule p.simWalletUsd
  signing := p.signing
  sessionEpoch := p.sessionEpoch
  roundLog := p.roundLog
  youPubkey := p.youPubkey
  nowMs := nowMs

/-- The state that the decision of a tick is asked of. -/
def caughtUp (state : AutoDeployState) (p : Params) : AutoDeployState :=
  bookRunPnl (expireStaleAttempt state (p.live.map LiveRound.roundNo)) p.roundLog p.youPubkey

/-- `evaluate`: the state after a tick, and the deposit that it sends. -/
def evaluate (state : AutoDeployState) (p : Params) (nowMs : ℤ) : AutoDeployState × Option UnattendedEntry :=
  match decideAutoDeploy (p.input (caughtUp state p) nowMs) with
  | .hold _ => (caughtUp state p, none)
  | .abandon roundNo reason => (abandonAttempt (caughtUp state p) roundNo reason, none)
  | .fire entry _ => (beginAttempt (caughtUp state p) entry.roundNo, some entry)

/-! ## The page -/

/-- A deposit that the rule sent. Besides what the hook captures: the run that sent it and the budget
then in force, whether it has landed on the chain, whether its confirmation has reached `onEntered`,
and how its promise has settled. -/
structure Send where
  entry : UnattendedEntry
  sessionEpochAtSend : ℕ
  walletAtSend : String
  run : ℕ
  budgetUsd : ℚ
  landed : Bool
  noted : Bool
  settled : Option Settled
deriving DecidableEq, Repr

/-- A deposit by hand: the round that was targeted when it was sent, whether the page still waits for
it, and whether it has confirmed. -/
structure Press where
  side : Side
  roundNo : Option ℤ
  awaited : Bool
  confirmed : Bool
deriving DecidableEq, Repr

structure Page where
  auto : AutoDeployState
  /-- `runWalletRef` -/
  runWallet : String
  /-- The newest round that was targeted. -/
  target : Option ℤ
  sends : List Send
  presses : List Press
  /-- The number of times that the rule was armed. -/
  run : ℕ
  /-- The round on screen when it was last armed. -/
  visible : Option ℤ
  /-- The rounds into which a deposit was reported landed since then. -/
  entered : List ℤ

/-- A page that has just loaded, with nobody connected. -/
def Page.loaded : Page := ⟨INITIAL_AUTO_DEPLOY, "", none, [], [], 0, none, []⟩

inductive PageAct where
  | evaluate (p : Params) (nowMs : ℤ)
  | arm (rule : AmountRule) (visibleRoundNo : Option ℤ) (nowMs : ℤ)
  | armWith (strategy : Strategy) (limits : AutoLimits) (visibleRoundNo : Option ℤ) (nowMs : ℤ)
  | disarm
  | setRule (rule : AmountRule)
  | setLimits (limits : AutoLimits)
  /-- A render with another account, and the effect that it runs. -/
  | connected (youPubkey : String)
  /-- A deposit by hand is sent. -/
  | press (side : Side) (targetRoundNo : Option ℤ)
  /-- The page no longer waits for one: it failed, or its time ran out. -/
  | pressGivenUp (k : ℕ)
  | pressConfirmed (k : ℕ)
  /-- The chain executes a deposit of the rule. -/
  | landed (k : ℕ)
  /-- The confirmation of one reaches `onEntered`. -/
  | noted (k : ℕ)
  /-- The promise of one settles. -/
  | settled (k : ℕ) (how : Settled) (nowMs : ℤ)
deriving DecidableEq, Repr

namespace Page

/-- A deposit of the page is pending: one of the rule that has not been reported, or one by hand that
the page waits for. -/
def pending (s : Page) : Bool := s.sends.any (·.settled.isNone) || s.presses.any Press.awaited

/-- The target may not go back. -/
def targets (s : Page) (next : Option ℤ) : Bool := s.target.all fun old => next.all (old ≤ ·)

def advance (s : Page) (next : Option ℤ) : Option ℤ := next.or s.target

/-- `noteDeploy`, for every confirmed deposit. -/
def note (s : Page) (side : Side) (roundNo : Option ℤ) : Page :=
  { s with auto := bookConfirmedDeposit s.auto side roundNo, entered := roundNo.toList ++ s.entered }

/-- Every arming starts a run. -/
def startRun (s : Page) (auto : AutoDeployState) (visibleRoundNo : Option ℤ) : Page :=
  { s with auto := auto, run := s.run + 1, visible := visibleRoundNo, entered := [] }

def sendOf (s : Page) (p : Params) (entry : UnattendedEntry) : Send :=
  ⟨entry, p.sessionEpoch, p.youPubkey, s.run, s.auto.limits.budgetUsd, false, false, none⟩

def outcomeOf (snd : Send) (how : Settled) (nowMs : ℤ) : SendOutcome :=
  ⟨snd.entry.roundNo, snd.entry.amountUsd, snd.sessionEpochAtSend, snd.walletAtSend, how, nowMs⟩

/-- A promise settles once; it confirms what has been noted, and fails on what has not. -/
def maySettle (snd : Send) (how : Settled) : Bool :=
  snd.settled.isNone &&
    match how with
    | .confirmed _ => snd.noted
    | .failed _ => !snd.noted

/-- One act, with the deposit that it sends; refused where the page cannot do it. -/
def step (s : Page) : PageAct → Except Unit (Page × Option UnattendedEntry)
  | .evaluate p nowMs =>
      if s.targets p.targetRoundNo && (!s.pending || p.entering) then
        let s := { s with target := s.advance p.targetRoundNo }
        if p.youPubkey ≠ s.runWallet then .ok (s, none)
        else
          let (auto, fired) := Repeat.evaluate s.auto p nowMs
          .ok ({ s with auto := auto, sends := s.sends ++ (fired.map (s.sendOf p)).toList }, fired)
      else .error ()
  | .arm rule visibleRoundNo nowMs =>
      .ok (s.startRun (Repeat.arm s.auto rule visibleRoundNo nowMs) visibleRoundNo, none)
  | .armWith strategy limits visibleRoundNo nowMs =>
      .ok (s.startRun (Repeat.armWith s.auto strategy limits visibleRoundNo nowMs) visibleRoundNo, none)
  | .disarm => .ok ({ s with auto := Repeat.disarm s.auto }, none)
  | .setRule rule => .ok ({ s with auto := Repeat.setRule s.auto rule }, none)
  | .setLimits limits => .ok ({ s with auto := Repeat.setLimits s.auto limits }, none)
  | .connected youPubkey =>
      .ok ({ s with
        runWallet := youPubkey
        auto := if walletSwapped s.runWallet youPubkey && s.auto.armed then Repeat.disarm s.auto else s.auto }, none)
  | .press side targetRoundNo =>
      if s.targets targetRoundNo then
        .ok ({ s with
          target := s.advance targetRoundNo
          presses := s.presses ++ [⟨side, targetRoundNo, true, false⟩] }, none)
      else .error ()
  | .pressGivenUp k =>
      .ok ({ s with presses := s.presses.modify k fun press => { press with awaited := false } }, none)
  | .pressConfirmed k =>
      match s.presses[k]? with
      | some press =>
          if press.confirmed then .error ()
          else
            .ok ({ s.note press.side press.roundNo with
              presses := s.presses.modify k fun press => { press with awaited := false, confirmed := true } }, none)
      | none => .error ()
  | .landed k =>
      .ok ({ s with sends := s.sends.modify k fun snd => { snd with landed := true } }, none)
  | .noted k =>
      match s.sends[k]? with
      | some snd =>
          if snd.landed && !snd.noted then
            .ok ({ s.note snd.entry.side (some snd.entry.roundNo) with
              sends := s.sends.modify k fun snd => { snd with noted := true } }, none)
          else .error ()
      | none => .error ()
  | .settled k how nowMs =>
      match s.sends[k]? with
      | some snd =>
          if maySettle snd how then
            .ok ({ s with
              auto := applySendOutcome s.auto (outcomeOf snd how nowMs)
              sends := s.sends.modify k fun snd => { snd with settled := some how } }, none)
          else .error ()
      | none => .error ()

end Page

def page : Machine Page PageAct (Option UnattendedEntry) Unit where
  step := Page.step

end BullsUnicorns.Repeat

import BullsUnicorns.Repeat.UseAutoDeploy

/-!
# What the player is told of a lost round

`lostRound` asks a transition which round it has written off, and `commitLosing` says so. The journal of
a page keeps beside it, in order, what was begun, what was booked and what was said.
-/

namespace BullsUnicorns.Repeat

def abandonText (reason : AbandonReason) (error : Option String) : String :=
  match reason with
  | .entriesClosed => "the lobby's deposit deadline passed before it could get in"
  | .phaseMovedOn => "the round had already left the lobby when this tab first saw it"
  | .retriesExhausted => toString MAX_TRIES ++ " attempts failed" ++ (error.map (" — " ++ ·)).getD ""
  | .roundMovedOn => "a newer round opened while it was still retrying"
  | .sessionLapsed =>
      "your play session ran out, and it will not raise a wallet dialog you are not there to " ++
        "answer — open a fresh session and it starts again at the next round"

def lostRound (before after : AutoDeployState) : Option AutoDeployAttempt :=
  match after.attempt with
  | none => none
  | some lost =>
      if lost.outcome ≠ .abandoned then none
      else if before.attempt.any fun prior => prior.roundNo = lost.roundNo ∧ prior.outcome = .abandoned then none
      else some lost

/-- A reason that is not there prints as `undefined`. -/
def lostRoundText (attempt : AutoDeployAttempt) : String :=
  "Repeat missed round " ++ toString attempt.roundNo ++ " — " ++
    (attempt.abandonedBecause.map (abandonText · attempt.error)).getD "undefined"

/-! ## The journal -/

inductive Note where
  /-- A run starts. -/
  | armed
  /-- `beginAttempt` for a round, or a decision to abandon it. -/
  | began (roundNo : ℤ)
  /-- The record says that a deposit into the round has landed. -/
  | landed (roundNo : ℤ)
  /-- `attemptLanded` books the rule's own deposit. -/
  | entered (roundNo : ℤ)
  /-- The toast about a lost round. -/
  | lost (roundNo : ℤ) (text : String)
deriving DecidableEq, Repr

/-- What `commitLosing` says of a transition. -/
def losing (before after : AutoDeployState) : List Note :=
  (lostRound before after).toList.map fun lost => .lost lost.roundNo (lostRoundText lost)

def landedNotes (state : AutoDeployState) : List Note :=
  (state.attempt.filter (·.outcome = .landed)).toList.map fun attempt => .landed attempt.roundNo

/-- `evaluate`: an overtaken retry is closed before the decision is asked for. -/
def evaluateNotes (state : AutoDeployState) (p : Params) (nowMs : ℤ) : List Note :=
  let caught := caughtUp state p
  losing state (expireStaleAttempt state (p.live.map LiveRound.roundNo)) ++
    match decideAutoDeploy (p.input caught nowMs) with
    | .hold _ => []
    | .abandon roundNo reason => losing caught (abandonAttempt caught roundNo reason) ++ [.began roundNo]
    | .fire entry _ => [.began entry.roundNo]

def settledNotes (state : AutoDeployState) (outcome : SendOutcome) : List Note :=
  (match outcome.settled with
    | .confirmed _ => (state.attemptAt outcome.roundNo).toList.map fun _ => .entered outcome.roundNo
    | .failed _ => []) ++
    losing state (applySendOutcome state outcome)

def Page.notes (s : Page) : PageAct → List Note
  | .evaluate p nowMs => if p.youPubkey ≠ s.runWallet then [] else evaluateNotes s.auto p nowMs
  | .arm .. | .armWith .. => [.armed]
  | .settled k how nowMs =>
      match s.sends[k]? with
      | some snd => settledNotes s.auto (Page.outcomeOf snd how nowMs)
      | none => []
  | _ => []

structure Journal where
  page : Page
  notes : List Note

namespace Journal

def loaded : Journal := ⟨Page.loaded, []⟩

def step (j : Journal) (act : PageAct) : Except Unit (Journal × Option UnattendedEntry) :=
  (j.page.step act).map fun (page, fired) => (⟨page, j.notes ++ (j.page.notes act ++ landedNotes page.auto)⟩, fired)

end Journal

def journal : Machine Journal PageAct (Option UnattendedEntry) Unit where
  step := Journal.step

/-! ## What the notes say -/

/-- The rounds that the toasts were about. -/
def lostRounds (notes : List Note) : List ℤ :=
  notes.filterMap fun note =>
    match note with
    | .lost r _ => some r
    | _ => none

/-- The rounds of the current run that were reported lost and not later entered. -/
def missedRounds (notes : List Note) : List ℤ :=
  notes.foldl
    (fun missed note =>
      match note with
      | .armed => []
      | .lost r _ => r :: missed
      | .entered r => missed.filter (· ≠ r)
      | _ => missed)
    []

/-- The rule is not done with the round of its record: a deposit is in flight, or another try is due. -/
def AutoDeployState.worksOn (state : AutoDeployState) (r : ℤ) : Prop :=
  ∃ a, state.attempt = some a ∧ a.roundNo = r ∧ (a.outcome = .sending ∨ a.outcome = .retrying)

/-- Of every round that was begun or written off: the rule is not done with it, a deposit into it has
landed, or it was reported lost, once. No round is reported twice, and the tally counts the reported
rounds of the current run. -/
structure Journal.NoSilence (j : Journal) : Prop where
  told : ∀ r, .began r ∈ j.notes →
    j.page.auto.worksOn r ∨ .landed r ∈ j.notes ∨ (lostRounds j.notes).count r = 1
  once : (lostRounds j.notes).Nodup
  missed : j.page.auto.tally.missed = (missedRounds j.notes).length ∧ (missedRounds j.notes).Nodup

/-- A deposit by hand into a newer round does not confirm while the rule is to try an older one again; and
the rule is not armed while it is not done with a round, nor with the round that the page targets already
reported lost and not on screen. -/
def Journal.Minds (j : Journal) : PageAct → Prop
  | .pressConfirmed k => ∀ press r a, j.page.presses[k]? = some press → press.roundNo = some r →
      j.page.auto.attempt = some a → a.outcome = .retrying → r ≤ a.roundNo
  | .arm _ visibleRoundNo _ | .armWith _ _ visibleRoundNo _ =>
      (∀ r, ¬ j.page.auto.worksOn r) ∧
        ∀ r ∈ lostRounds j.notes, j.page.target = some r → visibleRoundNo.any (r ≤ ·)
  | _ => True

end BullsUnicorns.Repeat

import BullsUnicorns.Repeat.Lemmas.Attempts

/-!
# What each transition does to the record

One lemma a transition, and from them that the page keeps its record in order.
-/

namespace BullsUnicorns.Repeat

variable {state : AutoDeployState}

/-- The record says that a deposit is in flight. -/
def AutoDeployState.isSending (state : AutoDeployState) : Prop :=
  state.attempt.map AutoDeployAttempt.outcome = some .sending

instance : Decidable state.isSending := inferInstanceAs (Decidable (_ = _))

theorem isSending_iff : state.isSending ↔ ∃ b, state.attempt = some b ∧ b.outcome = .sending := by
  simp [AutoDeployState.isSending]

theorem not_isSending : ¬ state.isSending ↔ ∀ b, state.attempt = some b → b.outcome ≠ .sending := by
  simp [isSending_iff]

/-! ## The transitions -/

theorem noteRoundEntered_cases (state : AutoDeployState) (r : ℤ) :
    (noteRoundEntered state r = state ∧
      ∃ b, state.attempt = some b ∧ (r < b.roundNo ∨ b.roundNo = r ∧ b.outcome = .landed)) ∨
    ∃ b', noteRoundEntered state r = { state with attempt := some b' } ∧ b'.roundNo = r ∧ b'.outcome = .landed ∧
      ∀ b, state.attempt = some b → b.roundNo ≤ r := by
  simp only [noteRoundEntered]
  split
  · rename_i hnewer
    obtain ⟨b, hb, hlt⟩ : ∃ b, state.attempt = some b ∧ r < b.roundNo := by
      simpa [Option.any_eq_true] using hnewer
    exact .inl ⟨rfl, b, hb, .inl hlt⟩
  · rename_i hnewer
    split
    · rename_i hlanded
      obtain ⟨b, hb, ho⟩ := Option.map_eq_some_iff.mp hlanded
      obtain ⟨hat, hr⟩ := attemptAt_eq_some.mp hb
      exact .inl ⟨rfl, b, hat, .inr ⟨hr, ho⟩⟩
    · refine .inr ⟨_, rfl, rfl, rfl, ?_⟩
      simpa [Option.any_eq_false] using hnewer

/-- A confirmed deposit of a round is remembered, unless the rule's own is in flight. -/
theorem bookConfirmedDeposit_cases (state : AutoDeployState) (side : Side) (roundNo : Option ℤ) :
    (bookConfirmedDeposit state side roundNo = noteDeploy state side ∧ (∀ r, roundNo = some r → state.isSending)) ∨
    ∃ r, roundNo = some r ∧ ¬ state.isSending ∧
      bookConfirmedDeposit state side roundNo = noteRoundEntered (noteDeploy state side) r := by
  cases roundNo with
  | none => exact .inl ⟨rfl, by simp⟩
  | some r =>
      by_cases hsending : state.isSending
      · exact .inl ⟨if_pos hsending, fun _ _ => hsending⟩
      · exact .inr ⟨r, rfl, hsending, if_neg hsending⟩

theorem expireStaleAttempt_cases (state : AutoDeployState) (roundNo : Option ℤ) :
    expireStaleAttempt state roundNo = state ∨
      ∃ b, state.attempt = some b ∧ b.outcome = .retrying ∧
        expireStaleAttempt state roundNo = abandonAttempt state b.roundNo .roundMovedOn := by
  unfold expireStaleAttempt
  split
  · rename_i b r hb
    split
    · rename_i hstale
      exact .inr ⟨b, hb, hstale.2, rfl⟩
    · exact .inl rfl
  · exact .inl rfl

theorem abandonAttempt_attempt (state : AutoDeployState) (r : ℤ) (reason : AbandonReason) :
    ∃ b, (abandonAttempt state r reason).attempt = some b ∧ b.roundNo = r ∧ b.outcome = .abandoned :=
  ⟨_, rfl, rfl, rfl⟩

theorem beginAttempt_attempt (state : AutoDeployState) (r : ℤ) :
    ∃ b, (beginAttempt state r).attempt = some b ∧ b.roundNo = r ∧ b.outcome = .sending ∧
      b.tries = ((state.attemptAt r).map AutoDeployAttempt.tries).getD 0 :=
  ⟨_, rfl, rfl, rfl, rfl⟩

theorem attemptLanded_cases (state : AutoDeployState) (r : ℤ) (signature : String) (usd : ℚ) (wallet : String) :
    (state.attemptAt r = none ∧ attemptLanded state r signature usd wallet = state) ∨
    ∃ b b', state.attempt = some b ∧ b.roundNo = r ∧ b'.roundNo = r ∧ b'.outcome = .landed ∧
      attemptLanded state r signature usd wallet =
        { state with
          attempt := some b'
          tally := tallyEntered state.tally r usd
          pnl := pnlEntered state.pnl r wallet } := by
  unfold attemptLanded
  split
  · rename_i hat
    exact .inl ⟨hat, rfl⟩
  · rename_i b hat
    obtain ⟨hb, hr⟩ := attemptAt_eq_some.mp hat
    refine .inr ⟨b, { b with outcome := .landed, tries := b.tries + 1, nextTryAtMs := none, signature := some signature, error := none }, hb, hr, hr, rfl, rfl⟩

theorem attemptFailed_cases (state : AutoDeployState) (r : ℤ) (error : String) (nowMs : ℤ) :
    (attemptFailed state r error nowMs = state ∧ ∀ b, state.attempt = some b → b.roundNo = r → b.outcome = .landed) ∨
    ∃ b b', state.attempt = some b ∧ b.roundNo = r ∧ b.outcome ≠ .landed ∧ b'.roundNo = r ∧ b'.outcome = .retrying ∧
      b'.tries = b.tries + 1 ∧ attemptFailed state r error nowMs = { state with attempt := some b' } := by
  unfold attemptFailed
  split
  · rename_i hat
    refine .inl ⟨rfl, fun b hb hr => ?_⟩
    rw [attemptAt_eq_some.mpr ⟨hb, hr⟩] at hat
    cases hat
  · rename_i b hat
    obtain ⟨hb, hr⟩ := attemptAt_eq_some.mp hat
    split
    · rename_i hlanded
      refine .inl ⟨rfl, fun c hc _ => ?_⟩
      rw [hb] at hc
      cases hc
      exact hlanded
    · rename_i hlanded
      exact .inr ⟨b, { b with outcome := .retrying, tries := b.tries + 1, nextTryAtMs := some (nowMs + RETRY_BACKOFF_MS), error := some error }, hb, hr, hlanded, hr, rfl, rfl, rfl⟩

/-! ## A tick -/

@[simp]
theorem bookRunPnl_attempt (state : AutoDeployState) (log : List RoundSummary) (you : String) :
    (bookRunPnl state log you).attempt = state.attempt := rfl

/-- A tick first catches up: at most, a retry of an overtaken round is written off. -/
theorem caughtUp_cases (state : AutoDeployState) (p : Params) :
    (caughtUp state p).attempt = state.attempt ∨
      ∃ b b', state.attempt = some b ∧ b.outcome = .retrying ∧ b'.roundNo = b.roundNo ∧ b'.outcome = .abandoned ∧
        (caughtUp state p).attempt = some b' := by
  rcases expireStaleAttempt_cases state (p.live.map LiveRound.roundNo) with hsame | ⟨b, hb, hretrying, hgone⟩
  · exact .inl (by rw [caughtUp, hsame, bookRunPnl_attempt])
  · obtain ⟨b', hb', hround, houtcome⟩ := abandonAttempt_attempt state b.roundNo .roundMovedOn
    exact .inr ⟨b, b', hb, hretrying, hround, houtcome, by rw [caughtUp, hgone, bookRunPnl_attempt, hb']⟩

/-- What a tick decides, and what it then does. -/
theorem evaluate_cases (state : AutoDeployState) (p : Params) (nowMs : ℤ) :
    (evaluate state p nowMs = (caughtUp state p, none)) ∨
    (∃ side r usd reason, Intends (p.input (caughtUp state p) nowMs) side r usd ∧
      evaluate state p nowMs = (abandonAttempt (caughtUp state p) r reason, none)) ∨
    ∃ entry, Fires (p.input (caughtUp state p) nowMs) entry ∧
      evaluate state p nowMs = (beginAttempt (caughtUp state p) entry.roundNo, some entry) := by
  cases hdecide : decideAutoDeploy (p.input (caughtUp state p) nowMs) with
  | hold reason => exact .inl (by simp [evaluate, hdecide])
  | abandon r reason =>
      obtain ⟨side, usd, hint⟩ := decideAutoDeploy_abandon hdecide
      exact .inr (.inl ⟨side, r, usd, reason, hint, by simp [evaluate, hdecide]⟩)
  | fire entry n => exact .inr (.inr ⟨entry, decideAutoDeploy_fire hdecide, by simp [evaluate, hdecide]⟩)

theorem evaluate_fire {p : Params} {nowMs : ℤ} {entry : UnattendedEntry}
    (h : (evaluate state p nowMs).2 = some entry) :
    Fires (p.input (caughtUp state p) nowMs) entry ∧
      (evaluate state p nowMs).1 = beginAttempt (caughtUp state p) entry.roundNo := by
  rcases evaluate_cases state p nowMs with heval | ⟨_, _, _, _, _, heval⟩ | ⟨entry', hfires, heval⟩
  · simp [heval] at h
  · simp [heval] at h
  · rw [heval] at h
    cases h
    exact ⟨hfires, by rw [heval]⟩

/-! ## What no transition but arming touches -/

theorem expireStaleAttempt_floorRound (roundNo : Option ℤ) :
    (expireStaleAttempt state roundNo).floorRound = state.floorRound := by
  rcases expireStaleAttempt_cases state roundNo with hsame | ⟨_, _, _, hgone⟩
  · rw [hsame]
  · rw [hgone]
    rfl

theorem caughtUp_floorRound (p : Params) : (caughtUp state p).floorRound = state.floorRound :=
  expireStaleAttempt_floorRound _

theorem evaluate_floorRound (p : Params) (nowMs : ℤ) :
    (evaluate state p nowMs).1.floorRound = state.floorRound := by
  rcases evaluate_cases state p nowMs with heval | ⟨_, _, _, _, _, heval⟩ | ⟨_, _, heval⟩ <;>
    rw [heval] <;> exact caughtUp_floorRound p

theorem bookConfirmedDeposit_floorRound (side : Side) (roundNo : Option ℤ) :
    (bookConfirmedDeposit state side roundNo).floorRound = state.floorRound := by
  rcases bookConfirmedDeposit_cases state side roundNo with ⟨hbook, _⟩ | ⟨r, _, _, hbook⟩
  · rw [hbook]
    rfl
  · rw [hbook]
    rcases noteRoundEntered_cases (noteDeploy state side) r with ⟨hsame, _⟩ | ⟨b, hnote, _⟩
    · rw [hsame]
      rfl
    · rw [hnote]
      rfl

/-- The two things that a failed send may mean. -/
theorem applySendOutcome_failed (state : AutoDeployState) (o : SendOutcome) (e : Thrown) (h : o.settled = .failed e) :
    (classifySendFailure e = .sessionLapsed ∧
      applySendOutcome state o = noteSessionRefused state o.roundNo o.sessionEpochAtSend) ∨
    (classifySendFailure e = .retry ∧
      applySendOutcome state o = attemptFailed state o.roundNo (messageOf e) o.nowMs) := by
  cases hc : classifySendFailure e with
  | sessionLapsed => exact .inl ⟨rfl, by simp [applySendOutcome, h, hc]⟩
  | retry => exact .inr ⟨rfl, by simp [applySendOutcome, h, hc]⟩

theorem applySendOutcome_floorRound (o : SendOutcome) :
    (applySendOutcome state o).floorRound = state.floorRound := by
  cases hs : o.settled with
  | confirmed signature =>
      simp only [applySendOutcome, hs]
      rcases attemptLanded_cases state o.roundNo signature o.amountUsd o.walletAtSend with ⟨_, hsame⟩ | ⟨_, _, _, _, _, _, hland⟩
      · rw [hsame]
      · rw [hland]
  | failed e =>
      rcases applySendOutcome_failed state o e hs with ⟨_, happly⟩ | ⟨_, happly⟩
      · rw [happly]
        rfl
      · rw [happly]
        rcases attemptFailed_cases state o.roundNo (messageOf e) o.nowMs with ⟨hsame, _⟩ | ⟨_, _, _, _, _, _, _, _, hfail⟩
        · rw [hsame]
        · rw [hfail]

end BullsUnicorns.Repeat

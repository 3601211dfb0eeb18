import BullsUnicorns.Repeat.UseAutoDeploy

/-!
# What a decision and a tick have established

One inversion lemma for the ladder, from which what fires, what is abandoned and how much is sent
follow.
-/

namespace BullsUnicorns.Repeat

/-! ## Amounts -/

theorem centsWithin_le (room : ℚ) : (centsWithin room : ℚ) / 100 ≤ room := by
  have hround : (mathRound (room * 100) : ℚ) ≤ room * 100 + 1 / 2 := Int.floor_le _
  unfold centsWithin
  split
  · push_cast
    linarith
  · linarith

theorem one_le_centsWithin {room : ℚ} (h : MIN_STAKE_USD ≤ room) : 1 ≤ centsWithin room := by
  have hroom : 1 ≤ room * 100 := by
    simp only [MIN_STAKE_USD] at h
    linarith
  have hround : 1 ≤ mathRound (room * 100) := by
    apply Int.le_floor.mpr
    push_cast
    linarith
  unfold centsWithin
  split
  · rename_i hover
    -- a whole number above the room is above one cent
    have hlt : (1 : ℚ) < mathRound (room * 100) := by linarith
    have : (1 : ℤ) < mathRound (room * 100) := by exact_mod_cast hlt
    omega
  · exact hround

/-- What a clamped amount is: whole cents, at least one, within every bound. -/
structure Clamped (amountUsd : ℚ) (limits : AutoLimits) (spentUsd sent : ℚ) : Prop where
  cents : ∃ n : ℕ, sent = n / 100
  least : MIN_STAKE_USD ≤ sent
  amount : sent ≤ amountUsd
  roundCap : sent ≤ limits.perRoundCapUsd
  stakeCap : sent ≤ STAKE_CAP_USD
  budget : spentUsd + sent ≤ limits.budgetUsd

theorem clampToLimits_eq_some {amountUsd spentUsd sent : ℚ} {limits : AutoLimits}
    (h : clampToLimits amountUsd limits spentUsd = some sent) : Clamped amountUsd limits spentUsd sent := by
  unfold clampToLimits at h
  split at h
  · cases h
  · split at h
    · cases h
    · rename_i hroom
      cases h
      have hone := one_le_centsWithin (not_lt.mp hroom)
      have hle := centsWithin_le (roomUsd amountUsd limits spentUsd)
      have hmin : roomUsd amountUsd limits spentUsd ≤ amountUsd ∧
          roomUsd amountUsd limits spentUsd ≤ limits.perRoundCapUsd ∧
          roomUsd amountUsd limits spentUsd ≤ limits.budgetUsd - spentUsd ∧
          roomUsd amountUsd limits spentUsd ≤ STAKE_CAP_USD := by
        simp [roomUsd]
      obtain ⟨hamount, hround, hbudget, hstake⟩ := hmin
      constructor
      · obtain ⟨n, hn⟩ := Int.eq_ofNat_of_zero_le (show 0 ≤ centsWithin (roomUsd amountUsd limits spentUsd) by omega)
        exact ⟨n, by rw [hn]; simp⟩
      · have : (1 : ℚ) ≤ centsWithin (roomUsd amountUsd limits spentUsd) := by exact_mod_cast hone
        simp only [MIN_STAKE_USD]
        linarith
      · exact hle.trans hamount
      · exact hle.trans hround
      · exact hle.trans hstake
      · linarith

/-- A rule resolves to its own figure to the nearest cent. -/
theorem resolveAmountUsd_le {rule : AmountRule} {simWalletUsd amountUsd : ℚ}
    (h : resolveAmountUsd rule simWalletUsd = some amountUsd) :
    amountUsd ≤ rule.rawUsd simWalletUsd + 1 / 200 := by
  unfold resolveAmountUsd at h
  split at h
  · cases h
  · cases h
    have hround : (mathRound (rule.rawUsd simWalletUsd * 100) : ℚ) ≤ rule.rawUsd simWalletUsd * 100 + 1 / 2 :=
      Int.floor_le _
    refine le_trans (min_le_right _ _) ?_
    linarith

/-! ## The ladder -/

/-- What holds where the ladder reaches its end. -/
structure Intends (input : AutoDeployInput) (side : Side) (roundNo : ℤ) (sendableUsd : ℚ) : Prop where
  armed : input.state.armed = true
  read : input.roundNo = some roundNo
  target : input.targetRoundNo = some roundNo
  floor : ∀ r, input.state.floorRound = some r → r < roundNo
  free : attemptHold input.state roundNo = none
  silent : input.signing = .silent
  sendable : sendable input = .ok sendableUsd

theorem decideAutoDeploy_cases (input : AutoDeployInput) :
    (∃ reason, decideAutoDeploy input = .hold reason) ∨
      ∃ side roundNo sendableUsd, Intends input side roundNo sendableUsd ∧
        decideAutoDeploy input = decideIntended input side roundNo sendableUsd := by
  cases harmed : input.state.armed with
  | false => exact .inl ⟨.disarmed, by simp [decideAutoDeploy, harmed]⟩
  | true =>
      cases hside : chooseSide input.state.sideRule input.state.side with
      | none => exact .inl ⟨.noSide, by simp [decideAutoDeploy, harmed, hside]⟩
      | some side =>
          cases hround : input.roundNo with
          | none => exact .inl ⟨.noRound, by simp [decideAutoDeploy, harmed, hside, hround]⟩
          | some roundNo =>
              by_cases htarget : input.targetRoundNo = some roundNo
              swap
              · exact .inl ⟨.roundChanging, by simp [decideAutoDeploy, harmed, hside, hround, htarget]⟩
              cases hfloor : input.state.floorRound.any (roundNo ≤ ·) with
              | true =>
                  exact .inl ⟨.waitingForNextRound,
                    by simp only [decideAutoDeploy, harmed, hside, hround, htarget, hfloor]; simp⟩
              | false =>
                  cases hfree : attemptHold input.state roundNo with
                  | some reason =>
                      exact .inl ⟨reason,
                        by simp only [decideAutoDeploy, harmed, hside, hround, htarget, hfloor, hfree]; simp⟩
                  | none =>
                      cases hin : input.alreadyIn with
                      | true =>
                          exact .inl ⟨.alreadyIn,
                            by simp only [decideAutoDeploy, harmed, hside, hround, htarget, hfloor, hfree, hin]; simp⟩
                      | false =>
                          by_cases hdead : input.state.deadSessionEpoch = some input.sessionEpoch
                          · exact .inl ⟨.sessionLapsed, by
                              simp only [decideAutoDeploy, harmed, hside, hround, htarget, hfloor, hfree, hin, hdead]
                              simp⟩
                          cases hsign : input.signing with
                          | blocked reason =>
                              exact .inl ⟨.signing reason, by
                                simp only [decideAutoDeploy, harmed, hside, hround, htarget, hfloor, hfree, hin, hsign]
                                simp [hdead]⟩
                          | silent =>
                              cases hsend : sendable input with
                              | error reason =>
                                  exact .inl ⟨reason, by
                                    simp only [decideAutoDeploy, harmed, hside, hround, htarget, hfloor, hfree, hin,
                                      hsign, hsend]
                                    simp [hdead]⟩
                              | ok sendableUsd =>
                                  refine .inr ⟨side, roundNo, sendableUsd, ⟨harmed, hround, htarget, ?_, hfree, hsign, hsend⟩, ?_⟩
                                  · simpa [Option.any_eq_false] using hfloor
                                  · simp only [decideAutoDeploy, harmed, hside, hround, htarget, hfloor, hfree, hin,
                                      hsign, hsend]
                                    simp [hdead]

/-- What a deposit that fires has passed. -/
structure Fires (input : AutoDeployInput) (entry : UnattendedEntry) : Prop
    extends Intends input entry.side entry.roundNo entry.amountUsd where
  phase : input.phase = some .lobby
  entriesOpen : input.entriesOpen = true
  tries : ∀ attempt, input.state.attemptAt entry.roundNo = some attempt → attempt.tries < MAX_TRIES
  idle : input.entering = false

theorem decideAutoDeploy_fire {input : AutoDeployInput} {entry : UnattendedEntry} {n : ℕ}
    (h : decideAutoDeploy input = .fire entry n) : Fires input entry := by
  rcases decideAutoDeploy_cases input with ⟨reason, hhold⟩ | ⟨side, roundNo, usd, hint, hend⟩
  · rw [hhold] at h
    cases h
  · rw [hend] at h
    simp only [decideIntended] at h
    split at h
    · cases h
    split at h
    · cases h
    split at h
    · cases h
    split at h
    · cases h
    split at h
    · cases h
    rename_i hphase hopen htries hbusy _
    cases h
    refine ⟨hint, by simpa using hphase, by simpa using hopen, ?_, by simpa using hbusy⟩
    simpa [Option.any_eq_false] using htries

theorem decideAutoDeploy_abandon {input : AutoDeployInput} {roundNo : ℤ} {reason : AbandonReason}
    (h : decideAutoDeploy input = .abandon roundNo reason) :
    ∃ side usd, Intends input side roundNo usd := by
  rcases decideAutoDeploy_cases input with ⟨hold, hhold⟩ | ⟨side, r, usd, hint, hend⟩
  · rw [hhold] at h
    cases h
  · have hr : r = roundNo := by
      rw [hend] at h
      simp only [decideIntended] at h
      repeat' split at h
      all_goals cases h
      all_goals rfl
    exact ⟨side, usd, hr ▸ hint⟩

theorem sendable_eq_ok {input : AutoDeployInput} {sent : ℚ} (h : sendable input = .ok sent) :
    ∃ amountUsd, input.amountUsd = some amountUsd ∧
      Clamped amountUsd input.state.limits input.state.tally.spentUsd sent := by
  simp only [sendable] at h
  split at h
  · cases h
  split at h
  · cases h
  rename_i amountUsd hamount
  split at h
  · cases h
  rename_i hclamp
  cases h
  exact ⟨amountUsd, hamount, clampToLimits_eq_some hclamp⟩

/-! ## The attempt record -/

theorem attemptAt_eq_some {state : AutoDeployState} {r : ℤ} {a : AutoDeployAttempt} :
    state.attemptAt r = some a ↔ state.attempt = some a ∧ a.roundNo = r := by
  simp [AutoDeployState.attemptAt, Option.filter_eq_some_iff]

/-- A round is free where no deposit is in flight and its own record, if any, is up for a retry. -/
theorem attemptHold_eq_none {state : AutoDeployState} {r : ℤ} (h : attemptHold state r = none) :
    ∀ a, state.attempt = some a → a.outcome ≠ .sending ∧ (a.roundNo = r → a.outcome = .retrying) := by
  intro a ha
  unfold attemptHold at h
  constructor
  · intro hsending
    simp only [ha, Option.map_some, hsending] at h
    split at h <;> simp at h
  · intro hr
    rw [attemptAt_eq_some.mpr ⟨ha, hr⟩] at h
    cases ho : a.outcome <;> simp [ho] at h ⊢

end BullsUnicorns.Repeat

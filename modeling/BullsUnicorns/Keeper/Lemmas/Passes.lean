import BullsUnicorns.Keeper.Lemmas.Closer

/-!
# What a pass does to the books

One lemma for each pass of the closer, from the skip to the close, and the frame of the pass that opens a
round.
-/

namespace BullsUnicorns.Keeper

variable {H ev : List KeeperEvent} {n : ℤ} {cfg : Config} {counter : ℕ} {ctx : KeeperContext}

/-! ## The skip -/

theorem quiet_append (h : Quiet H) (hev : Quiet ev) : Quiet (H ++ ev) := by
  simp [Quiet, h.1, h.2, hev.1, hev.2]

theorem quiet_probed (probes : List (Probed String)) : Quiet (probes.map KeeperEvent.probed) := by
  induction probes with
  | nil => exact ⟨rfl, rfl⟩
  | cons p probes ih => exact ih

theorem probed_absent {probes : List (Probed String)} (h : AbsentIn probes n)
    (hev : ∀ p ∈ probes, KeeperEvent.probed p ∈ H) : AnsweredAbsent H n := by
  obtain ⟨p, hp, existing, hanswer, hmem⟩ := h
  exact .inl ⟨p, existing, hev p hp, hanswer, hmem⟩

/-- A skip reads and stays, or moves to where a scan has proved its way. -/
theorem skipClosedRoundsAhead_cases (cfg : Config) (ctx : KeeperContext) (pass : ClosePass) :
    (∃ probes : List (Probed String),
        skipClosedRoundsAhead cfg ctx pass = (ctx, probes.map .probed)) ∨
      ctx.closeCursorKnownLiveAt ≠ some ctx.closeCursor ∧
        ∃ s, (pass.options cfg ctx).Proved ctx.closeCursor [] s ∧
          skipClosedRoundsAhead cfg ctx pass =
            ({ ctx with
                closeCatchUpAhead := ctx.closeCatchUpAhead || s.catchUpAhead
                closeCursor := s.cursor },
              s.probes.map .probed ++ if s.catchUpAhead then [.catchUp true] else []) := by
  unfold skipClosedRoundsAhead
  split
  · exact .inl ⟨[], rfl⟩
  · rename_i hworth
    simp only [probeIsWorthARead, Bool.not_eq_true', Bool.not_eq_false, Bool.if_false_left,
      Bool.and_eq_true, Bool.not_eq_true', decide_eq_false_iff_not, decide_eq_true_eq] at hworth
    obtain ⟨hknown, hfar⟩ := hworth
    have hroom : ctx.closeCursor ≤ pass.through cfg + 1 := by
      simp only [closeCursorProbeBatch] at hfar
      omega
    have hproved := findOldestLivingRound_proved (pass.options cfg ctx) hroom
    simp only
    split
    · exact .inl ⟨_, rfl⟩
    · refine .inr ⟨hknown, _, hproved, ?_⟩
      cases hahead : (findOldestLivingRound (pass.options cfg ctx)).catchUpAhead with
      | true =>
          simp only [Bool.or_true, if_true]
      | false =>
          simp only [Bool.or_false, Bool.false_eq_true, if_false, List.append_nil]

theorem skip_books {pass : ClosePass} (h : Books cfg pass.roundCounter H ctx) :
    Books cfg pass.roundCounter (H ++ (skipClosedRoundsAhead cfg ctx pass).2)
      (skipClosedRoundsAhead cfg ctx pass).1 := by
  rcases skipClosedRoundsAhead_cases cfg ctx pass with ⟨probes, heq⟩ | ⟨hknown, s, hs, heq⟩
  · rw [heq]
    exact h.note (quiet_probed probes) rfl rfl rfl (.inl rfl)
  · rw [heq]
    have hfresh : ctx.closeAttempts = 0 :=
      Nat.eq_zero_of_not_pos fun hpos => hknown (h.known hpos)
    have hquiet : Quiet (s.probes.map KeeperEvent.probed ++
        if s.catchUpAhead then [KeeperEvent.catchUp true] else []) :=
      quiet_append (quiet_probed _) (by split <;> exact ⟨rfl, rfl⟩)
    have hbound : s.cursor ≤ cursorBound cfg pass.roundCounter := by
      have hto := hs.bounded
      simp only [ClosePass.options, ClosePass.through] at hto
      simp only [cursorBound]
      omega
    have hmoved := h.advance hquiet hs.forward hbound (.inr hfresh) fun n hn hlt =>
      .absent (probed_absent (hs.absent n hn hlt) fun p hp =>
        List.mem_append_right _ (List.mem_append_left _ (List.mem_map_of_mem hp)))
    exact hmoved.again rfl hfresh rfl (.inl rfl)

/-! ## The round under the cursor -/

/-- What a decision says about the round it was taken on. -/
theorem decideClose_some (round : RoundAnswer) (delegated : Bool) :
    (decideClose (some round) delegated = .advance .neverTerminal ∧ round.phase ≠ .settled ∧
      round.phase ≠ .abandoned) ∨
    (decideClose (some round) delegated = .advance .stillDelegated ∧
      (round.phase = .settled ∨ round.phase = .abandoned) ∧ delegated = true) ∨
    decideClose (some round) delegated = .sweepFirst ∨ decideClose (some round) delegated = .close := by
  by_cases hterminal : round.phase ≠ .settled ∧ round.phase ≠ .abandoned
  · exact .inl ⟨by simp only [decideClose, if_pos hterminal], hterminal⟩
  · have hphase : round.phase = .settled ∨ round.phase = .abandoned := by tauto
    simp only [decideClose, if_neg hterminal]
    cases delegated with
    | true => exact .inr (.inl ⟨rfl, hphase, rfl⟩)
    | false =>
        cases round.swept with
        | true => exact .inr (.inr (.inr rfl))
        | false => exact .inr (.inr (.inl rfl))

theorem sendClose_books {pass : ClosePass} (h : Books cfg counter H ctx)
    (hknown : ctx.closeCursorKnownLiveAt = some ctx.closeCursor)
    (hbound : ctx.closeCursor + 1 ≤ cursorBound cfg counter) :
    Books cfg counter (H ++ (sendClose cfg ctx pass).2) (sendClose cfg ctx pass).1 := by
  cases hsent : pass.sendClose with
  | ok outcome =>
      simp only [sendClose, hsent]
      have hquiet : Quiet [if outcome.sent then KeeperEvent.closeSent ctx.closeCursor true
          else .closeHeldBack ctx.closeCursor] := by
        split <;> exact ⟨rfl, rfl⟩
      refine h.advance hquiet (by omega) hbound (.inl (by omega)) fun n hn hlt => ?_
      have hsame : n = ctx.closeCursor := by omega
      rw [hsame]
      split
      · exact .closed (by simp)
      · exact .heldBack (by simp)
  | error e =>
      simp only [sendClose, hsent]
      split
      · rename_i hlast
        have hthird : ctx.closeAttempts + 1 = closeAttemptsPerRound := by
          have := h.patient
          omega
        have hevidence : Evidence (H ++ [.closeSent ctx.closeCursor false]) ctx.closeCursor .skipped := by
          rw [Evidence, failedCloses_append, List.count_append, ← h.tried, ← hthird]
          exact congrArg _ List.count_singleton_self
        have hfailed : ∀ n ∈ failedCloses [KeeperEvent.closeSent ctx.closeCursor false],
            n = ctx.closeCursor := fun n hn => List.mem_singleton.mp hn
        have hlost := h.lost hfailed rfl hbound hevidence
        exact hlost.again rfl rfl rfl (.inl rfl)
      · rename_i hagain
        exact h.failed hknown (by omega)

theorem actOn_books (pass : ClosePass) (round : RoundAnswer) (delegated : Bool)
    (h : Books cfg counter H ctx) (hknown : ctx.closeCursorKnownLiveAt = some ctx.closeCursor)
    (hbound : ctx.closeCursor + 1 ≤ cursorBound cfg counter)
    (hfetched : KeeperEvent.fetched ctx.closeCursor (some round) ∈ H)
    (howner : KeeperEvent.ownerRead ctx.closeCursor delegated ∈ H) :
    Books cfg counter (H ++ (actOn cfg ctx pass (decideClose (some round) delegated)).2)
      (actOn cfg ctx pass (decideClose (some round) delegated)).1 := by
  have hquiet : ∀ k ∈ failedCloses [], k = ctx.closeCursor := by simp [failedCloses]
  rcases decideClose_some round delegated with ⟨heq, hphase⟩ | ⟨heq, hphase, hdelegated⟩ | heq | heq
  · rw [heq]
    have hevidence : Evidence H ctx.closeCursor .neverTerminal := ⟨round, hfetched, hphase⟩
    exact h.lost hquiet rfl hbound (by rwa [List.append_nil])
  · rw [heq]
    rw [hdelegated] at howner
    have hevidence : Evidence H ctx.closeCursor .stillDelegated := ⟨round, hfetched, hphase, howner⟩
    exact h.lost hquiet rfl hbound (by rwa [List.append_nil])
  · rw [heq]
    exact h.note ⟨rfl, rfl⟩ rfl rfl rfl (.inl rfl)
  · rw [heq]
    exact sendClose_books h hknown hbound

theorem examine_books {pass : ClosePass} (h : Books cfg counter H ctx)
    (hbound : ctx.closeCursor + 1 ≤ cursorBound cfg counter) (round : Option RoundAnswer) :
    Books cfg counter (H ++ (examine cfg ctx pass round).2) (examine cfg ctx pass round).1 := by
  cases round with
  | none =>
      refine h.advance ⟨rfl, rfl⟩ (Int.le_add_one (le_refl _)) hbound (.inl (Int.lt_succ _))
        fun n hn hlt => ?_
      have hsame : n = ctx.closeCursor := by omega
      exact .absent (.inr (by rw [hsame]; simp [examine, KeeperContext.seen]))
  | some round =>
      have hseen : Books cfg counter (H ++ [.fetched ctx.closeCursor (some round), .catchUp false])
          (ctx.seen (some round)).1 := h.note ⟨rfl, rfl⟩ rfl rfl rfl (.inr rfl)
      cases howner : pass.isDelegated with
      | error e => simpa [examine, KeeperContext.seen, howner] using hseen
      | ok delegated =>
          have hread : Books cfg counter (H ++ [.fetched ctx.closeCursor (some round), .catchUp false] ++
              [.ownerRead ctx.closeCursor delegated]) (ctx.seen (some round)).1 :=
            hseen.note ⟨rfl, rfl⟩ rfl rfl rfl (.inl rfl)
          have hacted := actOn_books pass round delegated hread rfl hbound
            (by simp [KeeperContext.seen]) (by simp [KeeperContext.seen])
          simpa [examine, KeeperContext.seen, howner] using hacted

theorem walk_books {pass : ClosePass} (h : Books cfg pass.roundCounter H ctx) :
    Books cfg pass.roundCounter (H ++ (walk cfg ctx pass).2) (walk cfg ctx pass).1 := by
  unfold walk
  split
  · exact h.note ⟨rfl, rfl⟩ rfl rfl rfl (.inl rfl)
  · rename_i hpast
    have hbound : ctx.closeCursor + 1 ≤ cursorBound cfg pass.roundCounter := by
      simp only [isPastRetention, Bool.not_eq_true', Bool.not_eq_false, decide_eq_true_eq] at hpast
      simp only [cursorBound]
      omega
    cases hfetch : pass.fetchRound with
    | error e => exact h.note ⟨rfl, rfl⟩ rfl rfl rfl (.inl rfl)
    | ok round => exact examine_books h hbound round

theorem close_books (closing : Bool) (pass : ClosePass) (h : Books cfg pass.roundCounter H ctx) :
    Books cfg pass.roundCounter (H ++ (closeOneFinishedRound cfg closing ctx pass).2)
      (closeOneFinishedRound cfg closing ctx pass).1 := by
  unfold closeOneFinishedRound
  split
  · exact h.note ⟨rfl, rfl⟩ rfl rfl rfl (.inl rfl)
  · simpa using walk_books (skip_books h)

/-! ## Opening a round -/

/-- After the balance was read and a sample perhaps taken, something kept the round from opening. -/
def OpenPass.Refused (cfg : Config) (ctx : KeeperContext) (pass : OpenPass) (before : ℤ) : Prop :=
  (burnBrake (sampleBurn cfg ctx before).1.burnSamplesLamports cfg.maxBurnLamportsPerRound
      cfg.burnArmAfterRounds cfg.burnSampleRounds).tripped = true ∨
    pass.sweepIsKeepingUp = false ∨ (∃ e, pass.sendOpen = .error e) ∨
    ∃ outcome, pass.sendOpen = .ok outcome ∧ outcome.sent = false

/-- The ways a pass that opens a round can end. -/
inductive Opening (cfg : Config) (ctx : KeeperContext) (pass : OpenPass) :
    KeeperContext × List KeeperEvent → Prop where
  | idle : Opening cfg ctx pass (ctx, [])
  | stopped (before : ℤ) (stop : Option ℚ) (hgoing : ctx.sweepStopSince = none)
      (hread : pass.affordsAnotherRound = .ok (some before)) (hrefused : pass.Refused cfg ctx before) :
      Opening cfg ctx pass ({ (sampleBurn cfg ctx before).1 with sweepStopSince := stop },
        (sampleBurn cfg ctx before).2)
  | landed (before : ℤ) :
      Opening cfg ctx pass ({ (sampleBurn cfg ctx before).1 with
          lastOpenLamports :=
            if (sampleBurn cfg ctx before).1.closeCatchUpAhead then none else some before },
        (sampleBurn cfg ctx before).2 ++ [.openLanded before])

theorem sampleBurn_cases (cfg : Config) (ctx : KeeperContext) (before : ℤ) :
    (sampleBurn cfg ctx before = (ctx, []) ∧
      (ctx.lastOpenLamports = none ∨ ctx.closeCatchUpAhead = true)) ∨
    ∃ last, ctx.lastOpenLamports = some last ∧ ctx.closeCatchUpAhead = false ∧
      sampleBurn cfg ctx before =
        ({ ctx with
            burnSamplesLamports :=
              recordBurnSample ctx.burnSamplesLamports (last - before) cfg.burnArmAfterRounds },
          [.sampled (last - before)]) := by
  unfold sampleBurn
  cases hlast : ctx.lastOpenLamports with
  | none => exact .inl ⟨rfl, .inl rfl⟩
  | some last =>
      cases hahead : ctx.closeCatchUpAhead with
      | true => exact .inl ⟨rfl, .inr rfl⟩
      | false => exact .inr ⟨last, rfl, rfl, rfl⟩

theorem openNextRound_opening (cfg : Config) (ctx : KeeperContext) (pass : OpenPass) :
    Opening cfg ctx pass (openNextRound cfg ctx pass) := by
  unfold openNextRound
  split
  · exact .idle
  · rename_i hgoing
    have hgoing : ctx.sweepStopSince = none := by simpa using hgoing
    cases hread : pass.affordsAnotherRound with
    | error e => exact .idle
    | ok answer =>
        cases answer with
        | none => exact .idle
        | some before =>
            simp only
            split
            · rename_i htripped
              exact .stopped before _ hgoing hread (.inl htripped)
            · split
              · rename_i hsweep
                exact .stopped before (some pass.nowSec) hgoing hread (.inr (.inl (by simpa using hsweep)))
              · cases hsent : pass.sendOpen with
                | error e => exact .stopped before _ hgoing hread (.inr (.inr (.inl ⟨e, hsent⟩)))
                | ok outcome =>
                    simp only
                    split
                    · rename_i hunsent
                      exact .stopped before _ hgoing hread
                        (.inr (.inr (.inr ⟨outcome, hsent, by simpa using hunsent⟩)))
                    · exact .landed before

theorem sample_books (h : Books cfg counter H ctx) (before : ℤ) :
    Books cfg counter (H ++ (sampleBurn cfg ctx before).2) (sampleBurn cfg ctx before).1 := by
  rcases sampleBurn_cases cfg ctx before with ⟨heq, -⟩ | ⟨last, -, -, heq⟩
  · rw [heq]
    exact h.note ⟨rfl, rfl⟩ rfl rfl rfl (.inl rfl)
  · rw [heq]
    exact h.note ⟨rfl, rfl⟩ rfl rfl rfl (.inl rfl)

theorem open_books (pass : OpenPass) (h : Books cfg counter H ctx) :
    Books cfg counter (H ++ (openNextRound cfg ctx pass).2) (openNextRound cfg ctx pass).1 := by
  have hopening := openNextRound_opening cfg ctx pass
  generalize openNextRound cfg ctx pass = r at hopening ⊢
  cases hopening with
  | idle => exact h.note ⟨rfl, rfl⟩ rfl rfl rfl (.inl rfl)
  | stopped before stop _ _ _ => exact (sample_books h before).again rfl rfl rfl (.inl rfl)
  | landed before =>
      rw [← List.append_assoc]
      exact (sample_books h before).note ⟨rfl, rfl⟩ rfl rfl rfl (.inl rfl)

/-! ## A close held back -/

theorem sendClose_heldBack {pass : ClosePass} (h : .closeHeldBack n ∈ (sendClose cfg ctx pass).2) :
    goesOut pass.sendClose = false := by
  cases hsent : pass.sendClose with
  | ok outcome =>
      simp only [sendClose, hsent, List.mem_singleton] at h
      split at h
      · cases h
      · rename_i hunsent
        simpa [goesOut] using hunsent
  | error e =>
      simp only [sendClose, hsent] at h
      split at h
      · simp at h
      · simp at h

theorem actOn_heldBack {pass : ClosePass} {action : CloseAction}
    (h : .closeHeldBack n ∈ (actOn cfg ctx pass action).2) : goesOut pass.sendClose = false := by
  cases action with
  | close => exact sendClose_heldBack h
  | sweepFirst => cases h
  | advance because => cases because <;> simp [actOn] at h

theorem examine_heldBack {pass : ClosePass} {round : Option RoundAnswer}
    (h : .closeHeldBack n ∈ (examine cfg ctx pass round).2) : goesOut pass.sendClose = false := by
  cases round with
  | none => simp [examine, KeeperContext.seen, decideClose, actOn] at h
  | some round =>
      cases howner : pass.isDelegated with
      | error e => simp [examine, KeeperContext.seen, howner] at h
      | ok delegated =>
          simp only [examine, KeeperContext.seen, Option.isNone_some, Bool.false_eq_true, if_false, howner,
            List.cons_append, List.nil_append, List.mem_cons, reduceCtorEq, false_or] at h
          exact actOn_heldBack h

theorem skip_heldBack (cfg : Config) (ctx : KeeperContext) (pass : ClosePass) :
    .closeHeldBack n ∉ (skipClosedRoundsAhead cfg ctx pass).2 := by
  rcases skipClosedRoundsAhead_cases cfg ctx pass with ⟨probes, heq⟩ | ⟨-, s, -, heq⟩
  · rw [heq]
    simp
  · rw [heq]
    cases s.catchUpAhead <;> simp

/-- Only a pass whose close was not sent holds one back. -/
theorem keeper_heldBack (cfg : Config) (closing : Bool) (ctx : KeeperContext) (pass : KeeperPass)
    (ctx' : KeeperContext) (events : List KeeperEvent)
    (hstep : (keeper cfg closing).step ctx pass = .ok (ctx', events)) (hsends : pass.closeGoesOut = true) :
    .closeHeldBack n ∉ events := by
  intro h
  cases pass with
  | closeOneFinishedRound pass =>
      obtain rfl : (closeOneFinishedRound cfg closing ctx pass).2 = events :=
        congrArg Prod.snd (Except.ok.inj hstep)
      rw [KeeperPass.closeGoesOut] at hsends
      unfold closeOneFinishedRound at h
      split at h
      · cases h
      · rcases List.mem_append.mp h with hskip | hwalk
        · exact skip_heldBack cfg ctx pass hskip
        · unfold walk at hwalk
          split at hwalk
          · simp at hwalk
          · split at hwalk
            · cases hwalk
            · rw [examine_heldBack hwalk] at hsends
              cases hsends
  | openNextRound pass =>
      obtain rfl : (openNextRound cfg ctx pass).2 = events := congrArg Prod.snd (Except.ok.inj hstep)
      have hopening := openNextRound_opening cfg ctx pass
      generalize openNextRound cfg ctx pass = r at hopening h
      have hsample (before : ℤ) : .closeHeldBack n ∉ (sampleBurn cfg ctx before).2 := by
        rcases sampleBurn_cases cfg ctx before with ⟨heq, -⟩ | ⟨last, -, -, heq⟩
        · simp [heq]
        · simp [heq]
      cases hopening with
      | idle => cases h
      | stopped before stop _ _ _ => exact hsample before h
      | landed before => exact hsample before (by simpa using h)

/-! ## Onward -/

/-- The cursor has not gone back, and the history latch is as it was. -/
structure Onward (ctx ctx' : KeeperContext) : Prop where
  cursor : ctx.closeCursor ≤ ctx'.closeCursor
  caughtUp : ctx'.closeCursorCaughtUp = ctx.closeCursorCaughtUp

theorem Onward.refl (ctx : KeeperContext) : Onward ctx ctx := ⟨le_refl _, rfl⟩

theorem Onward.trans {a b c : KeeperContext} (h : Onward a b) (h' : Onward b c) : Onward a c :=
  ⟨le_trans h.cursor h'.cursor, h'.caughtUp.trans h.caughtUp⟩

theorem skip_onward (cfg : Config) (ctx : KeeperContext) (pass : ClosePass) :
    Onward ctx (skipClosedRoundsAhead cfg ctx pass).1 := by
  rcases skipClosedRoundsAhead_cases cfg ctx pass with ⟨probes, heq⟩ | ⟨-, s, hs, heq⟩
  · rw [heq]
    exact .refl ctx
  · rw [heq]
    exact ⟨hs.forward, rfl⟩

theorem moveOn_onward (ctx : KeeperContext) : Onward ctx ctx.moveOn :=
  ⟨Int.le_add_one (le_refl _), rfl⟩

theorem lost_onward (ctx : KeeperContext) (loss : CloseLoss) :
    Onward ctx (ctx.recordLoss loss).moveOn := by
  cases loss <;> exact ⟨Int.le_add_one (le_refl _), rfl⟩

theorem sendClose_onward (pass : ClosePass) : Onward ctx (sendClose cfg ctx pass).1 := by
  cases hsent : pass.sendClose with
  | ok outcome =>
      simp only [sendClose, hsent]
      exact moveOn_onward ctx
  | error e =>
      simp only [sendClose, hsent]
      split
      · exact ⟨Int.le_add_one (le_refl _), rfl⟩
      · exact ⟨le_refl _, rfl⟩

theorem actOn_onward (pass : ClosePass) (action : CloseAction) : Onward ctx (actOn cfg ctx pass action).1 := by
  cases action with
  | close => exact sendClose_onward pass
  | sweepFirst => exact .refl ctx
  | advance because =>
      cases because with
      | alreadyClosed => exact moveOn_onward ctx
      | neverTerminal => exact lost_onward ctx .neverTerminal
      | stillDelegated => exact lost_onward ctx .stillDelegated

theorem seen_onward (ctx : KeeperContext) (round : Option RoundAnswer) : Onward ctx (ctx.seen round).1 := by
  cases round with
  | none => exact .refl ctx
  | some round => exact ⟨le_refl _, rfl⟩

theorem examine_onward (pass : ClosePass) (round : Option RoundAnswer) :
    Onward ctx (examine cfg ctx pass round).1 := by
  simp only [examine]
  split
  · exact seen_onward ctx round
  · exact (seen_onward ctx round).trans (actOn_onward pass _)

/-- The latch is set by a pass that finds its cursor inside the retention window, and by no other. -/
def ReachedWindow (cfg : Config) (pass : ClosePass) (ctx ctx' : KeeperContext) : Prop :=
  ctx.closeCursor ≤ ctx'.closeCursor ∧ ctx'.closeCursorCaughtUp = true ∧
    (pass.roundCounter : ℤ) < ctx'.closeCursor + cfg.roundRetention

theorem walk_onward (cfg : Config) (ctx : KeeperContext) (pass : ClosePass) :
    Onward ctx (walk cfg ctx pass).1 ∨ ReachedWindow cfg pass ctx (walk cfg ctx pass).1 := by
  unfold walk
  split
  · rename_i hyoung
    simp only [isPastRetention, Bool.not_eq_true', decide_eq_false_iff_not, not_le] at hyoung
    exact .inr ⟨le_refl _, rfl, hyoung⟩
  · cases hfetch : pass.fetchRound with
    | error e => exact .inl (.refl ctx)
    | ok round => exact .inl (examine_onward pass round)

theorem close_onward (cfg : Config) (closing : Bool) (ctx : KeeperContext) (pass : ClosePass) :
    Onward ctx (closeOneFinishedRound cfg closing ctx pass).1 ∨
      ReachedWindow cfg pass ctx (closeOneFinishedRound cfg closing ctx pass).1 := by
  unfold closeOneFinishedRound
  split
  · exact .inl (.refl ctx)
  · have hskip := skip_onward cfg ctx pass
    rcases walk_onward cfg (skipClosedRoundsAhead cfg ctx pass).1 pass with
      hwalk | ⟨hle, hset, hwindow⟩
    · exact .inl (hskip.trans hwalk)
    · exact .inr ⟨le_trans hskip.cursor hle, hset, hwindow⟩

theorem sample_frame (cfg : Config) (ctx : KeeperContext) (before : ℤ) :
    (sampleBurn cfg ctx before).1.closeCursor = ctx.closeCursor ∧
      (sampleBurn cfg ctx before).1.closeCursorCaughtUp = ctx.closeCursorCaughtUp ∧
      (sampleBurn cfg ctx before).1.closeCatchUpAhead = ctx.closeCatchUpAhead := by
  rcases sampleBurn_cases cfg ctx before with ⟨heq, -⟩ | ⟨last, -, -, heq⟩ <;> rw [heq] <;>
    exact ⟨rfl, rfl, rfl⟩

theorem open_frame (cfg : Config) (ctx : KeeperContext) (pass : OpenPass) :
    (openNextRound cfg ctx pass).1.closeCursor = ctx.closeCursor ∧
      (openNextRound cfg ctx pass).1.closeCursorCaughtUp = ctx.closeCursorCaughtUp ∧
      (openNextRound cfg ctx pass).1.closeCatchUpAhead = ctx.closeCatchUpAhead := by
  have hopening := openNextRound_opening cfg ctx pass
  generalize openNextRound cfg ctx pass = r at hopening ⊢
  cases hopening with
  | idle => exact ⟨rfl, rfl, rfl⟩
  | stopped before stop _ _ _ => exact sample_frame cfg ctx before
  | landed before => exact sample_frame cfg ctx before

/-- What no pass undoes. -/
theorem keeper_onward (cfg : Config) (closing : Bool) (ctx : KeeperContext) (pass : KeeperPass) :
    ctx.closeCursor ≤ ((keeper cfg closing).attempt ctx pass).closeCursor ∧
      (ctx.closeCursorCaughtUp = true →
        ((keeper cfg closing).attempt ctx pass).closeCursorCaughtUp = true) := by
  cases pass with
  | closeOneFinishedRound pass =>
      rcases close_onward cfg closing ctx pass with h | ⟨hle, hset, -⟩
      · exact ⟨h.cursor, fun hlatched => h.caughtUp.trans hlatched⟩
      · exact ⟨hle, fun _ => hset⟩
  | openNextRound pass =>
      obtain ⟨hcursor, hcaughtUp, -⟩ := open_frame cfg ctx pass
      exact ⟨hcursor.ge, fun hlatched => hcaughtUp.trans hlatched⟩

end BullsUnicorns.Keeper

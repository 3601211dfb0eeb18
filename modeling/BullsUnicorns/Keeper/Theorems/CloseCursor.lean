import BullsUnicorns.Keeper.Lemmas.Passes

/-!
# The close cursor loses no round

It only moves forward, stays out of the retention window, and every round behind it was gone, closed or
given up, the last exactly once and with a reason. A dry run closes nothing, and moves on all the same.
-/

namespace BullsUnicorns.Keeper

variable {cfg : Config} {counter : ℕ} {H : List KeeperEvent} {ctx : KeeperContext} {n : ℤ}
  {loss : CloseLoss}

/-- Given up once, in this ledger and in no other, and for its reason. -/
structure LostOnce (H : List KeeperEvent) (n : ℤ) (loss : CloseLoss) : Prop where
  once : (lostTo loss H).count n = 1
  here : ∀ other, other ≠ loss → n ∉ lostTo other H
  reason : Evidence H n loss

/-- Gone, closed, or given up and written down. -/
def Accounted (H : List KeeperEvent) (n : ℤ) : Prop :=
  AnsweredAbsent H n ∨ .closeSent n true ∈ H ∨ ∃ loss, LostOnce H n loss

/-- What the closer owes for everything so far, when `now` is the highest round ever opened. -/
structure Kept (now : ℕ) (H : List KeeperEvent) (ctx : KeeperContext) : Prop where
  bounded : ctx.closeCursor ≤ max 1 ((now : ℤ) - Chain.minRetainedRounds + 1)
  passed : ∀ n, 1 ≤ n → n < ctx.closeCursor → Accounted H n ∨ .closeHeldBack n ∈ H
  given_up : ∀ loss, ∀ n ∈ lostTo loss H, n < ctx.closeCursor ∧ LostOnce H n loss
  total : ∀ loss, (ctx.ledger loss).total = (lostTo loss H).length
  sample : ∀ loss, (ctx.ledger loss).sample <:+ lostTo loss H ∧
    (ctx.ledger loss).sample.length = min closeLossSample (ctx.ledger loss).total ∧
    (ctx.ledger loss).sample.Pairwise (· < ·)

theorem Books.lostOnce (h : Books cfg counter H ctx) (hn : n ∈ lostTo loss H) : LostOnce H n loss where
  once := by
    have hnodup : (lostRounds H).Nodup := h.increasing.imp ne_of_lt
    exact List.count_eq_one_of_mem (hnodup.sublist (lostTo_sublist H)) hn
  here other hne := lostTo_disjoint hne H (h.increasing.imp ne_of_lt) hn
  reason := h.evidence loss n hn

theorem Books.kept (h : Books cfg counter H ctx) : Kept counter H ctx where
  bounded := by
    have hb := h.bounded
    have hfloor : (Chain.minRetainedRounds : ℤ) ≤ cfg.roundRetention := by
      exact_mod_cast cfg.retention_floor
    simp only [cursorBound] at hb
    omega
  passed n hn hlt := by
    cases h.disposed n hn hlt with
    | absent habsent => exact .inl (.inl habsent)
    | closed hclosed => exact .inl (.inr (.inl hclosed))
    | heldBack hheld => exact .inr hheld
    | lost hlost =>
        obtain ⟨loss, hmem⟩ := mem_lostRounds.mp hlost
        exact .inl (.inr (.inr ⟨loss, h.lostOnce hmem⟩))
  given_up loss n hn := ⟨h.behind n (mem_lostRounds.mpr ⟨loss, hn⟩), h.lostOnce hn⟩
  total loss := by rw [h.ledgers]; rfl
  sample loss := by
    rw [h.ledgers]
    refine ⟨List.drop_suffix _ _, ?_, ?_⟩
    · simp only [ledgerOf, List.length_drop]
      omega
    · exact (h.increasing.sublist (lostTo_sublist H)).sublist (List.drop_sublist _ _)

/-! ## The run -/

/-- A boot scan proves its way too, also on an arena too young for one. -/
theorem boot_scan (cfg : Config) (boot : BootScan) :
    1 ≤ (findOldestLivingRound (boot.options cfg)).cursor ∧
      (findOldestLivingRound (boot.options cfg)).cursor ≤ cursorBound cfg boot.roundCounter ∧
      ∀ n, 1 ≤ n → n < (findOldestLivingRound (boot.options cfg)).cursor →
        AbsentIn (findOldestLivingRound (boot.options cfg)).probes n := by
  by_cases hroom : (boot.options cfg).start ≤ (boot.options cfg).through + 1
  · have hs := findOldestLivingRound_proved (boot.options cfg) hroom
    exact ⟨hs.forward, le_trans hs.bounded (le_max_right _ _), hs.absent⟩
  · rw [findOldestLivingRound_empty (boot.options cfg) (by omega)]
    exact ⟨le_refl _, le_max_left _ _, fun n hn hlt => absurd (lt_of_le_of_lt hn hlt) (lt_irrefl _)⟩

theorem seed_books (cfg : Config) (closing : Bool) (boot : BootScan) :
    Books cfg boot.roundCounter (seedCloseCursor cfg closing boot).2
      (seedCloseCursor cfg closing boot).1 := by
  have hfirst : Books cfg boot.roundCounter []
      { (seedCloseCursor cfg closing boot).1 with closeCursor := 1, closeAttempts := 0 } := {
    first := le_refl _
    bounded := le_max_left _ _
    disposed := fun n hn hlt => absurd (lt_of_le_of_lt hn hlt) (lt_irrefl _)
    tried := rfl
    patient := closeAttemptsPerRound_pos
    known := fun hpos => absurd hpos (lt_irrefl 0)
    sent := fun n hn => by cases hn
    increasing := .nil
    behind := fun n hn => by cases hn
    ledgers := fun loss => by cases loss <;> rfl
    evidence := fun loss n hn => by cases hn }
  cases closing with
  | false =>
      have hbooted : Books cfg boot.roundCounter ([] ++ (seedCloseCursor cfg false boot).2)
          (seedCloseCursor cfg false boot).1 := hfirst.note ⟨rfl, rfl⟩ rfl rfl rfl (.inl rfl)
      exact hbooted
  | true =>
      obtain ⟨hfrom, hbound, habsent⟩ := boot_scan cfg boot
      have hquiet : Quiet (seedCloseCursor cfg true boot).2 :=
        quiet_append (quiet_probed _) ⟨rfl, rfl⟩
      have hprobed (n : ℤ) (hn : 1 ≤ n) (hlt : n < (findOldestLivingRound (boot.options cfg)).cursor) :
          Disposed ([] ++ (seedCloseCursor cfg true boot).2) n :=
        .absent (probed_absent (habsent n hn hlt) fun p hp =>
          List.mem_append_right [] (List.mem_append_left _ (List.mem_map_of_mem hp)))
      exact hfirst.advance hquiet hfrom hbound (.inr rfl) hprobed

theorem books_step (cfg : Config) (closing : Bool) {pass : KeeperPass} {ctx' : KeeperContext}
    {events : List KeeperEvent} (hcounter : ∀ c, pass.roundCounter = some c → c = counter)
    (h : Books cfg counter H ctx) (hstep : (keeper cfg closing).step ctx pass = .ok (ctx', events)) :
    Books cfg counter (H ++ events) ctx' := by
  cases pass with
  | closeOneFinishedRound pass =>
      obtain rfl : pass.roundCounter = counter := hcounter _ rfl
      have heq : closeOneFinishedRound cfg closing ctx pass = (ctx', events) := Except.ok.inj hstep
      have hnext := close_books closing pass h
      rwa [heq] at hnext
  | openNextRound pass =>
      have heq : openNextRound cfg ctx pass = (ctx', events) := Except.ok.inj hstep
      have hnext := open_books pass h
      rwa [heq] at hnext

theorem books_run (cfg : Config) (closing : Bool) (boot : BootScan) (passes : List KeeperPass) (now : ℕ)
    (hclock : (boot.roundCounter :: passes.filterMap KeeperPass.roundCounter ++ [now]).Pairwise
      (· ≤ ·)) :
    Books cfg now
      (history (seedCloseCursor cfg closing boot).2
        ((keeper cfg closing).accepted (seedCloseCursor cfg closing boot).1 passes))
      ((keeper cfg closing).run (seedCloseCursor cfg closing boot).1 passes) := by
  refine Machine.run_timed_from KeeperPass.roundCounter
    (H := fun counter log ctx => Books cfg counter (history (seedCloseCursor cfg closing boot).2 log) ctx)
    ?_ ?_ ?_ passes now hclock
  · exact fun t t' log ctx hle h => h.later hle
  · intro t log ctx pass ctx' events htime h hstep
    rw [history_snoc]
    exact books_step cfg closing htime h hstep
  · simpa [history] using seed_books cfg closing boot

theorem passes_onward (cfg : Config) (closing : Bool) (ctx : KeeperContext) (passes : List KeeperPass) :
    ctx.closeCursor ≤ ((keeper cfg closing).run ctx passes).closeCursor ∧
      (ctx.closeCursorCaughtUp = true →
        ((keeper cfg closing).run ctx passes).closeCursorCaughtUp = true) := by
  induction passes generalizing ctx with
  | nil => exact ⟨le_refl _, id⟩
  | cons pass passes ih =>
      obtain ⟨hcursor, hlatch⟩ := keeper_onward cfg closing ctx pass
      obtain ⟨hcursor', hlatch'⟩ := ih ((keeper cfg closing).attempt ctx pass)
      exact ⟨le_trans hcursor hcursor', fun h => hlatch' (hlatch h)⟩

/-- The history latch is set by a pass that leaves its cursor inside the retention window. -/
theorem caughtUp_set (closing : Bool) {pass : KeeperPass} (h : ctx.closeCursorCaughtUp = false)
    (hset : ((keeper cfg closing).attempt ctx pass).closeCursorCaughtUp = true) :
    ∃ counter, pass.roundCounter = some counter ∧
      (counter : ℤ) < ((keeper cfg closing).attempt ctx pass).closeCursor + cfg.roundRetention := by
  cases pass with
  | closeOneFinishedRound pass =>
      rcases close_onward cfg closing ctx pass with hsame | ⟨-, -, hwindow⟩
      · exact absurd (hset.symm.trans (hsame.caughtUp.trans h)) (by simp)
      · exact ⟨pass.roundCounter, rfl, hwindow⟩
  | openNextRound pass =>
      have hsame := (open_frame cfg ctx pass).2.1
      exact absurd (hset.symm.trans (hsame.trans h)) (by simp)

theorem seed_heldBack (cfg : Config) (closing : Bool) (boot : BootScan) :
    .closeHeldBack n ∉ (seedCloseCursor cfg closing boot).2 := by
  cases closing <;> simp [seedCloseCursor]

/-- No close is held back in a run whose closes are really sent. -/
theorem history_heldBack (cfg : Config) (closing : Bool) (boot : BootScan) {passes : List KeeperPass}
    (hsends : ∀ pass ∈ passes, pass.closeGoesOut = true) :
    .closeHeldBack n ∉ history (seedCloseCursor cfg closing boot).2
      ((keeper cfg closing).accepted (seedCloseCursor cfg closing boot).1 passes) := by
  rw [history, List.mem_append, List.mem_flatMap]
  rintro (hbooted | ⟨entry, hentry, hheld⟩)
  · exact seed_heldBack cfg closing boot hbooted
  · have hpass := hsends _ (Machine.fst_mem_of_mem_accepted hentry)
    exact Machine.forall_mem_accepted (fun ctx pass ctx' events h => keeper_heldBack cfg closing ctx pass ctx' events h)
      hentry hpass hheld

/-- Over every run, whatever the chain answers. -/
theorem close_cursor_accounts (cfg : Config) (closing : Bool) (boot : BootScan)
    (passes : List KeeperPass) (now : ℕ)
    (hclock : (boot.roundCounter :: passes.filterMap KeeperPass.roundCounter ++ [now]).Pairwise
      (· ≤ ·)) :
    let m := keeper cfg closing
    let booted := seedCloseCursor cfg closing boot
    let ctx := m.run booted.1 passes
    Kept now (history booted.2 (m.accepted booted.1 passes)) ctx ∧
      ((∀ pass ∈ passes, pass.closeGoesOut = true) → ∀ n, 1 ≤ n → n < ctx.closeCursor →
        Accounted (history booted.2 (m.accepted booted.1 passes)) n) ∧
      (∀ more, ctx.closeCursor ≤ (m.run ctx more).closeCursor ∧
        (ctx.closeCursorCaughtUp = true → (m.run ctx more).closeCursorCaughtUp = true)) ∧
      ∀ pass, ctx.closeCursorCaughtUp = false → (m.attempt ctx pass).closeCursorCaughtUp = true →
        ∃ counter, pass.roundCounter = some counter ∧
          (counter : ℤ) < (m.attempt ctx pass).closeCursor + cfg.roundRetention := by
  intro m booted ctx
  have hkept := (books_run cfg closing boot passes now hclock).kept
  refine ⟨hkept, ?_, ?_, ?_⟩
  · intro hsends n hn hlt
    exact (hkept.passed n hn hlt).resolve_right (history_heldBack cfg closing boot hsends)
  · exact fun more => passes_onward cfg closing ctx more
  · exact fun pass h hset => caughtUp_set closing h hset

/-! A boot in front of four closeable rounds: the first is gone, the second cannot be closed, the third
vanishes while the second is tried, the fourth closes. -/

def backlogBoot : BootScan where
  roundCounter := 24
  probe := fun _ rounds => .ok (rounds.map fun n => decide (n ≠ 1))
  nowMs := fun look => look

/-- A pass of this run, `step` half-minutes into it. -/
def backlogPass (step : ℕ) (round : Option RoundAnswer) (sendClose : Except String SendOutcome) :
    KeeperPass :=
  .closeOneFinishedRound {
    nowSec := 30 * step
    roundCounter := 24
    currentPhase := some .lobby
    probe := fun rounds => .ok (rounds.map fun _ => true)
    nowMs := fun look => look
    fetchRound := .ok round
    isDelegated := .ok false
    sendClose }

def backlogPasses : List KeeperPass :=
  let swept : RoundAnswer := ⟨.settled, some 1⟩
  [ backlogPass 1 (some swept) (.error "blockhash not found"),
    backlogPass 2 (some swept) (.error "blockhash not found"),
    backlogPass 3 (some swept) (.error "blockhash not found"),
    backlogPass 4 none (.ok ⟨true⟩),
    backlogPass 5 (some swept) (.ok ⟨true⟩),
    backlogPass 6 none (.ok ⟨true⟩) ]

theorem close_cursor_accounts_witness :
    let m := keeper .fallback true
    let booted := seedCloseCursor .fallback true backlogBoot
    let H := history booted.2 (m.accepted booted.1 backlogPasses)
    let ctx := m.run booted.1 backlogPasses
    Kept 24 H ctx ∧ (∀ n, 1 ≤ n → n < 5 → Accounted H n) ∧
      ctx.closeCursor = 5 ∧ ctx.closeSkipped.sample = [2] ∧ ctx.closeCursorCaughtUp = true := by
  intro m booted H ctx
  have hcursor : ctx.closeCursor = 5 := by decide +kernel
  obtain ⟨hkept, haccounted, -⟩ :=
    close_cursor_accounts .fallback true backlogBoot backlogPasses 24 (by decide +kernel)
  refine ⟨hkept, fun n hn hlt => haccounted (by decide) n hn (hlt.trans_eq hcursor.symm), hcursor, ?_, ?_⟩
  all_goals decide +kernel

/-- In a dry run the cursor passes a round that is there and swept, and nothing is written down. -/
theorem dry_run_passes_a_round :
    let m := keeper .fallback true
    let booted := seedCloseCursor .fallback true backlogBoot
    let passes := [backlogPass 1 (some ⟨.settled, some 1⟩) (.ok ⟨false⟩)]
    2 < (m.run booted.1 passes).closeCursor ∧
      ¬ Accounted (history booted.2 (m.accepted booted.1 passes)) 2 := by
  intro m booted passes
  have hhistory : history booted.2 (m.accepted booted.1 passes) =
      [.probed ([1, 2, 3, 4], .ok [false, true, true, true]), .catchUp false,
        .fetched 2 (some ⟨.settled, some 1⟩), .catchUp false, .ownerRead 2 false, .closeHeldBack 2] := by
    decide +kernel
  refine ⟨by decide +kernel, ?_⟩
  rw [hhistory]
  rintro ((⟨read, existing, hread, hanswer, habsent⟩ | hfetched) | hclosed | ⟨loss, hlost⟩)
  · simp only [List.mem_cons, KeeperEvent.probed.injEq, reduceCtorEq, List.not_mem_nil, or_false] at hread
    subst hread
    cases hanswer
    revert habsent
    decide
  · revert hfetched
    decide
  · revert hclosed
    decide
  · have honce := hlost.once
    cases loss <;> revert honce <;> decide

end BullsUnicorns.Keeper

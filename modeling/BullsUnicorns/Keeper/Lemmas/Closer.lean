import BullsUnicorns.Keeper.Closer
import BullsUnicorns.Keeper.Lemmas.Scan

/-!
# The closer's books

What the cursor, the attempt counter and the ledgers say about everything asked, sent and recorded so far.
-/

namespace BullsUnicorns.Keeper

/-! ## Reading a history -/

def KeeperEvent.failedClose : KeeperEvent → Option ℤ
  | .closeSent n false => some n
  | _ => none

def KeeperEvent.lostRound : KeeperEvent → Option ℤ
  | .recorded _ n => some n
  | _ => none

def KeeperEvent.lostTo (loss : CloseLoss) : KeeperEvent → Option ℤ
  | .recorded l n => if l = loss then some n else none
  | _ => none

/-- The rounds of the closes that failed, one entry a failure. -/
def failedCloses (events : List KeeperEvent) : List ℤ := events.filterMap KeeperEvent.failedClose

/-- The rounds given up, in any ledger. -/
def lostRounds (events : List KeeperEvent) : List ℤ := events.filterMap KeeperEvent.lostRound

def lostTo (loss : CloseLoss) (events : List KeeperEvent) : List ℤ :=
  events.filterMap (KeeperEvent.lostTo loss)

def AnsweredAbsent (events : List KeeperEvent) (n : ℤ) : Prop :=
  (∃ read existing, KeeperEvent.probed read ∈ events ∧ read.2 = .ok existing ∧
    (n, false) ∈ read.1.zip existing) ∨ KeeperEvent.fetched n none ∈ events

/-- Why a round was given up. -/
def Evidence (events : List KeeperEvent) (n : ℤ) : CloseLoss → Prop
  | .skipped => (failedCloses events).count n = closeAttemptsPerRound
  | .neverTerminal => ∃ round, KeeperEvent.fetched n (some round) ∈ events ∧
      round.phase ≠ .settled ∧ round.phase ≠ .abandoned
  | .stillDelegated => ∃ round, KeeperEvent.fetched n (some round) ∈ events ∧
      (round.phase = .settled ∨ round.phase = .abandoned) ∧ KeeperEvent.ownerRead n true ∈ events

/-- What may have become of a round that the cursor has passed. -/
inductive Disposed (events : List KeeperEvent) (n : ℤ) : Prop where
  | absent (h : AnsweredAbsent events n)
  | closed (h : .closeSent n true ∈ events)
  | heldBack (h : .closeHeldBack n ∈ events)
  | lost (h : n ∈ lostRounds events)

/-- Nothing in it failed or was given up. -/
def Quiet (events : List KeeperEvent) : Prop := failedCloses events = [] ∧ lostRounds events = []

variable {H ev : List KeeperEvent} {n : ℤ} {loss : CloseLoss}

@[simp]
theorem failedCloses_append : failedCloses (H ++ ev) = failedCloses H ++ failedCloses ev :=
  List.filterMap_append

@[simp]
theorem lostRounds_append : lostRounds (H ++ ev) = lostRounds H ++ lostRounds ev :=
  List.filterMap_append

@[simp]
theorem lostTo_append : lostTo loss (H ++ ev) = lostTo loss H ++ lostTo loss ev :=
  List.filterMap_append

theorem history_snoc (booted : List KeeperEvent) (log : List (KeeperPass × List KeeperEvent))
    (x : KeeperPass × List KeeperEvent) : history booted (log ++ [x]) = history booted log ++ x.2 := by
  simp [history]

theorem mem_lostTo : n ∈ lostTo loss H ↔ KeeperEvent.recorded loss n ∈ H := by
  simp only [lostTo, List.mem_filterMap]
  constructor
  · rintro ⟨e, he, hn⟩
    cases e with
    | recorded l k =>
        simp only [KeeperEvent.lostTo, Option.ite_none_right_eq_some, Option.some.injEq] at hn
        obtain ⟨rfl, rfl⟩ := hn
        exact he
    | _ => cases hn
  · intro h
    exact ⟨_, h, by simp [KeeperEvent.lostTo]⟩

theorem mem_lostRounds : n ∈ lostRounds H ↔ ∃ loss, n ∈ lostTo loss H := by
  simp only [mem_lostTo, lostRounds, List.mem_filterMap]
  constructor
  · rintro ⟨e, he, hn⟩
    cases e with
    | recorded l k =>
        cases hn
        exact ⟨l, he⟩
    | _ => cases hn
  · rintro ⟨l, h⟩
    exact ⟨_, h, rfl⟩

theorem lostTo_sublist (H : List KeeperEvent) : (lostTo loss H).Sublist (lostRounds H) := by
  induction H with
  | nil => exact .slnil
  | cons e H ih =>
      cases e with
      | recorded l k =>
          by_cases h : l = loss
          · simpa [lostTo, lostRounds, KeeperEvent.lostTo, KeeperEvent.lostRound, h] using ih
          · simpa [lostTo, lostRounds, KeeperEvent.lostTo, KeeperEvent.lostRound, h] using ih.cons k
      | _ => exact ih

theorem lostTo_disjoint {other : CloseLoss} (hne : other ≠ loss) (H : List KeeperEvent)
    (hnodup : (lostRounds H).Nodup) (h : n ∈ lostTo loss H) : n ∉ lostTo other H := by
  induction H with
  | nil => cases h
  | cons e H ih =>
      cases e with
      | recorded l k =>
          have hcons : (k :: lostRounds H).Nodup := hnodup
          obtain ⟨hfresh, hrest⟩ := List.nodup_cons.mp hcons
          rw [mem_lostTo, List.mem_cons, ← mem_lostTo] at h ⊢
          rintro (hhere | hlater)
          · rcases h with hhead | htail
            · cases hhere
              cases hhead
              exact hne rfl
            · cases hhere
              exact hfresh (mem_lostRounds.mpr ⟨loss, htail⟩)
          · rcases h with hhead | htail
            · cases hhead
              exact hfresh (mem_lostRounds.mpr ⟨other, hlater⟩)
            · exact ih hrest htail hlater
      | _ => exact ih hnodup h

theorem Quiet.lostTo (h : Quiet ev) (loss : CloseLoss) : lostTo loss ev = [] :=
  List.eq_nil_of_sublist_nil (h.2 ▸ lostTo_sublist ev)

theorem AnsweredAbsent.append (h : AnsweredAbsent H n) (ev : List KeeperEvent) :
    AnsweredAbsent (H ++ ev) n := by
  rcases h with ⟨read, existing, hmem, hread⟩ | hfetch
  · exact .inl ⟨read, existing, List.mem_append_left _ hmem, hread⟩
  · exact .inr (List.mem_append_left _ hfetch)

theorem Disposed.append (h : Disposed H n) (ev : List KeeperEvent) : Disposed (H ++ ev) n := by
  cases h with
  | absent h => exact .absent (h.append ev)
  | closed h => exact .closed (List.mem_append_left _ h)
  | heldBack h => exact .heldBack (List.mem_append_left _ h)
  | lost h => exact .lost (by simp [h])

theorem Evidence.append (h : Evidence H n loss) (hev : n ∉ failedCloses ev) :
    Evidence (H ++ ev) n loss := by
  cases loss with
  | skipped => simpa [Evidence, List.count_eq_zero_of_not_mem hev] using h
  | neverTerminal =>
      obtain ⟨round, hmem, hphase⟩ := h
      exact ⟨round, List.mem_append_left _ hmem, hphase⟩
  | stillDelegated =>
      obtain ⟨round, hmem, hphase, howner⟩ := h
      exact ⟨round, List.mem_append_left _ hmem, hphase, List.mem_append_left _ howner⟩

/-! ## Ledgers -/

def KeeperContext.ledger (ctx : KeeperContext) : CloseLoss → CloseLossLedger
  | .skipped => ctx.closeSkipped
  | .neverTerminal => ctx.closeStrandedNeverTerminal
  | .stillDelegated => ctx.closeStrandedStillDelegated

/-- The ledger of these losses: all of them counted, the newest ones listed. -/
def ledgerOf (rounds : List ℤ) : CloseLossLedger :=
  ⟨rounds.drop (rounds.length - closeLossSample), rounds.length⟩

theorem recordCloseLoss_ledgerOf (rounds : List ℤ) (n : ℤ) :
    recordCloseLoss (ledgerOf rounds) n = ledgerOf (rounds ++ [n]) := by
  have hlen : (rounds.drop (rounds.length - closeLossSample) ++ [n]).length =
      min rounds.length closeLossSample + 1 := by
    simp only [List.length_append, List.length_drop, List.length_singleton]
    omega
  simp only [recordCloseLoss, ledgerOf, hlen, List.length_append, List.length_singleton]
  congr 1
  by_cases hfull : rounds.length < closeLossSample
  · rw [if_neg (by omega), Nat.sub_eq_zero_of_le (by omega), Nat.sub_eq_zero_of_le (by omega)]
    rfl
  · rw [if_pos (by omega), ← List.drop_one, List.drop_append_of_le_length, List.drop_drop,
      List.drop_append_of_le_length (by simp only [closeLossSample]; omega)]
    · congr 2
      omega
    · rw [List.length_drop]
      simp only [closeLossSample] at hfull ⊢
      omega

@[simp]
theorem ledger_recordLoss_self (ctx : KeeperContext) (loss : CloseLoss) :
    (ctx.recordLoss loss).ledger loss = recordCloseLoss (ctx.ledger loss) ctx.closeCursor := by
  cases loss <;> rfl

theorem ledger_recordLoss_ne (ctx : KeeperContext) {loss other : CloseLoss} (h : other ≠ loss) :
    (ctx.recordLoss loss).ledger other = ctx.ledger other := by
  cases loss <;> cases other <;> first | rfl | exact absurd rfl h

@[simp]
theorem recordLoss_closeCursor (ctx : KeeperContext) (loss : CloseLoss) :
    (ctx.recordLoss loss).closeCursor = ctx.closeCursor := by
  cases loss <;> rfl

@[simp]
theorem ledger_moveOn (ctx : KeeperContext) : ctx.moveOn.ledger = ctx.ledger := by
  funext loss
  cases loss <;> rfl

/-! ## The books -/

theorem closeAttemptsPerRound_pos : 0 < closeAttemptsPerRound := by decide

/-- The highest the cursor may stand. -/
def cursorBound (cfg : Config) (counter : ℕ) : ℤ := max 1 (counter - cfg.roundRetention + 1)

structure Books (cfg : Config) (counter : ℕ) (H : List KeeperEvent) (ctx : KeeperContext) : Prop where
  first : 1 ≤ ctx.closeCursor
  bounded : ctx.closeCursor ≤ cursorBound cfg counter
  disposed : ∀ n, 1 ≤ n → n < ctx.closeCursor → Disposed H n
  tried : ctx.closeAttempts = (failedCloses H).count ctx.closeCursor
  patient : ctx.closeAttempts < closeAttemptsPerRound
  /-- What keeps a batched skip away from a round whose close has failed. -/
  known : 0 < ctx.closeAttempts → ctx.closeCursorKnownLiveAt = some ctx.closeCursor
  sent : ∀ n ∈ failedCloses H, n ≤ ctx.closeCursor
  increasing : (lostRounds H).Pairwise (· < ·)
  behind : ∀ n ∈ lostRounds H, n < ctx.closeCursor
  ledgers : ∀ loss, ctx.ledger loss = ledgerOf (lostTo loss H)
  evidence : ∀ loss, ∀ n ∈ lostTo loss H, Evidence H n loss

variable {cfg : Config} {counter : ℕ} {ctx : KeeperContext}

theorem Books.later {counter' : ℕ} (h : Books cfg counter H ctx) (hle : counter ≤ counter') :
    Books cfg counter' H ctx where
  __ := h
  bounded := by
    have hb := h.bounded
    have hle' : (counter : ℤ) ≤ counter' := by exact_mod_cast hle
    simp only [cursorBound] at hb ⊢
    omega

/-- A pass that leaves cursor, attempts and ledgers alone. -/
theorem Books.note {ctx' : KeeperContext} (h : Books cfg counter H ctx) (hq : Quiet ev)
    (hcursor : ctx'.closeCursor = ctx.closeCursor) (hattempts : ctx'.closeAttempts = ctx.closeAttempts)
    (hledger : ctx'.ledger = ctx.ledger)
    (hknown : ctx'.closeCursorKnownLiveAt = ctx.closeCursorKnownLiveAt ∨
      ctx'.closeCursorKnownLiveAt = some ctx.closeCursor) :
    Books cfg counter (H ++ ev) ctx' where
  first := hcursor ▸ h.first
  bounded := hcursor ▸ h.bounded
  disposed n hn hlt := (h.disposed n hn (hcursor ▸ hlt)).append ev
  tried := by rw [hattempts, hcursor, failedCloses_append, hq.1, List.append_nil, h.tried]
  patient := hattempts ▸ h.patient
  known hpos := by
    rw [hattempts] at hpos
    rw [hcursor]
    rcases hknown with hsame | hset
    · exact hsame.trans (h.known hpos)
    · exact hset
  sent n hn := by
    rw [failedCloses_append, hq.1, List.append_nil] at hn
    exact hcursor ▸ h.sent n hn
  increasing := by
    rw [lostRounds_append, hq.2, List.append_nil]
    exact h.increasing
  behind n hn := by
    rw [lostRounds_append, hq.2, List.append_nil] at hn
    exact hcursor ▸ h.behind n hn
  ledgers loss := by rw [hledger, lostTo_append, hq.lostTo, List.append_nil, h.ledgers]
  evidence loss n hn := by
    rw [lostTo_append, hq.lostTo, List.append_nil] at hn
    exact (h.evidence loss n hn).append (by simp [hq.1])

/-- The same books for a context that differs elsewhere. -/
theorem Books.again {ctx' : KeeperContext} (h : Books cfg counter H ctx)
    (hcursor : ctx'.closeCursor = ctx.closeCursor) (hattempts : ctx'.closeAttempts = ctx.closeAttempts)
    (hledger : ctx'.ledger = ctx.ledger)
    (hknown : ctx'.closeCursorKnownLiveAt = ctx.closeCursorKnownLiveAt ∨
      ctx'.closeCursorKnownLiveAt = some ctx.closeCursor) : Books cfg counter H ctx' := by
  have hnoted : Books cfg counter (H ++ []) ctx' := h.note ⟨rfl, rfl⟩ hcursor hattempts hledger hknown
  rwa [List.append_nil] at hnoted

/-- The cursor moves on past rounds that are disposed of. -/
theorem Books.advance {cursor : ℤ} (h : Books cfg counter H ctx) (hq : Quiet ev)
    (hle : ctx.closeCursor ≤ cursor) (hbound : cursor ≤ cursorBound cfg counter)
    (hfresh : ctx.closeCursor < cursor ∨ ctx.closeAttempts = 0)
    (hdisposed : ∀ n, ctx.closeCursor ≤ n → n < cursor → Disposed (H ++ ev) n) :
    Books cfg counter (H ++ ev) { ctx with closeCursor := cursor, closeAttempts := 0 } where
  first := le_trans h.first hle
  bounded := hbound
  disposed n hn hlt := by
    by_cases hold : n < ctx.closeCursor
    · exact (h.disposed n hn hold).append ev
    · exact hdisposed n (by omega) hlt
  tried := by
    rw [failedCloses_append, hq.1, List.append_nil]
    rcases hfresh with hmoved | hnone
    · refine (List.count_eq_zero_of_not_mem fun hmem => ?_).symm
      exact absurd (h.sent cursor hmem) (by omega)
    · by_cases hmoved : ctx.closeCursor < cursor
      · refine (List.count_eq_zero_of_not_mem fun hmem => ?_).symm
        exact absurd (h.sent cursor hmem) (by omega)
      · have hsame : cursor = ctx.closeCursor := by omega
        rw [hsame, ← h.tried, hnone]
  patient := closeAttemptsPerRound_pos
  known hpos := absurd hpos (lt_irrefl 0)
  sent n hn := by
    rw [failedCloses_append, hq.1, List.append_nil] at hn
    exact le_trans (h.sent n hn) hle
  increasing := by
    rw [lostRounds_append, hq.2, List.append_nil]
    exact h.increasing
  behind n hn := by
    rw [lostRounds_append, hq.2, List.append_nil] at hn
    exact lt_of_lt_of_le (h.behind n hn) hle
  ledgers loss := by
    rw [lostTo_append, hq.lostTo, List.append_nil, ← h.ledgers]
    cases loss <;> rfl
  evidence loss n hn := by
    rw [lostTo_append, hq.lostTo, List.append_nil] at hn
    exact (h.evidence loss n hn).append (by simp [hq.1])

/-- The round under the cursor is given up, perhaps right after one more close of it failed. -/
theorem Books.lost (h : Books cfg counter H ctx) (hfailed : ∀ n ∈ failedCloses ev, n = ctx.closeCursor)
    (hlost : lostRounds ev = []) (hbound : ctx.closeCursor + 1 ≤ cursorBound cfg counter)
    (hevidence : Evidence (H ++ ev) ctx.closeCursor loss) :
    Books cfg counter (H ++ (ev ++ [.recorded loss ctx.closeCursor])) (ctx.recordLoss loss).moveOn := by
  have hf : failedCloses (H ++ (ev ++ [.recorded loss ctx.closeCursor])) =
      failedCloses H ++ failedCloses ev := by
    simp [failedCloses, KeeperEvent.failedClose]
  have hl : lostRounds (H ++ (ev ++ [.recorded loss ctx.closeCursor])) =
      lostRounds H ++ [ctx.closeCursor] := by
    simp only [lostRounds_append, hlost, List.nil_append]
    rfl
  have hto (other : CloseLoss) : lostTo other (H ++ (ev ++ [.recorded loss ctx.closeCursor])) =
      lostTo other H ++ if loss = other then [ctx.closeCursor] else [] := by
    have hnone : lostTo other ev = [] := List.eq_nil_of_sublist_nil (hlost ▸ lostTo_sublist ev)
    simp only [lostTo_append, hnone, List.nil_append]
    by_cases hsame : loss = other
    · simp [lostTo, KeeperEvent.lostTo, hsame]
    · simp [lostTo, KeeperEvent.lostTo, hsame]
  have hsent (n : ℤ) (hn : n ∈ failedCloses H ++ failedCloses ev) : n ≤ ctx.closeCursor := by
    rcases List.mem_append.mp hn with hn | hn
    · exact h.sent n hn
    · exact (hfailed n hn).le
  have hnew : (ctx.recordLoss loss).moveOn.closeCursor = ctx.closeCursor + 1 := by
    simp [KeeperContext.moveOn]
  exact {
    first := by have := h.first; omega
    bounded := hnew ▸ hbound
    disposed := fun n hn hlt => by
      by_cases hold : n < ctx.closeCursor
      · exact (h.disposed n hn hold).append _
      · have hsame : n = ctx.closeCursor := by omega
        exact .lost (by rw [hl, hsame]; simp)
    tried := by
      rw [hnew, hf]
      refine (List.count_eq_zero_of_not_mem fun hmem => ?_).symm
      exact absurd (hsent _ hmem) (by omega)
    patient := closeAttemptsPerRound_pos
    known := fun hpos => absurd hpos (lt_irrefl 0)
    sent := fun n hn => by
      rw [hf] at hn
      have := hsent n hn
      omega
    increasing := by
      rw [hl]
      refine List.pairwise_append.mpr ⟨h.increasing, List.pairwise_singleton _ _, fun a ha b hb => ?_⟩
      rw [List.mem_singleton.mp hb]
      exact h.behind a ha
    behind := fun n hn => by
      rw [hl] at hn
      rcases List.mem_append.mp hn with hn | hn
      · have := h.behind n hn
        omega
      · rw [List.mem_singleton.mp hn]
        omega
    ledgers := fun other => by
      rw [ledger_moveOn, hto]
      by_cases hsame : loss = other
      · subst hsame
        rw [if_pos rfl, ledger_recordLoss_self, h.ledgers, recordCloseLoss_ledgerOf]
      · rw [if_neg hsame, List.append_nil, ledger_recordLoss_ne ctx (Ne.symm hsame), h.ledgers]
    evidence := fun other n hn => by
      rw [hto] at hn
      have hquiet : failedCloses [KeeperEvent.recorded loss ctx.closeCursor] = [] := rfl
      rw [← List.append_assoc]
      rcases List.mem_append.mp hn with hold | hlast
      · refine Evidence.append (Evidence.append (h.evidence other n hold) fun hmem => ?_) (by simp [hquiet])
        have hlt := h.behind n (mem_lostRounds.mpr ⟨other, hold⟩)
        have := hfailed n hmem
        omega
      · by_cases hsame : loss = other
        · rw [if_pos hsame, List.mem_singleton] at hlast
          rw [hlast, ← hsame]
          exact hevidence.append (by simp [hquiet])
        · rw [if_neg hsame] at hlast
          cases hlast }

/-- One more close of the round under the cursor failed, and there will be another. -/
theorem Books.failed {retryAfter : ℚ} (h : Books cfg counter H ctx)
    (hknown : ctx.closeCursorKnownLiveAt = some ctx.closeCursor)
    (hagain : ctx.closeAttempts + 1 < closeAttemptsPerRound) :
    Books cfg counter (H ++ [.closeSent ctx.closeCursor false])
      { ctx with closeAttempts := ctx.closeAttempts + 1, closeRetryAfterSec := retryAfter } := by
  have hf : failedCloses [KeeperEvent.closeSent ctx.closeCursor false] = [ctx.closeCursor] := rfl
  have hl : lostRounds [KeeperEvent.closeSent ctx.closeCursor false] = [] := rfl
  have hto (loss : CloseLoss) : lostTo loss [KeeperEvent.closeSent ctx.closeCursor false] = [] := rfl
  exact {
    first := h.first
    bounded := h.bounded
    disposed := fun n hn hlt => (h.disposed n hn hlt).append _
    tried := by
      rw [failedCloses_append, hf, List.count_append, List.count_singleton_self, ← h.tried]
    patient := hagain
    known := fun _ => hknown
    sent := fun n hn => by
      rw [failedCloses_append, hf] at hn
      rcases List.mem_append.mp hn with hn | hn
      · exact h.sent n hn
      · exact (List.mem_singleton.mp hn).le
    increasing := by
      rw [lostRounds_append, hl, List.append_nil]
      exact h.increasing
    behind := fun n hn => by
      rw [lostRounds_append, hl, List.append_nil] at hn
      exact h.behind n hn
    ledgers := fun loss => by
      rw [lostTo_append, hto, List.append_nil, ← h.ledgers]
      cases loss <;> rfl
    evidence := fun loss n hn => by
      rw [lostTo_append, hto, List.append_nil] at hn
      refine (h.evidence loss n hn).append fun hmem => ?_
      rw [hf, List.mem_singleton] at hmem
      have := h.behind n (mem_lostRounds.mpr ⟨loss, hn⟩)
      omega }

end BullsUnicorns.Keeper

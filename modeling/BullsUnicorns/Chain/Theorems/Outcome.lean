import BullsUnicorns.Chain.Lemmas.Unextracted

/-!
# The outcome does not depend on who ticks

A fight is a lazy process: its value is the fighters and the penalties, its clock is the canonical
cursor, and its only actions are the extracts. Ticks and resolves merely advance it.
-/

namespace BullsUnicorns.Chain

open Word Replay

/-- What the fight computes: the fighters, and the penalties taken out of the ring. -/
abbrev FightValue := Vector Fighter maxFighters × ℕ

def fightBody (sha256 : List UInt8 → Bytes32) (seed : Bytes32) (n : ℕ) (step : ℕ) (v : FightValue) :
    FightValue :=
  (exchange sha256 seed n step v.1, v.2)

def fightAct (n : ℕ) (who : Pubkey) (cursor : ℕ) (v : FightValue) : Option FightValue := do
  let i ← Prefix.find (fun f => f.wallet == who && f.dead == 0 && decide (f.hp > 0)) v.1 n
  have hi := i.isLt
  let split := splitExtraction v.1[i].hp n cursor
  let _ ← checkedAdd 64 v.1[i].banked split.1
  let penalties ← checkedAdd 64 v.2 split.2
  some (v.1.set i (v.1[i].extracted split.1), penalties)

def RoundState.lazy (r : RoundState) : Lazy FightValue := ⟨r.tickCount, r.fighters, r.penaltiesCollected⟩

theorem iterFrom_fightBody {sha256 : List UInt8 → Bytes32} {seed : Bytes32} {n i k : ℕ}
    (v : FightValue) :
    iterFrom (fightBody sha256 seed n) i k v = (iterFrom (exchange sha256 seed n) i k v.1, v.2) := by
  induction k generalizing i v with
  | zero => rfl
  | succ k ih => rw [iterFrom_succ, ih]; rfl

/-- What every state of a run from the fighting round `r₀` keeps: the rules of its fight, and a value
that the eager run with the same extracts would have. -/
structure FollowsFight (sha256 : List UInt8 → Bytes32) (r₀ : RoundState) (t : ℤ)
    (log : List (RoundCall × Option Event)) (s : RoundState) : Prop where
  inv : Inv s
  phase : s.phase = .fight ∨ s.phase = .settled
  rules : s.seed = r₀.seed ∧ s.fighterCount = r₀.fighterCount ∧ s.fightStartedAt = r₀.fightStartedAt
  tracks : r₀.lazy.Tracks (fightBody sha256 r₀.seed r₀.fighterCount) (fightAct r₀.fighterCount)
    (canonicalCursor r₀.fightStartedAt r₀.fighterCount) (extractsOf log)
    (canonicalCursor r₀.fightStartedAt r₀.fighterCount t) s.lazy
  settled : s.phase = .settled → fightIsOver s.fighters s.fighterCount = true ∨
    finalCursor s.fighterCount ≤ s.tickCount
  verdict : VerdictStands s

section
variable {sha256 : List UInt8 → Bytes32} {r₀ r₁ r₂ s s' : RoundState} {t : ℤ}
  {log : List (RoundCall × Option Event)} {c : RoundCall} {e : Option Event}

theorem followsFight_start (hi : Inv r₀) (hf : r₀.phase = .fight) (t : ℤ) :
    FollowsFight sha256 r₀ t [] r₀ where
  inv := hi
  phase := Or.inl hf
  rules := ⟨rfl, rfl, rfl⟩
  tracks := Lazy.Tracks.refl _ _
  settled h := absurd (hf.symm.trans h) (by decide)
  verdict h := absurd (hf.symm.trans h) (by decide)

theorem FollowsFight.later (h : FollowsFight sha256 r₀ t log s) {t' : ℤ} (ht : t ≤ t') :
    FollowsFight sha256 r₀ t' log s :=
  { h with tracks := h.tracks.mono (canonicalCursor_mono _ _ ht) }

theorem FollowsFight.advance (h : FollowsFight sha256 r₀ t log s) (limit : ℕ) :
    r₀.lazy.Tracks (fightBody sha256 r₀.seed r₀.fighterCount) (fightAct r₀.fighterCount)
      (canonicalCursor r₀.fightStartedAt r₀.fighterCount) (extractsOf log)
      (canonicalCursor r₀.fightStartedAt r₀.fighterCount t)
      (s.advanced sha256 (s.backlog t limit)).lazy := by
  obtain ⟨hseed, hcount, hstart⟩ := h.rules
  have hb := backlog_le s t limit
  obtain ⟨k, -, -, -, -, hbound⟩ := h.tracks
  have ha := h.tracks.advance (n := s.backlog t limit) (by
    rw [hstart, hcount] at hb
    simp only [RoundState.lazy] at hbound ⊢
    omega)
  rw [iterFrom_fightBody] at ha
  simpa only [RoundState.lazy, RoundState.advanced, hseed, hcount] using ha

theorem fightAct_eq_some {fs : Vector Fighter maxFighters} {n cursor penalties : ℕ} {who : Pubkey}
    {i : Fin maxFighters} (hi : (i : ℕ) < maxFighters) {kept penalty : ℕ}
    (found : Prefix.find (fun f => f.wallet == who && f.dead == 0 && decide (f.hp > 0)) fs n = some i)
    (split : splitExtraction fs[i].hp n cursor = (kept, penalty))
    (banked : fs[i].banked + kept < 2 ^ 64) (fits : penalties + penalty < 2 ^ 64) :
    fightAct n who cursor (fs, penalties) =
      some (fs.set i (fs[i].extracted kept), penalties + penalty) := by
  simp only [fightAct, found, split, Option.bind_eq_bind, Option.bind_some, checkedAdd_of_lt banked,
    checkedAdd_of_lt fits]

theorem followsFight_step (hclock : ∀ u, c.clock = some u → u = t)
    (h : FollowsFight sha256 r₀ t log s) (hs : (roundMachine sha256).step s c = .ok (s', e)) :
    FollowsFight sha256 r₀ t (log ++ [(c, e)]) s' := by
  have heff := step_effect hs
  have hinv := inv_step h.inv heff
  have hverdict := verdict_step h.verdict heff
  have hadv := h.advance
  have hlobby : s.phase ≠ .lobby := by rcases h.phase with hp | hp <;> simp [hp]
  have hdraw : s.phase ≠ .drawing := by rcases h.phase with hp | hp <;> simp [hp]
  have hfight : s.phase = .fight → s.phase ≠ .settled := fun hf => by simp [hf]
  have hquiet : c.extraction = none → extractsOf (log ++ [(c, e)]) = extractsOf log := fun hc => by
    rw [extractsOf_snoc, hc, Option.toList_none, List.append_nil]
  cases heff with
  | topUp ok split live seat pot fees => exact absurd ok.lobby hlobby
  | join ok split fresh pot fees => exact absurd ok.lobby hlobby
  | draw lobby permitted enough => exact absurd lobby hlobby
  | seed drawing => exact absurd drawing hdraw
  | tick ok ran =>
      obtain rfl := hclock _ rfl
      subst ran
      exact ⟨hinv, h.phase, h.rules, hquiet rfl ▸ hadv _, fun hp => absurd hp (hfight ok.fight), hverdict⟩
  | grind ok ran standing behind =>
      obtain rfl := hclock _ rfl
      subst ran
      exact ⟨hinv, h.phase, h.rules, hquiet rfl ▸ hadv _, fun hp => absurd hp (hfight ok.fight), hverdict⟩
  | @settle now arena k ok ran ended =>
      obtain rfl := hclock _ rfl
      subst ran
      refine ⟨hinv, Or.inr rfl, h.rules, hquiet rfl ▸ hadv _, fun _ => ?_, hverdict⟩
      rcases ended with ho | ⟨hbell, hup⟩
      · exact Or.inl ho
      · exact Or.inr ((canonicalCursor_bell hbell _).symm.le.trans hup)
  | @extract now arena who k kept penalty i phase ran upToDate found split banked penalties =>
      obtain rfl := hclock _ rfl
      subst ran
      refine ⟨hinv, h.phase, h.rules, ?_, fun hp => absurd hp (hfight phase), hverdict⟩
      obtain ⟨-, hcount, hstart⟩ := h.rules
      rw [extractsOf_snoc]
      have hact := fightAct_eq_some i.isLt found split banked penalties
      rw [hcount] at hact
      rw [hcount, hstart] at upToDate
      exact (hadv maxStepsPerCall).takeAction upToDate hact
  | abandon lobby late few free => exact absurd lobby hlobby
  | refund lobby late one pot => exact absurd lobby hlobby
  | close settled =>
      exact ⟨hinv, h.phase, h.rules, hquiet rfl ▸ h.tracks, h.settled, hverdict⟩
  | sweep terminal unswept conserves fees penalties rounds =>
      exact ⟨hinv, h.phase, h.rules, hquiet rfl ▸ h.tracks, h.settled, hverdict⟩

variable (sha256) in
theorem followsFight_run (hi : Inv r₀) (hf : r₀.phase = .fight) {calls : List RoundCall} {now : ℤ}
    (hc : Clocked calls now) :
    FollowsFight sha256 r₀ now ((roundMachine sha256).accepted r₀ calls)
      ((roundMachine sha256).run r₀ calls) :=
  Machine.run_timed RoundCall.clock (H := FollowsFight sha256 r₀)
    (fun _ _ _ _ ht h => h.later ht) (fun _ _ _ _ _ _ hu h hs => followsFight_step hu h hs)
    (followsFight_start hi hf) calls now hc

/-! ## Two runs of one fight -/

theorem FollowsFight.agree {log₁ log₂ : List (RoundCall × Option Event)}
    (h₁ : FollowsFight sha256 r₀ t log₁ r₁) (h₂ : FollowsFight sha256 r₀ t log₂ r₂)
    (hx : extractsOf log₁ = extractsOf log₂) (hup₁ : isCaughtUp r₁ t = true)
    (hup₂ : isCaughtUp r₂ t = true) :
    r₁.lazy = r₂.lazy := by
  rw [isCaughtUp_iff, h₁.rules.2.1, h₁.rules.2.2] at hup₁
  rw [isCaughtUp_iff, h₂.rules.2.1, h₂.rules.2.2] at hup₂
  exact (h₁.tracks.agree (hx ▸ h₂.tracks) hup₁ hup₂).2

/-- Two settled runs hold the same fighters, whichever cursor each stopped at. -/
theorem FollowsFight.settled_agree {log₁ log₂ : List (RoundCall × Option Event)} {t₁ t₂ : ℤ}
    (h₁ : FollowsFight sha256 r₀ t₁ log₁ r₁) (h₂ : FollowsFight sha256 r₀ t₂ log₂ r₂)
    (hx : extractsOf log₁ = extractsOf log₂) (hs₁ : r₁.phase = .settled)
    (hle : r₁.tickCount ≤ r₂.tickCount) : r₂.lazy.value = r₁.lazy.value := by
  have hn : 2 ≤ r₁.fighterCount := h₁.inv.staged.enough (Or.inr (Or.inr hs₁))
  rcases h₁.settled hs₁ with ho | hbell
  · -- over before the other stopped: none of the other's further steps moved anything
    refine h₁.tracks.agree_of_fixed (hx ▸ h₂.tracks) hle fun j => ?_
    have hfix := exchange_over sha256 r₀.seed hn h₁.inv.lineup.count_le
      h₁.inv.lineup.sound h₁.inv.lineup.sides ho j
    rw [h₁.rules.2.1] at hfix
    exact Prod.ext hfix rfl
  · -- both at the bell
    rw [h₁.rules.2.1] at hbell
    have hfin := canonicalCursor_le_final r₀.fightStartedAt (n := r₀.fighterCount)
    have ha := (h₁.tracks.mono (hfin t₁)).agree ((hx ▸ h₂.tracks).mono (hfin t₂)) hbell
      (hbell.trans hle)
    exact congrArg Lazy.value ha.2.symm

end

/-- Two runs of a fight with the same extracts agree whenever both are up to date, and whenever both
are settled, whoever ticked and however often. -/
theorem outcome_independent_of_ticks (sha256 : List UInt8 → Bytes32) (opened : ℤ) (roundNo : ℕ)
    (seedCommit : Bytes32) (lobbySeconds : UInt32) (before calls₁ calls₂ : List RoundCall) :
    let m := roundMachine sha256
    let r₀ := m.run (openedRound opened roundNo seedCommit lobbySeconds) before
    let r₁ := m.run r₀ calls₁
    let r₂ := m.run r₀ calls₂
    r₀.phase = .fight →
    extractsOf (m.accepted r₀ calls₁) = extractsOf (m.accepted r₀ calls₂) →
    (∀ now, Clocked calls₁ now → Clocked calls₂ now → isCaughtUp r₁ now = true →
      isCaughtUp r₂ now = true →
        r₁.fighters = r₂.fighters ∧ r₁.tickCount = r₂.tickCount ∧
        r₁.penaltiesCollected = r₂.penaltiesCollected ∧
        (Clocked (before ++ calls₁) now →
          r₁.tickCount = canonicalCursor r₁.fightStartedAt r₁.fighterCount now)) ∧
    (∀ now₁ now₂, Clocked calls₁ now₁ → Clocked calls₂ now₂ → r₁.phase = .settled →
      r₂.phase = .settled →
        r₁.fighters = r₂.fighters ∧ r₁.penaltiesCollected = r₂.penaltiesCollected ∧
        r₁.winner = r₂.winner) := by
  intro m r₀ r₁ r₂ hf hx
  have hopen := openedRound_inv opened roundNo seedCommit lobbySeconds
  have hi : Inv r₀ := inv_run hopen before
  refine ⟨fun now hc₁ hc₂ hup₁ hup₂ => ?caught, fun now₁ now₂ hc₁ hc₂ hs₁ hs₂ => ?settled⟩
  case caught =>
    have h := (followsFight_run sha256 hi hf hc₁).agree (followsFight_run sha256 hi hf hc₂) hx
      hup₁ hup₂
    simp only [RoundState.lazy, Lazy.mk.injEq, Prod.mk.injEq] at h
    refine ⟨h.2.1, h.1, h.2.2, fun hc => ?_⟩
    have hle : OnTime now r₁ := by
      have ho := onTime_run sha256 hopen (fun t => Nat.zero_le _) hc
      rwa [Machine.run_append] at ho
    exact Nat.le_antisymm hle (isCaughtUp_iff.mp hup₁)
  case settled =>
    have h₁ := followsFight_run sha256 hi hf hc₁
    have h₂ := followsFight_run sha256 hi hf hc₂
    have hval : r₁.lazy.value = r₂.lazy.value := by
      rcases Nat.le_total r₁.tickCount r₂.tickCount with hle | hle
      · exact (h₁.settled_agree h₂ hx hs₁ hle).symm
      · exact h₂.settled_agree h₁ hx.symm hs₂ hle
    simp only [RoundState.lazy, Prod.mk.injEq] at hval
    refine ⟨hval.1, hval.2, ?_⟩
    calc r₁.winner = settleSides r₁.fighters r₁.fighterCount := h₁.verdict hs₁
      _ = settleSides r₂.fighters r₂.fighterCount := by
          rw [hval.1, show r₁.fighterCount = r₂.fighterCount from h₁.rules.2.1.trans h₂.rules.2.1.symm]
      _ = r₂.winner := (h₂.verdict hs₂).symm

def duel : List RoundCall :=
  let arena : Arena := ⟨zeroBytes, 1, ⟨0, by decide⟩⟩
  [.ix 1 arena (.enter (Vector.replicate 32 1) 0 100), .ix 2 arena (.enter (Vector.replicate 32 2) 1 100),
    .ix 20 arena (.closeLobbyAndDraw none), .ix 20 arena (.callbackSeed zeroBytes)]

theorem outcome_independent_witness :
    let m := roundMachine fun _ => zeroBytes
    let r₀ := m.run (openedRound 0 1 zeroBytes 20) duel
    let arena : Arena := ⟨zeroBytes, 1, ⟨0, by decide⟩⟩
    let r₁ := m.run r₀ [.ix 21 arena (.tick 2), .ix 22 arena (.tick 1), .ix 22 arena .resolve]
    let r₂ := m.run r₀ [.ix 40 arena .resolve]
    r₁.fighters = r₂.fighters ∧ r₁.penaltiesCollected = r₂.penaltiesCollected ∧
      r₁.winner = r₂.winner :=
  (outcome_independent_of_ticks (fun _ => zeroBytes) 0 1 zeroBytes 20 duel _ _ (by decide +kernel)
    (by decide +kernel)).2 22 40 (by decide +kernel) (by decide +kernel) (by decide +kernel)
    (by decide +kernel)

end BullsUnicorns.Chain

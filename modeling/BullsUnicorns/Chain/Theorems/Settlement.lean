import BullsUnicorns.Chain.Theorems.Outcome
import Mathlib.Algebra.Order.Floor.Div

/-!
# Anyone can settle a fight

Past the bell a `resolve` is always accepted while the round fights, and each one that does not settle
runs a full call of steps. The bell bounds how often that can happen.
-/

namespace BullsUnicorns.Chain

open Word Replay

/-- A `resolve` at or past the bell of the fight that began at `start`. -/
def RoundCall.lateResolve (start : ℤ) : RoundCall → Bool
  | .ix now _ .resolve => start + fightTimeoutSeconds ≤ now
  | _ => false

/-- `tick_count` after a call that did not settle: a full call further, or at the bell. -/
def Ground (r r' : RoundState) : Prop :=
  r'.phase = .fight ∧ r.tickCount < r'.tickCount ∧
    (r'.tickCount = r.tickCount + maxStepsPerCall ∨ r'.tickCount = finalCursor r.fighterCount)

section
variable {sha256 : List UInt8 → Bytes32} {r r' s s' : RoundState} {c : RoundCall} {e : Option Event}

theorem elapsed_late {start now : ℤ} (h : start + fightTimeoutSeconds ≤ now) :
    fightTimeoutSeconds ≤ elapsed start now := by
  simp only [elapsed, satSubSigned, clampSigned, fightTimeoutSeconds] at *
  omega

/-- What a call on a fighting round cannot change. -/
structure FightGoesOn (r r' : RoundState) : Prop where
  phase : r'.phase = .fight ∨ r'.phase = .settled
  count : r'.fighterCount = r.fighterCount
  start : r'.fightStartedAt = r.fightStartedAt
  forward : r.tickCount ≤ r'.tickCount

theorem fight_step (hf : r.phase = .fight) (h : Effect sha256 r c r' e) : FightGoesOn r r' := by
  have hlobby : r.phase ≠ .lobby := by simp [hf]
  cases h with
  | topUp ok split live seat pot fees => exact absurd ok.lobby hlobby
  | join ok split fresh pot fees => exact absurd ok.lobby hlobby
  | draw lobby permitted enough => exact absurd lobby hlobby
  | seed drawing => exact absurd (hf.symm.trans drawing) (by decide)
  | tick ok ran => exact ⟨Or.inl hf, rfl, rfl, Nat.le_add_right _ _⟩
  | grind ok ran standing behind => exact ⟨Or.inl hf, rfl, rfl, Nat.le_add_right _ _⟩
  | settle ok ran ended => exact ⟨Or.inr rfl, rfl, rfl, Nat.le_add_right _ _⟩
  | extract phase ran upToDate found split banked penalties =>
      exact ⟨Or.inl hf, rfl, rfl, Nat.le_add_right _ _⟩
  | abandon lobby late few free => exact absurd lobby hlobby
  | refund lobby late one pot => exact absurd lobby hlobby
  | close settled => exact absurd (hf.symm.trans settled) (by decide)
  | sweep terminal unswept conserves fees penalties rounds =>
      rcases terminal with ht | ht <;> simp [hf] at ht

variable (sha256) in
/-- Past the bell a `resolve` on a fighting round succeeds: it settles, or it runs a full call of
steps and is still short of the bell. -/
theorem late_resolve (hi : Inv r) (hf : r.phase = .fight) {now : ℤ}
    (hnow : r.fightStartedAt + fightTimeoutSeconds ≤ now) (arena : Arena) :
    ∃ r' e, (roundMachine sha256).step r (.ix now arena .resolve) = .ok (r', e) ∧
      (r'.phase = .settled ∨ r'.phase = .fight ∧ r'.tickCount = r.tickCount + maxStepsPerCall ∧
        r'.tickCount < finalCursor r.fighterCount) := by
  have hn := (hi.fightOk hf).enough
  have hbell := elapsed_late hnow
  have hfin := canonicalCursor_bell hbell r.fighterCount
  set k := r.backlog now maxStepsPerCall with hk
  have hstep : (roundMachine sha256).step r (.ix now arena .resolve) = resolve sha256 r now := rfl
  rw [hstep]
  by_cases hgo : fightIsOver (r.advanced sha256 k).fighters r.fighterCount = false ∧
      isCaughtUp (r.advanced sha256 k) now = false
  · refine ⟨r.advanced sha256 k, some (.ticked r.roundNo (r.tickCount + k) k), ?_, Or.inr ⟨hf, ?_⟩⟩
    · simp only [resolve, require, hf, hn, catchUp_eq, ← hk]
      exact if_pos hgo
    · -- short of the bell after the call, so the call's own limit is what stopped it
      have hshort : r.tickCount + k < canonicalCursor r.fightStartedAt r.fighterCount now := by
        have hb := hgo.2
        rw [← Bool.not_eq_true, isCaughtUp_iff] at hb
        exact Nat.lt_of_not_le hb
      have hfull : k = min (finalCursor r.fighterCount - r.tickCount) maxStepsPerCall := by
        rw [hk, RoundState.backlog, if_neg (by omega), hfin]
      rw [hfin] at hshort
      simp only [RoundState.advanced]
      omega
  · refine ⟨{ r.advanced sha256 k with
      winner := settleSides (r.advanced sha256 k).fighters r.fighterCount
      phase := .settled }, some (.roundSettled r.roundNo
        (settleSides (r.advanced sha256 k).fighters r.fighterCount) r.pot), ?_, Or.inl rfl⟩
    have hlate : elapsed (r.advanced sha256 k).fightStartedAt now ≥ fightTimeoutSeconds := hbell
    simp only [resolve, require, hf, hn, catchUp_eq, ← hk]
    refine (if_neg hgo).trans ?_
    rw [if_pos (Or.inr hlate)]
    rfl

/-- The late `resolve`s of a run are paid for in steps, and there is room for only so many. -/
structure Paid (r s : RoundState) (late : ℕ) : Prop where
  fighting : s.phase = .fight
  steps : maxStepsPerCall * late ≤ s.tickCount
  room : late = 0 ∨ maxStepsPerCall * late < finalCursor r.fighterCount

theorem FightGoesOn.trans (h : FightGoesOn r s) (h' : FightGoesOn s s') : FightGoesOn r s' :=
  ⟨h'.phase, h'.count.trans h.count, h'.start.trans h.start, h.forward.trans h'.forward⟩

/-- A settled round stays settled, with its lineup, its clock and its cursor. -/
theorem settled_step (hs : r.phase = .settled) (h : Effect sha256 r c r' e) : FightGoesOn r r' := by
  rcases terminal_step (Or.inl hs) h with rfl | ⟨-, -, rfl⟩
  · exact ⟨Or.inr hs, rfl, rfl, Nat.le_refl _⟩
  · exact ⟨Or.inr hs, rfl, rfl, Nat.le_refl _⟩

variable (sha256) in
theorem fightGoesOn_run (hi : Inv r) (hf : r.phase = .fight) (calls : List RoundCall) :
    FightGoesOn r ((roundMachine sha256).run r calls) :=
  effect_run (P := FightGoesOn r)
    (fun _ _ _ _ _ hs h => hs.trans (hs.phase.elim (fight_step · h) (settled_step · h)))
    hi ⟨Or.inl hf, rfl, rfl, Nat.le_refl _⟩ calls

theorem paid_attempt (hi : Inv s) (hs : FightGoesOn r s) {late : ℕ} (hp : Paid r s late)
    (c : RoundCall) :
    ((roundMachine sha256).attempt s c).phase = .settled ∨
      Paid r ((roundMachine sha256).attempt s c)
        (late + if c.lateResolve r.fightStartedAt then 1 else 0) := by
  by_cases hc : c.lateResolve r.fightStartedAt = true
  · rw [if_pos hc]
    cases c with
    | sweep t => simp [RoundCall.lateResolve] at hc
    | ix now arena i =>
        cases i with
        | resolve =>
            have hnow : s.fightStartedAt + fightTimeoutSeconds ≤ now := by
              rw [hs.start]
              simpa [RoundCall.lateResolve] using hc
            obtain ⟨s', e, hok, hend⟩ := late_resolve sha256 hi hp.fighting hnow arena
            rw [Machine.attempt_ok hok]
            rcases hend with hset | ⟨hfight, hran, hshort⟩
            · exact Or.inl hset
            · rw [hs.count] at hshort
              have hsteps := hp.steps
              have hnext : maxStepsPerCall * (late + 1) ≤ s'.tickCount := by
                rw [Nat.mul_succ]
                omega
              exact Or.inr ⟨hfight, hnext, Or.inr (by omega)⟩
        | _ => simp [RoundCall.lateResolve] at hc
  · rw [if_neg hc, Nat.add_zero]
    cases h : (roundMachine sha256).step s c with
    | error err => rw [Machine.attempt_error h]; exact Or.inr hp
    | ok a =>
        obtain ⟨r', o⟩ := a
        rw [Machine.attempt_ok h]
        have hg := fight_step hp.fighting (step_effect h)
        rcases hg.phase with hf | hset
        · exact Or.inr ⟨hf, hp.steps.trans hg.forward, hp.room⟩
        · exact Or.inl hset

variable (sha256) in
theorem paid_run (hi : Inv r) (hf : r.phase = .fight) (calls : List RoundCall) :
    ((roundMachine sha256).run r calls).phase = .settled ∨
      Paid r ((roundMachine sha256).run r calls)
        (calls.countP (RoundCall.lateResolve r.fightStartedAt)) := by
  induction calls using List.reverseRecOn with
  | nil => exact Or.inr ⟨hf, Nat.zero_le _, Or.inl rfl⟩
  | append_singleton calls c ih =>
      have hrun := fightGoesOn_run sha256 hi hf calls
      have hlast := fightGoesOn_run sha256 hi hf (calls ++ [c])
      rw [Machine.run_append, Machine.run_cons, Machine.run_nil] at hlast ⊢
      rw [List.countP_append, List.countP_singleton]
      rcases ih with hset | hp
      · left
        cases h : (roundMachine sha256).step ((roundMachine sha256).run r calls) c with
        | error err => rw [Machine.attempt_error h]; exact hset
        | ok a =>
            obtain ⟨r', o⟩ := a
            rw [Machine.attempt_ok h]
            rcases terminal_step (Or.inl hset) (step_effect h) with he | ⟨-, -, he⟩ <;> rw [he] <;> exact hset
      · exact paid_attempt (inv_run hi calls) hrun hp c

end

/-- Whoever calls `resolve` past the bell is never refused while the round fights, each call that does
not settle runs a full call of steps or reaches the bell, and the bell's steps divided by a call's are
enough of them, whatever anyone else sends in between. -/
theorem anyone_can_settle (sha256 : List UInt8 → Bytes32) (opened : ℤ) (roundNo : ℕ)
    (seedCommit : Bytes32) (lobbySeconds : UInt32) (before calls : List RoundCall) :
    let m := roundMachine sha256
    let r := m.run (openedRound opened roundNo seedCommit lobbySeconds) before
    r.phase = .fight →
      (∀ earlier now arena later, calls = earlier ++ .ix now arena .resolve :: later →
        r.fightStartedAt + fightTimeoutSeconds ≤ now →
          let s := m.run r earlier
          s.phase = .settled ∨ ∃ s' e, m.step s (.ix now arena .resolve) = .ok (s', e) ∧
            (s'.phase = .settled ∨ Ground s s')) ∧
      (finalCursor r.fighterCount ⌈/⌉ maxStepsPerCall ≤
          calls.countP (RoundCall.lateResolve r.fightStartedAt) →
        (m.run r calls).phase = .settled) := by
  intro m r hf
  have hi : Inv r := inv_reachable opened roundNo seedCommit lobbySeconds before
  refine ⟨?accepted, ?enough⟩
  case accepted =>
    intro earlier now arena later _ hnow s
    have hrun : FightGoesOn r s := fightGoesOn_run sha256 hi hf earlier
    rcases hrun.phase with hsf | hset
    · right
      obtain ⟨s', e, hok, hend⟩ := late_resolve sha256 (inv_run hi earlier) hsf
        (hrun.start ▸ hnow) arena
      refine ⟨s', e, hok, hend.imp_right fun ⟨hfight, hran, _⟩ => ⟨hfight, ?_, Or.inl hran⟩⟩
      rw [hran]
      exact Nat.lt_add_of_pos_right (by decide)
    · exact Or.inl hset
  case enough =>
    intro hcount
    rcases paid_run sha256 hi hf calls with hset | hp
    · exact hset
    · exfalso
      rw [ceilDiv_le_iff_le_mul (by decide)] at hcount
      have hpos : 0 < finalCursor r.fighterCount := by
        have hn := (hi.fightOk hf).enough
        simp only [finalCursor, stepsPerSecond, satMul, maxVal, fightTimeoutSeconds,
          stepsPerFighterPerSecond]
        omega
      rcases hp.room with h0 | hlt
      · rw [h0] at hcount
        omega
      · omega

theorem anyone_can_settle_witness :
    ((roundMachine fun _ => zeroBytes).run
      ((roundMachine fun _ => zeroBytes).run (openedRound 0 1 zeroBytes 20) duel)
      [.ix 21 ⟨zeroBytes, 1, ⟨0, by decide⟩⟩ (.tick 3), .ix 200 ⟨zeroBytes, 1, ⟨0, by decide⟩⟩ .resolve]).phase =
        .settled :=
  (anyone_can_settle (fun _ => zeroBytes) 0 1 zeroBytes 20 duel _ (by decide +kernel)).2
    (by decide +kernel)

end BullsUnicorns.Chain

import BullsUnicorns.Chain.Lemmas.Clock

/-!
# The life of a round
-/

namespace BullsUnicorns.Chain

open Word Replay

section
variable {sha256 : List UInt8 → Bytes32} {r r' : RoundState} {e : Option Event}

theorem enter_accepted {now arena who side stake}
    (h : (roundMachine sha256).step r (.ix now arena (.enter who side stake)) = .ok (r', e)) :
    EntryOk r now side stake := by
  cases step_effect h with
  | topUp ok split live seat pot fees => exact ok
  | join ok split fresh pot fees => exact ok

theorem draw_accepted {now arena authority}
    (h : (roundMachine sha256).step r (.ix now arena (.closeLobbyAndDraw authority)) = .ok (r', e)) :
    DrawOk r now arena authority := by
  cases step_effect h with
  | draw lobby permitted enough => exact permitted

theorem enter_refused (hl : r.phase ≠ .lobby) (now arena who side stake) :
    ∃ err, (roundMachine sha256).step r (.ix now arena (.enter who side stake)) = .error err := by
  cases h : (roundMachine sha256).step r (.ix now arena (.enter who side stake)) with
  | ok a => exact absurd (enter_accepted h).lobby hl
  | error err => exact ⟨err, rfl⟩

end

/-- The phases only move forward, the seed is written once and after the last entry, the lineup is
frozen from the end of the lobby on, and the lobby keeps its clock. -/
theorem phase_machine_and_frozen_lineup (sha256 : List UInt8 → Bytes32) (opened : ℤ) (roundNo : ℕ)
    (seedCommit : Bytes32) (lobbySeconds : UInt32) (calls : List RoundCall) :
    let m := roundMachine sha256
    let r₀ := openedRound opened roundNo seedCommit lobbySeconds
    let r := m.run r₀ calls
    (∀ c r' e, m.step r c = .ok (r', e) → r'.phase = r.phase ∨ r.phase.Next r'.phase) ∧
    (r.phase.terminal → ∀ later, (m.run r later).phase = r.phase) ∧
    (r.phase.revealed ∧ seedsWritten (m.accepted r₀ calls) = [r.seed] ∨
      ¬ r.phase.revealed ∧ seedsWritten (m.accepted r₀ calls) = [] ∧ r.seed = zeroBytes) ∧
    (∀ c r' e, m.step r c = .ok (r', e) →
      c.seedWritten = none ∧ r'.seed = r.seed ∨
        c.seedWritten = some r'.seed ∧ r.phase = .drawing ∧ r'.phase = .fight) ∧
    (r.phase ≠ .lobby → ∀ later, SameLineup r (m.run r later) ∧
      ∀ now arena who side stake,
        ∃ err, m.step (m.run r later) (.ix now arena (.enter who side stake)) = .error err) ∧
    r.lobbyClosesAt = (lobbyWindow opened lobbySeconds).2 ∧
    (∀ now arena who side stake r' e,
      m.step r (.ix now arena (.enter who side stake)) = .ok (r', e) → now < r.lobbyClosesAt) ∧
    (∀ now arena authority r' e,
      m.step r (.ix now arena (.closeLobbyAndDraw authority)) = .ok (r', e) →
        authority = some arena.authority ∨ r.lobbyClosesAt ≤ now ∨ r.fighterCount = maxFighters) ∧
    r.fighterCount ≤ maxFighters ∧
    Prefix.InjOn (fun f => (f.wallet, f.side)) r.fighters r.fighterCount ∧
    Prefix.All (fun f => f.side = 0 ∨ f.side = 1) r.fighters r.fighterCount ∧
    Prefix.All (fun f => f.dead = 1 ↔ f.hp = 0) r.fighters r.fighterCount := by
  intro m r₀ r
  have hi : Inv r := inv_reachable opened roundNo seedCommit lobbySeconds calls
  refine ⟨?phases, ?final, ?seeds, ?writes, ?frozen, ?clock, ?entries, ?draws, hi.lineup.count_le,
    hi.lineup.distinct, hi.lineup.sides, hi.lineup.sound.imp fun f hf => hf.dead_iff⟩
  case phases =>
    intro c r' e h
    exact phase_step (step_effect h)
  case final =>
    intro ht later
    rcases terminal_run ht later with he | he
    · exact congrArg RoundState.phase he
    · exact (congrArg RoundState.phase he).trans rfl
  case seeds =>
    exact seedsWritten_run (by simp [r₀, openedRound, Phase.revealed]) calls
  case writes =>
    intro c r' e h
    rcases seed_step (step_effect h) with ⟨hn, hs, -⟩ | hw
    · exact Or.inl ⟨hn, hs⟩
    · exact Or.inr hw
  case frozen =>
    intro hl later
    refine ⟨sameLineup_run hi hl later, fun now arena who side stake => ?_⟩
    exact enter_refused (left_lobby_run hl later) now arena who side stake
  case clock => exact (identity_run r₀ calls).2
  case entries =>
    intro now arena who side stake r' e h
    exact (enter_accepted h).isOpen
  case draws =>
    intro now arena authority r' e h
    rcases draw_accepted h with ha | hc | hf
    · exact Or.inl ha
    · exact Or.inr (Or.inl hc)
    · exact Or.inr (Or.inr (Nat.le_antisymm hi.lineup.count_le hf))

/-! ## The settlement -/

section
variable {sha256 : List UInt8 → Bytes32} {r r' : RoundState} {e : Option Event}

theorem settle_accepted {now arena}
    (h : (roundMachine sha256).step r (.ix now arena .resolve) = .ok (r', e))
    (hp : r'.phase = .settled) :
    FightOk r ∧ ∃ k, k ≤ canonicalCursor r.fightStartedAt r.fighterCount now - r.tickCount ∧
      (fightIsOver (r.advanced sha256 k).fighters r.fighterCount = true ∨
        fightTimeoutSeconds ≤ elapsed r.fightStartedAt now ∧
          canonicalCursor r.fightStartedAt r.fighterCount now ≤ r.tickCount + k) ∧
      r' = { r.advanced sha256 k with
        winner := settleSides (r.advanced sha256 k).fighters r.fighterCount, phase := .settled } := by
  cases step_effect h with
  | grind ok ran standing behind => exact absurd (ok.fight.symm.trans hp) (by decide)
  | @settle _ _ k ok ran ended => exact ⟨ok, k, ran ▸ backlog_le r now _, ended, rfl⟩

theorem quiet_step {now arena i} (hi : Inv r) (hq : (∃ steps, i = .tick steps) ∨ i = .resolve)
    (ho : fightIsOver r.fighters r.fighterCount = true)
    (h : (roundMachine sha256).step r (.ix now arena i) = .ok (r', e)) :
    r'.fighters = r.fighters := by
  rcases hq with ⟨steps, rfl⟩ | rfl
  · cases step_effect h with
    | tick ok ran => exact advanced_over hi ok.enough ho _
  · cases step_effect h with
    | grind ok ran standing behind => exact advanced_over hi ok.enough ho _
    | settle ok ran ended => exact advanced_over hi ok.enough ho _

def SideDown (r : RoundState) : Prop :=
  ∃ s : UInt8, (s = 0 ∨ s = 1) ∧ Prefix.All (fun f => f.side = s → f.dead ≠ 0) r.fighters r.fighterCount

theorem sideDown_of_over (hi : Inv r) (ho : fightIsOver r.fighters r.fighterCount = true) :
    SideDown r := by
  rcases (fightIsOver_iff hi.lineup.count_le).mp ho with h | h
  · exact ⟨0, Or.inl rfl, fun i hk hin hs hd => h i hk hin hd hs⟩
  · refine ⟨1, Or.inr rfl, fun i hk hin hs hd => ?_⟩
    rw [h i hk hin hd] at hs
    exact absurd hs (by decide)

theorem advanceFight_advanced (hn : 2 ≤ r.fighterCount) {T : ℕ} (hT : T < 2 ^ 64)
    (hle : r.tickCount ≤ T) :
    advanceFight sha256 r.fighters r.fighterCount r.seed r.tickCount (T - r.tickCount) =
      (r.advanced sha256 (T - r.tickCount)).fighters :=
  advanceFight_eq_iterFrom hn (by omega) _

/-- Caught up at the bell, a cursor that the clock allowed is the final one. -/
theorem bell_cursor {now k} (ht : OnTime now r)
    (hk : k ≤ canonicalCursor r.fightStartedAt r.fighterCount now - r.tickCount)
    (hbell : fightTimeoutSeconds ≤ elapsed r.fightStartedAt now)
    (hup : canonicalCursor r.fightStartedAt r.fighterCount now ≤ r.tickCount + k) :
    r.tickCount + k = finalCursor r.fighterCount := by
  have hfin := canonicalCursor_bell hbell r.fighterCount
  unfold OnTime at ht
  omega

/-- The two cursors a verdict is compared at: where the clock is, and the bell. -/
def VerdictCursor (r : RoundState) (now : ℤ) (T : ℕ) : Prop :=
  T = canonicalCursor r.fightStartedAt r.fighterCount now ∨ T = finalCursor r.fighterCount

theorem VerdictCursor.bounds {now T} (hT : VerdictCursor r now T) (ht : OnTime now r) :
    T < 2 ^ 64 ∧ r.tickCount ≤ T := by
  have hlt := canonicalCursor_lt r.fightStartedAt now r.fighterCount
  have hfin := canonicalCursor_le_final r.fightStartedAt now r.fighterCount
  have hmax : finalCursor r.fighterCount < 2 ^ 64 := by
    unfold finalCursor satMul maxVal
    omega
  unfold OnTime at ht
  rcases hT with rfl | rfl
  · exact ⟨hlt, ht⟩
  · exact ⟨hmax, ht.trans hfin⟩

/-- The steps a settling `resolve` did not run would have moved nobody. -/
theorem settle_is_final {now k T} (hi : Inv r) (hn : 2 ≤ r.fighterCount) (ht : OnTime now r)
    (hk : k ≤ canonicalCursor r.fightStartedAt r.fighterCount now - r.tickCount)
    (hend : fightIsOver (r.advanced sha256 k).fighters r.fighterCount = true ∨
      fightTimeoutSeconds ≤ elapsed r.fightStartedAt now ∧
        canonicalCursor r.fightStartedAt r.fighterCount now ≤ r.tickCount + k)
    (hT : VerdictCursor r now T) :
    (r.advanced sha256 (T - r.tickCount)).fighters = (r.advanced sha256 k).fighters := by
  rcases hend with ho | ⟨hbell, hup⟩
  · have hfin := canonicalCursor_le_final r.fightStartedAt now r.fighterCount
    refine advanced_of_over hi hn ?_ ho
    rcases hT with rfl | rfl
    · exact hk
    · omega
  · have hcur := bell_cursor ht hk hbell hup
    have hfin := canonicalCursor_bell hbell r.fighterCount
    have hTk : T - r.tickCount = k := by
      rcases hT with rfl | rfl
      · omega
      · omega
    rw [hTk]

end

/-- Nobody stops a fight early: a round settles when a side is down or at the bell with every step
run, and its verdict is the one of the full fight. -/
theorem no_early_settlement (sha256 : List UInt8 → Bytes32) (opened : ℤ) (roundNo : ℕ)
    (seedCommit : Bytes32) (lobbySeconds : UInt32) (calls : List RoundCall) :
    let m := roundMachine sha256
    let r := m.run (openedRound opened roundNo seedCommit lobbySeconds) calls
    (∀ now, Clocked calls now → r.tickCount ≤ canonicalCursor r.fightStartedAt r.fighterCount now) ∧
    (∀ c r' e, m.step r c = .ok (r', e) → r.phase ≠ .settled → r'.phase = .settled →
      ∃ now arena, c = .ix now arena .resolve) ∧
    (∀ now arena r' e, Clocked calls now → m.step r (.ix now arena .resolve) = .ok (r', e) →
      r'.phase = .settled →
        (SideDown r' ∨
          fightTimeoutSeconds ≤ elapsed r'.fightStartedAt now ∧
            r'.tickCount = finalCursor r'.fighterCount) ∧
        r'.winner = settleSides r'.fighters r'.fighterCount ∧
        ∀ T, T = canonicalCursor r.fightStartedAt r.fighterCount now ∨ T = finalCursor r.fighterCount →
          r'.winner = settleSides (advanceFight sha256 r.fighters r.fighterCount r.seed r.tickCount
            (T - r.tickCount)) r.fighterCount) ∧
    (r.phase = .settled → r.winner = settleSides r.fighters r.fighterCount) ∧
    (r.phase ≠ .lobby → fightIsOver r.fighters r.fighterCount = true → ∀ later now arena i r' e,
      (∃ steps, i = .tick steps) ∨ i = .resolve →
        m.step (m.run r later) (.ix now arena i) = .ok (r', e) →
          r'.fighters = (m.run r later).fighters) := by
  intro m r
  have hi : Inv r := inv_reachable opened roundNo seedCommit lobbySeconds calls
  have htime : ∀ now, Clocked calls now → OnTime now r := fun now hc =>
    onTime_run sha256 (openedRound_inv opened roundNo seedCommit lobbySeconds) (fun t => Nat.zero_le _) hc
  refine ⟨htime, ?by_resolve, ?settles, ?stored, ?quiet⟩
  case by_resolve =>
    intro c r' e h hne hp
    exact settling_step (step_effect h) hp hne
  case settles =>
    intro now arena r' e hc h hp
    obtain ⟨ok, k, hk, hend, he⟩ := settle_accepted h hp
    have hi' : Inv r' := inv_step hi (step_effect h)
    refine ⟨?_, by rw [he]; rfl, fun T hT => ?_⟩
    · rcases hend with ho | ⟨hbell, hup⟩
      · exact Or.inl (sideDown_of_over hi' (by rw [he]; exact ho))
      · exact Or.inr (by rw [he]; exact ⟨hbell, bell_cursor (htime now hc) hk hbell hup⟩)
    · have hcursor : VerdictCursor r now T := hT
      obtain ⟨hlt, hle⟩ := hcursor.bounds (htime now hc)
      rw [advanceFight_advanced ok.enough hlt hle,
        settle_is_final hi ok.enough (htime now hc) hk hend hcursor, he]
  case stored => exact verdict_run (fun hp => by cases hp) calls
  case quiet =>
    intro hl ho later now arena i r' e hq h
    exact quiet_step (inv_run hi later) hq (over_run hi hl ho later) h

end BullsUnicorns.Chain

import BullsUnicorns.Chain.Lemmas.Frozen

/-!
# The cursor and the clock

The stored cursor never runs ahead of the clock, and the clock never runs past the bell.
-/

namespace BullsUnicorns.Chain

open Word Replay

/-! ## The canonical cursor -/

theorem elapsed_mono (start : ℤ) {now now' : ℤ} (h : now ≤ now') :
    elapsed start now ≤ elapsed start now' :=
  Int.toNat_le_toNat (clampSigned_mono (Int.sub_le_sub_right h start))

theorem satMul_mono {w a b c : ℕ} (h : a ≤ b) : satMul w a c ≤ satMul w b c :=
  min_le_min_right _ (Nat.mul_le_mul_right c h)

theorem canonicalCursor_mono (start : ℤ) (n : ℕ) {now now' : ℤ} (h : now ≤ now') :
    canonicalCursor start n now ≤ canonicalCursor start n now' :=
  satMul_mono (min_le_min_right _ (elapsed_mono start h))

theorem canonicalCursor_le_final (start now : ℤ) (n : ℕ) :
    canonicalCursor start n now ≤ finalCursor n :=
  satMul_mono (Nat.min_le_right _ _)

theorem canonicalCursor_bell {start now : ℤ} (h : fightTimeoutSeconds ≤ elapsed start now) (n : ℕ) :
    canonicalCursor start n now = finalCursor n := by
  rw [canonicalCursor, Nat.min_eq_right h, finalCursor]

/-! ## Calls and their clock -/

def RoundCall.clock : RoundCall → Option ℤ
  | .ix now _ _ => some now
  | .sweep _ => none

/-- The readings of the calls do not decrease, and `now` is not before them. -/
def Clocked (calls : List RoundCall) (now : ℤ) : Prop :=
  (calls.filterMap RoundCall.clock ++ [now]).Pairwise (· ≤ ·)

instance (calls : List RoundCall) (now : ℤ) : Decidable (Clocked calls now) := by
  unfold Clocked; infer_instance

/-- The stored cursor is where some reading not past `now` put it. -/
def OnTime (now : ℤ) (r : RoundState) : Prop :=
  r.tickCount ≤ canonicalCursor r.fightStartedAt r.fighterCount now

theorem OnTime.mono {r : RoundState} {now now' : ℤ} (h : OnTime now r) (hn : now ≤ now') :
    OnTime now' r :=
  Nat.le_trans h (canonicalCursor_mono _ _ hn)

section
variable {sha256 : List UInt8 → Bytes32} {r r' : RoundState} {c : RoundCall} {e : Option Event}

theorem backlog_le (r : RoundState) (now : ℤ) (limit : ℕ) :
    r.backlog now limit ≤ canonicalCursor r.fightStartedAt r.fighterCount now - r.tickCount := by
  unfold RoundState.backlog
  split
  · exact Nat.zero_le _
  · exact Nat.min_le_left _ _

/-- The cursor is 0 until the fight, stays, or moves by what is due at the call's reading. -/
theorem cursor_step (hi : Inv r) (h : Effect sha256 r c r' e) :
    r'.tickCount = 0 ∨ (r'.fighterCount = r.fighterCount ∧ r'.fightStartedAt = r.fightStartedAt) ∧
      (r'.tickCount = r.tickCount ∨
        ∃ now limit, c.clock = some now ∧ r'.tickCount = r.tickCount + r.backlog now limit) := by
  have hzero : r.phase.waiting → r.tickCount = 0 := fun hw => (hi.staged.untouched hw).2
  cases h with
  | topUp ok split live seat pot fees => exact Or.inl (hzero (Or.inl ok.lobby))
  | join ok split fresh pot fees => exact Or.inl (hzero (Or.inl ok.lobby))
  | draw lobby permitted enough => exact Or.inl (hzero (Or.inl lobby))
  | seed drawing => exact Or.inl (hzero (Or.inr drawing))
  | tick ok ran =>
      subst ran
      exact Or.inr ⟨⟨rfl, rfl⟩, Or.inr ⟨_, _, rfl, rfl⟩⟩
  | grind ok ran standing behind =>
      subst ran
      exact Or.inr ⟨⟨rfl, rfl⟩, Or.inr ⟨_, _, rfl, rfl⟩⟩
  | settle ok ran ended =>
      subst ran
      exact Or.inr ⟨⟨rfl, rfl⟩, Or.inr ⟨_, _, rfl, rfl⟩⟩
  | extract phase ran upToDate found split banked penalties =>
      subst ran
      exact Or.inr ⟨⟨rfl, rfl⟩, Or.inr ⟨_, _, rfl, rfl⟩⟩
  | abandon lobby late few free => exact Or.inl (hzero (Or.inl lobby))
  | refund lobby late one pot => exact Or.inl (hzero (Or.inl lobby))
  | close settled => exact Or.inr ⟨⟨rfl, rfl⟩, Or.inl rfl⟩
  | sweep terminal unswept conserves fees penalties rounds => exact Or.inr ⟨⟨rfl, rfl⟩, Or.inl rfl⟩

theorem onTime_step {now} (hi : Inv r) (hc : ∀ t, c.clock = some t → t = now) (ht : OnTime now r)
    (h : Effect sha256 r c r' e) : OnTime now r' := by
  unfold OnTime at *
  rcases cursor_step hi h with h0 | ⟨⟨hn, hs⟩, hstay | ⟨t, limit, hclock, hmove⟩⟩
  · rw [h0]
    exact Nat.zero_le _
  · rw [hn, hs, hstay]
    exact ht
  · obtain rfl := hc t hclock
    have hb := backlog_le r t limit
    rw [hn, hs, hmove]
    omega

variable (sha256) in
/-- With a clock that does not run backwards the cursor never outruns it. -/
theorem onTime_run (hi : Inv r) (h₀ : ∀ t, OnTime t r) {calls : List RoundCall} {now : ℤ}
    (hc : Clocked calls now) : OnTime now ((roundMachine sha256).run r calls) := by
  refine (Machine.run_timed RoundCall.clock (H := fun t _ s => Inv s ∧ OnTime t s) ?_ ?_
    (fun t => ⟨hi, h₀ t⟩) calls now hc).2
  · intro t t' _ s hle hs
    exact ⟨hs.1, hs.2.mono hle⟩
  · intro t _ s c s' e hclock hs h
    exact ⟨inv_step hs.1 (step_effect h), onTime_step hs.1 hclock hs.2 (step_effect h)⟩

/-! ## The verdict -/

theorem fightIsOver_mono {fs gs : Vector Fighter maxFighters} {n : ℕ} (hk : n ≤ maxFighters)
    (hside : ∀ i, (hi : i < maxFighters) → i < n → gs[i].side = fs[i].side)
    (hdead : ∀ i, (hi : i < maxFighters) → i < n → gs[i].dead = 0 → fs[i].dead = 0)
    (h : fightIsOver fs n = true) : fightIsOver gs n = true := by
  rw [fightIsOver_iff hk] at *
  rcases h with h | h
  · exact Or.inl fun i hi hin hd => by rw [hside i hi hin]; exact h i hi hin (hdead i hi hin hd)
  · exact Or.inr fun i hi hin hd => by rw [hside i hi hin]; exact h i hi hin (hdead i hi hin hd)

theorem advanced_over (hi : Inv r) (hn : 2 ≤ r.fighterCount)
    (ho : fightIsOver r.fighters r.fighterCount = true) (k : ℕ) :
    (r.advanced sha256 k).fighters = r.fighters :=
  iterFrom_over hn hi.lineup.count_le hi.lineup.sound hi.lineup.sides ho _ _

theorem advanced_of_over (hi : Inv r) (hn : 2 ≤ r.fighterCount) {k l : ℕ} (hkl : k ≤ l)
    (ho : fightIsOver (r.advanced sha256 k).fighters r.fighterCount = true) :
    (r.advanced sha256 l).fighters = (r.advanced sha256 k).fighters := by
  obtain ⟨d, rfl⟩ := Nat.exists_eq_add_of_le hkl
  have ha : Lineup (r.advanced sha256 k) := hi.lineup.advanced hn k
  simp only [RoundState.advanced, iterFrom_add]
  exact iterFrom_over hn hi.lineup.count_le ha.sound ha.sides ho _ _

theorem over_step (hi : Inv r) (hl : r.phase ≠ .lobby) (h : Effect sha256 r c r' e)
    (ho : fightIsOver r.fighters r.fighterCount = true) :
    fightIsOver r'.fighters r'.fighterCount = true := by
  cases h with
  | topUp ok split live seat pot fees => exact absurd ok.lobby hl
  | join ok split fresh pot fees => exact absurd ok.lobby hl
  | draw lobby permitted enough => exact absurd lobby hl
  | seed drawing => exact ho
  | @tick now arena steps k ok ran =>
      rw [advanced_over hi ok.enough ho]; exact ho
  | @grind now arena k ok ran standing behind =>
      rw [advanced_over hi ok.enough ho]; exact ho
  | @settle now arena k ok ran ended =>
      simp only [advanced_over hi ok.enough ho]; exact ho
  | @extract now arena who k kept penalty i phase ran upToDate found split banked penalties =>
      simp only [advanced_over hi (hi.fightOk phase).enough ho]
      refine fightIsOver_mono hi.lineup.count_le (fun j hj _ => ?_) (fun j hj _ hd => ?_) ho
      · exact Prefix.key_set i.isLt hj rfl
      · by_cases hij : (i : ℕ) = j
        · subst hij
          simp [Fighter.extracted] at hd
        · rwa [Vector.getElem_set_ne _ _ hij] at hd
  | abandon lobby late few free => exact absurd lobby hl
  | refund lobby late one pot => exact absurd lobby hl
  | close settled => exact ho
  | sweep terminal unswept conserves fees penalties rounds => exact ho

theorem over_run (hi : Inv r) (hl : r.phase ≠ .lobby)
    (ho : fightIsOver r.fighters r.fighterCount = true) (calls : List RoundCall) :
    fightIsOver ((roundMachine sha256).run r calls).fighters
      ((roundMachine sha256).run r calls).fighterCount = true :=
  (effect_run
    (P := fun s => s.phase ≠ .lobby ∧ fightIsOver s.fighters s.fighterCount = true)
    (fun _ _ _ _ hs hp h => ⟨left_lobby_step h hp.1, over_step hs hp.1 h hp.2⟩) hi ⟨hl, ho⟩ calls).2

theorem settling_step (h : Effect sha256 r c r' e) (hp : r'.phase = .settled)
    (hne : r.phase ≠ .settled) : ∃ now arena, c = .ix now arena .resolve := by
  cases h with
  | topUp ok split live seat pot fees => exact absurd hp hne
  | join ok split fresh pot fees => exact absurd hp hne
  | draw lobby permitted enough => cases hp
  | seed drawing => cases hp
  | tick ok ran => exact absurd hp hne
  | grind ok ran standing behind => exact absurd hp hne
  | settle ok ran ended => exact ⟨_, _, rfl⟩
  | extract phase ran upToDate found split banked penalties => exact absurd hp hne
  | abandon lobby late few free => cases hp
  | refund lobby late one pot => cases hp
  | close settled => exact absurd hp hne
  | sweep terminal unswept conserves fees penalties rounds => exact absurd hp hne

/-- A settled round keeps the verdict on its final fighters. -/
def VerdictStands (r : RoundState) : Prop :=
  r.phase = .settled → r.winner = settleSides r.fighters r.fighterCount

theorem verdict_step (hv : VerdictStands r) (h : Effect sha256 r c r' e) : VerdictStands r' := by
  cases h with
  | topUp ok split live seat pot fees => intro hp; exact absurd (ok.lobby.symm.trans hp) (by decide)
  | join ok split fresh pot fees => intro hp; exact absurd (ok.lobby.symm.trans hp) (by decide)
  | draw lobby permitted enough => intro hp; cases hp
  | seed drawing => intro hp; cases hp
  | tick ok ran => intro hp; exact absurd (ok.fight.symm.trans hp) (by decide)
  | grind ok ran standing behind => intro hp; exact absurd (ok.fight.symm.trans hp) (by decide)
  | settle ok ran ended => intro _; rfl
  | extract phase ran upToDate found split banked penalties =>
      intro hp; exact absurd (phase.symm.trans hp) (by decide)
  | abandon lobby late few free => intro hp; cases hp
  | refund lobby late one pot => intro hp; cases hp
  | close settled => exact hv
  | sweep terminal unswept conserves fees penalties rounds => exact hv

theorem verdict_run (hv : VerdictStands r) (calls : List RoundCall) :
    VerdictStands ((roundMachine sha256).run r calls) :=
  Machine.run_invariant (I := VerdictStands) (fun _ _ _ _ hs h => verdict_step hs (step_effect h)) hv
    calls

end

end BullsUnicorns.Chain

import BullsUnicorns.Chain.Lemmas.Clock

/-!
# The fight nobody leaves

What a round's entries and seed alone decide. A round without extracts is always at the step of that
fight which its cursor names.
-/

namespace BullsUnicorns.Chain

open Word Replay

def RoundCall.extraction : RoundCall → Option (ℤ × Pubkey)
  | .ix now _ (.extract who) => some (now, who)
  | _ => none

def extractsOf (log : List (RoundCall × Option Event)) : List (ℤ × Pubkey) :=
  log.filterMap fun x => x.1.extraction

theorem extractsOf_snoc (log : List (RoundCall × Option Event)) (c : RoundCall) (e : Option Event) :
    extractsOf (log ++ [(c, e)]) = extractsOf log ++ c.extraction.toList :=
  Machine.filterMap_snoc _ _ _

/-- A fighter as they stood when the lobby closed. -/
def Fighter.asEntered (f : Fighter) : Fighter := { f with hp := f.stake, banked := 0, dead := 0 }

def RoundState.entrants (r : RoundState) : Vector Fighter maxFighters := r.fighters.map Fighter.asEntered

/-- Where the entries, the seed and the cursor of a round put its fighters if nobody extracts. -/
def RoundState.unextracted (sha256 : List UInt8 → Bytes32) (r : RoundState) : Vector Fighter maxFighters :=
  advanceFight sha256 r.entrants r.fighterCount r.seed 0 r.tickCount

theorem Fighter.asEntered_of_entry {f g : Fighter} (h : f.entry = g.entry) : f.asEntered = g.asEntered := by
  simp only [entry, Prod.mk.injEq] at h
  simp only [asEntered, h]

theorem entrants_of_entries {r r' : RoundState}
    (h : ∀ i, (hi : i < maxFighters) → r'.fighters[i].entry = r.fighters[i].entry) :
    r'.entrants = r.entrants := by
  apply Vector.ext
  intro i hi
  simp only [RoundState.entrants, Vector.getElem_map]
  exact Fighter.asEntered_of_entry (h i hi)

theorem Fighter.asEntered_slot {r : RoundState} (h : r.fighters = r.entrants) {i : ℕ}
    (hi : i < maxFighters) : r.fighters[i] = r.fighters[i].asEntered := by
  have hget : r.fighters[i] = r.entrants[i] := congrArg (fun v => v[i]) h
  rwa [RoundState.entrants, Vector.getElem_map] at hget

theorem entrants_set {r : RoundState} (h : r.fighters = r.entrants) {i : ℕ} (hi : i < maxFighters)
    {f : Fighter} (hf : f.asEntered = f) :
    (r.fighters.set i f).map Fighter.asEntered = r.fighters.set i f := by
  rw [Vector.map_set, hf]
  exact congrArg (fun v => Vector.set v i f) h.symm

def WithinBell (r : RoundState) : Prop := r.tickCount ≤ finalCursor r.fighterCount

theorem finalCursor_le {n : ℕ} (h : n ≤ maxFighters) : finalCursor n ≤ 17280 := by
  have h₁ := satMul_le 64 fightTimeoutSeconds (stepsPerSecond n)
  have h₂ := satMul_le 64 n stepsPerFighterPerSecond
  simp only [finalCursor, stepsPerSecond, fightTimeoutSeconds, stepsPerFighterPerSecond, maxFighters] at *
  omega

section
variable {sha256 : List UInt8 → Bytes32} {r r' : RoundState} {c : RoundCall} {e : Option Event}

theorem withinBell_step (hi : Inv r) (hw : WithinBell r) (h : Effect sha256 r c r' e) :
    WithinBell r' := by
  unfold WithinBell at *
  rcases cursor_step hi h with h0 | ⟨⟨hn, -⟩, hstay | ⟨now, limit, -, hmove⟩⟩
  · rw [h0]
    exact Nat.zero_le _
  · rw [hn, hstay]
    exact hw
  · have hb := backlog_le r now limit
    have hf := canonicalCursor_le_final r.fightStartedAt now r.fighterCount
    rw [hn, hmove]
    omega

theorem withinBell_run (hi : Inv r) (hw : WithinBell r) (calls : List RoundCall) :
    WithinBell ((roundMachine sha256).run r calls) :=
  effect_run (fun _ _ _ _ => withinBell_step) hi hw calls

/-! ## Without extracts -/

/-- The fighters are where the fight without extracts has them at the cursor. -/
structure Untouched (sha256 : List UInt8 → Bytes32) (r : RoundState) : Prop where
  waiting : r.phase.waiting → r.fighters = r.entrants
  revealed : r.phase.revealed →
    r.fighters = iterFrom (exchange sha256 r.seed r.fighterCount) 0 r.tickCount r.entrants

theorem advanced_entrants (hn : 2 ≤ r.fighterCount) (k : ℕ) :
    (r.advanced sha256 k).entrants = r.entrants :=
  entrants_of_entries fun i hi => iterFrom_entry hn _ _ _ i hi

theorem Untouched.advanced (h : Untouched sha256 r) (hn : 2 ≤ r.fighterCount) (hp : r.phase = .fight)
    (k : ℕ) : (r.advanced sha256 k).fighters =
      iterFrom (exchange sha256 r.seed r.fighterCount) 0 (r.tickCount + k)
        (r.advanced sha256 k).entrants := by
  have hfs := h.revealed (Or.inl hp)
  rw [advanced_entrants hn, iterFrom_add, Nat.zero_add, ← hfs]
  rfl

theorem untouched_step (hi : Inv r) (h : Effect sha256 r c r' e) (hc : c.extraction = none)
    (hu : Untouched sha256 r) : Untouched sha256 r' := by
  cases h with
  | @topUp now arena who side stake net fee i ok split live seat pot fees =>
      refine ⟨fun _ => ?_, fun hr => by simp [ok.lobby, Phase.revealed] at hr⟩
      have hfs := hu.waiting (Or.inl ok.lobby)
      have hf : r.fighters[i] = r.fighters[i].asEntered := Fighter.asEntered_slot hfs i.isLt
      refine (entrants_set hfs i.isLt ?_).symm
      rw [hf]
      rfl
  | @join now arena who side stake net fee ok split fresh pot fees =>
      exact ⟨fun _ => (entrants_set (hu.waiting (Or.inl ok.lobby)) ok.room rfl).symm,
        fun hr => by simp [ok.lobby, Phase.revealed] at hr⟩
  | draw lobby permitted enough =>
      exact ⟨fun _ => hu.waiting (Or.inl lobby), fun hr => by simp [Phase.revealed] at hr⟩
  | seed drawing =>
      refine ⟨fun hw => by simp [Phase.waiting] at hw, fun _ => ?_⟩
      have h0 := (hi.staged.untouched (Or.inr drawing)).2
      simp only [h0, iterFrom_zero]
      exact hu.waiting (Or.inr drawing)
  | tick ok ran =>
      refine ⟨fun hw => absurd hw (Phase.fight_facts ok.fight).1, fun _ => hu.advanced ok.enough ok.fight _⟩
  | grind ok ran standing behind =>
      refine ⟨fun hw => absurd hw (Phase.fight_facts ok.fight).1, fun _ => hu.advanced ok.enough ok.fight _⟩
  | settle ok ran ended =>
      exact ⟨fun hw => by simp [Phase.waiting] at hw, fun _ => hu.advanced ok.enough ok.fight _⟩
  | extract phase ran upToDate found split banked penalties => cases hc
  | abandon lobby late few free =>
      exact ⟨fun hw => by simp [Phase.waiting] at hw, fun hr => by simp [Phase.revealed] at hr⟩
  | refund lobby late one pot =>
      exact ⟨fun hw => by simp [Phase.waiting] at hw, fun hr => by simp [Phase.revealed] at hr⟩
  | close settled => exact hu
  | sweep terminal unswept conserves fees penalties rounds => exact ⟨hu.waiting, hu.revealed⟩

theorem untouched_run (hi : Inv r) (hu : Untouched sha256 r) (calls : List RoundCall)
    (hx : extractsOf ((roundMachine sha256).accepted r calls) = []) :
    Untouched sha256 ((roundMachine sha256).run r calls) := by
  refine (Machine.run_history (m := roundMachine sha256)
    (H := fun log s => Inv s ∧ (extractsOf log = [] → Untouched sha256 s)) ?_ (h := [])
    ⟨hi, fun _ => hu⟩ calls).2 hx
  intro log s c s' e ⟨hs, hlog⟩ h
  refine ⟨inv_step hs (step_effect h), fun hnil => ?_⟩
  rw [extractsOf_snoc, List.append_eq_nil_iff, Option.toList_eq_nil_iff] at hnil
  exact untouched_step hs (step_effect h) hnil.2 (hlog hnil.1)

theorem openedRound_untouched (now : ℤ) (roundNo : ℕ) (seedCommit : Bytes32) (lobbySeconds : UInt32) :
    Untouched sha256 (openedRound now roundNo seedCommit lobbySeconds) where
  waiting _ := by
    simp only [openedRound, RoundState.entrants, Vector.map_replicate]
    rfl
  revealed h := by simp [openedRound, Phase.revealed] at h

end

end BullsUnicorns.Chain

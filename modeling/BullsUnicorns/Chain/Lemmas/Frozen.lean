import BullsUnicorns.Chain.Lemmas.Invariants

/-!
# What never moves again

The order of the phases, the fields a round keeps for life, the lineup from the end of the lobby on,
and the round that is finished.
-/

namespace BullsUnicorns.Chain

open Word Replay

inductive Phase.Next : Phase → Phase → Prop
  | draw : Next .lobby .drawing
  | reveal : Next .drawing .fight
  | settle : Next .fight .settled
  | abandon : Next .lobby .abandoned

theorem Phase.Next.ne_lobby {p q : Phase} (h : p.Next q) : q ≠ .lobby := by
  cases h <;> decide

/-- The same lineup and the same money taken at the door. -/
structure SameLineup (r r' : RoundState) : Prop where
  count : r'.fighterCount = r.fighterCount
  entries : ∀ i, (hi : i < maxFighters) → r'.fighters[i].entry = r.fighters[i].entry
  pot : r'.pot = r.pot
  fees : r'.feesCollected = r.feesCollected

theorem SameLineup.refl (r : RoundState) : SameLineup r r := ⟨rfl, fun _ _ => rfl, rfl, rfl⟩

theorem SameLineup.trans {r r' r'' : RoundState} (h : SameLineup r r') (h' : SameLineup r' r'') :
    SameLineup r r'' :=
  ⟨h'.count.trans h.count, fun i hi => (h'.entries i hi).trans (h.entries i hi),
    h'.pot.trans h.pot, h'.fees.trans h.fees⟩

section
variable {sha256 : List UInt8 → Bytes32} {r r' : RoundState} {c : RoundCall} {e : Option Event}

theorem phase_step (h : Effect sha256 r c r' e) : r'.phase = r.phase ∨ r.phase.Next r'.phase := by
  cases h with
  | topUp ok split live seat pot fees => exact Or.inl rfl
  | join ok split fresh pot fees => exact Or.inl rfl
  | draw lobby permitted enough => rw [lobby]; exact Or.inr .draw
  | seed drawing => rw [drawing]; exact Or.inr .reveal
  | tick ok ran => exact Or.inl rfl
  | grind ok ran standing behind => exact Or.inl rfl
  | settle ok ran ended => rw [ok.fight]; exact Or.inr .settle
  | extract phase ran upToDate found split banked penalties => exact Or.inl rfl
  | abandon lobby late few free => rw [lobby]; exact Or.inr .abandon
  | refund lobby late one pot => rw [lobby]; exact Or.inr .abandon
  | close settled => exact Or.inl rfl
  | sweep terminal unswept conserves fees penalties rounds => exact Or.inl rfl

theorem identity_step (h : Effect sha256 r c r' e) :
    r'.roundNo = r.roundNo ∧ r'.lobbyOpenedAt = r.lobbyOpenedAt ∧ r'.lobbyClosesAt = r.lobbyClosesAt := by
  cases h <;> exact ⟨rfl, rfl, rfl⟩

theorem left_lobby_step (h : Effect sha256 r c r' e) (hl : r.phase ≠ .lobby) : r'.phase ≠ .lobby := by
  rcases phase_step h with he | hn
  · rwa [he]
  · exact hn.ne_lobby

theorem sameLineup_advanced (hn : 2 ≤ r.fighterCount) (k : ℕ) : SameLineup r (r.advanced sha256 k) :=
  ⟨rfl, fun i hi => iterFrom_entry hn _ _ _ i hi, rfl, rfl⟩

theorem extracted_entry {fs : Vector Fighter maxFighters} (i : Fin maxFighters) {j : ℕ}
    (hj : j < maxFighters) (kept : ℕ) : (fs.set i (fs[i].extracted kept))[j].entry = fs[j].entry :=
  Prefix.key_set i.isLt hj rfl

theorem sameLineup_step (hi : Inv r) (hl : r.phase ≠ .lobby) (h : Effect sha256 r c r' e) :
    SameLineup r r' := by
  cases h with
  | topUp ok split live seat pot fees => exact absurd ok.lobby hl
  | join ok split fresh pot fees => exact absurd ok.lobby hl
  | draw lobby permitted enough => exact absurd lobby hl
  | seed drawing => exact ⟨rfl, fun _ _ => rfl, rfl, rfl⟩
  | tick ok ran => exact sameLineup_advanced ok.enough _
  | grind ok ran standing behind => exact sameLineup_advanced ok.enough _
  | @settle now arena k ok ran ended =>
      have ha : SameLineup r (r.advanced sha256 k) := sameLineup_advanced ok.enough k
      exact ⟨ha.count, ha.entries, ha.pot, ha.fees⟩
  | @extract now arena who k kept penalty i phase ran upToDate found split banked penalties =>
      have ha : SameLineup r (r.advanced sha256 k) := sameLineup_advanced (hi.fightOk phase).enough k
      exact ⟨ha.count, fun j hj => (extracted_entry i hj kept).trans (ha.entries j hj), ha.pot,
        ha.fees⟩
  | abandon lobby late few free => exact absurd lobby hl
  | refund lobby late one pot => exact absurd lobby hl
  | close settled => exact SameLineup.refl r
  | sweep terminal unswept conserves fees penalties rounds => exact ⟨rfl, fun _ _ => rfl, rfl, rfl⟩

/-- Only the sweep's flag moves on a finished round. -/
theorem terminal_step (ht : r.phase.terminal) (h : Effect sha256 r c r' e) :
    r' = r ∨ (∃ t, c = .sweep t) ∧ r.isSwept = false ∧ r' = { r with houseSwept := 1 } := by
  have hne : r.phase ≠ .lobby ∧ r.phase ≠ .drawing ∧ r.phase ≠ .fight := by
    rcases ht with ht | ht <;> simp [ht]
  cases h with
  | topUp ok split live seat pot fees => exact absurd ok.lobby hne.1
  | join ok split fresh pot fees => exact absurd ok.lobby hne.1
  | draw lobby permitted enough => exact absurd lobby hne.1
  | seed drawing => exact absurd drawing hne.2.1
  | tick ok ran => exact absurd ok.fight hne.2.2
  | grind ok ran standing behind => exact absurd ok.fight hne.2.2
  | settle ok ran ended => exact absurd ok.fight hne.2.2
  | extract phase ran upToDate found split banked penalties => exact absurd phase hne.2.2
  | abandon lobby late few free => exact absurd lobby hne.1
  | refund lobby late one pot => exact absurd lobby hne.1
  | close settled => exact Or.inl rfl
  | sweep terminal unswept conserves fees penalties rounds => exact Or.inr ⟨⟨_, rfl⟩, unswept, rfl⟩

def RoundCall.seedWritten : RoundCall → Option Bytes32
  | .ix _ _ (.callbackSeed randomness) => some randomness
  | _ => none

def Phase.revealed (p : Phase) : Prop := p = .fight ∨ p = .settled

/-- The seed is written on the way from the draw to the fight, and then only. -/
theorem seed_step (h : Effect sha256 r c r' e) :
    c.seedWritten = none ∧ r'.seed = r.seed ∧ (r'.phase.revealed ↔ r.phase.revealed) ∨
      c.seedWritten = some r'.seed ∧ r.phase = .drawing ∧ r'.phase = .fight := by
  cases h with
  | topUp ok split live seat pot fees => exact Or.inl ⟨rfl, rfl, Iff.rfl⟩
  | join ok split fresh pot fees => exact Or.inl ⟨rfl, rfl, Iff.rfl⟩
  | draw lobby permitted enough =>
      exact Or.inl ⟨rfl, rfl, by simp [Phase.revealed, lobby]⟩
  | seed drawing => exact Or.inr ⟨rfl, drawing, rfl⟩
  | tick ok ran => exact Or.inl ⟨rfl, rfl, Iff.rfl⟩
  | grind ok ran standing behind => exact Or.inl ⟨rfl, rfl, Iff.rfl⟩
  | settle ok ran ended => exact Or.inl ⟨rfl, rfl, by simp [Phase.revealed, ok.fight]⟩
  | extract phase ran upToDate found split banked penalties => exact Or.inl ⟨rfl, rfl, Iff.rfl⟩
  | abandon lobby late few free =>
      exact Or.inl ⟨rfl, rfl, by simp [Phase.revealed, lobby]⟩
  | refund lobby late one pot =>
      exact Or.inl ⟨rfl, rfl, by simp [Phase.revealed, lobby]⟩
  | close settled => exact Or.inl ⟨rfl, rfl, Iff.rfl⟩
  | sweep terminal unswept conserves fees penalties rounds => exact Or.inl ⟨rfl, rfl, Iff.rfl⟩

/-! ## Over whole runs -/

theorem left_lobby_run (hl : r.phase ≠ .lobby) (calls : List RoundCall) :
    ((roundMachine sha256).run r calls).phase ≠ .lobby :=
  Machine.run_invariant (I := fun r => r.phase ≠ .lobby)
    (fun _ _ _ _ hl h => left_lobby_step (step_effect h) hl) hl calls

theorem sameLineup_run (hi : Inv r) (hl : r.phase ≠ .lobby) (calls : List RoundCall) :
    SameLineup r ((roundMachine sha256).run r calls) :=
  Machine.run_relation (I := fun r => Inv r ∧ r.phase ≠ .lobby)
    (fun _ _ _ _ hs h => ⟨inv_step hs.1 (step_effect h), left_lobby_step (step_effect h) hs.2⟩)
    (fun _ _ _ _ hs h => sameLineup_step hs.1 hs.2 (step_effect h))
    SameLineup.refl (fun _ _ _ => SameLineup.trans) ⟨hi, hl⟩ calls

theorem identity_run (r : RoundState) (calls : List RoundCall) :
    ((roundMachine sha256).run r calls).roundNo = r.roundNo ∧
      ((roundMachine sha256).run r calls).lobbyClosesAt = r.lobbyClosesAt :=
  Machine.run_relation (I := fun _ => True)
    (R := fun r r' : RoundState => r'.roundNo = r.roundNo ∧ r'.lobbyClosesAt = r.lobbyClosesAt)
    (fun _ _ _ _ _ _ => trivial)
    (fun _ _ _ _ _ h => ⟨(identity_step (step_effect h)).1, (identity_step (step_effect h)).2.2⟩)
    (fun _ => ⟨rfl, rfl⟩)
    (fun _ _ _ ⟨hn, hc⟩ ⟨hn', hc'⟩ => ⟨hn'.trans hn, hc'.trans hc⟩) trivial calls

theorem terminal_run (ht : r.phase.terminal) (calls : List RoundCall) :
    (roundMachine sha256).run r calls = r ∨
      (roundMachine sha256).run r calls = { r with houseSwept := 1 } := by
  refine Machine.run_invariant (I := fun r' => r' = r ∨ r' = { r with houseSwept := 1 }) ?_
    (Or.inl rfl) calls
  intro s c s' e hs h
  have hts : s.phase.terminal := by rcases hs with rfl | rfl <;> exact ht
  rcases terminal_step hts (step_effect h) with rfl | ⟨-, -, rfl⟩
  · exact hs
  · rcases hs with rfl | rfl
    · exact Or.inr rfl
    · exact Or.inr rfl

def seedsWritten (log : List (RoundCall × Option Event)) : List Bytes32 :=
  log.filterMap fun x => x.1.seedWritten

theorem seedsWritten_run (h₀ : ¬ r.phase.revealed) (calls : List RoundCall) :
    let r' := (roundMachine sha256).run r calls
    r'.phase.revealed ∧ seedsWritten ((roundMachine sha256).accepted r calls) = [r'.seed] ∨
      ¬ r'.phase.revealed ∧ seedsWritten ((roundMachine sha256).accepted r calls) = [] ∧
        r'.seed = r.seed := by
  refine Machine.run_history (m := roundMachine sha256) (H := fun log (s : RoundState) =>
    s.phase.revealed ∧ seedsWritten log = [s.seed] ∨
      ¬ s.phase.revealed ∧ seedsWritten log = [] ∧ s.seed = r.seed) ?_ (h := [])
    (Or.inr ⟨h₀, rfl, rfl⟩) calls
  intro log s c s' e hs h
  simp only [seedsWritten, Machine.filterMap_snoc] at hs ⊢
  rcases seed_step (step_effect h) with ⟨hn, hseed, hrev⟩ | ⟨hw, hd, hf⟩
  · rw [hn, hseed, hrev]
    simpa using hs
  · rw [hw]
    have hnot : ¬ s.phase.revealed := by simp [Phase.revealed, hd]
    rcases hs with ⟨hr, -⟩ | ⟨-, hnil, -⟩
    · exact absurd hr hnot
    · exact Or.inl ⟨Or.inl hf, by simp [hnil]⟩

end

end BullsUnicorns.Chain

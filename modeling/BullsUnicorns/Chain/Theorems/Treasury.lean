import BullsUnicorns.Chain.Lemmas.Ledger

/-!
# The treasury and the retention window
-/

namespace BullsUnicorns.Chain

section
variable {sha256 : List UInt8 → Bytes32} {w w' : World} {e : Option Event}

theorem sweep_accepted (hw : Housed sha256 w) {now} {roundNo : UInt64}
    (h : (program sha256).step w ⟨now, .sweepHouseTake roundNo⟩ = .ok (w', e)) :
    ∃ a, w.rounds roundNo.toNat = some a ∧ a.round.phase.terminal ∧ a.round.isSwept = false ∧
      e.bind Event.sweep = some (roundNo.toNat, a.round.feesCollected, a.round.penaltiesCollected) := by
  cases step_change h with
  | @sweep _ a t _ found owned books terminal unswept step =>
      exact ⟨a, found, terminal, unswept, by simp [Event.sweep, hw.numbered _ a found]⟩

theorem only_sweeps_sweep {c : Call} (h : (program sha256).step w c = .ok (w', e))
    (hs : e.bind Event.sweep ≠ none) : ∃ roundNo, c.ix = .sweepHouseTake roundNo := by
  cases step_change h with
  | initTreasury auth fresh => exact absurd rfl hs
  | setFeeBps auth => exact absurd rfl hs
  | openRound auth fresh next => exact absurd rfl hs
  | delegateRound auth found owned => exact absurd rfl hs
  | onRound found step => exact absurd (ix_frame (step_effect step)).2.1 hs
  | sweep found owned books terminal unswept step => exact ⟨_, rfl⟩
  | close auth found owned terminal swept old => exact absurd rfl hs

end

/-- The treasury is the sum of what was swept, once per round; what was swept was final. -/
theorem treasury_is_what_was_swept (sha256 : List UInt8 → Bytes32) (authority : Pubkey)
    (feeBps : FeeBps) (calls : List Call) :
    let p := program sha256
    let w₀ := World.initial authority feeBps
    let w := p.run w₀ calls
    let swept := sweeps (p.accepted w₀ calls)
    (w.treasury = none → swept = []) ∧
    (∀ t, w.treasury = some t → t.feesAccrued = (swept.map fun x => x.2.1).sum ∧
      t.penaltiesAccrued = (swept.map fun x => x.2.2).sum ∧ t.roundsSwept = swept.length) ∧
    (swept.map Prod.fst).Nodup ∧
    (∀ n a, w.rounds n = some a → (a.round.isSwept = true ↔ n ∈ swept.map Prod.fst)) ∧
    (∀ n fees penalties a, (n, fees, penalties) ∈ swept → w.rounds n = some a →
      a.round.feesCollected = fees ∧ a.round.penaltiesCollected = penalties) ∧
    (∀ c w' e, p.step w c = .ok (w', e) → e.bind Event.sweep ≠ none →
      ∃ roundNo, c.ix = .sweepHouseTake roundNo) ∧
    (∀ now roundNo w' e, p.step w ⟨now, .sweepHouseTake roundNo⟩ = .ok (w', e) →
      ∃ a, w.rounds roundNo.toNat = some a ∧ a.round.phase.terminal ∧ a.round.isSwept = false ∧
        e.bind Event.sweep =
          some (roundNo.toNat, a.round.feesCollected, a.round.penaltiesCollected) ∧
        (a.round.phase = .abandoned →
          a.round.feesCollected = 0 ∧ a.round.penaltiesCollected = 0)) := by
  intro p w₀ w swept
  obtain ⟨hw, ha⟩ : Housed sha256 w ∧ Audited _ swept w := audited_run authority feeBps calls
  refine ⟨ha.unbooked, ?totals, ha.once, ?flags, ?final, ?only, ?accepted⟩
  case totals =>
    intro t ht
    rw [ha.booked t ht]
    exact ⟨rfl, rfl, rfl⟩
  case flags =>
    intro n a hn
    refine ⟨ha.flagged n a hn, fun hmem => ?_⟩
    obtain ⟨x, hx, rfl⟩ := List.mem_map.mp hmem
    exact (ha.kept x hx a hn).1
  case final =>
    intro n fees penalties a hx hn
    exact (ha.kept _ hx a hn).2
  case only =>
    intro c w' e h hs
    exact only_sweeps_sweep h hs
  case accepted =>
    intro now roundNo w' e h
    obtain ⟨a, hf, ht, hun, he⟩ := sweep_accepted hw h
    refine ⟨a, hf, ht, hun, he, fun hab => ?_⟩
    obtain ⟨hfees, hpen, -⟩ := (hw.produced _ a hf).inv.staged.refunded hab
    exact ⟨hfees, hpen⟩

/-- The newest rounds are always there, a missing one was finished and swept, and no number is used
twice. -/
theorem retention_window (sha256 : List UInt8 → Bytes32) (authority : Pubkey) (feeBps : FeeBps)
    (calls : List Call) :
    let p := program sha256
    let w₀ := World.initial authority feeBps
    let w := p.run w₀ calls
    let c := w.arena.roundCounter
    openings (p.accepted w₀ calls) = List.range' 1 c ∧
    (∀ n a, w.rounds n = some a → 1 ≤ n ∧ n ≤ c ∧ a.round.roundNo = n) ∧
    (∀ n, 1 ≤ n → n ≤ c → (n : ℤ) > c - 20 → ∃ a, w.rounds n = some a) ∧
    (∀ n, 1 ≤ n → n ≤ c → w.rounds n = none →
      ∃ v a, p.Reach w₀ v ∧ p.Reach v w ∧ v.rounds n = some a ∧ a.round.phase.terminal ∧
        a.round.isSwept = true) ∧
    (∀ n, n ≤ c → w.rounds n = none → ∀ later, (p.run w later).rounds n = none) ∧
    (∀ (r : RoundState) (counter : UInt64), r.phase.terminal → r.isSwept = true →
      ((checkClosePermitted r counter.toNat).isOk = true ↔ r.roundNo + 20 ≤ counter.toNat)) := by
  intro p w₀ w c
  obtain ⟨hw, ha⟩ : Housed sha256 w ∧ Audited (openings (p.accepted w₀ calls)) _ w :=
    audited_run authority feeBps calls
  have hacc : Accounted sha256 w₀ w := accounted_run authority feeBps calls
  refine ⟨ha.opened, ?numbers, ?window, ?gone, ?never, ?guard⟩
  case numbers =>
    intro n a hn
    have ho := hw.opened n a hn
    exact ⟨ho.1, ho.2, hw.numbered n a hn⟩
  case window =>
    intro n h₁ hn hnew
    cases hg : w.rounds n with
    | some a => exact ⟨a, rfl⟩
    | none =>
        have hold := (hacc n h₁ hn hg).1
        simp only [minRetainedRounds] at hold
        omega
  case gone =>
    intro n h₁ hn hg
    obtain ⟨-, v, hv, hvw, a, hf, ht, hs, -⟩ := hacc n h₁ hn hg
    exact ⟨v, a, hv, hvw, hf, ht, hs⟩
  case never =>
    intro n hn hg later
    exact gone_run hn hg later
  case guard =>
    intro r counter ht hs
    have hlt := counter.toNat_lt
    simp only [isOk_iff, checkClosePermitted_eq_ok, minRetainedRounds]
    constructor
    · rintro ⟨-, -, -, -, h⟩
      exact h
    · intro h
      exact ⟨(), ht, hs, by omega, h⟩

end BullsUnicorns.Chain

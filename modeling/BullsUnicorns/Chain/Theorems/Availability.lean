import BullsUnicorns.Chain.Lemmas.Ledger

/-!
# Who can always get out

The exits of a lobby past its deadline, and of a finished round on the base layer. Both run checked
additions over totals that entrants choose, and are open exactly while those fit a word.
-/

namespace BullsUnicorns.Chain

open Word

/-! ## The lobby -/

/-- Exactly one exit is open without the authority, the one that fits the lineup, and it succeeds. -/
def ExitAvailable (r : RoundState) (arena : Arena) (now : ℤ) : Prop :=
  2 ≤ r.fighterCount ∧ (closeLobbyAndDraw r arena now none).isOk = true ∧
      (abandonRound r now).isOk = false ∨
    r.fighterCount < 2 ∧ (abandonRound r now).isOk = true ∧
      (closeLobbyAndDraw r arena now none).isOk = false

section
variable {sha256 : List UInt8 → Bytes32} {r r' : RoundState}

def NoFreeFees (r : RoundState) : Prop := r.fighterCount = 0 → r.feesCollected = 0

theorem noFreeFees_step {c : RoundCall} {e} (hf : NoFreeFees r) (h : Effect sha256 r c r' e) :
    NoFreeFees r' := by
  cases h with
  | topUp ok split live seat pot fees =>
      intro h0
      simp only at h0
      omega
  | join ok split fresh pot fees => exact fun h0 => absurd h0 (Nat.succ_ne_zero _)
  | draw lobby permitted enough => exact hf
  | seed drawing => exact hf
  | tick ok ran => exact hf
  | grind ok ran standing behind => exact hf
  | settle ok ran ended => exact hf
  | extract phase ran upToDate found split banked penalties => exact hf
  | abandon lobby late few free => exact hf
  | refund lobby late one pot => exact fun _ => rfl
  | close settled => exact hf
  | sweep terminal unswept conserves fees penalties rounds => exact hf

theorem noFreeFees_run (hf : NoFreeFees r) (calls : List RoundCall) :
    NoFreeFees ((roundMachine sha256).run r calls) :=
  Machine.run_invariant (I := NoFreeFees) (fun _ _ _ _ hs h => noFreeFees_step hs (step_effect h)) hf
    calls

theorem closeLobbyAndDraw_isOk (arena : Arena) {now : ℤ} (hl : r.phase = .lobby)
    (hnow : r.lobbyClosesAt ≤ now) :
    (closeLobbyAndDraw r arena now none).isOk = decide (2 ≤ r.fighterCount) := by
  have hopen : lobbyIsOpen r.lobbyClosesAt now = false := by simpa [lobbyIsOpen] using hnow
  by_cases hn : 2 ≤ r.fighterCount
  · simp [closeLobbyAndDraw, authorityCloseRequested, drawIsPermitted, lobbyMayClose, enoughToFight,
      require, hl, hopen, hn, Except.isOk, Except.toBool, pure, Except.pure]
  · simp [closeLobbyAndDraw, authorityCloseRequested, drawIsPermitted, lobbyMayClose, enoughToFight,
      require, hl, hopen, hn, Except.isOk, Except.toBool]

theorem lone_entrant (hi : Inv r) (hl : r.phase = .lobby) (hone : r.fighterCount = 1) :
    r.fighters[0].stake = r.pot ∧ r.fighters[0].hp = r.pot := by
  have hf := hi.staged.fresh (Or.inl hl) 0 (by decide) (by omega)
  have hs := hi.balanced.stakes
  rw [RoundState.staked, hone, Prefix.sum_succ (by decide), Prefix.sum_zero, Nat.zero_add] at hs
  exact ⟨hs, hf.whole.trans hs⟩

theorem abandonRound_isOk (hi : Inv r) (hf : NoFreeFees r) {now : ℤ} (hl : r.phase = .lobby)
    (hnow : r.lobbyClosesAt ≤ now) :
    (abandonRound r now).isOk = true ↔
      r.fighterCount < 2 ∧ r.pot + r.feesCollected < 2 ^ 64 := by
  constructor
  · intro h
    obtain ⟨⟨r', e⟩, h⟩ := isOk_iff.mp h
    have hlt := hi.balanced.pot_lt
    cases abandonRound_effect (fun _ => zeroBytes) ⟨zeroBytes, 0, ⟨0, by decide⟩⟩ h with
    | abandon lobby late few free => exact ⟨few, by omega⟩
    | refund lobby late one pot => exact ⟨by omega, pot⟩
  · rintro ⟨hfew, hfit⟩
    have hdead : lobbyIsDead r.fighterCount r.lobbyClosesAt now = true := by
      simp [lobbyIsDead, lobbyIsOpen, enoughToFight, hnow, hfew]
    have henough : enoughToFight r.fighterCount = false := by simp [enoughToFight, hfew]
    by_cases hfree : r.feesCollected = 0
    · simp [abandonRound, refundAbandonedEntry, require, hl, hdead, henough, hfree, Except.isOk,
        Except.toBool, pure, Except.pure]
    · have hone : r.fighterCount = 1 := by
        have hne : r.fighterCount ≠ 0 := fun h0 => hfree (hf h0)
        omega
      obtain ⟨hstake, hhp⟩ := lone_entrant hi hl hone
      rw [hone] at hdead henough
      simp [abandonRound, refundAbandonedEntry, require, hl, hdead, henough, hfree, hone, hstake, hhp,
        checkedAdd_of_lt hfit, Except.isOk, Except.toBool, pure, Except.pure]

end

/-- A lobby past its deadline has its exit exactly when it can fight or its refund fits a word. -/
theorem lobby_exit_iff (sha256 : List UInt8 → Bytes32) (opened : ℤ) (roundNo : ℕ)
    (seedCommit : Bytes32) (lobbySeconds : UInt32) (calls : List RoundCall) (arena : Arena) (now : ℤ) :
    let r := (roundMachine sha256).run (openedRound opened roundNo seedCommit lobbySeconds) calls
    r.phase = .lobby → r.lobbyClosesAt ≤ now →
      (ExitAvailable r arena now ↔ 2 ≤ r.fighterCount ∨ r.pot + r.feesCollected < 2 ^ 64) := by
  intro r hl hnow
  have hi : Inv r := inv_reachable opened roundNo seedCommit lobbySeconds calls
  have hf : NoFreeFees r := noFreeFees_run (fun _ => rfl) calls
  have hclose := closeLobbyAndDraw_isOk arena hl hnow
  have habandon := abandonRound_isOk hi hf hl hnow
  unfold ExitAvailable
  rw [hclose]
  by_cases hn : 2 ≤ r.fighterCount
  · have hno : (abandonRound r now).isOk = false := by
      rw [← Bool.not_eq_true, habandon]
      omega
    simp [hn, hno]
  · simp only [hn, habandon, decide_false]
    simp
    omega

def someone (b : UInt8) : Pubkey := Vector.replicate 32 b

def tenPercent : FeeBps := ⟨1000, by decide⟩

theorem lobby_exit_witness :
    ExitAvailable ((roundMachine fun _ => zeroBytes).run (openedRound 0 1 zeroBytes 20)
      [.ix 1 ⟨someone 9, 1, tenPercent⟩ (.enter (someone 1) 0 100)]) ⟨someone 9, 1, tenPercent⟩ 20 :=
  (lobby_exit_iff (fun _ => zeroBytes) 0 1 zeroBytes 20
    [.ix 1 ⟨someone 9, 1, tenPercent⟩ (.enter (someone 1) 0 100)] ⟨someone 9, 1, tenPercent⟩ 20
    (by decide +kernel) (by decide +kernel)).mpr (by decide +kernel)

/-- One wallet tops its entry up until the refund of its fees no longer fits. -/
def stuckLobby : RoundState :=
  (roundMachine fun _ => zeroBytes).run (openedRound 0 1 zeroBytes 20)
    [.ix 1 ⟨someone 9, 1, tenPercent⟩ (.enter (someone 1) 0 18446744073709551615),
      .ix 2 ⟨someone 9, 1, tenPercent⟩ (.enter (someone 1) 0 2000000000000000000)]

theorem stuckLobby_has_no_exit :
    stuckLobby.phase = .lobby ∧ stuckLobby.lobbyClosesAt = 20 ∧ stuckLobby.fighterCount = 1 ∧
      stuckLobby.pot = 18402069666338596454 ∧ stuckLobby.feesCollected = 2044674407370955161 ∧
      (abandonRound stuckLobby 20).isOk = false ∧
      (closeLobbyAndDraw stuckLobby ⟨someone 9, 1, tenPercent⟩ 20 none).isOk = false ∧
      ¬ ExitAvailable stuckLobby ⟨someone 9, 1, tenPercent⟩ 20 := by
  unfold ExitAvailable
  decide +kernel

/-! ## The finished round -/

/-- The sweep accepts the round, and once swept it may be closed as soon as it is old enough. -/
def SweepsThenCloses (r : RoundState) (t : Treasury) : Prop :=
  (applySweep r t).isOk = true ∧
    ∀ r' t' x, applySweep r t = .ok (r', t', x) → ∀ counter : UInt64,
      r.roundNo + minRetainedRounds ≤ counter.toNat →
        (checkClosePermitted r' counter.toNat).isOk = true

section
variable {sha256 : List UInt8 → Bytes32} {w : World}

/-- The treasury has counted fewer rounds than were opened while one is still unswept. -/
theorem roundsSwept_lt {os ss} (hw : Housed sha256 w) (ha : Audited os ss w) {n a t}
    (hf : w.rounds n = some a) (hun : a.round.isSwept = false) (ht : w.treasury = some t) :
    t.roundsSwept < w.arena.roundCounter := by
  have hnew : n ∉ ss.map Prod.fst := by
    intro hmem
    obtain ⟨x, hx, rfl⟩ := List.mem_map.mp hmem
    have hs := (ha.kept x hx a hf).1
    simp [hun] at hs
  have hsub : n :: ss.map Prod.fst ⊆ List.range' 1 w.arena.roundCounter := by
    intro m hm
    rw [List.mem_range'_1]
    rcases List.mem_cons.mp hm with rfl | hm
    · have ho := hw.opened _ a hf
      omega
    · obtain ⟨x, hx, rfl⟩ := List.mem_map.mp hm
      have hk := ha.known x hx
      omega
  have hlen := (List.subperm_of_subset (ha.once.cons hnew) hsub).length_le
  rw [ha.booked t ht]
  simpa using hlen

end

/-- A finished round on the base layer can be swept and then closed exactly while the treasury's two
totals still fit a word. -/
theorem sweep_then_close_iff (sha256 : List UInt8 → Bytes32) (authority : Pubkey) (feeBps : FeeBps)
    (calls : List Call) (n : ℕ) (a : RoundAccount) (t : Treasury) :
    let w := (program sha256).run (World.initial authority feeBps) calls
    w.rounds n = some a → a.delegated = false → a.round.phase.terminal → a.round.isSwept = false →
      w.treasury = some t →
        (SweepsThenCloses a.round t ↔
          t.feesAccrued + a.round.feesCollected < 2 ^ 64 ∧
            t.penaltiesAccrued + a.round.penaltiesCollected < 2 ^ 64) := by
  intro w hf _ hterm hun ht
  obtain ⟨hw, ha⟩ : Housed sha256 w ∧ _ := audited_run authority feeBps calls
  have hi := (hw.produced n a hf).inv
  have hcons : a.round.conserves = true :=
    (RoundState.conserves_iff hi.balanced.pot_lt).mpr ⟨hi.lineup.count_le, hi.balanced.ring⟩
  have hcount := roundsSwept_lt hw ha hf hun ht
  have hmax := hw.counter
  constructor
  · rintro ⟨hok, -⟩
    obtain ⟨x, hx⟩ := isOk_iff.mp hok
    obtain ⟨-, -, -, hfees, hpen, -⟩ := applySweep_eq_ok.mp hx
    exact ⟨hfees, hpen⟩
  · rintro ⟨hfees, hpen⟩
    refine ⟨isOk_iff.mpr ⟨_, applySweep_eq_ok.mpr
      ⟨hterm, hun, hcons, hfees, hpen, by omega, rfl⟩⟩, ?_⟩
    intro r' t' x hx counter hold
    have hlt := counter.toNat_lt
    obtain ⟨-, -, -, -, -, -, he⟩ := applySweep_eq_ok.mp hx
    cases he
    exact isOk_iff.mpr ⟨(), checkClosePermitted_eq_ok.mpr ⟨hterm, rfl, by simp only; omega, hold⟩⟩

/-- Two wallets on one side charged nearly the largest fees a round can hold; nobody is on the other
side, so the fight is over as it begins. -/
def richRound (n : UInt64) : List Call :=
  [⟨0, .openRound (someone 9) n zeroBytes 20⟩, ⟨0, .delegateRound (someone 9) n⟩,
    ⟨1, .onRound n (.enter (someone 1) 0 18446744073709551615)⟩,
    ⟨2, .onRound n (.enter (someone 2) 0 2000000000000000000)⟩,
    ⟨20, .onRound n (.closeLobbyAndDraw none)⟩, ⟨20, .onRound n (.callbackSeed zeroBytes)⟩,
    ⟨20, .onRound n .resolve⟩, ⟨20, .onRound n .closeRound⟩]

/-- `k` rich rounds swept and one more waiting for its sweep. -/
def richRun (k : ℕ) : World :=
  (program fun _ => zeroBytes).run (World.initial (someone 9) tenPercent)
    (⟨0, .initTreasury (someone 9)⟩ ::
      ((List.range k).flatMap fun i =>
        richRound (UInt64.ofNat (i + 1)) ++ [⟨20, .sweepHouseTake (UInt64.ofNat (i + 1))⟩]) ++
      richRound (UInt64.ofNat (k + 1)))

def waiting (k : ℕ) : RoundAccount :=
  ((richRun k).rounds (k + 1)).getD ⟨openedRound 0 0 zeroBytes 0, false⟩

theorem sweep_then_close_witness :
    SweepsThenCloses (waiting 1).round ⟨2044674407370955161, 0, 1⟩ :=
  (sweep_then_close_iff (fun _ => zeroBytes) (someone 9) tenPercent _ 2 (waiting 1) _
    (show (richRun 1).rounds 2 = some (waiting 1) by decide +kernel) (by decide +kernel)
    (by decide +kernel) (by decide +kernel)
    (show (richRun 1).treasury = some ⟨2044674407370955161, 0, 1⟩ by decide +kernel)).mpr
    (by decide +kernel)

/-- The tenth rich round is finished, unswept and on the base layer, and no sweep of it is accepted. -/
theorem richRun_strands_a_round :
    (richRun 9).rounds 10 = some (waiting 9) ∧ (waiting 9).delegated = false ∧
      (waiting 9).round.phase.terminal ∧ (waiting 9).round.isSwept = false ∧
      (waiting 9).round.feesCollected = 2044674407370955161 ∧
      (richRun 9).treasury = some ⟨18402069666338596449, 0, 9⟩ ∧
      ¬ SweepsThenCloses (waiting 9).round ⟨18402069666338596449, 0, 9⟩ := by
  have hno : (applySweep (waiting 9).round ⟨18402069666338596449, 0, 9⟩).isOk = false := by
    decide +kernel
  refine ⟨by decide +kernel, by decide +kernel, by decide +kernel, by decide +kernel,
    by decide +kernel, by decide +kernel, fun h => ?_⟩
  exact absurd (hno.symm.trans h.1) (by decide)

end BullsUnicorns.Chain

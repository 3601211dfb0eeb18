import BullsUnicorns.Chain.Lemmas.Frozen
import BullsUnicorns.Chain.Theorems.Outcome

/-!
# What leaving costs

The penalty on what is pulled out of the ring, and what an extraction does to the round.
-/

namespace BullsUnicorns.Chain

open Word Replay

/-! ## The split -/

theorem splitExtraction_penalty (taken n cursor : ℕ) : (splitExtraction taken n cursor).2 ≤ taken / 5 := by
  have hrate := extractPenaltyBps_le n cursor
  have hprod : taken * extractPenaltyBps n cursor ≤ taken * extractPenaltyStartBps := Nat.mul_le_mul_left _ hrate
  have hlow := narrow_le 64 (taken * extractPenaltyBps n cursor / bps)
  simp only [splitExtraction, extractPenaltyStartBps, bps] at *
  omega

theorem extractPenaltyBps_anti (n : ℕ) {c₁ c₂ : ℕ} (h : c₁ ≤ c₂) : extractPenaltyBps n c₂ ≤ extractPenaltyBps n c₁ := by
  have hremaining : satSub (penaltyHorizonSteps n) c₂ ≤ satSub (penaltyHorizonSteps n) c₁ := Nat.sub_le_sub_left h _
  exact Nat.div_le_div_right (min_le_min (Nat.mul_le_mul_left _ hremaining) (le_refl _))

theorem splitExtraction_anti {taken : ℕ} (ht : taken < 2 ^ 64) (n : ℕ) {c₁ c₂ : ℕ} (h : c₁ ≤ c₂) :
    (splitExtraction taken n c₂).2 ≤ (splitExtraction taken n c₁).2 := by
  have hfits : ∀ c, taken * extractPenaltyBps n c / bps < 2 ^ 64 := by
    intro c
    have hprod : taken * extractPenaltyBps n c ≤ taken * extractPenaltyStartBps :=
      Nat.mul_le_mul_left _ (extractPenaltyBps_le n c)
    simp only [extractPenaltyStartBps, bps] at *
    omega
  simp only [splitExtraction, narrow_of_lt (hfits _)]
  exact Nat.div_le_div_right (Nat.mul_le_mul_left _ (extractPenaltyBps_anti n h))

theorem splitExtraction_free (taken n : ℕ) {cursor : ℕ} (h : penaltyHorizonSteps n ≤ cursor) :
    (splitExtraction taken n cursor).2 = 0 := by
  have hzero : extractPenaltyBps n cursor = 0 := by
    simp [extractPenaltyBps, satSub, Nat.sub_eq_zero_of_le h, satMul]
  simp [splitExtraction, hzero, narrow]

theorem penaltyHorizonSteps_lt_final {n : ℕ} (hn : 1 ≤ n) : penaltyHorizonSteps n < finalCursor n := by
  have htable : ∀ i : Fin 47, penaltyHorizonTable.get i < 360 * (i + 1) := by decide
  have hrow := htable (horizonRow n)
  have hle : (horizonRow n : ℕ) + 1 ≤ n := by
    simp only [horizonRow, maxFighters]
    omega
  simp only [penaltyHorizonSteps, finalCursor, stepsPerSecond, satMul, maxVal, fightTimeoutSeconds, stepsPerFighterPerSecond]
  omega

/-! ## The instruction -/

section
variable {sha256 : List UInt8 → Bytes32} {r r' : RoundState}

/-- What an accepted extraction does: the round is brought up to date, and then one fighter of the wallet, who stands
with something in the ring, banks it less the penalty. -/
structure Extracted (sha256 : List UInt8 → Bytes32) (r r' : RoundState) (now : ℤ) (who : Pubkey) (i : Fin maxFighters) :
    Prop where
  live : (i : ℕ) < r.fighterCount
  wallet : (r.fighters.get i).wallet = who
  standing : ((catchUp sha256 r now maxStepsPerCall).1.fighters.get i).dead = 0 ∧
    0 < ((catchUp sha256 r now maxStepsPerCall).1.fighters.get i).hp
  after : let s := (catchUp sha256 r now maxStepsPerCall).1
    let f := s.fighters.get i
    let split := splitExtraction f.hp s.fighterCount s.tickCount
    r' = { s with
      fighters := s.fighters.set i { f with banked := f.banked + split.1, hp := 0, dead := 1 }
      penaltiesCollected := s.penaltiesCollected + split.2 } ∧
    (r'.fighters.get i).holds + split.2 = f.holds

theorem extract_extracted (hi : Inv r) {arena : Arena} {now : ℤ} {who : Pubkey} {e : Option Event}
    (h : (roundMachine sha256).step r (.ix now arena (.extract who)) = .ok (r', e)) :
    r.phase = .fight ∧ ∃ i, Extracted sha256 r r' now who i := by
  cases step_effect h with
  | extract phase ran upToDate found split banked penalties =>
      rename_i k kept penalty i
      obtain ⟨hlive, hmatch, -⟩ := Prefix.find_eq_some found
      have hn := hi.staged.enough (Or.inr (Or.inl phase))
      have hentry : ((r.advanced sha256 k).fighters[i]).entry = (r.fighters[i]).entry :=
        iterFrom_entry hn r.tickCount k r.fighters i i.isLt
      simp only [Bool.and_eq_true, beq_iff_eq, decide_eq_true_eq] at hmatch
      obtain ⟨⟨hwallet, hdead⟩, hhp⟩ := hmatch
      have hcatch : (catchUp sha256 r now maxStepsPerCall).1 = r.advanced sha256 k := by rw [catchUp_eq, ran]
      have hget : ∀ fs : Vector Fighter maxFighters, fs.get i = fs[i] := fun _ => rfl
      have hsum := splitExtraction_add (r.advanced sha256 k).fighters[i].hp r.fighterCount (r.tickCount + k)
      refine ⟨phase, i, hlive, ?_, ?_, ?_⟩
      · have hsame : ((r.advanced sha256 k).fighters[i]).wallet = (r.fighters[i]).wallet := (Prod.mk.inj hentry).1
        exact hsame.symm.trans hwallet
      · rw [hcatch]
        exact ⟨hdead, hhp⟩
      · rw [hcatch]
        dsimp only
        rw [hget, hget]
        have hkept : (splitExtraction (r.advanced sha256 k).fighters[i].hp r.fighterCount (r.tickCount + k)).1 = kept := by
          rw [split]
        have hpenalty : (splitExtraction (r.advanced sha256 k).fighters[i].hp r.fighterCount (r.tickCount + k)).2 = penalty := by
          rw [split]
        rw [hkept, hpenalty] at hsum
        refine ⟨?_, ?_⟩
        · rw [show splitExtraction (r.advanced sha256 k).fighters[i].hp (r.advanced sha256 k).fighterCount
            (r.advanced sha256 k).tickCount = (kept, penalty) from split]
          rfl
        · rw [show splitExtraction (r.advanced sha256 k).fighters[i].hp (r.advanced sha256 k).fighterCount
            (r.advanced sha256 k).tickCount = (kept, penalty) from split]
          simp only [Fin.getElem_fin, Vector.getElem_set_self, Fighter.extracted, Fighter.holds] at *
          omega

/-- A fighter who is out of the ring stays out. -/
theorem spent_run (hi : Inv r) (hl : r.phase ≠ .lobby) {i : Fin maxFighters} (hspent : (r.fighters.get i).hp = 0)
    (calls : List RoundCall) : (((roundMachine sha256).run r calls).fighters.get i).hp = 0 := by
  refine (effect_run (P := fun s => s.phase ≠ .lobby ∧ s.fighters[i].hp = 0) ?_ hi ⟨hl, hspent⟩ calls).2
  intro s c s' e hs hgone h
  obtain ⟨hlobby, hzero⟩ := hgone
  refine ⟨left_lobby_step h hlobby, ?_⟩
  have hadvanced : 2 ≤ s.fighterCount → ∀ k, ((s.advanced sha256 k).fighters[i]).hp = 0 := by
    intro hn k
    have hle : ((s.advanced sha256 k).fighters[i]).hp ≤ s.fighters[i].hp :=
      iterFrom_slot hn (R := fun f g => g.hp ≤ f.hp) (fun _ => le_refl _) (fun _ _ _ hr ht => ht.hp_le.trans hr)
        s.tickCount k s.fighters i i.isLt
    omega
  cases h with
  | topUp ok => exact absurd ok.lobby hlobby
  | join ok => exact absurd ok.lobby hlobby
  | draw lobby => exact absurd lobby hlobby
  | seed => exact hzero
  | tick ok => exact hadvanced ok.enough _
  | grind ok => exact hadvanced ok.enough _
  | settle ok => exact hadvanced ok.enough _
  | extract phase =>
      rename_i k kept penalty j _ _ _ _ _ _
      have hk := hadvanced (hs.staged.enough (Or.inr (Or.inl phase))) k
      simp only [Fin.getElem_fin] at hk ⊢
      by_cases hji : (j : ℕ) = i
      · rw [Vector.getElem_set, if_pos hji]
        rfl
      · rw [Vector.getElem_set_ne _ _ hji]
        exact hk
  | abandon lobby => exact absurd lobby hlobby
  | refund lobby => exact absurd lobby hlobby
  | close => exact hzero
  | sweep => exact hzero

/-- The price of leaving, and what leaving does in any round: the wallet is out by the penalty and nothing else moves;
afterwards no extraction takes that fighter again, and where the wallet has no other the call is refused. -/
theorem leaving_is_priced (sha256 : List UInt8 → Bytes32) :
    (∀ n taken c₁ c₂, taken < 2 ^ 64 → c₁ ≤ c₂ →
      (splitExtraction taken n c₁).1 + (splitExtraction taken n c₁).2 = taken ∧
      (splitExtraction taken n c₁).2 ≤ taken / 5 ∧
      (splitExtraction taken n c₂).2 ≤ (splitExtraction taken n c₁).2 ∧
      (penaltyHorizonSteps n ≤ c₁ → (splitExtraction taken n c₁).2 = 0) ∧
      (1 ≤ n → penaltyHorizonSteps n < finalCursor n)) ∧
    ∀ (opened : ℤ) (roundNo : ℕ) (seedCommit : Bytes32) (lobbySeconds : UInt32) (calls : List RoundCall) (now : ℤ)
      (arena : Arena) (who : Pubkey) (r' : RoundState) (e : Option Event),
      let r := (roundMachine sha256).run (openedRound opened roundNo seedCommit lobbySeconds) calls
      (roundMachine sha256).step r (.ix now arena (.extract who)) = .ok (r', e) →
      ∃ i, Extracted sha256 r r' now who i ∧
        ∀ (later : List RoundCall) (now' : ℤ) (arena' : Arena),
          let s := (roundMachine sha256).run r' later
          (∀ s' e', (roundMachine sha256).step s (.ix now' arena' (.extract who)) = .ok (s', e') →
            ∃ j, Extracted sha256 s s' now' who j ∧ (s.fighters.get j).side ≠ (r.fighters.get i).side) ∧
          ((∀ j : Fin maxFighters, (j : ℕ) < r.fighterCount → (r.fighters.get j).wallet = who →
              (r.fighters.get j).side = (r.fighters.get i).side) →
            (∃ error, (roundMachine sha256).step s (.ix now' arena' (.extract who)) = .error error) ∧
              (roundMachine sha256).attempt s (.ix now' arena' (.extract who)) = s) := by
  refine ⟨fun n taken c₁ c₂ ht hc => ⟨splitExtraction_add taken n c₁, splitExtraction_penalty taken n c₁,
    splitExtraction_anti ht n hc, splitExtraction_free taken n, penaltyHorizonSteps_lt_final⟩, ?_⟩
  intro opened roundNo seedCommit lobbySeconds calls now arena who r' e r h
  have hi : Inv r := inv_reachable opened roundNo seedCommit lobbySeconds calls
  obtain ⟨hfight, i, hout⟩ := extract_extracted hi h
  have hi' : Inv r' := inv_step hi (step_effect h)
  have hleft : r.phase ≠ .lobby := by rw [hfight]; decide
  have hleft' : r'.phase ≠ .lobby := left_lobby_step (step_effect h) hleft
  have hsame : SameLineup r r' := sameLineup_step hi hleft (step_effect h)
  have hspent : (r'.fighters.get i).hp = 0 := by
    rw [hout.after.1]
    have hset : ∀ f : Fighter, ((catchUp sha256 r now maxStepsPerCall).1.fighters.set i f).get i = f := fun f =>
      Vector.getElem_set_self i.isLt
    dsimp only
    rw [hset]
  refine ⟨i, hout, fun later now' arena' => ?_⟩
  intro s
  have his : Inv s := inv_run hi' later
  have hlineup : SameLineup r s := hsame.trans (sameLineup_run hi' hleft' later)
  have hseat : ∀ j : Fin maxFighters, s.fighters[j].seat = r.fighters[j].seat := fun j =>
    Fighter.seat_of_entry (hlineup.entries j j.isLt)
  have hlater : ∀ s' e', (roundMachine sha256).step s (.ix now' arena' (.extract who)) = .ok (s', e') →
      ∃ j, Extracted sha256 s s' now' who j ∧ s.fighters[j].side ≠ r.fighters[i].side := by
    intro s' e' h'
    obtain ⟨hfight', j, hout'⟩ := extract_extracted his h'
    refine ⟨j, hout', fun hside => ?_⟩
    -- one fighter for each wallet and side: it would be the one who has left
    have hji : j = i := by
      have hkey : s.fighters[j].seat = s.fighters[i].seat := by
        have hw : s.fighters[i].wallet = who := (Prod.mk.inj (hseat i)).1.trans hout.wallet
        have hsi : s.fighters[i].side = r.fighters[i].side := (Prod.mk.inj (hseat i)).2
        have hwj : s.fighters[j].wallet = who := hout'.wallet
        have hsj : s.fighters[j].side = r.fighters[i].side := hside
        simp only [Fighter.seat, hwj, hw, hsj, hsi]
      exact Fin.ext (his.lineup.distinct j i j.isLt i.isLt hout'.live (hlineup.count ▸ hout.live) hkey)
    subst hji
    have hzero : s.fighters[j].hp = 0 := spent_run hi' hleft' hspent later
    have hle : ((catchUp sha256 s now' maxStepsPerCall).1.fighters[j]).hp ≤ s.fighters[j].hp := by
      rw [catchUp_eq]
      exact iterFrom_slot (his.staged.enough (Or.inr (Or.inl hfight'))) (R := fun f g => g.hp ≤ f.hp) (fun _ => le_refl _)
        (fun _ _ _ hr ht => ht.hp_le.trans hr) s.tickCount _ s.fighters j j.isLt
    have hpos : 0 < (catchUp sha256 s now' maxStepsPerCall).1.fighters[j].hp := hout'.standing.2
    omega
  refine ⟨hlater, fun honly => ?_⟩
  cases hstep : (roundMachine sha256).step s (.ix now' arena' (.extract who)) with
  | ok x =>
      obtain ⟨j, hout', hside⟩ := hlater x.1 x.2 hstep
      have hw : r.fighters[j].wallet = who := (Prod.mk.inj (hseat j)).1.symm.trans hout'.wallet
      have hsj : s.fighters[j].side = r.fighters[j].side := (Prod.mk.inj (hseat j)).2
      exact absurd (hsj.trans (honly j (hlineup.count ▸ hout'.live) hw)) hside
  | error error => exact ⟨⟨error, rfl⟩, Machine.attempt_error hstep⟩

theorem leaving_is_priced_witness :
    let m := roundMachine fun _ => zeroBytes
    let r := m.run (openedRound 0 1 zeroBytes 20) duel
    let leave : RoundCall := .ix 20 ⟨zeroBytes, 1, ⟨0, by decide⟩⟩ (.extract (Vector.replicate 32 1))
    ∃ r' e, m.step r leave = .ok (r', e) ∧ (∃ i, Extracted (fun _ => zeroBytes) r r' 20 (Vector.replicate 32 1) i) ∧
      m.attempt r' leave = r' := by
  intro m r leave
  have hok : (m.step r leave).isOk = true := by decide +kernel
  cases hstep : m.step r leave with
  | error error => simp [hstep, Except.isOk, Except.toBool] at hok
  | ok x =>
      obtain ⟨i, hout, hlater⟩ := (leaving_is_priced fun _ => zeroBytes).2 0 1 zeroBytes 20 duel 20
        ⟨zeroBytes, 1, ⟨0, by decide⟩⟩ (Vector.replicate 32 1) x.1 x.2 hstep
      refine ⟨x.1, x.2, rfl, ⟨i, hout⟩, ((hlater [] 20 ⟨zeroBytes, 1, ⟨0, by decide⟩⟩).2 ?_).2⟩
      have hone : ∀ j : Fin maxFighters, r.fighters[j].wallet = Vector.replicate 32 1 → (j : ℕ) = 0 := by decide +kernel
      intro j _ hj
      have hij : i = j := Fin.ext ((hone i hout.wallet).trans (hone j hj).symm)
      rw [hij]

/-- With nobody in the lineup the table still starts at its first row, past a final cursor of nothing. -/
theorem empty_lineup_has_no_horizon : ¬∀ n, penaltyHorizonSteps n < finalCursor n := by
  intro hclaim
  exact absurd (hclaim 0) (by decide)

end

end BullsUnicorns.Chain

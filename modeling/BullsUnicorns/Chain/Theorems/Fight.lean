import BullsUnicorns.Chain.Lemmas.Strike

/-!
# The fight, blow by blow

What a blow can take, over one step and over a whole run; that two fighters who can hit each other do not
stand for ever; and that an exchange favours nobody by the size of the stakes.
-/

namespace BullsUnicorns.Chain

open Word Replay

/-! ## A bound on each blow, and one on all of them -/

section
variable {m n : ℕ}

/-- What a blow takes beyond the attacker's own ring. -/
def excess (fs : Vector Fighter m) : Option (Blow m) → ℕ
  | none => 0
  | some b => b.amount - fs[b.attacker].hp

/-- The fighters of the lineup that still stand. -/
def standing (n : ℕ) (fs : Vector Fighter m) : Finset (Fin m) := Finset.univ.filter fun i => i < n ∧ (fs.get i).dead ≠ 1

theorem standing_card (n : ℕ) (fs : Vector Fighter m) : (standing n fs).card ≤ n := by
  have hsub : (standing n fs).map Fin.valEmbedding ⊆ Finset.range n := by
    intro i hi
    obtain ⟨j, hj, rfl⟩ := Finset.mem_map.mp hi
    exact Finset.mem_range.mpr (Finset.mem_filter.mp hj).2.1
  simpa using Finset.card_le_card hsub

/-- Only a defender down to dust is hit for more than the attacker's ring, and it falls. -/
theorem excess_paid {fs gs : Vector Fighter m} {o : Option (Blow m)} (h : Stepped fs gs o)
    (hn : ∀ b ∈ o, (b.defender : ℕ) < n) :
    excess fs o + dust * (standing n gs).card ≤ dust * (standing n fs).card := by
  have hsub : standing n gs ⊆ standing n fs := by
    intro i hi
    obtain ⟨-, hin, hstand⟩ := Finset.mem_filter.mp hi
    refine Finset.mem_filter.mpr ⟨Finset.mem_univ i, hin, fun hdead => hstand ?_⟩
    exact (congrArg Fighter.dead ((h.onward i).gone hdead)).trans hdead
  cases o with
  | none =>
      have hcard := Finset.card_le_card hsub
      simpa [excess] using Nat.mul_le_mul_left dust hcard
  | some b =>
      have hb : Landed fs gs b := h
      by_cases hover : b.amount ≤ fs[b.attacker].hp
      · have hzero : excess fs (some b) = 0 := Nat.sub_eq_zero_of_le hover
        have hcard := Nat.mul_le_mul_left dust (Finset.card_le_card hsub)
        omega
      · have hdust : fs[b.defender].hp ≤ dust := by
          by_contra hlarge
          have hshare := hb.share (Nat.not_le.mp hlarge)
          omega
        have hmem : b.defender ∈ standing n fs :=
          Finset.mem_filter.mpr ⟨Finset.mem_univ _, hn b rfl, hb.standing.2⟩
        have hgone : b.defender ∉ standing n gs := by
          intro hin
          refine (Finset.mem_filter.mp hin).2.2 ?_
          change gs[b.defender].dead = 1
          rw [hb.defender]
          exact if_pos (hb.finish hdust).symm
        have hlt : (standing n gs).card < (standing n fs).card :=
          Finset.card_lt_card (Finset.ssubset_iff_subset_ne.mpr ⟨hsub, fun he => hgone (he ▸ hmem)⟩)
        have hexcess : excess fs (some b) ≤ dust := by
          simp only [excess]
          have := hb.finish hdust
          omega
        have hcard := Nat.mul_le_mul_left dust (Nat.succ_le_of_lt hlt)
        rw [Nat.mul_succ] at hcard
        omega

variable (sha256 : List UInt8 → Bytes32) (seed : Bytes32)

/-- The blow of a step of the fight, if it lands one. -/
def blowAt (n step : ℕ) (fs : Vector Fighter m) : Option (Blow m) :=
  let h := hashv sha256 [seed.toList, u64ToLeBytes step]
  landed (drawPair h n).1 (drawPair h n).2 (rollOf h) fs

theorem blowAt_slots (hn : 2 ≤ n) {step : ℕ} {fs : Vector Fighter m} {b : Blow m}
    (hb : b ∈ blowAt sha256 seed n step fs) : (b.attacker : ℕ) < n ∧ (b.defender : ℕ) < n := by
  obtain ⟨ha, hd, -⟩ := drawPair_lt (hashv sha256 [seed.toList, u64ToLeBytes step]) hn
  unfold blowAt landed at hb
  extract_lets h at hb
  split at hb
  · dsimp only at hb
    split at hb
    · cases hb
      exact ⟨ha, hd⟩
    · cases hb
  · cases hb

theorem exchange_stepped (hn : 2 ≤ n) (step : ℕ) (fs : Vector Fighter m) :
    Stepped fs (exchange sha256 seed n step fs) (blowAt sha256 seed n step fs) := by
  rw [exchange, trade_eq_strike]
  exact strike_stepped (drawPair_lt _ hn).2.2 (rollOf_bounds _).2 fs

/-- One more step of a call: the next exchange, or none at the last cursor there is. -/
theorem advanceFight_succ (hn : 2 ≤ n) (fs : Vector Fighter m) (cursor j : ℕ) :
    advanceFight sha256 fs n seed cursor (j + 1) =
      if cursor + j < 2 ^ 64 - 1 then exchange sha256 seed n (cursor + j) (advanceFight sha256 fs n seed cursor j)
      else advanceFight sha256 fs n seed cursor j := by
  have hn' : ¬n < 2 := by omega
  simp only [advanceFight, if_neg hn', satAdd, maxVal]
  split
  · have h₁ : min (cursor + (j + 1)) (2 ^ 64 - 1) - cursor = j + 1 := by omega
    have h₂ : min (cursor + j) (2 ^ 64 - 1) - cursor = j := by omega
    rw [h₁, h₂, iterFrom_snoc]
  · have h₁ : min (cursor + (j + 1)) (2 ^ 64 - 1) - cursor = min (cursor + j) (2 ^ 64 - 1) - cursor := by omega
    rw [h₁]

/-- Every step of a call is idle or one blow, within its bounds; rings only shrink, banks only grow and the
dead stay; and all that blows take beyond the attackers' own rings is a speck of dust for each fighter. -/
theorem blows_are_bounded (hn : 2 ≤ n) (cursor : ℕ) (fs : Vector Fighter m) (hfs : ∀ i : Fin m, fs[i].banked < 2 ^ 64) :
    let run := fun j => advanceFight sha256 fs n seed cursor j
    let blowOf := fun j => if cursor + j < 2 ^ 64 - 1 then blowAt sha256 seed n (cursor + j) (run j) else none
    (∀ j, Stepped (run j) (run (j + 1)) (blowOf j) ∧
      ∀ b ∈ blowOf j, (b.attacker : ℕ) < n ∧ (b.defender : ℕ) < n) ∧
    (∀ j k, j ≤ k → ∀ i : Fin m, (run k)[i].hp ≤ (run j)[i].hp ∧ (run j)[i].banked ≤ (run k)[i].banked ∧
      ((run k)[i].dead = (run j)[i].dead ∨ (run k)[i].dead = 1) ∧ ((run j)[i].dead = 1 → (run k)[i] = (run j)[i])) ∧
    ∀ steps, ((List.range steps).map fun j => excess (run j) (blowOf j)).sum ≤ n * dust := by
  intro run blowOf
  have hstep : ∀ j, Stepped (run j) (run (j + 1)) (blowOf j) ∧
      ∀ b ∈ blowOf j, (b.attacker : ℕ) < n ∧ (b.defender : ℕ) < n := by
    intro j
    simp only [run, blowOf, advanceFight_succ sha256 seed hn]
    split
    · exact ⟨exchange_stepped sha256 seed hn _ _, fun b hb => blowAt_slots sha256 seed hn hb⟩
    · exact ⟨rfl, fun b hb => by cases hb⟩
  have hstart : run 0 = fs := by
    simp only [run, advanceFight, satAdd]
    have hzero : min (cursor + 0) (maxVal 64) - cursor = 0 := by omega
    rw [hzero]
    split <;> rfl
  have honward : ∀ j k, j ≤ k → ∀ i : Fin m, (run j)[i].Onward (run k)[i] := by
    intro j k hjk i
    induction k, hjk using Nat.le_induction with
    | base => exact .refl _
    | succ k _ ih => exact ih.trans ((hstep k).1.onward i)
  refine ⟨hstep, fun j k hjk i => ?_, fun steps => ?_⟩
  · have hbank : (run j)[i].banked < 2 ^ 64 := ((honward 0 j (Nat.zero_le j) i).banked (hstart ▸ hfs i)).2
    have h := honward j k hjk i
    exact ⟨h.hp, (h.banked hbank).1, h.dead, h.gone⟩
  · have hpaid := sum_cost_le (fun j => dust * (standing n (run j)).card) (fun j => excess (run j) (blowOf j))
      (fun j => excess_paid (hstep j).1 fun b hb => ((hstep j).2 b hb).2) steps
    have hcard := Nat.mul_le_mul_left dust (standing_card n (run 0))
    rw [Nat.mul_comm dust n] at hcard
    omega

end

/-- A fighter in a pair who stands and owns something. -/
def boxer (wallet : UInt8) (side : UInt8) (hp banked : ℕ) : Fighter := ⟨Vector.replicate 32 wallet, hp, hp, banked, side, 0⟩

theorem blows_are_bounded_witness :
    let fs := #v[boxer 1 0 500 0, boxer 2 1 900 0]
    let run := fun j => advanceFight (fun _ => zeroBytes) fs 2 zeroBytes 0 j
    let blowOf := fun j => if 0 + j < 2 ^ 64 - 1 then blowAt (fun _ => zeroBytes) zeroBytes 2 (0 + j) (run j) else none
    excess (run 0) (blowOf 0) = 400 ∧ ((List.range 5).map fun j => excess (run j) (blowOf j)).sum ≤ 2 * dust :=
  ⟨by decide +kernel,
    (blows_are_bounded (fun _ => zeroBytes) zeroBytes (le_refl 2) 0 #v[boxer 1 0 500 0, boxer 2 1 900 0] (by decide)).2.2 5⟩

/-! ## A fight does not stall -/

section
variable {m n : ℕ} (h : ℕ → Bytes32)

/-- The fight on any sequence of hashes. -/
def fightBy (n start k : ℕ) (fs : Vector Fighter m) : Vector Fighter m := iterFrom (fun step => trade (h step) n) start k fs

theorem advanceFight_fightBy (sha256 : List UInt8 → Bytes32) (seed : Bytes32) (hn : 2 ≤ n) {cursor steps : ℕ}
    (hfits : cursor + steps < 2 ^ 64) (fs : Vector Fighter m) :
    advanceFight sha256 fs n seed cursor steps =
      fightBy (fun step => hashv sha256 [seed.toList, u64ToLeBytes step]) n cursor steps fs := by
  rw [advanceFight, if_neg (by omega), satAdd_of_lt hfits, Nat.add_sub_cancel_left]
  rfl

/-- Two standing fighters who can hit each other, with something in both rings. -/
structure Facing (fs : Vector Fighter m) (i j : Fin m) : Prop where
  standing : (fs.get i).dead ≠ 1 ∧ (fs.get j).dead ≠ 1
  sides : (fs.get i).side ≠ (fs.get j).side
  wallets : (fs.get i).wallet ≠ (fs.get j).wallet
  rings : 0 < (fs.get i).hp ∧ 0 < (fs.get j).hp

/-- Steps at which `i` is drawn against `j`. -/
def Drawn (n : ℕ) (i j : Fin m) (step : ℕ) : Prop := drawPair (h step) n = ((i : ℕ), (j : ℕ))

variable {h}

theorem trade_total (hn : 2 ≤ n) (hash : Bytes32) (fs : Vector Fighter m) :
    ringTotal (trade hash n fs) + ((landed (drawPair hash n).1 (drawPair hash n).2 (rollOf hash) fs).map Blow.amount).getD 0 =
      ringTotal fs :=
  strike_total (drawPair_lt hash hn).2.2 (rollOf_bounds hash).2 fs

theorem trade_stepped (hn : 2 ≤ n) (hash : Bytes32) (fs : Vector Fighter m) :
    Stepped fs (trade hash n fs) (landed (drawPair hash n).1 (drawPair hash n).2 (rollOf hash) fs) :=
  strike_stepped (drawPair_lt hash hn).2.2 (rollOf_bounds hash).2 fs

theorem fightBy_onward (hn : 2 ≤ n) (start k : ℕ) (fs : Vector Fighter m) (i : Fin m) :
    fs[i].Onward (fightBy h n start k fs)[i] := by
  have hstep : ∀ (j : ℕ) (gs : Vector Fighter m), fs[i].Onward gs[i] → fs[i].Onward (trade (h j) n gs)[i] :=
    fun j gs hgs => hgs.trans ((trade_stepped hn (h j) gs).onward i)
  exact iterFrom_invariant (P := fun gs : Vector Fighter m => fs[i].Onward gs[i]) hstep start k (.refl _)

theorem fightBy_total (hn : 2 ≤ n) (start k : ℕ) (fs : Vector Fighter m) :
    ringTotal (fightBy h n start k fs) ≤ ringTotal fs := by
  unfold fightBy
  refine iterFrom_invariant (P := fun gs => ringTotal gs ≤ ringTotal fs) (fun j gs hgs => ?_) start k (le_refl _)
  have htrade := trade_total hn (h j) gs
  omega

theorem fightBy_full (hn : 2 ≤ n) (start k : ℕ) {fs : Vector Fighter m} (hf : ∀ x : Fin m, fs[x].dead ≠ 1 → 0 < fs[x].hp) :
    ∀ x : Fin m, (fightBy h n start k fs)[x].dead ≠ 1 → 0 < (fightBy h n start k fs)[x].hp := by
  have hstep : ∀ (j : ℕ) (gs : Vector Fighter m), (∀ x : Fin m, gs[x].dead ≠ 1 → 0 < gs[x].hp) →
      ∀ x : Fin m, (trade (h j) n gs)[x].dead ≠ 1 → 0 < (trade (h j) n gs)[x].hp :=
    fun j gs hgs x hx => (trade_stepped hn (h j) gs).full (hgs x) hx
  exact iterFrom_invariant (P := fun gs : Vector Fighter m => ∀ x : Fin m, gs[x].dead ≠ 1 → 0 < gs[x].hp) hstep start k hf

/-- A run that leaves the total as it was has left everything as it was. -/
theorem fightBy_still (hn : 2 ≤ n) {start k : ℕ} {fs : Vector Fighter m}
    (hsame : ringTotal (fightBy h n start k fs) = ringTotal fs) {j : ℕ} (hj : j ≤ k) : fightBy h n start j fs = fs := by
  induction j with
  | zero => rfl
  | succ j ih =>
      have hprev := ih (by omega)
      have hnext : fightBy h n start (j + 1) fs = trade (h (start + j)) n fs := by
        rw [fightBy, iterFrom_snoc]
        exact congrArg _ hprev
      -- the rest of the run only takes away
      have hrest : ringTotal (fightBy h n start k fs) ≤ ringTotal (fightBy h n start (j + 1) fs) := by
        have hsplit : fightBy h n start k fs =
            fightBy h n (start + (j + 1)) (k - (j + 1)) (fightBy h n start (j + 1) fs) := by
          simp only [fightBy]
          rw [← iterFrom_add, Nat.add_sub_cancel' hj]
        rw [hsplit]
        exact fightBy_total hn _ _ _
      have htrade := trade_total hn (h (start + j)) fs
      have hstep := trade_stepped hn (h (start + j)) fs
      rw [hnext] at hrest ⊢
      cases hland : landed (drawPair (h (start + j)) n).1 (drawPair (h (start + j)) n).2 (rollOf (h (start + j))) fs with
      | none =>
          rw [hland] at hstep
          exact hstep
      | some b =>
          rw [hland] at hstep htrade
          have hpos := (show Landed _ _ b from hstep).pos
          simp only [Option.map_some, Option.getD_some] at htrade
          omega

/-- A draw that finds a defender down to dust, or both above it, lands. -/
theorem Facing.lands {fs : Vector Fighter m} {i j : Fin m} (hf : Facing fs i j) {roll : ℕ} (hroll : 1 ≤ roll)
    (hring : fs[j].hp ≤ dust ∨ dust < fs[i].hp) : landed i j roll fs ≠ none := by
  have hmay : mayStrike fs[i] fs[j] = true :=
    mayStrike_iff.mpr ⟨hf.sides, hf.wallets, hf.standing.1, hf.standing.2⟩
  have hblow : blow fs[i] fs[j] roll ≠ 0 := by
    have hj := hf.rings.2
    unfold blow
    split
    · exact Nat.pos_iff_ne_zero.mp hj
    · next hlarge =>
        have hi : dust < fs[i].hp := hring.resolve_left hlarge
        have hbasis : dust < min fs[i].hp fs[j].hp := lt_min hi (Nat.not_le.mp hlarge)
        have hprod : min fs[i].hp fs[j].hp ≤ min fs[i].hp fs[j].hp * roll := Nat.le_mul_of_pos_right _ hroll
        simp only [satMul, maxVal, dust] at *
        omega
  unfold landed
  rw [dif_pos ⟨i.isLt, j.isLt⟩]
  exact fun hnone => by simp [show mayStrike fs[(i : ℕ)] fs[(j : ℕ)] = true from hmay,
    show blow fs[(i : ℕ)] fs[(j : ℕ)] roll ≠ 0 from hblow] at hnone

/-- In a run in which each is drawn against the other, somebody is hit. -/
theorem Facing.progress (hn : 2 ≤ n) {start k : ℕ} {fs : Vector Fighter m} {i j : Fin m} (hf : Facing fs i j)
    (hij : ∃ s, start ≤ s ∧ s < start + k ∧ Drawn h n i j s) (hji : ∃ s, start ≤ s ∧ s < start + k ∧ Drawn h n j i s) :
    ringTotal (fightBy h n start k fs) < ringTotal fs := by
  refine lt_of_le_of_ne (fightBy_total hn start k fs) fun hsame => ?_
  have hidle : ∀ s, start ≤ s → s < start + k → landed (drawPair (h s) n).1 (drawPair (h s) n).2 (rollOf (h s)) fs = none := by
    intro s hs hk
    have hnow := fightBy_still hn hsame (j := s - start) (by omega)
    have hnext := fightBy_still hn hsame (j := s - start + 1) (by omega)
    rw [fightBy, iterFrom_snoc, Nat.add_sub_cancel' hs] at hnext
    have htrade := trade_total hn (h s) fs
    have hstep := trade_stepped hn (h s) fs
    have hfixed : trade (h s) n fs = fs := by rwa [show iterFrom _ start (s - start) fs = fs from hnow] at hnext
    cases hland : landed (drawPair (h s) n).1 (drawPair (h s) n).2 (rollOf (h s)) fs with
    | none => rfl
    | some b =>
        rw [hland] at hstep htrade
        have hpos := (show Landed _ _ b from hstep).pos
        rw [hfixed] at htrade
        simp only [Option.map_some, Option.getD_some] at htrade
        omega
  have hback : Facing fs j i := ⟨hf.standing.symm, hf.sides.symm, hf.wallets.symm, hf.rings.symm⟩
  obtain ⟨s, hs, hk, hdraw⟩ := hij
  obtain ⟨s', hs', hk', hdraw'⟩ := hji
  have hnone := hidle s hs hk
  have hnone' := hidle s' hs' hk'
  rw [show drawPair (h s) n = ((i : ℕ), (j : ℕ)) from hdraw] at hnone
  rw [show drawPair (h s') n = ((j : ℕ), (i : ℕ)) from hdraw'] at hnone'
  have hring : ¬(fs[j].hp ≤ dust ∨ dust < fs[i].hp) := fun hr => hf.lands (rollOf_bounds _).1 hr hnone
  have hring' : ¬(fs[i].hp ≤ dust ∨ dust < fs[j].hp) := fun hr => hback.lands (rollOf_bounds _).1 hr hnone'
  omega

/-- Who faces whom later faced them before. -/
theorem Facing.earlier (hn : 2 ≤ n) {start k : ℕ} {fs : Vector Fighter m} {i j : Fin m}
    (hf : Facing (fightBy h n start k fs) i j) : Facing fs i j := by
  have hi := fightBy_onward (h := h) hn start k fs i
  have hj := fightBy_onward (h := h) hn start k fs j
  have hentry := fun (x : Fin m) (hx : fs[x].Onward (fightBy h n start k fs)[x]) => Prod.mk.inj hx.entry
  obtain ⟨hwi, hsi⟩ := hentry i hi
  obtain ⟨hwj, hsj⟩ := hentry j hj
  refine ⟨⟨fun hd => hf.standing.1 ?_, fun hd => hf.standing.2 ?_⟩, fun hside => hf.sides ?_,
    fun hwallet => hf.wallets ?_, lt_of_lt_of_le hf.rings.1 hi.hp, lt_of_lt_of_le hf.rings.2 hj.hp⟩
  · exact (congrArg Fighter.dead (hi.gone hd)).trans hd
  · exact (congrArg Fighter.dead (hj.gone hd)).trans hd
  · exact (Prod.mk.inj hsi).1.trans (hside.trans (Prod.mk.inj hsj).1.symm)
  · exact hwi.trans (hwallet.trans hwj.symm)

variable (h)

/-- Between two fighters who can hit each other, a run that draws them both ways moves something; so when every
pair keeps being drawn, there comes a time from which on no two of them stand with anything in their rings,
and no two stand at all if nobody stood with an empty ring at the start. -/
theorem fight_cannot_stall (hn : 2 ≤ n) :
    (∀ (start k : ℕ) (fs : Vector Fighter m) (i j : Fin m), Facing fs i j →
      (∃ s, start ≤ s ∧ s < start + k ∧ Drawn h n i j s) → (∃ s, start ≤ s ∧ s < start + k ∧ Drawn h n j i s) →
      ringTotal (fightBy h n start k fs) < ringTotal fs) ∧
    ((∀ i j : Fin m, (i : ℕ) < n → (j : ℕ) < n → i ≠ j → ∀ N, ∃ s, N ≤ s ∧ Drawn h n i j s) →
      ∀ (start : ℕ) (fs : Vector Fighter m), ∃ k, ∀ k', k ≤ k' → ∀ i j : Fin m, (i : ℕ) < n → (j : ℕ) < n →
        ¬Facing (fightBy h n start k' fs) i j ∧
        ((∀ x : Fin m, fs[x].dead ≠ 1 → 0 < fs[x].hp) →
          ¬((fightBy h n start k' fs)[i].dead ≠ 1 ∧ (fightBy h n start k' fs)[j].dead ≠ 1 ∧
            fs[i].side ≠ fs[j].side ∧ fs[i].wallet ≠ fs[j].wallet))) := by
  refine ⟨fun start k fs i j hf hij hji => hf.progress hn hij hji, fun hrecur start fs => ?_⟩
  have hfalls : ∀ start (gs : Vector Fighter m), True → ¬(∀ i j : Fin m, (i : ℕ) < n → (j : ℕ) < n → ¬Facing gs i j) →
      ∃ k, ringTotal (fightBy h n start k gs) < ringTotal gs := by
    intro start gs _ hnot
    push Not at hnot
    obtain ⟨i, j, hi, hj, hf⟩ := hnot
    have hne : i ≠ j := fun he => hf.sides (he ▸ rfl)
    obtain ⟨s, hs, hdraw⟩ := hrecur i j hi hj hne start
    obtain ⟨s', hs', hdraw'⟩ := hrecur j i hj hi hne.symm start
    exact ⟨max s s' + 1 - start, hf.progress hn ⟨s, hs, by omega, hdraw⟩ ⟨s', hs', by omega, hdraw'⟩⟩
  obtain ⟨k, hk⟩ := iterFrom_done (I := fun _ => True) (fun _ _ _ => trivial) hfalls start (a := fs) trivial
  refine ⟨k, fun k' hkk' i j hi hj => ?_⟩
  have hdone : ¬Facing (fightBy h n start k' fs) i j := by
    intro hf
    have hsplit : fightBy h n start k' fs = fightBy h n (start + k) (k' - k) (fightBy h n start k fs) := by
      simp only [fightBy]
      rw [← iterFrom_add, Nat.add_sub_cancel' hkk']
    rw [hsplit] at hf
    exact hk i j hi hj (hf.earlier hn)
  refine ⟨hdone, fun hfull hstand => hdone ?_⟩
  have hring := fightBy_full (h := h) hn start k' hfull
  have hentry := fun x : Fin m => Prod.mk.inj (fightBy_onward (h := h) hn start k' fs x).entry
  refine ⟨⟨hstand.1, hstand.2.1⟩, ?_, ?_, hring i hstand.1, hring j hstand.2.1⟩
  · intro hside
    exact hstand.2.2.1 ((Prod.mk.inj (hentry i).2).1.symm.trans (hside.trans (Prod.mk.inj (hentry j).2).1))
  · intro hwallet
    exact hstand.2.2.2 ((hentry i).1.symm.trans (hwallet.trans (hentry j).1))

end

/-- Two fighters who are drawn against each other in turn. -/
def alternating (step : ℕ) : Bytes32 := zeroBytes.setIfInBounds 0 (if step % 2 = 0 then 0 else 1)

theorem alternating_drawn {i j : Fin 2} (hij : i ≠ j) (N : ℕ) : ∃ s, N ≤ s ∧ Drawn alternating 2 i j s := by
  refine ⟨2 * N + i, by omega, ?_⟩
  have hbyte : alternating (2 * N + i) = zeroBytes.setIfInBounds 0 (if (i : ℕ) = 0 then 0 else 1) := by
    have hpar : (2 * N + (i : ℕ)) % 2 = 0 ↔ (i : ℕ) = 0 := by omega
    simp only [alternating, hpar]
  rw [Drawn, hbyte]
  clear hbyte
  revert i j
  decide +kernel

theorem fight_cannot_stall_witness :
    (∃ k, ∀ k', k ≤ k' → ∀ i j : Fin 2, ¬Facing (fightBy alternating 2 0 k' #v[boxer 1 0 5000 0, boxer 2 1 7000 0]) i j) ∧
      ringTotal (fightBy alternating 2 0 2 #v[boxer 1 0 5000 0, boxer 2 1 7000 0]) < 12000 := by
  obtain ⟨hmoves, hends⟩ := fight_cannot_stall alternating (m := 2) (le_refl 2)
  constructor
  · obtain ⟨k, hk⟩ := hends (fun i j _ _ hij => alternating_drawn hij) 0 #v[boxer 1 0 5000 0, boxer 2 1 7000 0]
    exact ⟨k, fun k' hk' i j => (hk k' hk' i j i.isLt j.isLt).1⟩
  · refine hmoves 0 2 #v[boxer 1 0 5000 0, boxer 2 1 7000 0] 0 1 ?_
      ⟨0, by decide, by decide, show drawPair (alternating 0) 2 = (0, 1) by decide +kernel⟩
      ⟨1, by decide, by decide, show drawPair (alternating 1) 2 = (1, 0) by decide +kernel⟩
    exact ⟨by decide, by decide, by decide, by decide⟩

/-- Fighters who stand with empty rings are never hit, and stand for ever. -/
theorem empty_rings_stand : ¬∀ (h : ℕ → Bytes32) (fs : Vector Fighter 2),
    (∀ i j : Fin 2, i ≠ j → ∀ N, ∃ s, N ≤ s ∧ Drawn h 2 i j s) →
      ∃ k, ∀ i j : Fin 2, ¬((fightBy h 2 0 k fs)[i].dead ≠ 1 ∧ (fightBy h 2 0 k fs)[j].dead ≠ 1 ∧
        fs[i].side ≠ fs[j].side ∧ fs[i].wallet ≠ fs[j].wallet) := by
  intro hclaim
  obtain ⟨k, hk⟩ := hclaim alternating #v[boxer 1 0 0 0, boxer 2 1 0 0] fun i j hij => alternating_drawn hij
  have hstill : ∀ s, trade (alternating s) 2 #v[boxer 1 0 0 0, boxer 2 1 0 0] = #v[boxer 1 0 0 0, boxer 2 1 0 0] := by
    intro s
    have hstep := trade_stepped (le_refl 2) (alternating s) #v[boxer 1 0 0 0, boxer 2 1 0 0]
    cases hland : landed (drawPair (alternating s) 2).1 (drawPair (alternating s) 2).2 (rollOf (alternating s))
        #v[boxer 1 0 0 0, boxer 2 1 0 0] with
    | none => rwa [hland] at hstep
    | some b =>
        rw [hland] at hstep
        have hb : Landed _ _ b := hstep
        have hempty : ∀ i : Fin 2, #v[boxer 1 0 0 0, boxer 2 1 0 0][i].hp = 0 := by decide
        have hle := hempty b.defender ▸ hb.le
        exact absurd hb.pos (Nat.not_lt.mpr hle)
  refine hk 0 1 ?_
  rw [fightBy, iterFrom_fixed hstill]
  decide

/-! ## An exchange favours no stake -/

section
variable {m n roll : ℕ}

/-- The fighters of a lineup. -/
def seats (m n : ℕ) : Finset (Fin m) := Finset.univ.filter fun i => (i : ℕ) < n

/-- What a fighter gains or loses when every ordered pair of a lineup is drawn once, at one roll, from the same state. -/
def netFlow (n roll : ℕ) (fs : Vector Fighter m) (x : Fin m) : ℤ :=
  ∑ a ∈ seats m n, ∑ d ∈ (seats m n).erase a, ((((strike a d roll fs).get x).holds : ℤ) - (fs.get x).holds)

/-- The fighters of a lineup whom a fighter can hit, and be hit by. -/
def opponents (n : ℕ) (fs : Vector Fighter m) (x : Fin m) : Finset (Fin m) :=
  (seats m n).filter fun y => mayStrike (fs.get x) (fs.get y) = true

def dustOpponents (n : ℕ) (fs : Vector Fighter m) (x : Fin m) : Finset (Fin m) :=
  (opponents n fs x).filter fun y => (fs.get y).hp ≤ dust

/-- What a draw moves. -/
def moves (roll : ℕ) (fs : Vector Fighter m) (a d : Fin m) : ℕ :=
  if mayStrike (fs.get a) (fs.get d) = true then blow (fs.get a) (fs.get d) roll else 0

theorem mayStrike_comm (f g : Fighter) : mayStrike f g = mayStrike g f := by
  simp only [mayStrike, Bool.beq_comm (a := f.side), Bool.beq_comm (a := f.wallet), Bool.or_comm (f.dead == 1)]

theorem landed_amount (roll : ℕ) (fs : Vector Fighter m) (a d : Fin m) :
    ((landed a d roll fs).map Blow.amount).getD 0 = moves roll fs a d ∧
      ∀ b ∈ landed a d roll fs, b.attacker = a ∧ b.defender = d := by
  have hget : ∀ i : Fin m, fs.get i = fs[i] := fun _ => rfl
  unfold landed moves
  rw [dif_pos ⟨a.isLt, d.isLt⟩, hget, hget]
  by_cases hmay : mayStrike fs[a] fs[d] = true
  · by_cases hdmg : blow fs[a] fs[d] roll = 0
    · simp_all
    · simp_all
  · simp_all

theorem strike_flow {fs : Vector Fighter m} {a d : Fin m} (hne : a ≠ d) (hroll : roll ≤ 90)
    (hfits : mayStrike fs[a] fs[d] = true → fs[a].banked + blow fs[a] fs[d] roll < 2 ^ 64) (x : Fin m) :
    ((strike a d roll fs)[x].holds : ℤ) - fs[x].holds =
      (if x = a then (moves roll fs a d : ℤ) else 0) - if x = d then (moves roll fs a d : ℤ) else 0 := by
  obtain ⟨hamount, hslots⟩ := landed_amount roll fs a d
  have hstep := strike_stepped (fun he => hne (Fin.ext he)) hroll fs
  cases hland : landed a d roll fs with
  | none =>
      rw [hland] at hamount hstep
      rw [← hamount, show strike a d roll fs = fs from hstep]
      simp
  | some b =>
      rw [hland] at hamount hstep
      have hb : Landed fs (strike a d roll fs) b := hstep
      obtain ⟨rfl, rfl⟩ := hslots b hland
      simp only [Option.map_some, Option.getD_some] at hamount
      have hmay : mayStrike fs[b.attacker] fs[b.defender] = true :=
        mayStrike_iff.mpr ⟨hb.sides, hb.wallets, hb.standing.1, hb.standing.2⟩
      have hroom := hfits hmay
      have hblow : blow fs[b.attacker] fs[b.defender] roll = b.amount := hamount ▸ (if_pos hmay).symm
      rw [hblow] at hroom
      rw [← hamount]
      by_cases hxa : x = b.attacker
      · subst hxa
        rw [hb.attacker, if_pos hroom, if_pos rfl, if_neg hne]
        simp only [Fighter.holds]
        push_cast
        ring
      by_cases hxd : x = b.defender
      · subst hxd
        rw [hb.defender, if_neg hxa, if_pos rfl]
        have hle := hb.le
        simp only [Fighter.holds]
        push_cast [hle]
        ring
      · rw [hb.others x hxa hxd, if_neg hxa, if_neg hxd]
        ring

/-- A fighter's flow is what its own blows bring, less what the blows of others take. -/
theorem netFlow_eq {fs : Vector Fighter m} {x : Fin m} (hx : (x : ℕ) < n) (hroll : roll ≤ 90)
    (hfits : ∀ a d : Fin m, a ∈ seats m n → d ∈ seats m n → mayStrike fs[a] fs[d] = true →
      fs[a].banked + blow fs[a] fs[d] roll < 2 ^ 64) :
    netFlow n roll fs x = ∑ y ∈ (seats m n).erase x, ((moves roll fs x y : ℤ) - moves roll fs y x) := by
  have hxs : x ∈ seats m n := Finset.mem_filter.mpr ⟨Finset.mem_univ x, hx⟩
  have hterm : netFlow n roll fs x = ∑ a ∈ seats m n, ∑ d ∈ (seats m n).erase a,
      ((if x = a then (moves roll fs a d : ℤ) else 0) - if x = d then (moves roll fs a d : ℤ) else 0) := by
    refine Finset.sum_congr rfl fun a ha => Finset.sum_congr rfl fun d hd => ?_
    obtain ⟨hne, hd⟩ := Finset.mem_erase.mp hd
    exact strike_flow hne.symm hroll (hfits a d ha hd) x
  have hgain : ∑ a ∈ seats m n, ∑ d ∈ (seats m n).erase a, (if x = a then (moves roll fs a d : ℤ) else 0) =
      ∑ y ∈ (seats m n).erase x, (moves roll fs x y : ℤ) := by
    rw [Finset.sum_eq_single_of_mem x hxs]
    · simp
    · intro a _ hax
      exact Finset.sum_eq_zero fun d _ => if_neg fun h => hax h.symm
  have hloss : ∑ a ∈ seats m n, ∑ d ∈ (seats m n).erase a, (if x = d then (moves roll fs a d : ℤ) else 0) =
      ∑ y ∈ (seats m n).erase x, (moves roll fs y x : ℤ) := by
    rw [← Finset.add_sum_erase _ _ hxs, Finset.sum_eq_zero, zero_add]
    · refine Finset.sum_congr rfl fun a ha => ?_
      have hmem : x ∈ (seats m n).erase a := Finset.mem_erase.mpr ⟨(Finset.mem_erase.mp ha).1.symm, hxs⟩
      rw [Finset.sum_eq_single_of_mem x hmem, if_pos rfl]
      exact fun d _ hdx => if_neg fun h => hdx h.symm
    · exact fun d hd => if_neg fun h => (Finset.mem_erase.mp hd).1 h.symm
  rw [hterm, Finset.sum_sub_distrib, ← hgain, ← hloss, ← Finset.sum_sub_distrib]
  exact Finset.sum_congr rfl fun a _ => Finset.sum_sub_distrib _ _

/-- Blow and counterblow: the same for two rings above dust; else the one down to dust loses at most its ring. -/
theorem blow_balance {f g : Fighter} (hroll : roll ≤ 90) :
    -(if f.hp ≤ dust then (f.hp : ℤ) else 0) ≤ (blow f g roll : ℤ) - blow g f roll ∧
      (blow f g roll : ℤ) - blow g f roll ≤ if g.hp ≤ dust then (dust : ℤ) else 0 := by
  have hfg : blow f g roll ≤ g.hp := blow_le (hroll.trans (by norm_num))
  have hgf : blow g f roll ≤ f.hp := blow_le (hroll.trans (by norm_num))
  by_cases hf : f.hp ≤ dust
  · have hall : blow g f roll = f.hp := if_pos hf
    by_cases hg : g.hp ≤ dust
    · have hall' : blow f g roll = g.hp := if_pos hg
      rw [if_pos hf, if_pos hg]
      omega
    · have hmul := satMul_le 64 (min f.hp g.hp) roll
      have hle : min f.hp g.hp * roll ≤ f.hp * 90 := Nat.mul_le_mul (min_le_left _ _) hroll
      have hpart : blow f g roll = satMul 64 (min f.hp g.hp) roll / 100 := if_neg hg
      rw [if_pos hf, if_neg hg]
      omega
  · by_cases hg : g.hp ≤ dust
    · have hall : blow f g roll = g.hp := if_pos hg
      have hmul := satMul_le 64 (min g.hp f.hp) roll
      have hle : min g.hp f.hp * roll ≤ g.hp * 90 := Nat.mul_le_mul (min_le_left _ _) hroll
      have hpart : blow g f roll = satMul 64 (min g.hp f.hp) roll / 100 := if_neg hf
      rw [if_neg hf, if_pos hg]
      omega
    · have hsame : blow f g roll = blow g f roll := by
        simp only [blow, if_neg hf, if_neg hg, min_comm]
      rw [if_neg hf, if_neg hg, hsame]
      simp

/-- Over all draws of a lineup at one roll no fighter gains or loses by the size of any stake: a fighter gains at
most dust for each opponent down to dust, loses at most its ring for each opponent when it is itself down
to dust, and comes out even where no fighter that stands is. -/
theorem exchange_is_neutral (hash : Bytes32) {fs : Vector Fighter m} {x : Fin m} (hx : (x : ℕ) < n)
    (hfits : ∀ a d : Fin m, a ∈ seats m n → d ∈ seats m n → mayStrike fs[a] fs[d] = true →
      fs[a].banked + blow fs[a] fs[d] (rollOf hash) < 2 ^ 64) :
    (-(if fs[x].hp ≤ dust then (fs[x].hp * (opponents n fs x).card : ℤ) else 0) ≤ netFlow n (rollOf hash) fs x ∧
      netFlow n (rollOf hash) fs x ≤ dust * (dustOpponents n fs x).card) ∧
    ((∀ y : Fin m, (y : ℕ) < n → fs[y].dead ≠ 1 → dust < fs[y].hp) → netFlow n (rollOf hash) fs x = 0) := by
  have hroll := (rollOf_bounds hash).2
  have hflow := netFlow_eq hx hroll hfits
  -- only opponents count
  have hopp : netFlow n (rollOf hash) fs x =
      ∑ y ∈ opponents n fs x, ((blow fs[x] fs[y] (rollOf hash) : ℤ) - blow fs[y] fs[x] (rollOf hash)) := by
    have hsub : opponents n fs x ⊆ (seats m n).erase x := by
      intro y hy
      obtain ⟨hys, hmay⟩ := Finset.mem_filter.mp hy
      refine Finset.mem_erase.mpr ⟨?_, hys⟩
      rintro rfl
      exact (mayStrike_iff.mp hmay).1 rfl
    rw [hflow, ← Finset.sum_subset hsub]
    · refine Finset.sum_congr rfl fun y hy => ?_
      have hmay := (Finset.mem_filter.mp hy).2
      have hback := (mayStrike_comm (fs.get y) (fs.get x)).trans hmay
      rw [moves, moves, if_pos hmay, if_pos hback]
      rfl
    · intro y hy hnot
      have hno : ¬mayStrike (fs.get x) (fs.get y) = true := fun hmay =>
        hnot (Finset.mem_filter.mpr ⟨(Finset.mem_erase.mp hy).2, hmay⟩)
      rw [moves, moves, if_neg hno, if_neg (mayStrike_comm (fs.get y) (fs.get x) ▸ hno)]
      simp
  have hlow : -(if fs[x].hp ≤ dust then (fs[x].hp * (opponents n fs x).card : ℤ) else 0) ≤ netFlow n (rollOf hash) fs x := by
    have hsum := Finset.sum_le_sum (s := opponents n fs x) fun y _ => (blow_balance (f := fs[x]) (g := fs[y]) hroll).1
    rw [Finset.sum_const, nsmul_eq_mul] at hsum
    rw [hopp]
    refine le_trans (le_of_eq ?_) hsum
    split
    · ring
    · simp
  have hhigh : netFlow n (rollOf hash) fs x ≤ dust * (dustOpponents n fs x).card := by
    have hsum := Finset.sum_le_sum (s := opponents n fs x) fun y _ => (blow_balance (f := fs[x]) (g := fs[y]) hroll).2
    rw [← Finset.sum_filter, Finset.sum_const, nsmul_eq_mul] at hsum
    rw [hopp]
    refine hsum.trans (le_of_eq ?_)
    rw [mul_comm]
    rfl
  refine ⟨⟨hlow, hhigh⟩, fun hhealthy => le_antisymm ?_ ?_⟩
  · have hnone : dustOpponents n fs x = ∅ := by
      refine Finset.eq_empty_of_forall_notMem fun y hy => ?_
      obtain ⟨hy, hdust⟩ := Finset.mem_filter.mp hy
      obtain ⟨hys, hmay⟩ := Finset.mem_filter.mp hy
      have hlarge : dust < (fs.get y).hp := hhealthy y (Finset.mem_filter.mp hys).2 (mayStrike_iff.mp hmay).2.2.2
      omega
    rw [hnone] at hhigh
    simpa using hhigh
  · refine le_trans (le_of_eq ?_) hlow
    split
    · next hdust =>
        have hnone : opponents n fs x = ∅ := by
          refine Finset.eq_empty_of_forall_notMem fun y hy => ?_
          have hstand := (mayStrike_iff.mp (Finset.mem_filter.mp hy).2).2.2.1
          have hlarge := hhealthy x hx hstand
          omega
        rw [hnone]
        simp
    · simp

end

theorem exchange_is_neutral_witness :
    netFlow 3 (rollOf zeroBytes) #v[boxer 1 0 5000 0, boxer 2 1 7000 0, boxer 3 1 100000 0] 0 = 0 ∧
      netFlow 2 (rollOf zeroBytes) #v[boxer 1 0 5000 0, boxer 2 1 700 0] 0 ≤ dust :=
  ⟨(exchange_is_neutral zeroBytes (by decide) (by decide +kernel)).2 (by decide),
    (@exchange_is_neutral _ _ zeroBytes #v[boxer 1 0 5000 0, boxer 2 1 700 0] 0 (by decide)
      (by decide +kernel)).1.2.trans (by decide +kernel)⟩

/-- A bank that is full takes nothing more in, and an exchange with its owner loses what the bank should have had. -/
theorem full_bank_is_not_neutral : ¬∀ (hash : Bytes32) (fs : Vector Fighter 2) (x : Fin 2),
    (∀ y : Fin 2, fs[y].hp < 2 ^ 64 ∧ fs[y].banked < 2 ^ 64) → (∀ y : Fin 2, fs[y].dead ≠ 1 → dust < fs[y].hp) →
      netFlow 2 (rollOf hash) fs x = 0 := by
  intro hclaim
  have hzero := hclaim zeroBytes #v[boxer 1 0 5000 (2 ^ 64 - 1), boxer 2 1 7000 0] 0 (by decide) (by decide)
  have hloss : netFlow 2 (rollOf zeroBytes) #v[boxer 1 0 5000 (2 ^ 64 - 1), boxer 2 1 7000 0] 0 = -4500 := by
    decide +kernel
  rw [hloss] at hzero
  exact absurd hzero (by decide)

end BullsUnicorns.Chain

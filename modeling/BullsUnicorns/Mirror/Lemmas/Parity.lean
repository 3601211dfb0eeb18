import BullsUnicorns.Mirror.ErSim
import BullsUnicorns.Chain.Lemmas.Invariants

/-!
# The mirrors against the program

Function by function, and then over a run of the fight: as long as no ring is past `exactRing`, a step
of `tick` is an exchange of the program.
-/

namespace BullsUnicorns.Mirror

open Word Replay
open Chain (Bytes32 Pubkey Fighter hashv u64ToLeBytes u32FromLeBytes mayStrike exchange trade
  advanceFight settleSides tally)

/-- The largest ring whose every blow the program computes without the saturation showing. -/
def exactRing : ℕ := 204963823041217241

/-- A fighter of the program as the mirrors hold it; `name` writes the wallet. -/
@[simps]
def ofFighter (name : Pubkey → String) (f : Fighter) : ERFighter where
  wallet := name f.wallet
  side := f.side.toNat
  dead := f.dead.toNat
  stake := f.stake
  hp := f.hp
  banked := f.banked

def lineup (name : Pubkey → String) (fs : Vector Fighter Chain.maxFighters) (n : ℕ) : List ERFighter :=
  (fs.toList.take n).map (ofFighter name)

section
variable {name : Pubkey → String} {fs : Vector Fighter Chain.maxFighters} {n : ℕ}

theorem lineup_length (hk : n ≤ Chain.maxFighters) : (lineup name fs n).length = n := by
  simp [lineup, hk]

theorem lineup_get (hk : n ≤ Chain.maxFighters) {i : ℕ} (hi : i < n) :
    (lineup name fs n)[i]? = some (ofFighter name fs[i]) := by
  have hlen : i < fs.toList.length := by simpa using Nat.lt_of_lt_of_le hi hk
  rw [lineup, List.getElem?_map, List.getElem?_take_of_lt hi, List.getElem?_eq_getElem hlen]
  rfl

theorem mem_lineup (hk : n ≤ Chain.maxFighters) {f : ERFighter} :
    f ∈ lineup name fs n ↔ ∃ i, ∃ hi : i < Chain.maxFighters, i < n ∧ f = ofFighter name fs[i] := by
  simp only [lineup, List.mem_map, List.mem_take_iff_getElem, Vector.length_toList,
    Vector.getElem_toList]
  constructor
  · rintro ⟨_, ⟨i, hi, rfl⟩, rfl⟩
    exact ⟨i, by omega, by omega, rfl⟩
  · rintro ⟨i, hi, hin, rfl⟩
    exact ⟨_, ⟨i, by omega, rfl⟩, rfl⟩

theorem lineup_set {i : ℕ} (hi : i < Chain.maxFighters) (f : Fighter) :
    lineup name (fs.set i f) n = (lineup name fs n).set i (ofFighter name f) := by
  simp only [lineup, Vector.toList_set, List.take_set, List.map_set]

end

/-! ## The draw and the die -/

theorem readUInt32LE_eq (h : Bytes32) :
    readUInt32LE h 0 = u32FromLeBytes (h.get 0) (h.get 1) (h.get 2) (h.get 3) ∧
      readUInt32LE h 4 = u32FromLeBytes (h.get 4) (h.get 5) (h.get 6) (h.get 7) ∧
      readUInt32LE h 20 = u32FromLeBytes (h.get 20) (h.get 21) (h.get 22) (h.get 23) ∧
      readUInt32LE h 24 = u32FromLeBytes (h.get 24) (h.get 25) (h.get 26) (h.get 27) := by
  have hsum : ∀ b₀ b₁ b₂ b₃ : UInt8,
      b₀.toNat + b₁.toNat * 2 ^ 8 + b₂.toNat * 2 ^ 16 + b₃.toNat * 2 ^ 24 =
        u32FromLeBytes b₀ b₁ b₂ b₃ := by
    intro b₀ b₁ b₂ b₃
    simp only [u32FromLeBytes]
    omega
  exact ⟨hsum _ _ _ _, hsum _ _ _ _, hsum _ _ _ _, hsum _ _ _ _⟩

theorem drawPair_eq (h : Bytes32) {n : ℕ} (hn : 2 ≤ n) : drawPair h n = .ok (Chain.drawPair h n) := by
  obtain ⟨h0, h4, -⟩ := readUInt32LE_eq h
  rw [drawPair, if_neg (by omega), h0, h4]
  rfl

theorem rollOf_eq (h : Bytes32) : rollOf h = (Chain.rollOf h : ℤ) := by
  have h20 : readUInt32LE h 20 = u32FromLeBytes h[20] h[21] h[22] h[23] := (readUInt32LE_eq h).2.2.1
  have h24 : readUInt32LE h 24 = u32FromLeBytes h[24] h[25] h[26] h[27] := (readUInt32LE_eq h).2.2.2
  have hone : critOneIn = Chain.critOneIn := rfl
  rw [rollOf, h20, h24, hone, Chain.rollOf]
  by_cases hc : u32FromLeBytes h[24] h[25] h[26] h[27] % Chain.critOneIn = 0
  · rw [if_pos hc, if_pos hc]
    rfl
  · rw [if_neg hc, if_neg hc]
    rfl

theorem tickHash_eq (sha256 : List UInt8 → Bytes32) (seed : Bytes32) {cursor : ℕ} (h : cursor < 2 ^ 64) :
    tickHash sha256 seed.toList cursor = .ok (hashv sha256 [seed.toList, u64ToLeBytes cursor]) := by
  rw [tickHash, if_pos ⟨by omega, by exact_mod_cast h⟩]
  have htake : seed.toList.take 32 = seed.toList := List.take_of_length_le (by simp)
  simp [hashv, u64ToLeBytes, htake]

/-- Up to `exactRing` the clipped product and the exact one have the same hundredth. -/
theorem satMul_hundredth {basis roll : ℕ} (hb : basis ≤ exactRing) (hr : roll ≤ 90) :
    satMul 64 basis roll / 100 = basis * roll / 100 := by
  have hprod : basis * roll ≤ exactRing * 90 := Nat.mul_le_mul hb hr
  simp only [satMul, maxVal, exactRing] at *
  omega

theorem toNat_eq_one {x : UInt8} : x.toNat = 1 ↔ x = 1 := by
  constructor
  · intro h; exact UInt8.toNat_inj.mp h
  · rintro rfl; rfl

/-! ## One exchange -/

theorem blow_eq (name : Pubkey → String) {att : Fighter} (dfd : Fighter) {roll : ℕ} (hatt : att.hp ≤ exactRing)
    (hroll : roll ≤ 90) :
    blow (ofFighter name att) (ofFighter name dfd) roll = (Chain.blow att dfd roll : ℕ) := by
  have hexact : satMul 64 (min att.hp dfd.hp) roll / 100 = min att.hp dfd.hp * roll / 100 :=
    satMul_hundredth (Nat.le_trans (Nat.min_le_left _ _) hatt) hroll
  have hbasis : (if (att.hp : ℤ) < dfd.hp then (att.hp : ℤ) else dfd.hp) = (min att.hp dfd.hp : ℕ) := by
    split
    · rename_i hlt; omega
    · rename_i hge; omega
  have hdmg : (((min att.hp dfd.hp : ℕ) : ℤ) * roll).tdiv 100 = (min att.hp dfd.hp * roll / 100 : ℕ) := by
    rw [← Nat.cast_mul]
    exact (Int.ofNat_tdiv _ 100).symm
  rw [blow]
  simp only [ofFighter_hp]
  rw [hbasis, hdmg, Chain.blow, hexact]
  by_cases hdust : dfd.hp ≤ Chain.dust
  · rw [if_pos hdust, if_pos (show (dfd.hp : ℤ) ≤ dust by exact Int.ofNat_le.mpr hdust)]
  · rw [if_neg hdust, if_neg (fun h : (dfd.hp : ℤ) ≤ dust => hdust (Int.ofNat_le.mp h))]

section
variable {name : Pubkey → String} (hname : Function.Injective name)

include hname in
/-- Both sides go on to the next draw for the same reasons, and else agree on the damage. -/
theorem damage_eq {att : Fighter} (dfd : Fighter) (h : Bytes32) (hatt : att.hp ≤ exactRing) :
    damage (ofFighter name att) (ofFighter name dfd) h =
      if mayStrike att dfd = true ∧ Chain.blow att dfd (Chain.rollOf h) ≠ 0 then
        some (Chain.blow att dfd (Chain.rollOf h) : ℤ)
      else none := by
  have hdmg := blow_eq name dfd hatt (Chain.rollOf_bounds h).2
  rw [← rollOf_eq] at hdmg
  simp only [damage, hdmg, Chain.mayStrike_iff]
  simp only [ofFighter_side, ofFighter_wallet, ofFighter_dead, UInt8.toNat_inj, hname.eq_iff, toNat_eq_one]
  by_cases hs : att.side = dfd.side
  · simp [hs]
  by_cases hw : att.wallet = dfd.wallet
  · simp [hw]
  by_cases hd : att.dead = 1 ∨ dfd.dead = 1
  · rcases hd with hd | hd
    · simp [hd]
    · simp [hd]
  · obtain ⟨hda, hdd⟩ := not_or.mp hd
    simp [hs, hw, hda, hdd]

theorem hit_eq (name : Pubkey → String) {dfd : Fighter} {dmg : ℕ} (h : dmg ≤ dfd.hp) :
    (ofFighter name dfd).hit dmg = ofFighter name (dfd.struck dmg) := by
  have hsat : sat dfd.hp dmg = (satSub dfd.hp dmg : ℕ) := by
    unfold sat satSub
    split
    · omega
    · omega
  simp only [ERFighter.hit, ofFighter, Fighter.struck, hsat]
  by_cases hz : satSub dfd.hp dmg = 0
  · simp [hz]
  · simp [hz]

theorem gains_eq (name : Pubkey → String) {att : Fighter} {dmg : ℕ} (h : att.banked + dmg < 2 ^ 64) :
    (ofFighter name att).gains dmg = ofFighter name (att.raids dmg) := by
  simp only [ERFighter.gains, ofFighter, Fighter.raids, satAdd_of_lt h, Nat.cast_add]

structure Tame (fs : Vector Fighter Chain.maxFighters) (n : ℕ) : Prop where
  fits : Prefix.sum Fighter.holds fs n < 2 ^ 64
  exact : Prefix.All (fun f => f.hp ≤ exactRing) fs n

variable {sha256 : List UInt8 → Bytes32} {seed : Bytes32} {fs : Vector Fighter Chain.maxFighters} {n : ℕ}

theorem Tame.exchange (h : Tame fs n) (hn : 2 ≤ n) (hk : n ≤ Chain.maxFighters) (step : ℕ) :
    Tame (exchange sha256 seed n step fs) n where
  fits := by rw [Chain.exchange_held hn hk step h.fits]; exact h.fits
  exact := h.exact.congr fun i hi _ hle => (Chain.exchange_traded hn step fs i hi).hp_le.trans hle

theorem Tame.iterFrom (h : Tame fs n) (hn : 2 ≤ n) (hk : n ≤ Chain.maxFighters) (cursor steps : ℕ) :
    Tame (iterFrom (Chain.exchange sha256 seed n) cursor steps fs) n :=
  iterFrom_invariant (P := fun gs => Tame gs n) (fun j _ hg => hg.exchange hn hk j) cursor steps h

variable (sha256) in
include hname in
/-- A step of the mirrors is an exchange of the program. -/
theorem tickStep_eq (ht : Tame fs n) (hn : 2 ≤ n) (hk : n ≤ Chain.maxFighters) {round : ERRound}
    {cursor : ℕ} (hseed : round.seed = seed.toList) (hfs : round.fighters = lineup name fs n)
    (hcur : round.tickCount = cursor) (hlt : cursor < 2 ^ 64) :
    ∃ hit, tickStep sha256 round = .ok ({ round with
      tickCount := (cursor + 1 : ℕ)
      fighters := lineup name (exchange sha256 seed n cursor fs) n }, hit) := by
  obtain ⟨h, hh⟩ : ∃ h, hashv sha256 [seed.toList, u64ToLeBytes cursor] = h := ⟨_, rfl⟩
  obtain ⟨a, d, hp⟩ : ∃ a d, Chain.drawPair h n = (a, d) := ⟨_, _, rfl⟩
  obtain ⟨ha, hd, hne⟩ := Chain.drawPair_lt h hn
  simp only [hp] at ha hd hne
  have hlen : round.fighters.length = n := hfs ▸ lineup_length hk
  have hA : slot round.fighters a = .ok (ofFighter name fs[a]) := by
    rw [slot, hfs, lineup_get hk ha]
  have hD : slot round.fighters d = .ok (ofFighter name fs[d]) := by
    rw [slot, hfs, lineup_get hk hd]
  have hhash : tickHash sha256 round.seed round.tickCount = .ok h := by
    rw [hseed, hcur, tickHash_eq sha256 seed hlt, hh]
  have hpair : drawPair h round.fighters.length = .ok (a, d) := by rw [hlen, drawPair_eq h hn, hp]
  have hdmg := damage_eq hname fs[d] h (ht.exact a (by omega) ha)
  simp only [tickStep, hhash, hpair, hA, hD, ok_bind, hdmg]
  simp only [exchange, hh, trade, hp]
  rw [dif_pos ⟨by omega, by omega⟩]
  by_cases hm : mayStrike fs[a] fs[d] = true
  · by_cases hz : Chain.blow fs[a] fs[d] (Chain.rollOf h) = 0
    · rw [if_neg (fun hc => hc.2 hz), if_pos hm, if_pos hz, hcur, ← hfs]
      exact ⟨none, rfl⟩
    · have hle : Chain.blow fs[a] fs[d] (Chain.rollOf h) ≤ fs[d].hp := Chain.blow_rollOf_le _ _ h
      have hbank : fs[a].banked + Chain.blow fs[a] fs[d] (Chain.rollOf h) < 2 ^ 64 :=
        Chain.raid_fits hk ha hd hne ht.fits hle
      rw [if_pos ⟨hm, hz⟩, if_pos hm, if_neg hz, lineup_set, lineup_set, ← hit_eq name hle,
        ← gains_eq name hbank, ← hfs, hcur]
      exact ⟨_, rfl⟩
  · rw [if_neg (fun hc => hm hc.1), if_neg hm, hcur, ← hfs]
    exact ⟨none, rfl⟩

theorem tickFrom_step {round out : ERRound} {s steps : ℕ} {r : ERRound × Option HitEvent}
    {hits : List HitEvent} (hs : s < steps) (hlen : ¬ round.fighters.length < 2)
    (hstep : tickStep sha256 round = .ok r)
    (hrest : tickFrom sha256 r.1 (Number.ofNat (s + 1)) steps = .ok (out, hits)) :
    tickFrom sha256 round s steps = .ok (out, r.2.toList ++ hits) := by
  rw [tickFrom, if_pos hs, if_neg hlen]
  split
  · rename_i e he
    rw [hstep] at he
    cases he
  · rename_i r' he
    obtain rfl : r = r' := Except.ok.inj (hstep.symm.trans he)
    rw [hrest]

variable (sha256) in
include hname in
/-- Up to a counter a double can reach, the loop of the mirrors is a run of the fight. -/
theorem tickFrom_eq (hn : 2 ≤ n) (hk : n ≤ Chain.maxFighters) {steps : ℕ} (hsteps : steps ≤ 2 ^ 53)
    (k s : ℕ) (hs : s + k = steps) {round : ERRound} {fs : Vector Fighter Chain.maxFighters} {cursor : ℕ}
    (ht : Tame fs n) (hseed : round.seed = seed.toList) (hfs : round.fighters = lineup name fs n)
    (hcur : round.tickCount = cursor) (hlt : cursor + k < 2 ^ 64) :
    ∃ hits, tickFrom sha256 round s steps = .ok ({ round with
      tickCount := (cursor + k : ℕ)
      fighters := lineup name (iterFrom (exchange sha256 seed n) cursor k fs) n }, hits) := by
  induction k generalizing s round fs cursor with
  | zero =>
      rw [tickFrom, if_neg (by omega)]
      simp only [Nat.add_zero, iterFrom_zero, ← hcur, ← hfs]
      exact ⟨[], rfl⟩
  | succ k ih =>
      obtain ⟨hit, hstep⟩ := tickStep_eq hname sha256 ht hn hk hseed hfs hcur (by omega)
      have hlen : ¬ round.fighters.length < 2 := by
        rw [hfs, lineup_length hk]
        omega
      have hnum : Number.ofNat (s + 1) = s + 1 := Number.ofNat_of_le (by omega)
      obtain ⟨hits, hrest⟩ : ∃ hits, tickFrom sha256 { round with
          tickCount := (cursor + 1 : ℕ)
          fighters := lineup name (exchange sha256 seed n cursor fs) n } (s + 1) steps = .ok ({ round with
            tickCount := (cursor + 1 + k : ℕ)
            fighters := lineup name
              (iterFrom (exchange sha256 seed n) (cursor + 1) k (exchange sha256 seed n cursor fs)) n }, hits) :=
        ih (s + 1) (by omega) (ht.exchange hn hk cursor) hseed rfl rfl (by omega)
      refine ⟨hit.toList ++ hits, ?_⟩
      rw [← hnum] at hrest
      rw [tickFrom_step (by omega) hlen hstep hrest, iterFrom_succ,
        show cursor + 1 + k = cursor + (k + 1) by omega]

theorem tickFrom_few {round : ERRound} (h : round.fighters.length < 2) (s steps : ℕ) :
    tickFrom sha256 round s steps = .ok (round, []) := by
  rw [tickFrom]
  by_cases hs : s < steps
  · rw [if_pos hs, if_pos h]
  · rw [if_neg hs]

variable (sha256) in
include hname in
theorem tickFrom_lineup (hk : n ≤ Chain.maxFighters) (ht : Tame fs n)
    {round : ERRound} {cursor steps : ℕ} (hend : cursor + steps < 2 ^ 64)
    (hsteps : 2 ≤ n → steps ≤ 2 ^ 53) (hseed : round.seed = seed.toList)
    (hfs : round.fighters = lineup name fs n) (hcur : round.tickCount = cursor) :
    Tame (advanceFight sha256 fs n seed cursor steps) n ∧
      ∃ out hits, tickFrom sha256 round 0 steps = .ok (out, hits) ∧
        out.fighters = lineup name (advanceFight sha256 fs n seed cursor steps) n := by
  by_cases hn : 2 ≤ n
  · obtain ⟨hits, h⟩ := tickFrom_eq hname sha256 hn hk (hsteps hn) steps 0 (by omega) ht hseed hfs
      hcur hend
    rw [Chain.advanceFight_eq_iterFrom hn hend]
    exact ⟨ht.iterFrom hn hk cursor steps, _, hits, h, rfl⟩
  · have hlen : round.fighters.length < 2 := by
      rw [hfs, lineup_length hk]
      omega
    rw [advanceFight, if_pos (by omega)]
    exact ⟨ht, round, [], tickFrom_few hlen 0 steps, hfs⟩

end

/-! ## The winner -/

theorem foldl_sideValue (name : Pubkey → String) (fs : List Fighter) (v : ℕ × ℕ)
    (h : v.1 + v.2 + (fs.map Fighter.holds).sum < 2 ^ 64) :
    (fs.map (ofFighter name)).foldl sideValue ((v.1 : ℤ), (v.2 : ℤ)) =
      (((fs.foldl tally v).1 : ℤ), ((fs.foldl tally v).2 : ℤ)) := by
  induction fs generalizing v with
  | nil => rfl
  | cons f fs ih =>
      simp only [List.map_cons, List.sum_cons, Fighter.holds] at h
      have hx : satAdd 64 f.hp f.banked = f.hp + f.banked := satAdd_of_lt (by omega)
      have hzero : (ofFighter name f).side = 0 ↔ f.side = 0 := UInt8.toNat_inj (b := 0)
      simp only [List.map_cons, List.foldl_cons]
      rw [sideValue, tally, hx]
      by_cases hs : f.side = 0
      · rw [if_pos (hzero.mpr hs), if_pos hs, satAdd_of_lt (by omega)]
        have := ih (v.1 + (f.hp + f.banked), v.2) (by simp only; omega)
        simpa using this
      · rw [if_neg (fun hc => hs (hzero.mp hc)), if_neg hs, satAdd_of_lt (by omega)]
        have := ih (v.1, v.2 + (f.hp + f.banked)) (by simp only; omega)
        simpa using this

theorem settle_eq {name : Pubkey → String} {fs : Vector Fighter Chain.maxFighters} {n : ℕ}
    {round : ERRound} (hfit : Prefix.sum Fighter.holds fs n < 2 ^ 64)
    (hfs : round.fighters = lineup name fs n) : (settle round).2 = (settleSides fs n).toNat := by
  have hfold := foldl_sideValue name (fs.toList.take n) (0, 0) (by simpa [Prefix.sum] using hfit)
  simp only [Nat.cast_zero] at hfold
  simp only [settle, hfs, lineup, hfold, settleSides]
  by_cases hge : ((fs.toList.take n).foldl tally (0, 0)).1 ≥ ((fs.toList.take n).foldl tally (0, 0)).2
  · rw [if_pos (Int.ofNat_le.mpr hge), if_pos hge]
    rfl
  · rw [if_neg (fun h => hge (Int.ofNat_le.mp h)), if_neg hge]
    rfl

/-! ## The penalty -/

theorem penaltyHorizonSteps_eq (n : ℕ) : penaltyHorizonSteps n = (Chain.penaltyHorizonSteps n : ℕ) := by
  have hrow : clamp n 2 maxFighters - 2 = Chain.horizonRow n := by
    simp only [clamp, maxFighters, Chain.horizonRow, Chain.maxFighters]
    omega
  have htable : ∀ i : Fin 47, penaltyHorizonTable.getD i 0 = Chain.penaltyHorizonTable.get i := by decide
  rw [penaltyHorizonSteps, hrow]
  exact congrArg Nat.cast (htable _)

theorem penaltyHorizonSteps_le (n : ℕ) : Chain.penaltyHorizonSteps n ≤ 8314 := by
  have h : ∀ i : Fin 47, Chain.penaltyHorizonTable.get i ≤ 8314 := by decide
  exact h _

theorem extractPenaltyBps_eq (n cursor : ℕ) :
    extractPenaltyBps n cursor = (Chain.extractPenaltyBps n cursor : ℕ) := by
  have hpos := Chain.penaltyHorizonSteps_pos n
  have hle := penaltyHorizonSteps_le n
  simp only [extractPenaltyBps, penaltyHorizonSteps_eq, Chain.extractPenaltyBps]
  generalize Chain.penaltyHorizonSteps n = horizon at *
  have hrem : (if (cursor : ℤ) ≥ horizon then (0 : ℤ) else horizon - cursor) =
      (satSub horizon cursor : ℕ) := by
    unfold satSub
    split
    · omega
    · omega
  have hmul : satMul 64 Chain.extractPenaltyStartBps (satSub horizon cursor) =
      Chain.extractPenaltyStartBps * satSub horizon cursor := by
    apply satMul_of_lt
    simp only [Chain.extractPenaltyStartBps, satSub]
    omega
  rw [hrem, hmul]
  exact (Int.ofNat_tdiv _ _).symm

theorem splitExtraction_eq {taken : ℕ} (h : taken < 2 ^ 64) (n cursor : ℕ) :
    splitExtraction taken n cursor =
      (((Chain.splitExtraction taken n cursor).1 : ℤ), ((Chain.splitExtraction taken n cursor).2 : ℤ)) := by
  have hrate := Chain.extractPenaltyBps_le n cursor
  have hmul : taken * Chain.extractPenaltyBps n cursor ≤ taken * Chain.extractPenaltyStartBps :=
    Nat.mul_le_mul_left _ hrate
  simp only [Chain.extractPenaltyStartBps] at hmul
  have hnarrow : narrow 64 (taken * Chain.extractPenaltyBps n cursor / Chain.bps) =
      taken * Chain.extractPenaltyBps n cursor / Chain.bps := by
    apply narrow_of_lt
    simp only [Chain.bps]
    omega
  have hdiv : ((taken : ℤ) * (Chain.extractPenaltyBps n cursor : ℕ)).tdiv bps =
      (taken * Chain.extractPenaltyBps n cursor / Chain.bps : ℕ) := by
    rw [← Nat.cast_mul]
    exact (Int.ofNat_tdiv _ _).symm
  have hle : taken * Chain.extractPenaltyBps n cursor / Chain.bps ≤ taken := by
    simp only [Chain.bps]
    omega
  simp only [splitExtraction, extractPenaltyBps_eq, Chain.splitExtraction, hnarrow, hdiv,
    Nat.cast_sub hle]

end BullsUnicorns.Mirror

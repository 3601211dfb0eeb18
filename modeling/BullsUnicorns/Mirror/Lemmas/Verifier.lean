import BullsUnicorns.Chain.Lemmas.Unextracted
import BullsUnicorns.Mirror.Lemmas.Parity
import BullsUnicorns.Mirror.VerifyRound

/-!
# What the verifier computes on a settled round

Its replay is the program's fight without extracts, and its verdict is a comparison of that fight with
the account, slot by slot.
-/

namespace BullsUnicorns.Mirror

open Word Replay
open Chain (Bytes32 Pubkey Fighter Inv VerdictStands WithinBell settleSides)

/-! ## The replay -/

theorem foldl_build (entries : List HitEventEntry) (round : ERRound) :
    let built := entries.foldl (fun round e => { round with
      fighters := round.fighters ++ [⟨e.wallet, e.side, 0, e.stake, e.stake, 0⟩]
      pot := round.pot + e.stake }) round
    built.seed = round.seed ∧ built.tickCount = round.tickCount ∧
      built.fighters =
        round.fighters ++ entries.map fun e => ⟨e.wallet, e.side, 0, e.stake, e.stake, 0⟩ := by
  induction entries generalizing round with
  | nil => simp
  | cons e entries ih =>
      obtain ⟨hseed, htick, hfs⟩ := ih { round with
        fighters := round.fighters ++ [⟨e.wallet, e.side, 0, e.stake, e.stake, 0⟩]
        pot := round.pot + e.stake }
      refine ⟨hseed, htick, hfs.trans ?_⟩
      simp

theorem buildRoundFromEntries_eq (seed : List UInt8) (entries : List HitEventEntry) :
    (buildRoundFromEntries seed entries).seed = seed ∧
      (buildRoundFromEntries seed entries).tickCount = 0 ∧
      (buildRoundFromEntries seed entries).fighters =
        entries.map fun e => ⟨e.wallet, e.side, 0, e.stake, e.stake, 0⟩ :=
  foldl_build entries (newRound seed)

theorem entries_lineup (toBase58 : Pubkey → String) (r : Chain.RoundState) :
    (((toPlainRound r).fighters.map fun f => (⟨toBase58 f.wallet, f.side, f.stake⟩ : HitEventEntry)).map
      fun e => (⟨e.wallet, e.side, 0, e.stake, e.stake, 0⟩ : ERFighter)) =
      lineup toBase58 r.entrants r.fighterCount := by
  simp only [toPlainRound, lineup, Chain.RoundState.entrants, Vector.toList_map, List.map_take,
    List.map_map]
  rfl

/-! ## The comparison -/

theorem toList_fighterKey (w : String) {side : ℕ} (h : side = 0 ∨ side = 1) :
    (fighterKey w side).toList = w.toList ++ [':', if side = 0 then '0' else '1'] := by
  rcases h with rfl | rfl
  · simp [fighterKey]
  · have hone : Nat.toDigits 10 1 = ['1'] := by decide
    simp [fighterKey, hone]

theorem fighterKey_inj {w w' : String} {side side' : ℕ} (h : side = 0 ∨ side = 1)
    (h' : side' = 0 ∨ side' = 1) (he : fighterKey w side = fighterKey w' side') :
    w = w' ∧ side = side' := by
  have hl : w.toList ++ [':', if side = 0 then '0' else '1'] =
      w'.toList ++ [':', if side' = 0 then '0' else '1'] := by
    rw [← toList_fighterKey w h, ← toList_fighterKey w' h', he]
  obtain ⟨hw, hs⟩ := List.append_inj' hl rfl
  refine ⟨String.toList_inj.mp hw, ?_⟩
  rcases h with rfl | rfl
  · rcases h' with rfl | rfl
    · rfl
    · simp at hs
  · rcases h' with rfl | rfl
    · simp at hs
    · rfl

/-- Where the keys tell the values apart, a value is found under its own key. -/
theorem mapGet_self {α : Type} {key : α → String} {l : List α} {x : α} (hx : x ∈ l)
    (hinj : ∀ y ∈ l, key y = key x → y = x) :
    mapGet (l.map fun y => (key y, y)) (key x) = some x := by
  unfold mapGet
  cases hf : (l.map fun y => (key y, y)).reverse.find? fun e => e.1 == key x with
  | none =>
      rw [List.find?_eq_none] at hf
      have hne := hf (key x, x) (List.mem_reverse.mpr (List.mem_map.mpr ⟨x, hx, rfl⟩))
      simp at hne
  | some e =>
      have hkey := List.find?_some hf
      obtain ⟨y, hy, rfl⟩ := List.mem_map.mp (List.mem_reverse.mp (List.mem_of_find?_eq_some hf))
      rw [Option.map_some, hinj y hy (by simpa using hkey)]

/-- A settled round as the program leaves it, every ring of it exact. -/
structure Verifiable (r : Chain.RoundState) : Prop where
  inv : Inv r
  settled : r.phase = .settled
  verdict : VerdictStands r
  bell : WithinBell r
  rings : Prefix.All (fun f => f.stake ≤ exactRing) r.fighters r.fighterCount

def Flagged (f : Fighter) : Prop := f.dead = 0 ∨ f.dead = 1

theorem flagged_of_traded {f g : Fighter} (h : Fighter.Traded f g) (hf : Flagged f) : Flagged g := by
  cases h with
  | same => exact hf
  | struck hs hpos hle =>
      simp only [Flagged, Fighter.struck]
      split
      · exact Or.inr rfl
      · exact hf
  | raids dmg hs => exact hf

section
variable {sha256 : List UInt8 → Bytes32} {r : Chain.RoundState}

theorem Verifiable.enough (h : Verifiable r) : 2 ≤ r.fighterCount :=
  h.inv.staged.enough (Or.inr (Or.inr h.settled))

theorem Verifiable.count_le (h : Verifiable r) : r.fighterCount ≤ Chain.maxFighters :=
  h.inv.lineup.count_le

theorem Verifiable.ticks (h : Verifiable r) : r.tickCount ≤ 17280 :=
  h.bell.trans (Chain.finalCursor_le h.count_le)

theorem Verifiable.unextracted_eq (h : Verifiable r) :
    r.unextracted sha256 =
      iterFrom (Chain.exchange sha256 r.seed r.fighterCount) 0 r.tickCount r.entrants :=
  Chain.advanceFight_eq_iterFrom h.enough (by have := h.ticks; omega) _

theorem Verifiable.tame (h : Verifiable r) : Tame r.entrants r.fighterCount where
  fits := by
    have hsum : Prefix.sum Fighter.holds r.entrants r.fighterCount = r.staked :=
      Prefix.sum_congr h.count_le fun i hi _ => by
        simp only [Chain.RoundState.entrants, Vector.getElem_map, Fighter.asEntered, Fighter.holds]
        rfl
    rw [hsum, h.inv.balanced.stakes]
    exact h.inv.balanced.pot_lt
  exact i hi hin := by
    simp only [Chain.RoundState.entrants, Vector.getElem_map, Fighter.asEntered]
    exact h.rings i hi hin

variable (sha256) in
theorem Verifiable.unextracted_slot (h : Verifiable r) {i : ℕ} (hi : i < Chain.maxFighters) :
    (r.unextracted sha256)[i].entry = r.fighters[i].entry ∧ Flagged (r.unextracted sha256)[i] := by
  have hslot : r.entrants[i] = r.fighters[i].asEntered := by
    simp only [Chain.RoundState.entrants, Vector.getElem_map]
  have hget : (r.unextracted sha256)[i] =
      (iterFrom (Chain.exchange sha256 r.seed r.fighterCount) 0 r.tickCount r.entrants)[i] :=
    congrArg (fun v => v[i]) h.unextracted_eq
  have hflag : Flagged r.entrants[i] → Flagged (r.unextracted sha256)[i] := by
    rw [hget]
    exact Chain.iterFrom_slot h.enough (R := fun f g => Flagged f → Flagged g) (fun _ => id)
      (fun _ _ _ hfg hgk hf => flagged_of_traded hgk (hfg hf)) 0 r.tickCount r.entrants i hi
  refine ⟨?_, hflag ?_⟩
  · rw [hget, Chain.iterFrom_entry h.enough 0 r.tickCount r.entrants i hi, hslot]
    rfl
  · rw [hslot]
    exact Or.inl rfl

/-- Two fighters of one entry with their flags in order differ in what the verifier compares, or not
at all. -/
theorem same_iff {f g : Fighter} (hentry : g.entry = f.entry) (hf : Flagged f) (hg : Flagged g) :
    f.hp = g.hp ∧ f.banked = g.banked ∧ (f.dead ≠ 0 ↔ g.dead = 1) ↔ f = g := by
  constructor
  · rintro ⟨hhp, hbanked, hdead⟩
    have hd : f.dead = g.dead := by
      rcases hf with hf | hf
      · rcases hg with hg | hg
        · rw [hf, hg]
        · simp [hf, hg] at hdead
      · rcases hg with hg | hg
        · simp [hf, hg] at hdead
        · rw [hf, hg]
    cases f
    cases g
    simp_all [Fighter.entry]
  · rintro rfl
    refine ⟨rfl, rfl, ?_⟩
    rcases hf with hf | hf
    · simp [hf]
    · simp [hf]

theorem flagged_of_sound {f : Fighter} (h : f.Sound) : Flagged f := by
  unfold Fighter.Sound at h
  split at h
  · exact Or.inr h
  · exact Or.inl h

def keyed (toBase58 : Pubkey → String) (fs : Vector Fighter Chain.maxFighters) (n : ℕ) :
    List (String × ERFighter) :=
  (lineup toBase58 fs n).map fun f => (fighterKey f.wallet f.side, f)

variable (sha256) in
theorem Verifiable.lookup (h : Verifiable r) {toBase58 : Pubkey → String}
    (h58 : Function.Injective toBase58) {i : ℕ} (hi : i < r.fighterCount) (hk : i < Chain.maxFighters) :
    mapGet (keyed toBase58 (r.unextracted sha256) r.fighterCount)
      (fighterKey (toBase58 r.fighters[i].wallet) r.fighters[i].side.toNat) =
      some (ofFighter toBase58 (r.unextracted sha256)[i]) := by
  have hseat : ∀ j, (hj : j < Chain.maxFighters) →
      (r.unextracted sha256)[j].seat = r.fighters[j].seat :=
    fun j hj => Chain.Fighter.seat_of_entry (h.unextracted_slot sha256 hj).1
  have hside : ∀ j, (hj : j < Chain.maxFighters) → j < r.fighterCount →
      (r.unextracted sha256)[j].side.toNat = 0 ∨ (r.unextracted sha256)[j].side.toNat = 1 := by
    intro j hj hjn
    have hs : (r.unextracted sha256)[j].side = r.fighters[j].side := congrArg Prod.snd (hseat j hj)
    rw [hs]
    rcases h.inv.lineup.sides j hj hjn with h0 | h1
    · exact Or.inl (by rw [h0]; rfl)
    · exact Or.inr (by rw [h1]; rfl)
  have hkey : fighterKey (toBase58 r.fighters[i].wallet) r.fighters[i].side.toNat =
      fighterKey (ofFighter toBase58 (r.unextracted sha256)[i]).wallet
        (ofFighter toBase58 (r.unextracted sha256)[i]).side := by
    have hsi := hseat i hk
    simp only [Fighter.seat, Prod.mk.injEq] at hsi
    simp only [ofFighter_wallet, ofFighter_side, hsi]
  rw [hkey]
  apply mapGet_self
  · exact (mem_lineup h.count_le).mpr ⟨i, hk, hi, rfl⟩
  · intro y hy he
    obtain ⟨j, hj, hjn, rfl⟩ := (mem_lineup h.count_le).mp hy
    obtain ⟨hw, hs⟩ := fighterKey_inj (hside j hj hjn) (hside i hk hi) he
    have hseats : r.fighters[j].seat = r.fighters[i].seat := by
      rw [← hseat j hj, ← hseat i hk]
      exact Prod.ext (h58 hw) (UInt8.toNat_inj.mp hs)
    obtain rfl := h.inv.lineup.distinct j i hj hk hjn hi hseats
    rfl

/-- The comparison of a slot: whether the account has what the replay has, and whether it has it
otherwise with the fighter out of play. -/
theorem Verifiable.compare (h : Verifiable r) {toBase58 : Pubkey → String}
    (h58 : Function.Injective toBase58) {i : ℕ} (hi : i < r.fighterCount) (hk : i < Chain.maxFighters) :
    let c := compareFighter toBase58 (keyed toBase58 (r.unextracted sha256) r.fighterCount)
      (toPlainFighter r.fighters[i])
    (c.sameState = true ↔ r.fighters[i] = (r.unextracted sha256)[i]) ∧
      (c.extractionSignature = true ↔
        r.fighters[i] ≠ (r.unextracted sha256)[i] ∧ r.fighters[i].dead = 1) := by
  intro c
  obtain ⟨hentry, hflag⟩ := h.unextracted_slot sha256 hk
  have hsound := h.inv.lineup.sound i hk hi
  have hsame : c.sameState = true ↔ r.fighters[i] = (r.unextracted sha256)[i] := by
    rw [← same_iff hentry (flagged_of_sound hsound) hflag]
    have hl := h.lookup sha256 h58 hi hk
    simp only [c, compareFighter, toPlainFighter, hl, Option.map_some, Option.getD_some, ofFighter_hp,
      ofFighter_banked, ofFighter_dead, Bool.and_eq_true, beq_iff_eq, Nat.cast_inj, and_assoc]
    rw [Bool.eq_iff_iff]
    simp only [bne_iff_ne, ne_eq, beq_iff_eq, Option.some.injEq, toNat_eq_one]
  refine ⟨hsame, ?_⟩
  have hout : isOutOfPlay c.onChain = true ↔ r.fighters[i].dead = 1 := by
    have hshape : isOutOfPlay c.onChain = (r.fighters[i].dead != 0 && (r.fighters[i].hp : ℤ) == 0) := rfl
    rw [hshape, Bool.and_eq_true, bne_iff_ne, beq_iff_eq, Nat.cast_eq_zero, hsound.dead_iff]
    constructor
    · exact fun ho => ho.2
    · intro hz
      have hd := hsound.dead_iff.mpr hz
      exact ⟨by simp [hd], hz⟩
  have hsig : c.extractionSignature = (!c.sameState && isOutOfPlay c.onChain) := rfl
  rw [hsig, Bool.and_eq_true, Bool.not_eq_true', ← Bool.not_eq_true, hsame, hout]

/-! ## The totals -/

theorem foldl_stakes (fs : List Fighter) (acc : ℕ) :
    (fs.map toPlainFighter).foldl (fun sum f => sum + f.stake) (acc : ℤ) =
      (acc + (fs.map Fighter.stake).sum : ℕ) := by
  induction fs generalizing acc with
  | nil => simp
  | cons f fs ih =>
      have := ih (acc + f.stake)
      simp only [List.map_cons, List.foldl_cons, List.sum_cons, toPlainFighter] at *
      rw [← Nat.add_assoc, ← this, Nat.cast_add]

theorem foldl_values (fs : List Fighter) (acc : ℕ) :
    (fs.map toPlainFighter).foldl (fun sum f => sum + f.hp + f.banked) (acc : ℤ) =
      (acc + (fs.map Fighter.holds).sum : ℕ) := by
  induction fs generalizing acc with
  | nil => simp
  | cons f fs ih =>
      have := ih (acc + f.holds)
      simp only [List.map_cons, List.foldl_cons, List.sum_cons, toPlainFighter, Fighter.holds] at *
      rw [← Nat.add_assoc, ← this, Nat.cast_add, Nat.cast_add, add_assoc]

theorem Verifiable.totals (h : Verifiable r) :
    (toPlainRound r).fighters.foldl (fun sum f => sum + f.stake) 0 = (r.pot : ℤ) ∧
      (toPlainRound r).fighters.foldl (fun sum f => sum + f.hp + f.banked) 0 + r.penaltiesCollected =
        (r.pot : ℤ) := by
  have h₁ := foldl_stakes (r.fighters.toList.take r.fighterCount) 0
  have h₂ := foldl_values (r.fighters.toList.take r.fighterCount) 0
  have hstaked := h.inv.balanced.stakes
  have hring := h.inv.balanced.ring
  simp only [Nat.cast_zero, Nat.zero_add] at h₁ h₂
  refine ⟨h₁.trans (congrArg Nat.cast hstaked), ?_⟩
  simp only [toPlainRound]
  rw [h₂, ← hring]
  exact (Nat.cast_add _ _).symm

/-! ## The verdict -/

/-- The account has every fighter where the fight without extracts leaves them. -/
def Reproduced (sha256 : List UInt8 → Bytes32) (r : Chain.RoundState) : Prop :=
  ∀ i : Fin Chain.maxFighters, i < r.fighterCount → r.fighters.get i = (r.unextracted sha256).get i

/-- Some fighter out of play is not where that fight leaves them. -/
def Fingerprinted (sha256 : List UInt8 → Bytes32) (r : Chain.RoundState) : Prop :=
  ∃ i : Fin Chain.maxFighters, i < r.fighterCount ∧ (r.fighters.get i).dead = 1 ∧
    r.fighters.get i ≠ (r.unextracted sha256).get i

instance : Decidable (Reproduced sha256 r) := by unfold Reproduced; infer_instance

instance : Decidable (Fingerprinted sha256 r) := by unfold Fingerprinted; infer_instance

theorem mem_toPlainRound (h : Verifiable r) {f : FighterState} :
    f ∈ (toPlainRound r).fighters ↔
      ∃ i : Fin Chain.maxFighters, i < r.fighterCount ∧ f = toPlainFighter (r.fighters.get i) := by
  have hk := h.count_le
  simp only [toPlainRound, List.mem_map, List.mem_take_iff_getElem, Vector.length_toList,
    Vector.getElem_toList]
  constructor
  · rintro ⟨_, ⟨i, hi, rfl⟩, rfl⟩
    exact ⟨⟨i, by omega⟩, by simp only; omega, rfl⟩
  · rintro ⟨i, hi, rfl⟩
    exact ⟨_, ⟨i, by have := i.isLt; omega, rfl⟩, rfl⟩

theorem Verifiable.all_same (h : Verifiable r) {toBase58 : Pubkey → String}
    (h58 : Function.Injective toBase58) :
    ((toPlainRound r).fighters.map (compareFighter toBase58
      (keyed toBase58 (r.unextracted sha256) r.fighterCount))).all FighterComparison.sameState = true ↔
      Reproduced sha256 r := by
  rw [List.all_eq_true]
  constructor
  · intro hall i hi
    have hc := hall _ (List.mem_map.mpr ⟨_, (mem_toPlainRound h).mpr ⟨i, hi, rfl⟩, rfl⟩)
    exact (h.compare h58 hi i.isLt).1.mp hc
  · intro hrep c hc
    obtain ⟨f, hf, rfl⟩ := List.mem_map.mp hc
    obtain ⟨i, hi, rfl⟩ := (mem_toPlainRound h).mp hf
    exact (h.compare h58 hi i.isLt).1.mpr (hrep i hi)

theorem Verifiable.any_signature (h : Verifiable r) {toBase58 : Pubkey → String}
    (h58 : Function.Injective toBase58) :
    ((toPlainRound r).fighters.map (compareFighter toBase58
      (keyed toBase58 (r.unextracted sha256) r.fighterCount))).any
        FighterComparison.extractionSignature = true ↔ Fingerprinted sha256 r := by
  rw [List.any_eq_true]
  constructor
  · rintro ⟨c, hc, hsig⟩
    obtain ⟨f, hf, rfl⟩ := List.mem_map.mp hc
    obtain ⟨i, hi, rfl⟩ := (mem_toPlainRound h).mp hf
    obtain ⟨hne, hdead⟩ := (h.compare h58 hi i.isLt).2.mp hsig
    exact ⟨i, hi, hdead, hne⟩
  · rintro ⟨i, hi, hdead, hne⟩
    exact ⟨_, List.mem_map.mpr ⟨_, (mem_toPlainRound h).mpr ⟨i, hi, rfl⟩, rfl⟩,
      (h.compare h58 hi i.isLt).2.mpr ⟨hne, hdead⟩⟩

theorem Verifiable.winner (h : Verifiable r) :
    (if (toPlainRound r).winner = 1 then 1 else 0) = (settleSides r.fighters r.fighterCount).toNat := by
  have hw : (toPlainRound r).winner = (settleSides r.fighters r.fighterCount).toNat :=
    congrArg UInt8.toNat (h.verdict h.settled)
  have hside : settleSides r.fighters r.fighterCount = 0 ∨ settleSides r.fighters r.fighterCount = 1 := by
    simp only [settleSides]
    split
    · exact Or.inl rfl
    · exact Or.inr rfl
  rw [hw]
  rcases hside with h0 | h1
  · rw [h0]; rfl
  · rw [h1]; rfl

theorem Reproduced.winner (hrep : Reproduced sha256 r) :
    settleSides r.fighters r.fighterCount = settleSides (r.unextracted sha256) r.fighterCount := by
  unfold settleSides
  rw [Prefix.take_congr fun i hi hin => hrep ⟨i, hi⟩ hin]

variable (sha256) in
/-- The replay returns, with the fighters of the fight without extracts and its winner. -/
theorem Verifiable.replay (h : Verifiable r) {toBase58 : Pubkey → String}
    (h58 : Function.Injective toBase58) :
    ∃ out hits, runFullFight sha256 (toPlainRound r).seed
        ((toPlainRound r).fighters.map fun f => ⟨toBase58 f.wallet, f.side, f.stake⟩) r.tickCount =
          .ok (out, hits) ∧
      out.fighters = lineup toBase58 (r.unextracted sha256) r.fighterCount ∧
      (settle out).2 = (settleSides (r.unextracted sha256) r.fighterCount).toNat := by
  obtain ⟨hseed, htick, hfs⟩ := buildRoundFromEntries_eq (toPlainRound r).seed
    ((toPlainRound r).fighters.map fun f => ⟨toBase58 f.wallet, f.side, f.stake⟩)
  rw [entries_lineup] at hfs
  have hticks := h.ticks
  obtain ⟨ht, out, hits, hrun, hout⟩ := tickFrom_lineup h58 sha256 h.count_le h.tame
    (by omega : 0 + r.tickCount < 2 ^ 64) (fun _ => by omega) hseed hfs htick
  exact ⟨out, hits, hrun, hout, settle_eq ht.fits hout⟩

theorem Verifiable.steps (h : Verifiable r) :
    Number.ofNat (toPlainRound r).tickCount.toNat = r.tickCount := by
  have hticks := h.ticks
  exact Number.ofNat_of_le (by simp only [toPlainRound]; omega)

theorem Verifiable.conserves (h : Verifiable r) :
    (toPlainRound r).fighters.foldl (fun sum f => sum + f.hp + f.banked) 0 +
      ((toPlainRound r).penaltiesCollected + (toPlainRound r).feesCollected) =
        r.pot + (toPlainRound r).feesCollected := by
  rw [← h.totals.2, ← add_assoc]
  rfl

variable (sha256) in
/-- The verifier answers, and its verdict is read off the comparison with the fight without extracts. -/
theorem Verifiable.verdict_eq (h : Verifiable r) {toBase58 : Pubkey → String}
    (h58 : Function.Injective toBase58) :
    ∃ res, verifyRound toBase58 sha256 (toPlainRound r) = .ok res ∧
      res.verdict = if Reproduced sha256 r then .verified
        else if Fingerprinted sha256 r then .extractionLikely else .mismatch := by
  obtain ⟨out, hits, hrun, hout, hwinner⟩ := h.replay sha256 h58
  have hkeyed : out.fighters.map (fun f => (fighterKey f.wallet f.side, f)) =
      keyed toBase58 (r.unextracted sha256) r.fighterCount := by
    rw [hout]
    rfl
  simp only [verifyRound, h.steps, hrun, ok_bind]
  refine ⟨_, rfl, ?_⟩
  simp only [h.winner, hwinner, hkeyed, h.totals.1, h.conserves]
  by_cases hrep : Reproduced sha256 r
  · have hall := (h.all_same h58).mpr hrep
    rw [hall, hrep.winner, if_pos hrep, if_pos (by simp)]
  · have hall := Bool.eq_false_of_not_eq_true (fun hc => hrep ((h.all_same h58).mp hc))
    rw [hall, if_neg hrep, if_neg (by simp)]
    have hpot : ((toPlainRound r).pot == (r.pot : ℤ)) = true := by simp [toPlainRound]
    rw [hpot, beq_self_eq_true, Bool.true_and, Bool.true_and]
    simp only [h.any_signature h58]

end

end BullsUnicorns.Mirror

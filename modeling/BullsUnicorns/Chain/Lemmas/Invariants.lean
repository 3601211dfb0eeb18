import BullsUnicorns.Chain.Lemmas.Steps

/-!
# The invariants of a round

Three groups, each kept by every effect: the lineup, the money totals, and what each phase promises.
-/

namespace BullsUnicorns.Chain

open Word Replay

/-! ## The splits -/

theorem narrow_le (w a : ℕ) : narrow w a ≤ a := Nat.mod_le _ _

theorem splitEntry_add (stake : ℕ) {feeBps : ℕ} (h : feeBps ≤ maxFeeBps) :
    (splitEntry stake feeBps).1 + (splitEntry stake feeBps).2 = stake := by
  have hb : stake * feeBps ≤ stake * maxFeeBps := Nat.mul_le_mul_left _ h
  have hn := narrow_le 64 (stake * feeBps / bps)
  simp only [splitEntry, maxFeeBps, bps] at *
  omega

theorem splitEntry_pos {stake feeBps : ℕ} (hs : 0 < stake) (h : feeBps ≤ maxFeeBps) :
    0 < (splitEntry stake feeBps).1 := by
  have hb : stake * feeBps ≤ stake * maxFeeBps := Nat.mul_le_mul_left _ h
  have hn := narrow_le 64 (stake * feeBps / bps)
  simp only [splitEntry, maxFeeBps, bps] at *
  omega

theorem penaltyHorizonSteps_pos (n : ℕ) : 0 < penaltyHorizonSteps n := by
  have h : ∀ i : Fin 47, 0 < penaltyHorizonTable.get i := by decide
  exact h _

theorem extractPenaltyBps_le (n cursor : ℕ) : extractPenaltyBps n cursor ≤ extractPenaltyStartBps := by
  have hpos := penaltyHorizonSteps_pos n
  simp only [extractPenaltyBps]
  refine Nat.div_le_of_le_mul ?_
  calc satMul 64 extractPenaltyStartBps (satSub (penaltyHorizonSteps n) cursor)
      ≤ extractPenaltyStartBps * satSub (penaltyHorizonSteps n) cursor := satMul_le _ _ _
    _ ≤ extractPenaltyStartBps * penaltyHorizonSteps n :=
        Nat.mul_le_mul_left _ (Nat.sub_le _ _)
    _ = penaltyHorizonSteps n * extractPenaltyStartBps := Nat.mul_comm _ _

theorem splitExtraction_add (taken n cursor : ℕ) :
    (splitExtraction taken n cursor).1 + (splitExtraction taken n cursor).2 = taken := by
  have hr := extractPenaltyBps_le n cursor
  have hb : taken * extractPenaltyBps n cursor ≤ taken * extractPenaltyStartBps :=
    Nat.mul_le_mul_left _ hr
  have hn := narrow_le 64 (taken * extractPenaltyBps n cursor / bps)
  simp only [splitExtraction, extractPenaltyStartBps, bps] at *
  omega

/-! ## The invariants -/

/-- A fighter who has not fought yet. -/
structure Fighter.Fresh (f : Fighter) : Prop where
  whole : f.hp = f.stake
  unbanked : f.banked = 0
  standing : f.dead = 0
  pos : 0 < f.hp

theorem Fighter.Fresh.sound {f : Fighter} (h : f.Fresh) : f.Sound := by
  have := h.pos
  rw [Sound, if_neg (by omega), h.standing]

structure Lineup (r : RoundState) : Prop where
  count_le : r.fighterCount ≤ maxFighters
  sound : Prefix.All Fighter.Sound r.fighters r.fighterCount
  sides : Prefix.All Fighter.OnASide r.fighters r.fighterCount
  distinct : Prefix.InjOn Fighter.seat r.fighters r.fighterCount

structure Balanced (r : RoundState) : Prop where
  ring : r.held + r.penaltiesCollected = r.pot
  stakes : r.staked = r.pot
  pot_lt : r.pot < 2 ^ 64
  fees_lt : r.feesCollected < 2 ^ 64

def Phase.waiting (p : Phase) : Prop := p = .lobby ∨ p = .drawing

/-- The phases of a round that drew. -/
def Phase.drew (p : Phase) : Prop := p = .drawing ∨ p = .fight ∨ p = .settled

structure Staged (r : RoundState) : Prop where
  fresh : r.phase.waiting → Prefix.All Fighter.Fresh r.fighters r.fighterCount
  untouched : r.phase.waiting → r.penaltiesCollected = 0 ∧ r.tickCount = 0
  enough : r.phase.drew → 2 ≤ r.fighterCount
  refunded : r.phase = .abandoned →
    r.feesCollected = 0 ∧ r.penaltiesCollected = 0 ∧ r.fighterCount < 2
  swept : r.isSwept = true → r.phase.terminal

structure Inv (r : RoundState) : Prop where
  lineup : Lineup r
  balanced : Balanced r
  staged : Staged r

theorem Inv.fightOk {r : RoundState} (h : Inv r) (hf : r.phase = .fight) : FightOk r :=
  ⟨hf, h.staged.enough (Or.inr (Or.inl hf))⟩

/-! ## A new round -/

theorem openedRound_inv (now : ℤ) (roundNo : ℕ) (seedCommit : Bytes32) (lobbySeconds : UInt32) :
    Inv (openedRound now roundNo seedCommit lobbySeconds) where
  lineup := ⟨Nat.zero_le _, fun i _ h => absurd h (Nat.not_lt_zero i),
    fun i _ h => absurd h (Nat.not_lt_zero i), fun i _ _ _ h => absurd h (Nat.not_lt_zero i)⟩
  balanced := ⟨by simp [openedRound, RoundState.held], by simp [openedRound, RoundState.staked],
    by simp [openedRound], by simp [openedRound]⟩
  staged := ⟨fun _ i _ h => absurd h (Nat.not_lt_zero i), fun _ => ⟨rfl, rfl⟩,
    fun h => by simp [openedRound, Phase.drew] at h, fun h => by simp [openedRound] at h,
    fun h => by simp [openedRound, RoundState.isSwept] at h⟩

section
variable {sha256 : List UInt8 → Bytes32} {r r' : RoundState}

/-! ## The lineup -/

theorem Fighter.seat_of_entry {f g : Fighter} (h : f.entry = g.entry) : f.seat = g.seat := by
  simp only [entry, Prod.mk.injEq] at h
  simp only [seat, h]

theorem Fighter.stake_of_entry {f g : Fighter} (h : f.entry = g.entry) : f.stake = g.stake := by
  simp only [entry, Prod.mk.injEq] at h
  exact h.2.2

/-- Rewriting slots keeps a lineup where no seat moves and every flag stays right. -/
theorem Lineup.of_seats (h : Lineup r) (hc : r'.fighterCount = r.fighterCount)
    (hseat : ∀ i, (hi : i < maxFighters) → r'.fighters[i].seat = r.fighters[i].seat)
    (hsound : Prefix.All Fighter.Sound r'.fighters r.fighterCount) : Lineup r' where
  count_le := hc ▸ h.count_le
  sound := hc ▸ hsound
  sides := hc ▸ h.sides.congr fun i hi _ hs => by
    have he : r'.fighters[i].side = r.fighters[i].side := congrArg Prod.snd (hseat i hi)
    simpa only [Fighter.OnASide, he] using hs
  distinct := hc ▸ h.distinct.congr fun i hi _ => hseat i hi

theorem Lineup.advanced (h : Lineup r) (hn : 2 ≤ r.fighterCount) (k : ℕ) :
    Lineup (r.advanced sha256 k) :=
  h.of_seats rfl (fun i hi => Fighter.seat_of_entry (iterFrom_entry hn _ _ _ i hi))
    (iterFrom_sound hn _ _ h.sound)

theorem Lineup.set (h : Lineup r) {i : ℕ} (hi : i < maxFighters) {f : Fighter}
    (hseat : f.seat = r.fighters[i].seat) (hf : f.Sound)
    (he : r'.fighters = r.fighters.set i f) (hc : r'.fighterCount = r.fighterCount) : Lineup r' :=
  h.of_seats hc (fun j hj => by rw [he]; exact Prefix.key_set hi hj hseat)
    (he ▸ h.sound.set hi hf)

theorem Fighter.Fresh.toppedUp {f : Fighter} (h : f.Fresh) (x : ℕ) : (f.toppedUp x).Fresh :=
  ⟨by simp only [Fighter.toppedUp, h.whole], h.unbanked, h.standing,
    Nat.lt_of_lt_of_le h.pos (Nat.le_add_right _ _)⟩

theorem Fighter.entrant_fresh {who side} {net : ℕ} (h : 0 < net) : (entrant who side net).Fresh :=
  ⟨rfl, rfl, rfl, h⟩

theorem lineup_step {c : RoundCall} {e} (hi : Inv r) (h : Effect sha256 r c r' e) : Lineup r' := by
  have hl := hi.lineup
  cases h with
  | @topUp now arena who side stake net fee i ok split live seat pot fees =>
      have hf := hi.staged.fresh (Or.inl ok.lobby) i i.isLt live
      exact hl.set i.isLt (f := r.fighters[i].toppedUp net) rfl (hf.toppedUp net).sound rfl rfl
  | @join now arena who side stake net fee ok split fresh pot fees =>
      have hnet : 0 < net := by
        have hs := splitEntry_pos (UInt64.lt_iff_toNat_lt.mp ok.stake) arena.feeBps.property
        rwa [split] at hs
      exact ⟨ok.room, hl.sound.push ok.room (Fighter.entrant_fresh hnet).sound,
        hl.sides.push ok.room ok.side, hl.distinct.push ok.room fresh⟩
  | draw lobby permitted enough => exact ⟨hl.count_le, hl.sound, hl.sides, hl.distinct⟩
  | seed drawing => exact ⟨hl.count_le, hl.sound, hl.sides, hl.distinct⟩
  | tick ok ran => exact hl.advanced ok.enough _
  | grind ok ran standing behind => exact hl.advanced ok.enough _
  | @settle now arena k ok ran ended =>
      have ha : Lineup (r.advanced sha256 k) := hl.advanced ok.enough k
      exact ⟨ha.count_le, ha.sound, ha.sides, ha.distinct⟩
  | @extract now arena who k kept penalty i phase ran upToDate found split banked penalties =>
      have ha : Lineup (r.advanced sha256 k) := hl.advanced (hi.fightOk phase).enough k
      exact ha.set i.isLt (f := (r.advanced sha256 k).fighters[i].extracted kept) rfl rfl rfl rfl
  | abandon lobby late few free => exact ⟨hl.count_le, hl.sound, hl.sides, hl.distinct⟩
  | refund lobby late one pot =>
      have hf := hi.staged.fresh (Or.inl lobby) 0 (by decide) (by omega)
      exact hl.set (i := 0) (f := r.fighters[0].toppedUp r.feesCollected) (by decide) rfl
        (hf.toppedUp _).sound rfl rfl
  | close settled => exact hl
  | sweep terminal unswept conserves fees penalties rounds =>
      exact ⟨hl.count_le, hl.sound, hl.sides, hl.distinct⟩

/-! ## The money totals -/

theorem advanced_held (hn : 2 ≤ r.fighterCount) (hk : r.fighterCount ≤ maxFighters)
    (hfit : r.held < 2 ^ 64) (k : ℕ) : (r.advanced sha256 k).held = r.held :=
  iterFrom_held hn hk _ _ hfit

theorem advanced_staked (hn : 2 ≤ r.fighterCount) (hk : r.fighterCount ≤ maxFighters) (k : ℕ) :
    (r.advanced sha256 k).staked = r.staked :=
  Prefix.sum_congr hk fun i hi _ => Fighter.stake_of_entry (iterFrom_entry hn _ _ _ i hi)

theorem Balanced.held_lt (h : Balanced r) : r.held < 2 ^ 64 := by
  have := h.ring; have := h.pot_lt; omega

theorem Balanced.advanced (h : Balanced r) (hn : 2 ≤ r.fighterCount)
    (hk : r.fighterCount ≤ maxFighters) (k : ℕ) : Balanced (r.advanced sha256 k) where
  ring := by rw [advanced_held hn hk h.held_lt]; exact h.ring
  stakes := by rw [advanced_staked hn hk]; exact h.stakes
  pot_lt := h.pot_lt
  fees_lt := h.fees_lt

/-- Value that enters goes to the ring, to a stake and to the pot alike. -/
theorem Balanced.grow (h : Balanced r) {x : ℕ} (hheld : r'.held = r.held + x)
    (hstaked : r'.staked = r.staked + x) (hpot : r'.pot = r.pot + x)
    (hpen : r'.penaltiesCollected = r.penaltiesCollected) (hlt : r'.pot < 2 ^ 64)
    (hfees : r'.feesCollected < 2 ^ 64) : Balanced r' := by
  have hr := h.ring
  have hs := h.stakes
  exact ⟨by omega, by omega, hlt, hfees⟩

/-- Value that leaves the ring for the house. -/
theorem Balanced.leak (h : Balanced r) {x : ℕ} (hheld : r'.held + x = r.held)
    (hstaked : r'.staked = r.staked) (hpot : r'.pot = r.pot)
    (hpen : r'.penaltiesCollected = r.penaltiesCollected + x)
    (hfees : r'.feesCollected = r.feesCollected) : Balanced r' := by
  have hr := h.ring
  exact ⟨by omega, by rw [hstaked, hpot, h.stakes], hpot ▸ h.pot_lt, hfees ▸ h.fees_lt⟩

theorem Fighter.toppedUp_holds (f : Fighter) (x : ℕ) : (f.toppedUp x).holds = f.holds + x := by
  simp only [toppedUp, holds]; omega

theorem toppedUp_sums (hk : r.fighterCount ≤ maxFighters) {i : ℕ} (hi : i < r.fighterCount) (x : ℕ) :
    Prefix.sum Fighter.holds (r.fighters.set i (r.fighters[i].toppedUp x)) r.fighterCount =
        r.held + x ∧
      Prefix.sum Fighter.stake (r.fighters.set i (r.fighters[i].toppedUp x)) r.fighterCount =
        r.staked + x := by
  have h₁ := Prefix.sum_set (f := Fighter.holds) (v := r.fighters) hk hi (r.fighters[i].toppedUp x)
  have h₂ := Prefix.sum_set (f := Fighter.stake) (v := r.fighters) hk hi (r.fighters[i].toppedUp x)
  rw [Fighter.toppedUp_holds] at h₁
  simp only [Fighter.toppedUp, RoundState.held, RoundState.staked] at *
  omega

theorem extracted_sums (hk : r.fighterCount ≤ maxFighters) {i : ℕ} (hi : i < r.fighterCount)
    {kept penalty : ℕ} (hadd : kept + penalty = r.fighters[i].hp) :
    Prefix.sum Fighter.holds (r.fighters.set i (r.fighters[i].extracted kept)) r.fighterCount + penalty =
        r.held ∧
      Prefix.sum Fighter.stake (r.fighters.set i (r.fighters[i].extracted kept)) r.fighterCount =
        r.staked := by
  have h₁ := Prefix.sum_set (f := Fighter.holds) (v := r.fighters) hk hi (r.fighters[i].extracted kept)
  have h₂ := Prefix.sum_set (f := Fighter.stake) (v := r.fighters) hk hi (r.fighters[i].extracted kept)
  simp only [Fighter.extracted, Fighter.holds, RoundState.held, RoundState.staked] at *
  omega

theorem balanced_step {c : RoundCall} {e} (hi : Inv r) (h : Effect sha256 r c r' e) : Balanced r' := by
  have hk := hi.lineup.count_le
  have hb := hi.balanced
  cases h with
  | @topUp now arena who side stake net fee i ok split live seat pot fees =>
      obtain ⟨h₁, h₂⟩ := toppedUp_sums hk live net
      exact hb.grow h₁ h₂ rfl rfl pot fees
  | @join now arena who side stake net fee ok split fresh pot fees =>
      have h₁ : Prefix.sum Fighter.holds (r.fighters.set r.fighterCount (.entrant who side net) ok.room)
          (r.fighterCount + 1) = r.held + net := by
        rw [Prefix.sum_succ ok.room, Prefix.sum_set_of_le _ (Nat.le_refl _), Vector.getElem_set_self]
        rfl
      have h₂ : Prefix.sum Fighter.stake (r.fighters.set r.fighterCount (.entrant who side net) ok.room)
          (r.fighterCount + 1) = r.staked + net := by
        rw [Prefix.sum_succ ok.room, Prefix.sum_set_of_le _ (Nat.le_refl _), Vector.getElem_set_self]
        rfl
      exact hb.grow h₁ h₂ rfl rfl pot fees
  | draw lobby permitted enough => exact ⟨hb.ring, hb.stakes, hb.pot_lt, hb.fees_lt⟩
  | seed drawing => exact ⟨hb.ring, hb.stakes, hb.pot_lt, hb.fees_lt⟩
  | tick ok ran => exact hb.advanced ok.enough hk _
  | grind ok ran standing behind => exact hb.advanced ok.enough hk _
  | @settle now arena k ok ran ended =>
      have ha : Balanced (r.advanced sha256 k) := hb.advanced ok.enough hk k
      exact ⟨ha.ring, ha.stakes, ha.pot_lt, ha.fees_lt⟩
  | @extract now arena who k kept penalty i phase ran upToDate found split banked penalties =>
      have ha : Balanced (r.advanced sha256 k) := hb.advanced (hi.fightOk phase).enough hk k
      have hlive := (Prefix.find_eq_some found).1
      have hadd := splitExtraction_add (r.advanced sha256 k).fighters[i].hp r.fighterCount
        (r.tickCount + k)
      rw [split] at hadd
      obtain ⟨h₁, h₂⟩ := extracted_sums (r := r.advanced sha256 k) hk hlive hadd
      exact ha.leak h₁ h₂ rfl rfl rfl
  | abandon lobby late few free => exact ⟨hb.ring, hb.stakes, hb.pot_lt, hb.fees_lt⟩
  | refund lobby late one pot =>
      obtain ⟨h₁, h₂⟩ := toppedUp_sums hk (i := 0) (by omega) r.feesCollected
      exact hb.grow h₁ h₂ rfl rfl pot (by norm_num)
  | close settled => exact hb
  | sweep terminal unswept conserves fees penalties rounds =>
      exact ⟨hb.ring, hb.stakes, hb.pot_lt, hb.fees_lt⟩

/-! ## The phases -/

theorem Phase.fight_facts {p : Phase} (h : p = .fight) : ¬ p.waiting ∧ p.drew ∧ p ≠ .abandoned := by
  subst h
  simp [waiting, drew]

theorem staged_step {c : RoundCall} {e} (hi : Inv r) (h : Effect sha256 r c r' e) : Staged r' := by
  have hs := hi.staged
  cases h with
  | @topUp now arena who side stake net fee i ok split live seat pot fees =>
      have hf := hs.fresh (Or.inl ok.lobby)
      exact ⟨fun _ => hf.set i.isLt ((hf i i.isLt live).toppedUp net),
        hs.untouched, hs.enough, fun ha => by simp [ok.lobby] at ha, hs.swept⟩
  | @join now arena who side stake net fee ok split fresh pot fees =>
      have hnet : 0 < net := by
        have hp := splitEntry_pos (UInt64.lt_iff_toNat_lt.mp ok.stake) arena.feeBps.property
        rwa [split] at hp
      exact ⟨fun _ => (hs.fresh (Or.inl ok.lobby)).push ok.room (Fighter.entrant_fresh hnet),
        hs.untouched, fun hd => by simp [ok.lobby, Phase.drew] at hd,
        fun ha => by simp [ok.lobby] at ha, hs.swept⟩
  | draw lobby permitted enough =>
      exact ⟨fun _ => hs.fresh (Or.inl lobby), fun _ => hs.untouched (Or.inl lobby),
        fun _ => enough, fun ha => by simp at ha,
        fun hw => by have := hs.swept hw; simp [lobby, Phase.terminal] at this⟩
  | seed drawing =>
      exact ⟨fun hw => by simp [Phase.waiting] at hw, fun hw => by simp [Phase.waiting] at hw,
        fun _ => hs.enough (Or.inl drawing), fun ha => by simp at ha,
        fun hw => by have := hs.swept hw; simp [drawing, Phase.terminal] at this⟩
  | tick ok ran =>
      obtain ⟨h₁, -, h₃⟩ := Phase.fight_facts ok.fight
      exact ⟨fun hw => absurd hw h₁, fun hw => absurd hw h₁, fun _ => ok.enough,
        fun ha => absurd ha h₃, hs.swept⟩
  | grind ok ran standing behind =>
      obtain ⟨h₁, -, h₃⟩ := Phase.fight_facts ok.fight
      exact ⟨fun hw => absurd hw h₁, fun hw => absurd hw h₁, fun _ => ok.enough,
        fun ha => absurd ha h₃, hs.swept⟩
  | settle ok ran ended =>
      exact ⟨fun hw => by simp [Phase.waiting] at hw, fun hw => by simp [Phase.waiting] at hw,
        fun _ => ok.enough, fun ha => by simp at ha, fun _ => Or.inl rfl⟩
  | extract phase ran upToDate found split banked penalties =>
      obtain ⟨h₁, h₂, h₃⟩ := Phase.fight_facts phase
      exact ⟨fun hw => absurd hw h₁, fun hw => absurd hw h₁, fun _ => hs.enough h₂,
        fun ha => absurd ha h₃, hs.swept⟩
  | abandon lobby late few free =>
      exact ⟨fun hw => by simp [Phase.waiting] at hw, fun hw => by simp [Phase.waiting] at hw,
        fun hd => by simp [Phase.drew] at hd,
        fun _ => ⟨free, (hs.untouched (Or.inl lobby)).1, few⟩, fun _ => Or.inr rfl⟩
  | refund lobby late one pot =>
      exact ⟨fun hw => by simp [Phase.waiting] at hw, fun hw => by simp [Phase.waiting] at hw,
        fun hd => by simp [Phase.drew] at hd,
        fun _ => ⟨rfl, (hs.untouched (Or.inl lobby)).1, by simp [one]⟩, fun _ => Or.inr rfl⟩
  | close settled => exact hs
  | sweep terminal unswept conserves fees penalties rounds =>
      exact ⟨hs.fresh, hs.untouched, hs.enough, hs.refunded, fun _ => terminal⟩

/-! ## Together -/

theorem inv_step {c : RoundCall} {e} (hi : Inv r) (h : Effect sha256 r c r' e) : Inv r' :=
  ⟨lineup_step hi h, balanced_step hi h, staged_step hi h⟩

/-- What every effect keeps of a round with the invariants, every run keeps. -/
theorem effect_run {P : RoundState → Prop}
    (hstep : ∀ r c r' e, Inv r → P r → Effect sha256 r c r' e → P r') (hi : Inv r) (h : P r)
    (calls : List RoundCall) : P ((roundMachine sha256).run r calls) :=
  (Machine.run_invariant (m := roundMachine sha256) (I := fun s => Inv s ∧ P s)
    (fun s c s' e hs h => ⟨inv_step hs.1 (step_effect h), hstep s c s' e hs.1 hs.2 (step_effect h)⟩)
    ⟨hi, h⟩ calls).2

theorem inv_run (hi : Inv r) (calls : List RoundCall) : Inv ((roundMachine sha256).run r calls) :=
  Machine.run_invariant (fun _ _ _ _ hs h => inv_step hs (step_effect h)) hi calls

/-- A round the program can produce. -/
theorem inv_reachable (now : ℤ) (roundNo : ℕ) (seedCommit : Bytes32) (lobbySeconds : UInt32)
    (calls : List RoundCall) :
    Inv ((roundMachine sha256).run (openedRound now roundNo seedCommit lobbySeconds) calls) :=
  inv_run (openedRound_inv now roundNo seedCommit lobbySeconds) calls

end

end BullsUnicorns.Chain

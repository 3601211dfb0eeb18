import BullsUnicorns.Chain.Rules

/-!
# What the fight can do

One exchange changes nothing, or strikes one live fighter and pays another. Everything else about a run
of the fight is an induction over that.
-/

namespace BullsUnicorns.Chain

open Word Replay

/-! ## The draw and the die -/

theorem drawPair_lt (h : Bytes32) {n : ℕ} (hn : 2 ≤ n) :
    (drawPair h n).1 < n ∧ (drawPair h n).2 < n ∧ (drawPair h n).1 ≠ (drawPair h n).2 := by
  have ha : u32FromLeBytes h[0] h[1] h[2] h[3] % n < n := Nat.mod_lt _ (by omega)
  have hd : u32FromLeBytes h[4] h[5] h[6] h[7] % (n - 1) < n - 1 := Nat.mod_lt _ (by omega)
  simp only [drawPair]
  split <;> omega

theorem rollOf_bounds (h : Bytes32) : 1 ≤ rollOf h ∧ rollOf h ≤ 90 := by
  have hb : u32FromLeBytes h[20] h[21] h[22] h[23] % rollBodySpan < rollBodySpan :=
    Nat.mod_lt _ (by decide)
  simp only [rollOf, critRoll, rollBodyLo, rollBodySpan] at *
  split <;> omega

theorem blow_le {att dfd : Fighter} {roll : ℕ} (hr : roll ≤ 100) : blow att dfd roll ≤ dfd.hp := by
  have hm := satMul_le 64 (min att.hp dfd.hp) roll
  have hb : min att.hp dfd.hp * roll ≤ dfd.hp * 100 := Nat.mul_le_mul (Nat.min_le_right _ _) hr
  simp only [blow]
  split
  · exact Nat.le_refl _
  · omega

theorem blow_rollOf_le (att dfd : Fighter) (h : Bytes32) : blow att dfd (rollOf h) ≤ dfd.hp :=
  blow_le ((rollOf_bounds h).2.trans (by norm_num))

theorem mayStrike_iff {att dfd : Fighter} :
    mayStrike att dfd = true ↔
      att.side ≠ dfd.side ∧ att.wallet ≠ dfd.wallet ∧ att.dead ≠ 1 ∧ dfd.dead ≠ 1 := by
  simp [mayStrike, and_assoc]

/-! ## One exchange -/

section
variable {sha256 : List UInt8 → Bytes32} {seed : Bytes32} {n : ℕ}

/-- Every exchange is idle or one blow between two of the live slots. -/
theorem trade_cases (h : Bytes32) (hn : 2 ≤ n) (fs : Vector Fighter maxFighters) :
    trade h n fs = fs ∨
      ∃ a d : Fin maxFighters, ∃ dmg, a < n ∧ d < n ∧ a ≠ d ∧ mayStrike fs[a] fs[d] = true ∧
        0 < dmg ∧ dmg ≤ fs[d].hp ∧
        trade h n fs = (fs.set d (fs[d].struck dmg)).set a (fs[a].raids dmg) := by
  simp only [trade]
  obtain ⟨hla, hld, hne⟩ := drawPair_lt h hn
  split
  · rename_i hk
    split
    · rename_i hm
      split
      · exact Or.inl rfl
      · rename_i hdmg
        right
        refine ⟨⟨_, hk.1⟩, ⟨_, hk.2⟩, _, hla, hld, ?_, hm, Nat.pos_of_ne_zero hdmg, ?_, rfl⟩
        · intro he; exact hne (congrArg Fin.val he)
        · exact blow_rollOf_le _ _ h
    · exact Or.inl rfl
  · exact Or.inl rfl

variable (sha256 seed) in
theorem exchange_cases (hn : 2 ≤ n) (step : ℕ) (fs : Vector Fighter maxFighters) :
    exchange sha256 seed n step fs = fs ∨
      ∃ a d : Fin maxFighters, ∃ dmg, a < n ∧ d < n ∧ a ≠ d ∧ mayStrike fs[a] fs[d] = true ∧
        0 < dmg ∧ dmg ≤ fs[d].hp ∧
        exchange sha256 seed n step fs = (fs.set d (fs[d].struck dmg)).set a (fs[a].raids dmg) :=
  trade_cases _ hn fs

/-- A fighter after one exchange: as it was, struck, or paid; only a standing one is touched. -/
inductive Fighter.Traded : Fighter → Fighter → Prop
  | same (f : Fighter) : Traded f f
  | struck (f : Fighter) {dmg : ℕ} (standing : f.dead ≠ 1) (pos : 0 < dmg) (le : dmg ≤ f.hp) :
      Traded f (f.struck dmg)
  | raids (f : Fighter) (dmg : ℕ) (standing : f.dead ≠ 1) : Traded f (f.raids dmg)

theorem exchange_traded (hn : 2 ≤ n) (step : ℕ) (fs : Vector Fighter maxFighters) (i : ℕ)
    (hi : i < maxFighters) : Fighter.Traded fs[i] (exchange sha256 seed n step fs)[i] := by
  rcases exchange_cases sha256 seed hn step fs with
    he | ⟨a, d, dmg, _, _, hne, hm, hpos, hle, he⟩
  · rw [he]; exact .same _
  · obtain ⟨_, _, hda, hdd⟩ := mayStrike_iff.mp hm
    rw [he]
    by_cases hia : i = a
    · subst hia
      simp only [Vector.getElem_set_self]
      exact .raids _ _ hda
    · rw [Vector.getElem_set_ne _ _ (Ne.symm hia)]
      by_cases hid : i = d
      · subst hid
        simp only [Vector.getElem_set_self]
        exact .struck _ hdd hpos hle
      · rw [Vector.getElem_set_ne _ _ (Ne.symm hid)]
        exact .same _

end

/-! ## Facts about a fighter that a trade keeps -/

/-- The dead flag says whether the ring is empty. -/
def Fighter.Sound (f : Fighter) : Prop := f.dead = if f.hp = 0 then 1 else 0

theorem Fighter.Sound.dead_iff {f : Fighter} (h : f.Sound) : f.dead = 1 ↔ f.hp = 0 := by
  unfold Sound at h
  split at h <;> simp_all

theorem Fighter.Sound.standing_iff {f : Fighter} (h : f.Sound) : f.dead = 0 ↔ f.dead ≠ 1 := by
  unfold Sound at h
  split at h <;> simp_all

/-- What never changes about a fighter once the lobby is left: who, which side, and the stake. -/
def Fighter.entry (f : Fighter) : Pubkey × UInt8 × ℕ := (f.wallet, f.side, f.stake)

def Fighter.seat (f : Fighter) : Pubkey × UInt8 := (f.wallet, f.side)

namespace Fighter.Traded

variable {f g : Fighter}

theorem entry_eq (h : Traded f g) : g.entry = f.entry := by
  cases h <;> rfl

theorem hp_le (h : Traded f g) : g.hp ≤ f.hp := by
  cases h with
  | same => exact Nat.le_refl _
  | struck hs hpos hd => exact Nat.sub_le _ _
  | raids dmg hs => exact Nat.le_refl _

theorem sound (h : Traded f g) (hf : f.Sound) : g.Sound := by
  cases h with
  | same => exact hf
  | struck hs _ _ =>
      simp only [Fighter.Sound, Fighter.struck]
      rw [hf.standing_iff.mpr hs]
      rfl
  | raids _ _ => exact hf

end Fighter.Traded

/-! ## A run of the fight -/

section
variable {sha256 : List UInt8 → Bytes32} {seed : Bytes32} {n : ℕ}

theorem advanceFight_eq_iterFrom (hn : 2 ≤ n) {cursor steps : ℕ} (h : cursor + steps < 2 ^ 64)
    (fs : Vector Fighter maxFighters) :
    advanceFight sha256 fs n seed cursor steps = iterFrom (exchange sha256 seed n) cursor steps fs := by
  rw [advanceFight, if_neg (by omega), satAdd_of_lt h, Nat.add_sub_cancel_left]

/-- A relation that every trade keeps relates each slot before a run to the slot after it. -/
theorem iterFrom_slot (hn : 2 ≤ n) {R : Fighter → Fighter → Prop} (refl : ∀ f, R f f)
    (trade : ∀ f g h, R f g → Fighter.Traded g h → R f h) (cursor steps : ℕ)
    (fs : Vector Fighter maxFighters) (i : ℕ) (hi : i < maxFighters) :
    R fs[i] (iterFrom (exchange sha256 seed n) cursor steps fs)[i] :=
  iterFrom_invariant (P := fun gs : Vector Fighter maxFighters => R fs[i] gs[i])
    (fun j gs h => trade _ gs[i] (exchange sha256 seed n j gs)[i] h (exchange_traded hn j gs i hi))
    cursor steps (refl _)

theorem iterFrom_entry (hn : 2 ≤ n) (cursor steps : ℕ) (fs : Vector Fighter maxFighters) (i : ℕ)
    (hi : i < maxFighters) :
    (iterFrom (exchange sha256 seed n) cursor steps fs)[i].entry = fs[i].entry :=
  iterFrom_slot hn (R := fun f g => g.entry = f.entry) (fun _ => rfl)
    (fun _ _ _ h t => t.entry_eq.trans h) cursor steps fs i hi

theorem iterFrom_sound (hn : 2 ≤ n) (cursor steps : ℕ) {fs : Vector Fighter maxFighters} {k : ℕ}
    (h : Prefix.All Fighter.Sound fs k) :
    Prefix.All Fighter.Sound (iterFrom (exchange sha256 seed n) cursor steps fs) k :=
  h.congr fun i hi _ hs =>
    iterFrom_slot hn (R := fun f g => f.Sound → g.Sound) (fun _ => id)
      (fun _ _ _ hr t hf => t.sound (hr hf)) cursor steps fs i hi hs

/-! ## The total is kept -/

theorem Fighter.holds_struck {f : Fighter} {dmg : ℕ} (h : dmg ≤ f.hp) :
    (f.struck dmg).holds + dmg = f.holds := by
  simp only [holds, struck, satSub]; omega

theorem Fighter.holds_raids {f : Fighter} {dmg : ℕ} (h : f.banked + dmg < 2 ^ 64) :
    (f.raids dmg).holds = f.holds + dmg := by
  simp only [holds, raids, satAdd_of_lt h]; omega

/-- Where the live fighters' total fits a word, the attacker's bank has room for the defender's ring. -/
theorem raid_fits {fs : Vector Fighter maxFighters} (hk : n ≤ maxFighters) {a d : ℕ} (ha : a < n)
    (hd : d < n) (hne : a ≠ d) (hfit : Prefix.sum Fighter.holds fs n < 2 ^ 64) {dmg : ℕ}
    (hle : dmg ≤ fs[d].hp) : fs[a].banked + dmg < 2 ^ 64 := by
  have hpair := Prefix.add_le_sum (f := Fighter.holds) (v := fs) hk ha hd hne
  simp only [Fighter.holds] at hpair
  omega

/-- There an exchange moves value and makes none. -/
theorem exchange_held (hn : 2 ≤ n) (hk : n ≤ maxFighters) (step : ℕ)
    {fs : Vector Fighter maxFighters} (hfit : Prefix.sum Fighter.holds fs n < 2 ^ 64) :
    Prefix.sum Fighter.holds (exchange sha256 seed n step fs) n = Prefix.sum Fighter.holds fs n := by
  rcases exchange_cases sha256 seed hn step fs with
    he | ⟨a, d, dmg, ha, hd, hne, _, _, hle, he⟩
  · rw [he]
  · have hne' : (a : ℕ) ≠ d := fun h => hne (Fin.ext h)
    have hstruck := Fighter.holds_struck hle
    have hraids : (fs[a].raids dmg).holds = fs[a].holds + dmg :=
      Fighter.holds_raids (raid_fits hk ha hd hne' hfit hle)
    have h₁ := Prefix.sum_set (f := Fighter.holds) (v := fs) hk hd (fs[d].struck dmg)
    have h₂ := Prefix.sum_set (f := Fighter.holds) (v := fs.set d (fs[d].struck dmg)) hk ha
      (fs[a].raids dmg)
    have hget : (fs.set d (fs[d].struck dmg))[(a : ℕ)] = fs[a] := by
      rw [Vector.getElem_set_ne _ _ hne'.symm]; rfl
    rw [hget] at h₂
    rw [he]
    simp only [Fin.getElem_fin] at *
    omega

theorem iterFrom_held (hn : 2 ≤ n) (hk : n ≤ maxFighters) (cursor steps : ℕ)
    {fs : Vector Fighter maxFighters} (hfit : Prefix.sum Fighter.holds fs n < 2 ^ 64) :
    Prefix.sum Fighter.holds (iterFrom (exchange sha256 seed n) cursor steps fs) n =
      Prefix.sum Fighter.holds fs n :=
  iterFrom_invariant (P := fun gs => Prefix.sum Fighter.holds gs n = Prefix.sum Fighter.holds fs n)
    (fun j _ h => (exchange_held hn hk j (h ▸ hfit)).trans h) cursor steps rfl

/-! ## A fight that is over stays as it is -/

theorem countP_take_eq_zero {p : Fighter → Bool} {fs : Vector Fighter maxFighters}
    (hk : n ≤ maxFighters) :
    (((fs.toList.take n).filter fun f => f.dead == 0).countP p == 0) = true ↔
      Prefix.All (fun f => f.dead = 0 → p f = false) fs n := by
  simp only [beq_iff_eq, List.countP_eq_zero, List.mem_filter, List.mem_take_iff_getElem,
    Vector.getElem_toList, Vector.length_toList]
  constructor
  · intro h i hi hin hd
    simpa using h fs[i] ⟨⟨i, by omega, rfl⟩, by simp [hd]⟩
  · rintro h f ⟨⟨i, hi, rfl⟩, hd⟩
    simp [h i (by omega) (by omega) (by simpa using hd)]

theorem fightIsOver_iff {fs : Vector Fighter maxFighters} (hk : n ≤ maxFighters) :
    fightIsOver fs n = true ↔
      Prefix.All (fun f => f.dead = 0 → f.side ≠ 0) fs n ∨
        Prefix.All (fun f => f.dead = 0 → f.side = 0) fs n := by
  unfold fightIsOver
  rw [Bool.or_eq_true, countP_take_eq_zero hk, countP_take_eq_zero hk]
  simp [Prefix.All]

def Fighter.OnASide (f : Fighter) : Prop := f.side = 0 ∨ f.side = 1

variable (sha256 seed) in
theorem exchange_over (hn : 2 ≤ n) (hk : n ≤ maxFighters) {fs : Vector Fighter maxFighters}
    (hs : Prefix.All Fighter.Sound fs n) (ho : Prefix.All Fighter.OnASide fs n)
    (hover : fightIsOver fs n = true) (step : ℕ) : exchange sha256 seed n step fs = fs := by
  rcases exchange_cases sha256 seed hn step fs with
    he | ⟨a, d, dmg, ha, hd, _, hm, _⟩
  · exact he
  · exfalso
    obtain ⟨hside, _, hda, hdd⟩ := mayStrike_iff.mp hm
    have hsa := (hs a a.isLt ha).standing_iff.mpr hda
    have hsd := (hs d d.isLt hd).standing_iff.mpr hdd
    -- both stand, so on whichever side is empty neither of them is
    rcases (fightIsOver_iff hk).mp hover with h | h
    · have h₁ := (ho a a.isLt ha).resolve_left (h a a.isLt ha hsa)
      have h₂ := (ho d d.isLt hd).resolve_left (h d d.isLt hd hsd)
      exact hside (h₁.trans h₂.symm)
    · exact hside ((h a a.isLt ha hsa).trans (h d d.isLt hd hsd).symm)

theorem iterFrom_over (hn : 2 ≤ n) (hk : n ≤ maxFighters) {fs : Vector Fighter maxFighters}
    (hs : Prefix.All Fighter.Sound fs n) (ho : Prefix.All Fighter.OnASide fs n)
    (hover : fightIsOver fs n = true) (cursor steps : ℕ) :
    iterFrom (exchange sha256 seed n) cursor steps fs = fs :=
  iterFrom_fixed (exchange_over sha256 seed hn hk hs ho hover) cursor steps

end

end BullsUnicorns.Chain

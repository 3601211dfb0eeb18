import BullsUnicorns.Keeper.Lemmas.House

/-!
# The shortfall and what it leaves

The floor and the two ceilings, against entries placed by the larger deficit first.
-/

namespace BullsUnicorns.Keeper

variable {cfg : HouseConfig} {seats target : ℤ} {split split' : FighterSplit} {emptyRoom : EmptyRoomPolicy}
  {wallets wallets' k0 k1 k0' k1' : ℕ}

/-- The side of a room, real and house. -/
def FighterSplit.occupied0 (split : FighterSplit) : ℕ := split.real.side0 + split.house.side0
def FighterSplit.occupied1 (split : FighterSplit) : ℕ := split.real.side1 + split.house.side1

/-- How many the distribution the policy wants puts onto each side. -/
def wanted0 (target : ℤ) (split : FighterSplit) : ℕ := (allocateHouseSides target split.real).count .side0
def wanted1 (target : ℤ) (split : FighterSplit) : ℕ := (allocateHouseSides target split.real).count .side1

structure Wanted (target : ℤ) (split : FighterSplit) (w0 w1 : ℕ) : Prop where
  total : w0 + w1 = target.toNat
  even1 : 0 < w1 → split.real.side1 + w1 ≤ split.real.side0 + w0
  even0 : 0 < w0 → split.real.side0 + w0 ≤ split.real.side1 + w1 + 1

theorem wanted_counts (target : ℤ) (split : FighterSplit) :
    Wanted target split (wanted0 target split) (wanted1 target split) := by
  obtain ⟨htotal, heven1, heven0⟩ := allocateFrom_counts target.toNat split.real
  exact ⟨htotal, heven1, heven0⟩

/-- The floor and the two ceilings, without what the shortfall is made of. -/
structure Bounded (count grow ceiling cover free : ℤ) : Prop where
  le_free : count ≤ free
  le_floor : count ≤ ceiling ∧ count ≤ grow ∨ count ≤ cover
  full : count = free ∨ count = ceiling ∧ ceiling ≤ grow ∧ cover ≤ count ∨
    count = grow ∧ grow ≤ ceiling ∧ cover ≤ count ∨ count = cover ∧ min grow ceiling ≤ cover

section
variable {count grow ceiling cover free : ℤ}

theorem Bounded.whole (h : Bounded count grow ceiling cover free) (hceiling : grow ≤ ceiling)
    (hfree : grow ≤ free) (hcover : cover ≤ grow) : count = grow := by
  obtain ⟨hle, hfloor, hfull⟩ := h
  omega

theorem Bounded.covers (h : Bounded count grow ceiling 1 free) (hfree : 0 < free) : 1 ≤ count := by
  obtain ⟨-, -, hfull⟩ := h
  omega

end

section
variable {need0 need1 : ℤ} {left : ℕ}

/-- With seats and wallets enough, nothing is left to ask for. -/
theorem Placed.whole (h : Placed need0 need1 left wallets k0 k1) (hleft : max 0 need0 + max 0 need1 ≤ left)
    (hwallets : max 0 need0 + max 0 need1 ≤ wallets) : k0 = max 0 need0 ∧ k1 = max 0 need1 := by
  obtain ⟨hall, h0, h1, -, -⟩ := h
  omega

/-- The larger deficit gets the first entry. -/
theorem Placed.first0 (h : Placed need0 need1 left wallets k0 k1) (hleft : 0 < left) (hwallets : 0 < wallets)
    (hneed : 0 < need0) (hlarger : need1 ≤ need0) : 0 < k0 := by
  obtain ⟨hall, -, -, -, hlast1⟩ := h
  omega

theorem Placed.first1 (h : Placed need0 need1 left wallets k0 k1) (hleft : 0 < left) (hwallets : 0 < wallets)
    (hneed : 0 < need1) (hlarger : need0 < need1) : 0 < k1 := by
  obtain ⟨hall, -, -, hlast0, -⟩ := h
  omega

end

theorem bounded_min {count grow ceiling cover free : ℤ}
    (h : count = min (max (min grow ceiling) cover) free) : Bounded count grow ceiling cover free :=
  ⟨by omega, by omega, by omega⟩

/-- Whether anything covers an empty side, and what each side is then asked for. -/
inductive Asked (target : ℤ) (split : FighterSplit) (emptyRoom : EmptyRoomPolicy) (w0 w1 : ℕ) :
    ℤ → ℤ → ℤ → ℤ → Prop where
  | idle (room : roomMustBeFightable split emptyRoom = false) :
      Asked target split emptyRoom w0 w1 (target - split.houseCount) 0
        (w0 - split.house.side0) (w1 - split.house.side1)
  | covered (room : roomMustBeFightable split emptyRoom = true) (occ0 : 0 < split.occupied0)
      (occ1 : 0 < split.occupied1) :
      Asked target split emptyRoom w0 w1 (max 0 ((w0 : ℤ) - split.house.side0) + max 0 ((w1 : ℤ) - split.house.side1))
        0 (w0 - split.house.side0) (w1 - split.house.side1)
  | empty0 (room : roomMustBeFightable split emptyRoom = true) (occ0 : split.occupied0 = 0) :
      Asked target split emptyRoom w0 w1 (w0 + max 0 ((w1 : ℤ) - split.house.side1)) 1 (max w0 1)
        (w1 - split.house.side1)
  | empty1 (room : roomMustBeFightable split emptyRoom = true) (occ0 : 0 < split.occupied0)
      (occ1 : split.occupied1 = 0) :
      Asked target split emptyRoom w0 w1 (max 0 ((w0 : ℤ) - split.house.side0) + w1) 1 (w0 - split.house.side0)
        (max w1 1)

/-- A shortfall is a count between its bounds, asked of the two sides. -/
theorem shortfallOf_spec (cfg : HouseConfig) (seats target : ℤ) (split : FighterSplit)
    (emptyRoom : EmptyRoomPolicy) :
    ∃ grow cover,
      Asked target split emptyRoom (wanted0 target split) (wanted1 target split) grow cover
        (shortfallOf cfg seats target split emptyRoom).need0
        (shortfallOf cfg seats target split emptyRoom).need1 ∧
      Bounded (shortfallOf cfg seats target split emptyRoom).count grow
        (max 0 (houseCeiling cfg seats split - split.houseCount)) cover
        (max 0 (seats - split.realCount - split.houseCount)) := by
  have hneed : deficits target split = ((wanted0 target split : ℤ) - split.house.side0,
      (wanted1 target split : ℤ) - split.house.side1) := rfl
  generalize wanted0 target split = w0 at *
  generalize wanted1 target split = w1 at *
  cases hroom : roomMustBeFightable split emptyRoom with
  | false =>
      refine ⟨target - split.houseCount, 0, ?_, ?_⟩
      · simp only [shortfallOf, hneed, hroom, Bool.false_eq_true, if_false, false_and, gt_iff_lt, lt_irrefl]
        exact .idle hroom
      · apply bounded_min
        simp only [shortfallOf, hneed, hroom, Bool.false_eq_true, if_false, false_and]
  | true =>
      rcases Nat.eq_zero_or_pos split.occupied0 with h0 | h0
      · have hzero : split.real.side0 + split.house.side0 = 0 := h0
        have hneed0 : (w0 : ℤ) - split.house.side0 = w0 := by omega
        have hmax0 : max 0 (w0 : ℤ) = w0 := by omega
        rw [hneed0] at hneed
        refine ⟨w0 + max 0 ((w1 : ℤ) - split.house.side1), 1, ?_, ?_⟩
        · simp only [shortfallOf, hneed, hroom, true_and, hzero, true_or, if_true, gt_iff_lt, Int.zero_lt_one]
          exact .empty0 hroom h0
        · apply bounded_min
          simp only [shortfallOf, hneed, hroom, true_and, hzero, true_or, if_true, hmax0]
      · have hpos : (split.real.side0 + split.house.side0 = 0) = False := eq_false h0.ne'
        rcases Nat.eq_zero_or_pos split.occupied1 with h1 | h1
        · have hzero : split.real.side1 + split.house.side1 = 0 := h1
          have hneed1 : (w1 : ℤ) - split.house.side1 = w1 := by omega
          have hmax1 : max 0 (w1 : ℤ) = w1 := by omega
          rw [hneed1] at hneed
          refine ⟨max 0 ((w0 : ℤ) - split.house.side0) + w1, 1, ?_, ?_⟩
          · simp only [shortfallOf, hneed, hroom, true_and, hpos, hzero, or_true, if_true, if_false, gt_iff_lt,
              Int.zero_lt_one]
            exact .empty1 hroom h0 h1
          · apply bounded_min
            simp only [shortfallOf, hneed, hroom, true_and, hzero, or_true, if_true, hmax1]
        · have hpos1 : (split.real.side1 + split.house.side1 = 0) = False := eq_false h1.ne'
          refine ⟨max 0 ((w0 : ℤ) - split.house.side0) + max 0 ((w1 : ℤ) - split.house.side1), 0, ?_, ?_⟩
          · simp only [shortfallOf, hneed, hroom, true_and, hpos, hpos1, or_self, if_false, gt_iff_lt, lt_irrefl]
            exact .covered hroom h0 h1
          · apply bounded_min
            simp only [shortfallOf, hneed, hroom, true_and, hpos, hpos1, or_self, if_true, if_false]

/-- Nothing past the free seats, and past the reserved ones no more than one fighter onto an empty side. -/
theorem shortfallOf_reserves (htarget : target ≤ houseCeiling cfg seats split)
    (hseats : (split.realCount : ℤ) + split.houseCount ≤ seats)
    (h : Placed (shortfallOf cfg seats target split emptyRoom).need0
      (shortfallOf cfg seats target split emptyRoom).need1
      (shortfallOf cfg seats target split emptyRoom).count.toNat wallets k0 k1) :
    (k0 + k1 : ℤ) ≤ seats - split.realCount - split.houseCount ∧
      ((cfg.realSeatsReserved : ℤ) ≤ seats - split.realCount - split.houseCount - k0 - k1 ∨ k0 + k1 = 0 ∨
        k0 = 1 ∧ k1 = 0 ∧ split.occupied0 = 0 ∨ k0 = 0 ∧ k1 = 1 ∧ split.occupied1 = 0) := by
  obtain ⟨grow, cover, hasked, hbound⟩ := shortfallOf_spec cfg seats target split emptyRoom
  obtain ⟨htotal, heven1, heven0⟩ := wanted_counts target split
  generalize wanted0 target split = w0 at *
  generalize wanted1 target split = w1 at *
  generalize shortfallOf cfg seats target split emptyRoom = short at *
  obtain ⟨count, need0, need1⟩ := short
  dsimp only at h hasked hbound
  obtain ⟨hall, hsome0, hsome1, -, -⟩ := h
  obtain ⟨hfree, hfloor, -⟩ := hbound
  have hle : (k0 + k1 : ℤ) ≤ max 0 count := by
    rw [hall]
    omega
  clear hall
  have hreserve : (k0 + k1 : ℤ) ≤ houseCeiling cfg seats split - split.houseCount →
      (cfg.realSeatsReserved : ℤ) ≤ seats - split.realCount - split.houseCount - k0 - k1 ∨ k0 + k1 = 0 := by
    simp only [houseCeiling]
    omega
  refine ⟨by omega, ?_⟩
  rcases hfloor with ⟨hfloor, -⟩ | hcover
  · rcases Nat.eq_zero_or_pos (k0 + k1) with hnone | hsome
    · exact .inr (.inl hnone)
    · rcases hreserve (by omega) with hkept | hnone
      · exact .inl hkept
      · exact .inr (.inl hnone)
  · -- past the reserved seats: either the one fighter is the side's first, or the target had room for it
    clear hfree
    cases hasked with
    | idle room => exact .inr (.inl (by omega))
    | covered room occ0 occ1 => exact .inr (.inl (by omega))
    | empty0 room occ0 =>
        rcases Nat.eq_zero_or_pos k1 with hk1 | hk1
        · rw [hk1] at hle ⊢
          omega
        · have hroom : (k0 + k1 : ℤ) ≤ houseCeiling cfg seats split - split.houseCount := by
            simp only [FighterSplit.occupied0, FighterSplit.houseCount] at *
            omega
          rcases hreserve hroom with hkept | hnone
          · exact .inl hkept
          · exact .inr (.inl hnone)
    | empty1 room occ0 occ1 =>
        rcases Nat.eq_zero_or_pos k0 with hk0 | hk0
        · rw [hk0] at hle ⊢
          omega
        · have hroom : (k0 + k1 : ℤ) ≤ houseCeiling cfg seats split - split.houseCount := by
            simp only [FighterSplit.occupied1, FighterSplit.houseCount] at *
            omega
          rcases hreserve hroom with hkept | hnone
          · exact .inl hkept
          · exact .inr (.inl hnone)

/-- A room that is meant to fight has somebody on either side, once what is planned has landed. -/
theorem shortfallOf_covers (hroom : roomMustBeFightable split emptyRoom = true)
    (htarget : target ≤ houseCeiling cfg seats split)
    (hempty : split.realCount = 0 → split.houseCount = 0 → 2 ≤ target)
    (hbank : cfg.walletCount ≤ wallets + split.houseCount) (hstaffed : target ≤ cfg.walletCount)
    (hwallet : 0 < wallets) (hseat : (split.realCount : ℤ) + split.houseCount < seats)
    (h : Placed (shortfallOf cfg seats target split emptyRoom).need0
      (shortfallOf cfg seats target split emptyRoom).need1
      (shortfallOf cfg seats target split emptyRoom).count.toNat wallets k0 k1) :
    0 < split.occupied0 + k0 ∧ 0 < split.occupied1 + k1 := by
  obtain ⟨grow, cover, hasked, hbound⟩ := shortfallOf_spec cfg seats target split emptyRoom
  obtain ⟨htotal, heven1, heven0⟩ := wanted_counts target split
  generalize wanted0 target split = w0 at *
  generalize wanted1 target split = w1 at *
  generalize shortfallOf cfg seats target split emptyRoom = short at *
  obtain ⟨count, need0, need1⟩ := short
  dsimp only at h hasked hbound
  have hroomy : 0 < houseCeiling cfg seats split → houseCeiling cfg seats split ≤ seats - split.realCount := by
    simp only [houseCeiling]
    omega
  have htwo := cfg.wallets_bounds.1
  have hfree : max 0 (seats - split.realCount - split.houseCount) = seats - split.realCount - split.houseCount := by
    omega
  rw [hfree] at hbound
  generalize houseCeiling cfg seats split = ceiling at *
  cases hasked with
  | idle room => simp [hroom] at room
  | covered room occ0 occ1 => omega
  | empty0 room occ0 =>
      have hcount := hbound.covers (by omega)
      have hfirst : 0 < k0 := by
        refine h.first0 (by omega) hwallet (by omega) ?_
        simp only [FighterSplit.occupied0] at occ0
        omega
      refine ⟨by omega, ?_⟩
      rcases Nat.eq_zero_or_pos split.occupied1 with occ1 | occ1
      · -- nobody at all: the plan is the whole target
        have hnobody : split.realCount = 0 ∧ split.houseCount = 0 ∧ split.real.side0 = 0 ∧
            split.real.side1 = 0 ∧ split.house.side1 = 0 := by
          simp only [FighterSplit.occupied0, FighterSplit.occupied1, FighterSplit.realCount,
            FighterSplit.houseCount] at *
          omega
        obtain ⟨hreal, hhouse, hreal0, hreal1, hside1⟩ := hnobody
        have hlarge := hempty hreal hhouse
        have hgrow : (w0 : ℤ) + max 0 ((w1 : ℤ) - split.house.side1) = target := by omega
        have hwhole := hbound.whole (by omega) (by omega) (by omega)
        have hplaced := h.whole (by omega) (by omega)
        omega
      · omega
  | empty1 room occ0 occ1 =>
      have hcount := hbound.covers (by omega)
      refine ⟨by omega, ?_⟩
      have hone : split.real.side1 = 0 ∧ split.house.side1 = 0 ∧ split.houseCount = split.house.side0 := by
        simp only [FighterSplit.occupied1, FighterSplit.houseCount] at *
        omega
      obtain ⟨hreal1, hside1, hhouse⟩ := hone
      rcases lt_or_ge ((w0 : ℤ) - split.house.side0) (max (w1 : ℤ) 1) with hless | hmore
      · have hfirst := h.first1 (by omega) hwallet (by omega) hless
        omega
      · -- equal deficits, of which the plan leaves nothing
        have hequal : (w0 : ℤ) - split.house.side0 = w1 ∧ 1 ≤ w1 := by
          simp only [FighterSplit.occupied0] at occ0
          omega
        have hgrow : max 0 ((w0 : ℤ) - split.house.side0) + w1 = target - split.houseCount := by omega
        have hwhole := hbound.whole (by omega) (by omega) (by omega)
        have hplaced := h.whole (by omega) (by omega)
        omega

theorem Placed.nothing {need0 need1 : ℤ} {left : ℕ} (h : Placed need0 need1 left wallets k0 k1)
    (hz : left = 0 ∨ wallets = 0 ∨ max 0 need0 + max 0 need1 = 0) : k0 + k1 = 0 := by
  obtain ⟨hall, -, -, -, -⟩ := h
  omega

/-- What has landed is not asked for again. -/
structure LandedOn (split split' : FighterSplit) (k0 k1 : ℕ) : Prop where
  real : split'.real = split.real
  side0 : split'.house.side0 = split.house.side0 + k0
  side1 : split'.house.side1 = split.house.side1 + k1

theorem LandedOn.counts (h : LandedOn split split' k0 k1) :
    split'.realCount = split.realCount ∧ split'.houseCount = split.houseCount + k0 + k1 ∧
      split'.occupied0 = split.occupied0 + k0 ∧ split'.occupied1 = split.occupied1 + k1 := by
  obtain ⟨hreal, h0, h1⟩ := h
  simp only [FighterSplit.realCount, FighterSplit.houseCount, FighterSplit.occupied0, FighterSplit.occupied1,
    hreal, h0, h1]
  exact ⟨trivial, by omega, by omega, by omega⟩

/-! ## Asked again -/

section
variable {need0 need1 need0' need1' grow grow' cover cover' count count' ceiling : ℤ} {w0 w1 : ℕ}

theorem Placed.spent {left : ℕ} (h : Placed need0 need1 left wallets k0 k1) :
    k0 + k1 = wallets ∨ (k0 : ℤ) = max 0 need0 ∧ (k1 : ℤ) = max 0 need1 ∨ k0 + k1 = left := by
  obtain ⟨hall, h0, h1, -, -⟩ := h
  omega

/-- What an entry meets of a deficit is gone from it. -/
theorem deficit_met {need : ℤ} {k : ℕ} (h : (k : ℤ) ≤ max 0 need) : max 0 (need - k) = max 0 need - k := by
  omega

/-- An empty side is asked for more than its deficit. -/
theorem Asked.deficits (h : Asked target split emptyRoom w0 w1 grow cover need0 need1) :
    (w0 : ℤ) - split.house.side0 ≤ need0 ∧ (w1 : ℤ) - split.house.side1 ≤ need1 := by
  cases h with
  | idle room => exact ⟨le_refl _, le_refl _⟩
  | covered room occ0 occ1 => exact ⟨le_refl _, le_refl _⟩
  | empty0 room occ0 => exact ⟨by omega, le_refl _⟩
  | empty1 room occ0 occ1 => exact ⟨le_refl _, by omega⟩

/-- With somebody on either side, each side is asked for its deficit. -/
theorem Asked.held (h : Asked target split emptyRoom w0 w1 grow cover need0 need1)
    (hheld : roomMustBeFightable split emptyRoom = true → 0 < split.occupied0 ∧ 0 < split.occupied1) :
    cover = 0 ∧ need0 = (w0 : ℤ) - split.house.side0 ∧ need1 = (w1 : ℤ) - split.house.side1 := by
  cases h with
  | idle room => exact ⟨rfl, rfl, rfl⟩
  | covered room occ0 occ1 => exact ⟨rfl, rfl, rfl⟩
  | empty0 room occ0 => exact absurd (hheld room).1 (by omega)
  | empty1 room occ0 occ1 => exact absurd (hheld room).2 (by omega)

/-- What has landed is taken off the growth that is asked for. -/
theorem Asked.grow_again (h : Asked target split emptyRoom w0 w1 grow cover need0 need1)
    (h' : Asked target split' emptyRoom w0 w1 grow' cover' need0' need1') (hland : LandedOn split split' k0 k1)
    (hheld : roomMustBeFightable split' emptyRoom = true → 0 < split'.occupied0 ∧ 0 < split'.occupied1)
    (heven1 : 0 < w1 → split.real.side1 + w1 ≤ split.real.side0 + w0)
    (heven0 : 0 < w0 → split.real.side0 + w0 ≤ split.real.side1 + w1 + 1)
    (hsome0 : (k0 : ℤ) ≤ max 0 need0) (hsome1 : (k1 : ℤ) ≤ max 0 need1) :
    grow' ≤ max 0 (max grow cover - (k0 + k1)) := by
  obtain ⟨hreal, hhouse, -, -⟩ := hland.counts
  have hroom : roomMustBeFightable split' emptyRoom = roomMustBeFightable split emptyRoom := by
    simp only [roomMustBeFightable, hreal]
  cases h' with
  | idle room' =>
      cases h with
      | idle room => omega
      | covered room occ0 occ1 => simp [room, room'] at hroom
      | empty0 room occ0 => simp [room, room'] at hroom
      | empty1 room occ0 occ1 => simp [room, room'] at hroom
  | covered room' occ0' occ1' =>
      rw [hland.side0, hland.side1, Nat.cast_add, Nat.cast_add, ← sub_sub, ← sub_sub]
      clear hheld hreal hhouse occ0' occ1'
      cases h with
      | idle room => simp [room, room'] at hroom
      | covered room occ0 occ1 =>
          rw [deficit_met hsome0, deficit_met hsome1]
          omega
      | empty0 room occ0 =>
          obtain ⟨hreal0, hnone⟩ := Nat.add_eq_zero_iff.mp occ0
          rw [deficit_met hsome1, hnone]
          rcases Nat.eq_zero_or_pos w0 with hw0 | hw0
          · have hw1 : w1 = 0 := by omega
            omega
          · have hmax : max (w0 : ℤ) 1 = w0 := by omega
            omega
      | empty1 room occ0 occ1 =>
          obtain ⟨hreal1, hnone⟩ := Nat.add_eq_zero_iff.mp occ1
          simp only [FighterSplit.occupied0] at occ0
          rw [deficit_met hsome0, hnone]
          rcases Nat.eq_zero_or_pos w1 with hw1 | hw1
          · have hw0 : w0 ≤ 1 := by omega
            omega
          · have hmax : max (w1 : ℤ) 1 = w1 := by omega
            omega
  | empty0 room' occ0' => exact absurd (hheld room').1 (by omega)
  | empty1 room' occ0' occ1' => exact absurd (hheld room').2 (by omega)

/-- The bound that was met is met still. -/
theorem Bounded.again {house free k : ℤ}
    (h : Bounded count grow (max 0 (ceiling - house)) cover (max 0 (free - house)))
    (h' : Bounded count' grow' (max 0 (ceiling - (house + k))) 0 (max 0 (free - (house + k))))
    (hk : k = max 0 count) (hgrow : grow' ≤ max 0 (max grow cover - k)) : count' ≤ 0 := by
  obtain ⟨-, -, hfull⟩ := h
  obtain ⟨hfree', hfloor', -⟩ := h'
  rcases hfull with hfull | ⟨hfull, -, -⟩ | ⟨hfull, -, hcover⟩ | ⟨hfull, hleast⟩
  · omega
  · omega
  · have hspent : max 0 (max grow cover - k) = 0 := by omega
    omega
  · rcases min_le_iff.mp hleast with hleast | hleast
    · have hspent : max 0 (max grow cover - k) = 0 := by omega
      omega
    · omega

end

/-- Once all that was planned has landed, and either side is held where that is asked for, the same policy
at the same instant asks for nothing. -/
theorem shortfallOf_again (hland : LandedOn split split' k0 k1)
    (hheld : roomMustBeFightable split emptyRoom = true → 0 < wallets →
      (split.realCount : ℤ) + split.houseCount < seats → 0 < split.occupied0 + k0 ∧ 0 < split.occupied1 + k1)
    (hwallets : wallets' + (k0 + k1) ≤ wallets)
    (h : Placed (shortfallOf cfg seats target split emptyRoom).need0
      (shortfallOf cfg seats target split emptyRoom).need1
      (shortfallOf cfg seats target split emptyRoom).count.toNat wallets k0 k1)
    (h' : Placed (shortfallOf cfg seats target split' emptyRoom).need0
      (shortfallOf cfg seats target split' emptyRoom).need1
      (shortfallOf cfg seats target split' emptyRoom).count.toNat wallets' k0' k1') : k0' + k1' = 0 := by
  apply h'.nothing
  obtain ⟨grow, cover, hasked, hbound⟩ := shortfallOf_spec cfg seats target split emptyRoom
  obtain ⟨grow', cover', hasked', hbound'⟩ := shortfallOf_spec cfg seats target split' emptyRoom
  obtain ⟨hreal, hhouse, hocc0, hocc1⟩ := hland.counts
  have hroom : roomMustBeFightable split' emptyRoom = roomMustBeFightable split emptyRoom := by
    simp only [roomMustBeFightable, hreal]
  have hceiling : houseCeiling cfg seats split' = houseCeiling cfg seats split := by
    simp only [houseCeiling, hreal]
  have hw0 : wanted0 target split' = wanted0 target split := by simp only [wanted0, hland.real]
  have hw1 : wanted1 target split' = wanted1 target split := by simp only [wanted1, hland.real]
  rw [hw0, hw1] at hasked'
  rw [hceiling, hhouse, hreal, add_assoc, Nat.cast_add] at hbound'
  obtain ⟨-, heven1, heven0⟩ := wanted_counts target split
  rcases Nat.eq_zero_or_pos wallets with hnone | hsome
  · exact .inr (.inl (by omega))
  rcases le_or_gt seats (split.realCount + split.houseCount) with hfull | hseat
  · have hle := hbound'.le_free
    exact .inl (by omega)
  rw [← hocc0, ← hocc1, ← hroom] at hheld
  have hheld' := fun hroom' => hheld hroom' hsome hseat
  obtain ⟨rfl, hneed0', hneed1'⟩ := hasked'.held hheld'
  rcases h.spent with hspent | ⟨hk0, hk1⟩ | hspent
  · exact .inr (.inl (by omega))
  · obtain ⟨hleast0, hleast1⟩ := hasked.deficits
    refine .inr (.inr ?_)
    rw [hneed0', hneed1', hland.side0, hland.side1, Nat.cast_add, Nat.cast_add]
    clear h h' hbound hbound' hasked hasked' hneed0' hneed1'
    omega
  · have hgrow := hasked.grow_again hasked' hland hheld' heven1 heven0 h.some0 h.some1
    have hcount := hbound.again hbound' (by omega) (by exact_mod_cast hgrow)
    exact .inl (Int.toNat_eq_zero.mpr hcount)

end BullsUnicorns.Keeper

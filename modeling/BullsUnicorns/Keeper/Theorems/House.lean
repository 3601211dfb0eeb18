import BullsUnicorns.Keeper.Lemmas.HousePlan

/-!
# The house planner, at every lobby

What a plan may take, what it leaves, and what stands once it has landed, for whoever is seated and at
every instant that is early enough to enter.
-/

namespace BullsUnicorns.Keeper

open Chain (Pubkey RoundState)

section
variable (cfg : HouseConfig) (bank : HouseBank cfg.walletCount) (round : RoundState) (roundNo : ℕ)
  (nowSec : ℚ) (lobby : HouseLobbyView)

/-- The target of a plan, its seats taken into account. -/
def planTarget : ℤ :=
  min (targetBeforeSeats cfg (bank.classify round) roundNo nowSec lobby)
    (houseCeiling cfg Chain.maxFighters (bank.classify round))

/-- The shortfall of a plan. -/
def planShort : Shortfall :=
  shortfallOf cfg Chain.maxFighters (planTarget cfg bank round roundNo nowSec lobby) (bank.classify round)
    lobby.emptyRoom

theorem plan_entries (hearly : ¬lobby.drawAt - nowSec ≤ clockSkewMarginSeconds) :
    (plannedHouseEntries cfg bank round roundNo nowSec lobby).entries =
      placeEntries cfg roundNo (rotated bank (bank.classify round) roundNo)
        (planShort cfg bank round roundNo nowSec lobby).count.toNat
        (planShort cfg bank round roundNo nowSec lobby).need0
        (planShort cfg bank round roundNo nowSec lobby).need1 := by
  have hseats : ((round.fighters.toList.length : ℕ) : ℤ) = Chain.maxFighters := by simp
  simp only [plannedHouseEntries, if_neg hearly, hseats]
  by_cases hnone : (planShort cfg bank round roundNo nowSec lobby).count ≤ 0
  · rw [show (planShort cfg bank round roundNo nowSec lobby).count.toNat = 0 by omega]
    simp only [planShort, planTarget] at hnone
    rw [if_pos hnone]
    cases rotated bank (bank.classify round) roundNo with
    | nil => rfl
    | cons w ws => rfl
  · simp only [planShort, planTarget] at hnone ⊢
    rw [if_neg hnone]

theorem rotated_length : (rotated bank (bank.classify round) roundNo).length =
    (freeWallets bank (bank.classify round)).length :=
  (rotated_perm bank _ roundNo).length_eq

/-- How many entries a plan has for each side. -/
theorem plan_placed (hearly : ¬lobby.drawAt - nowSec ≤ clockSkewMarginSeconds) :
    Placed (planShort cfg bank round roundNo nowSec lobby).need0
      (planShort cfg bank round roundNo nowSec lobby).need1
      (planShort cfg bank round roundNo nowSec lobby).count.toNat
      (freeWallets bank (bank.classify round)).length
      (onSide (plannedHouseEntries cfg bank round roundNo nowSec lobby).entries .side0)
      (onSide (plannedHouseEntries cfg bank round roundNo nowSec lobby).entries .side1) := by
  rw [plan_entries cfg bank round roundNo nowSec lobby hearly, ← rotated_length cfg bank round roundNo]
  exact placeEntries_placed cfg roundNo _ _ _ _

theorem planTarget_le : planTarget cfg bank round roundNo nowSec lobby ≤ cfg.walletCount := by
  have hbank := cfg.wallets_bounds.1
  have hboard := houseFighterCount_bounds cfg (bank.classify round).real lobby.emptyRoom
  simp only [planTarget, targetBeforeSeats, houseMaxWithoutRealPlayer, houseFloor]
  split
  · omega
  · split
    · omega
    · omega

/-- An empty house-only room is asked for two, where the reservation leaves the house two seats. -/
theorem two_le_planTarget (hreal : (bank.classify round).realCount = 0) (hroom : lobby.emptyRoom = .houseOnly)
    (htwo : cfg.realSeatsReserved + 2 ≤ Chain.maxFighters) :
    2 ≤ planTarget cfg bank round roundNo nowSec lobby := by
  simp only [planTarget, targetBeforeSeats, houseCeiling, hreal, hroom, houseFloor, minFightersToFight,
    reduceCtorEq, and_false, if_false]
  simp only [Nat.zero_lt_two, if_true]
  omega

/-! ## What a plan is made of -/

theorem plan_wallets (hearly : ¬lobby.drawAt - nowSec ≤ clockSkewMarginSeconds) :
    ((plannedHouseEntries cfg bank round roundNo nowSec lobby).entries.map HouseEntry.wallet).Subperm
      (freeWallets bank (bank.classify round)) := by
  rw [plan_entries cfg bank round roundNo nowSec lobby hearly]
  exact (placeEntries_wallets cfg roundNo _ _ _ _).subperm.trans (rotated_perm bank _ roundNo).subperm

/-- The wallets of a plan are active, free and all different. -/
theorem plan_fresh (hearly : ¬lobby.drawAt - nowSec ≤ clockSkewMarginSeconds) :
    ((plannedHouseEntries cfg bank round roundNo nowSec lobby).entries.map fun e => e.wallet.pubkey).Nodup ∧
      ∀ e ∈ (plannedHouseEntries cfg bank round roundNo nowSec lobby).entries,
        e.wallet ∈ bank.active ∧ bank.isHouse e.wallet.pubkey = true ∧
          e.wallet.pubkey ∉ (seated round).map Prod.fst := by
  have hwallets := plan_wallets cfg bank round roundNo nowSec lobby hearly
  constructor
  · obtain ⟨ws, hperm, hsub⟩ := hwallets
    have hws : (ws.map HouseWallet.pubkey).Nodup :=
      (freeWallets_nodup bank (bank.classify round)).sublist (hsub.map _)
    have hmap := hperm.map HouseWallet.pubkey
    rw [List.map_map] at hmap
    exact hmap.nodup_iff.mp hws
  · intro e he
    have hfree := hwallets.subset (List.mem_map_of_mem he)
    obtain ⟨hactive, hout⟩ := List.mem_filter.mp hfree
    have hhouse := active_isHouse bank hactive
    refine ⟨hactive, hhouse, fun hseat => ?_⟩
    have hin : e.wallet.pubkey ∈ (bank.classify round).houseIn := List.mem_filter.mpr ⟨hseat, hhouse⟩
    simp [hin] at hout

theorem occupied0_eq (r : RoundState) :
    (bank.classify r).occupied0 = (seated r).countP fun f => f.2 = 0 := by
  simp only [HouseBank.classify, FighterSplit.occupied0]
  induction seated r with
  | nil => rfl
  | cons f fs ih =>
      simp only [List.countP_cons]
      cases bank.isHouse f.1 with
      | false => simp at ih ⊢; omega
      | true => simp at ih ⊢; omega

theorem occupied1_eq (r : RoundState) :
    (bank.classify r).occupied1 = (seated r).countP fun f => f.2 ≠ 0 := by
  simp only [HouseBank.classify, FighterSplit.occupied1]
  induction seated r with
  | nil => rfl
  | cons f fs ih =>
      simp only [List.countP_cons]
      cases bank.isHouse f.1 with
      | false => simp at ih ⊢; omega
      | true => simp at ih ⊢; omega

/-- What has landed of a plan, and on what. -/
theorem landed_on {r : RoundState} {entries : List HouseEntry}
    (hdistinct : (entries.map fun e => e.wallet.pubkey).Nodup)
    (hfresh : ∀ e ∈ entries, bank.isHouse e.wallet.pubkey = true ∧ e.wallet.pubkey ∉ (seated round).map Prod.fst)
    (h : Lands round entries r) :
    LandedOn (bank.classify round) (bank.classify r) (onSide entries .side0) (onSide entries .side1) ∧
      (bank.classify r).houseIn =
        (bank.classify round).houseIn ++ entries.map fun e => e.wallet.pubkey := by
  obtain ⟨hseated, -, -⟩ := h.seated hdistinct fun e he => (hfresh e he).2
  obtain ⟨hreal, hside0, hside1, hin⟩ := classify_landed bank hseated fun e he => (hfresh e he).1
  exact ⟨⟨hreal, hside0, hside1⟩, hin⟩

end

/-! ## The planner -/

/-- A room that is meant to hold a fight. -/
def MeantToFight {count : ℕ} (bank : HouseBank count) (round : RoundState) (emptyRoom : EmptyRoomPolicy) : Prop :=
  (∃ f ∈ seated round, bank.isHouse f.1 = false) ∨ emptyRoom = .houseOnly

/-- Somebody sits there, or the reservation leaves the house two seats. -/
def RoomForTwo (cfg : HouseConfig) (round : RoundState) : Prop :=
  0 < round.fighterCount ∨ cfg.realSeatsReserved + 2 ≤ Chain.maxFighters

structure WellPlanned (cfg : HouseConfig) (bank : HouseBank cfg.walletCount) (round : RoundState) (roundNo : ℕ)
    (nowSec : ℚ) (lobby : HouseLobbyView) (entries : List HouseEntry) : Prop where
  distinct : (entries.map fun e => e.wallet.pubkey).Nodup
  fresh : ∀ e ∈ entries, e.wallet ∈ bank.active ∧ e.wallet.pubkey ∉ (seated round).map Prod.fst
  seats : round.fighterCount + entries.length ≤ Chain.maxFighters
  /-- Whatever lands in a room that must not fight, it does not become one that can. -/
  unfightable : lobby.emptyRoom = .unfightable → (∀ f ∈ seated round, bank.isHouse f.1 = true) →
    round.fighterCount ≤ 1 → ∀ landing r, landing.Sublist entries → Lands round landing r → r.fighterCount ≤ 1
  reserve : cfg.realSeatsReserved ≤ Chain.maxFighters - round.fighterCount - entries.length ∨ entries = [] ∨
    ∃ e, entries = [e] ∧ ∀ f ∈ seated round, f.2 = 0 ↔ e.side = .side1
  fight : MeantToFight bank round lobby.emptyRoom → round.fighterCount < Chain.maxFighters →
    (∃ w ∈ bank.active, w.pubkey ∉ (seated round).map Prod.fst) → RoomForTwo cfg round →
      ∀ r, Lands round entries r → (∃ f ∈ seated r, f.2 = 0) ∧ (∃ f ∈ seated r, f.2 ≠ 0) ∧ 2 ≤ r.fighterCount
  again : (MeantToFight bank round lobby.emptyRoom → RoomForTwo cfg round) →
    ∀ r, Lands round entries r → (plannedHouseEntries cfg bank r roundNo nowSec lobby).entries = []

section
variable {cfg : HouseConfig} {bank : HouseBank cfg.walletCount} {round : RoundState} {roundNo : ℕ}
  {nowSec : ℚ} {lobby : HouseLobbyView}

variable (cfg bank round) in
theorem classify_total (hk : round.fighterCount ≤ Chain.maxFighters) :
    (bank.classify round).realCount + (bank.classify round).houseCount = round.fighterCount := by
  rw [(classify_counts bank round).1, seated_length hk]

theorem realCount_pos : 0 < (bank.classify round).realCount ↔ ∃ f ∈ seated round, bank.isHouse f.1 = false := by
  have hsum : (bank.classify round).realCount = (seated round).countP fun f => bank.isHouse f.1 = false := by
    simp only [HouseBank.classify, FighterSplit.realCount]
    induction seated round with
    | nil => rfl
    | cons f fs ih =>
        simp only [List.countP_cons]
        by_cases hs : f.2 = 0
        · simp [hs] at ih ⊢; omega
        · simp [hs] at ih ⊢; omega
  rw [hsum, List.countP_pos_iff]
  simp

theorem meantToFight_iff {emptyRoom : EmptyRoomPolicy} :
    roomMustBeFightable (bank.classify round) emptyRoom = true ↔ MeantToFight bank round emptyRoom := by
  simp only [roomMustBeFightable, decide_eq_true_eq, MeantToFight, gt_iff_lt, realCount_pos]

variable (cfg bank round roundNo nowSec lobby) in
/-- A room with nobody real and a policy against fights is asked for one at most. -/
theorem plan_unfightable (hearly : ¬lobby.drawAt - nowSec ≤ clockSkewMarginSeconds)
    (hroom : lobby.emptyRoom = .unfightable) (hreal : (bank.classify round).realCount = 0) :
    (bank.classify round).houseCount +
        (plannedHouseEntries cfg bank round roundNo nowSec lobby).entries.length ≤
      max 1 (bank.classify round).houseCount := by
  have hplaced := plan_placed cfg bank round roundNo nowSec lobby hearly
  rw [← onSide_add]
  obtain ⟨grow, cover, hasked, hbound⟩ := shortfallOf_spec cfg Chain.maxFighters
    (planTarget cfg bank round roundNo nowSec lobby) (bank.classify round) lobby.emptyRoom
  have htarget : planTarget cfg bank round roundNo nowSec lobby ≤ 1 := by
    simp only [planTarget, targetBeforeSeats, hreal, hroom, and_self, if_true, houseMaxWithoutRealPlayer]
    omega
  have hidle : roomMustBeFightable (bank.classify round) lobby.emptyRoom = false := by
    simp [roomMustBeFightable, hreal, hroom]
  rw [← planShort] at hasked hbound
  generalize planShort cfg bank round roundNo nowSec lobby = short at *
  have hsum := hplaced.all
  have hfloor := hbound.le_floor
  cases hshort : short with
  | mk count need0 need1 =>
      subst hshort
      dsimp only at *
      cases hasked with
      | idle room => omega
      | covered room => simp [hidle] at room
      | empty0 room => simp [hidle] at room
      | empty1 room => simp [hidle] at room

variable (cfg bank round roundNo nowSec lobby) in
/-- Both sides are held once a plan has landed, wherever a fight is meant and there is room for it. -/
theorem plan_covers (hk : round.fighterCount ≤ Chain.maxFighters)
    (hearly : ¬lobby.drawAt - nowSec ≤ clockSkewMarginSeconds)
    (hfight : roomMustBeFightable (bank.classify round) lobby.emptyRoom = true) (htwo : RoomForTwo cfg round)
    (hwallet : 0 < (freeWallets bank (bank.classify round)).length) (hseat : round.fighterCount < Chain.maxFighters) :
    0 < (bank.classify round).occupied0 +
        onSide (plannedHouseEntries cfg bank round roundNo nowSec lobby).entries .side0 ∧
      0 < (bank.classify round).occupied1 +
        onSide (plannedHouseEntries cfg bank round roundNo nowSec lobby).entries .side1 := by
  have htotal := classify_total cfg bank round hk
  refine shortfallOf_covers hfight (min_le_right _ _) ?_ (freeWallets_length bank round)
    (planTarget_le cfg bank round roundNo nowSec lobby) hwallet (by omega)
    (plan_placed cfg bank round roundNo nowSec lobby hearly)
  intro hreal hhouse
  rcases htwo with hsome | htwo
  · omega
  · refine two_le_planTarget cfg bank round roundNo nowSec lobby hreal ?_ htwo
    rcases meantToFight_iff.mp hfight with hsome | hroom
    · have hpos := realCount_pos.mpr hsome
      omega
    · exact hroom

/-- A wallet that has landed is free no more. -/
theorem freeWallets_landed {r : RoundState} {entries : List HouseEntry}
    (hwallets : (entries.map HouseEntry.wallet).Subperm (freeWallets bank (bank.classify round)))
    (hin : (bank.classify r).houseIn = (bank.classify round).houseIn ++ entries.map fun e => e.wallet.pubkey) :
    (freeWallets bank (bank.classify r)).length + entries.length ≤
      (freeWallets bank (bank.classify round)).length := by
  have hnodup : ∀ split, (freeWallets bank split).Nodup := fun split => (freeWallets_nodup bank split).of_map
  have hboth : (entries.map HouseEntry.wallet ++ freeWallets bank (bank.classify r)).Subperm
      (freeWallets bank (bank.classify round)) := by
    apply List.subperm_of_subset
    · refine List.Nodup.append ?_ (hnodup _) ?_
      · obtain ⟨ws, hperm, hsub⟩ := hwallets
        exact hperm.nodup_iff.mp ((hnodup _).sublist hsub)
      intro w hw hfree
      obtain ⟨e, he, rfl⟩ := List.mem_map.mp hw
      have hmem : e.wallet.pubkey ∈ (bank.classify r).houseIn := by
        rw [hin]
        exact List.mem_append_right _ (List.mem_map.mpr ⟨e, he, rfl⟩)
      simpa [hmem] using (List.mem_filter.mp hfree).2
    · intro w hw
      rcases List.mem_append.mp hw with hw | hw
      · exact hwallets.subset hw
      · obtain ⟨hactive, hout⟩ := List.mem_filter.mp hw
        refine List.mem_filter.mpr ⟨hactive, ?_⟩
        rw [hin] at hout
        simp only [List.mem_append, not_or, decide_eq_true_eq] at hout ⊢
        exact hout.1
  have hlength := hboth.length_le
  rw [List.length_append, List.length_map] at hlength
  omega

/-- For every lobby, bank, round number and policy, at every instant early enough to enter. -/
theorem house_plans_well (hk : round.fighterCount ≤ Chain.maxFighters)
    (hearly : clockSkewMarginSeconds < lobby.drawAt - nowSec) :
    WellPlanned cfg bank round roundNo nowSec lobby
      (plannedHouseEntries cfg bank round roundNo nowSec lobby).entries := by
  have hnot : ¬lobby.drawAt - nowSec ≤ clockSkewMarginSeconds := not_le.mpr hearly
  have htotal := classify_total cfg bank round hk
  have hplaced := plan_placed cfg bank round roundNo nowSec lobby hnot
  have hadd := onSide_add (plannedHouseEntries cfg bank round roundNo nowSec lobby).entries
  have hwallets := plan_wallets cfg bank round roundNo nowSec lobby hnot
  obtain ⟨hdistinct, hfresh⟩ := plan_fresh cfg bank round roundNo nowSec lobby hnot
  obtain ⟨hseats, hreserve⟩ := shortfallOf_reserves (min_le_right _ _) (by omega) hplaced
  have hcovers := plan_covers cfg bank round roundNo nowSec lobby hk hnot
  have hfree : (∃ w ∈ bank.active, w.pubkey ∉ (seated round).map Prod.fst) →
      0 < (freeWallets bank (bank.classify round)).length := by
    rintro ⟨w, hw, hout⟩
    refine List.length_pos_of_mem (a := w) (List.mem_filter.mpr ⟨hw, ?_⟩)
    have hnotin : w.pubkey ∉ (bank.classify round).houseIn := fun h => hout (List.mem_filter.mp h).1
    simpa using hnotin
  have hlanded : ∀ r, Lands round (plannedHouseEntries cfg bank round roundNo nowSec lobby).entries r →
      _ := fun r hr => landed_on cfg bank round hdistinct (fun e he => (hfresh e he).2) hr
  generalize hentries : (plannedHouseEntries cfg bank round roundNo nowSec lobby).entries = entries at *
  constructor
  case distinct => exact hdistinct
  case fresh => exact fun e he => ⟨(hfresh e he).1, (hfresh e he).2.2⟩
  case seats => omega
  case unfightable =>
    intro hroom hhouse hfew landing r hsub hr
    have hreal : (bank.classify round).realCount = 0 := by
      by_contra hpos
      obtain ⟨f, hf, hnot⟩ := realCount_pos.mp (Nat.pos_of_ne_zero hpos)
      simp [hhouse f hf] at hnot
    have hmost := plan_unfightable cfg bank round roundNo nowSec lobby hnot hroom hreal
    rw [hentries] at hmost
    have hcount := (hr.seated (hdistinct.sublist (hsub.map _)) fun e he =>
      (hfresh e (hsub.subset he)).2.2).2.1
    have hle := hsub.length_le
    omega
  case reserve =>
    rcases hreserve with hleft | hnone | ⟨h0, h1, hempty⟩ | ⟨h0, h1, hempty⟩
    · exact .inl (by omega)
    · exact .inr (.inl (List.length_eq_zero_iff.mp (by omega)))
    · obtain ⟨e, rfl⟩ := List.length_eq_one_iff.mp (show entries.length = 1 by omega)
      have hside : e.side = .side0 := by
        cases hs : e.side with
        | side0 => rfl
        | side1 => simp [onSide, hs] at h0
      rw [occupied0_eq, List.countP_eq_zero] at hempty
      exact .inr (.inr ⟨e, rfl, fun f hf => by simpa [hside] using hempty f hf⟩)
    · obtain ⟨e, rfl⟩ := List.length_eq_one_iff.mp (show entries.length = 1 by omega)
      have hside : e.side = .side1 := by
        cases hs : e.side with
        | side0 => simp [onSide, hs] at h0
        | side1 => rfl
      rw [occupied1_eq, List.countP_eq_zero] at hempty
      exact .inr (.inr ⟨e, rfl, fun f hf => by simpa [hside] using hempty f hf⟩)
  case fight =>
    intro hmeant hseat hwallet htwo r hr
    obtain ⟨hon, -⟩ := hlanded r hr
    obtain ⟨-, -, hocc0, hocc1⟩ := hon.counts
    obtain ⟨h0, h1⟩ := hcovers (meantToFight_iff.mpr hmeant) htwo (hfree hwallet) hseat
    have hk' := (hr.seated hdistinct fun e he => (hfresh e he).2.2).2.2 hk
    have htotal' := classify_total cfg bank r hk'
    have htwo' : 2 ≤ r.fighterCount := by
      simp only [FighterSplit.occupied0, FighterSplit.occupied1, FighterSplit.realCount,
        FighterSplit.houseCount] at hocc0 hocc1 htotal' h0 h1
      omega
    rw [← hocc0, occupied0_eq, List.countP_pos_iff] at h0
    rw [← hocc1, occupied1_eq, List.countP_pos_iff] at h1
    obtain ⟨f, hf, hf0⟩ := h0
    obtain ⟨g, hg, hg1⟩ := h1
    exact ⟨⟨f, hf, by simpa using hf0⟩, ⟨g, hg, by simpa using hg1⟩, htwo'⟩
  case again =>
    intro htwo r hr
    obtain ⟨hon, hin⟩ := hlanded r hr
    have hagain := plan_placed cfg bank r roundNo nowSec lobby hnot
    have htarget : planTarget cfg bank r roundNo nowSec lobby = planTarget cfg bank round roundNo nowSec lobby := by
      simp only [planTarget, targetBeforeSeats, houseCeiling, hon.counts.1, hon.real]
    rw [planShort, htarget] at hagain
    have hnone := shortfallOf_again hon ?_ (by
      rw [hadd]
      exact freeWallets_landed hwallets hin) hplaced hagain
    · rw [onSide_add] at hnone
      exact List.length_eq_zero_iff.mp hnone
    · intro hfight hwallet hseat
      exact hcovers hfight (htwo (meantToFight_iff.mp hfight)) hwallet (by omega)

end

def sampleBank : HouseBank HouseConfig.fallback.walletCount where
  bankPubkeys := (List.range 10).map fun i => Vector.replicate 32 (UInt8.ofNat (i + 1))
  distinct := by decide +kernel
  enough := by decide +kernel

def sampleLobby : RoundState := Chain.openedRound 0 1 Chain.zeroBytes 20

theorem house_plans_well_witness :
    WellPlanned HouseConfig.fallback sampleBank sampleLobby 1 10 ⟨20, .houseOnly⟩
      (plannedHouseEntries HouseConfig.fallback sampleBank sampleLobby 1 10 ⟨20, .houseOnly⟩).entries :=
  house_plans_well (by decide) (by norm_num [clockSkewMarginSeconds])

/-- A grace of five minutes reserves more seats for real players than a round has. -/
def longGrace : HouseConfig :=
  { HouseConfig.fallback with
    toConfig := { Config.fallback with
      realPlayerGraceSeconds := 300
      grace_bounds := by norm_num [Chain.minLobbySeconds, Chain.maxLobbySeconds] }
    tail_lt_grace := by norm_num [HouseConfig.fallback] }

/-- The room once its one entry has landed. -/
def afterOne : RoundState :=
  ((Chain.enter sampleLobby ⟨Chain.zeroBytes, 1, ⟨0, Nat.zero_le _⟩⟩ 17 (Vector.replicate 32 2) 0 5000000).toOption.map
    Prod.fst).getD sampleLobby

/-- A house-only room nobody sits in is given one fighter, and a second one when asked again. -/
theorem long_grace_plans_one_at_a_time :
    let lobby : HouseLobbyView := ⟨20, .houseOnly⟩
    let plan := fun r => (plannedHouseEntries longGrace sampleBank r 1 17 lobby).entries
    (clockSkewMarginSeconds : ℚ) < lobby.drawAt - 17 ∧ sampleLobby.fighterCount + 2 ≤ Chain.maxFighters ∧
      2 ≤ sampleBank.active.length ∧
      Lands sampleLobby (plan sampleLobby) afterOne ∧ afterOne.fighterCount = 1 ∧ plan afterOne ≠ [] := by
  intro lobby plan
  have hfirst : plan sampleLobby = [⟨⟨1, Vector.replicate 32 2⟩, .side0, 5000000⟩] := by decide +kernel
  refine ⟨by norm_num [lobby, clockSkewMarginSeconds], by decide, by decide +kernel, ?_, by decide +kernel, by decide +kernel⟩
  have hok : (Chain.enter sampleLobby ⟨Chain.zeroBytes, 1, ⟨0, Nat.zero_le _⟩⟩ 17 (Vector.replicate 32 2) 0
    5000000).toBool = true := by decide +kernel
  rw [hfirst]
  cases h : Chain.enter sampleLobby ⟨Chain.zeroBytes, 1, ⟨0, Nat.zero_le _⟩⟩ 17 (Vector.replicate 32 2) 0 5000000 with
  | error e => simp [h, Except.toBool] at hok
  | ok x =>
      have hafter : afterOne = x.1 := by simp [afterOne, h, Except.toOption]
      rw [hafter]
      exact .enter h .none

end BullsUnicorns.Keeper

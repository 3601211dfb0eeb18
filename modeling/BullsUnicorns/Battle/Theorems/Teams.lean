import BullsUnicorns.Battle.Lemmas.Shares
import BullsUnicorns.Battle.Theorems.Conservation

/-!
# The battle of many teams moves value and never makes or hides any

At each tick and at each moment in between, whatever the random numbers are and wherever the fighters stand.
Under the rule of the smallest team each team plays with as much as that one has. A free-for-all has no teams
to match.
-/

namespace BullsUnicorns.Battle.N

variable {p : Platform} {seed : String} {entries : List EntryN} {cfg : CfgN}

/-! ## The matched book -/

/-- What the entries of a team put up. -/
def staked (entries : List EntryN) (k : ℕ) : ℚ := ((entries.filter fun e => e.team = (k : ℚ)).map EntryN.stake).sum

/-- What the fighters of a team play with. -/
def inPlay (F : List FighterN) (k : ℕ) : ℚ := ((F.filter fun f => f.team = (k : ℚ)).map FighterN.own).sum

theorem staked_nonneg (h : ∀ e ∈ entries, 0 < e.stake) (k : ℕ) : 0 ≤ staked entries k := by
  apply List.sum_nonneg
  intro x hx
  obtain ⟨e, he, rfl⟩ := List.mem_map.mp hx
  exact (h e (List.mem_filter.mp he).1).le

theorem mapIdx_eq_map (g : EntryN → ℚ) : entries.mapIdx (fun _ e => g e) = entries.map g := by
  apply List.ext_getElem (by simp)
  intro i hi hi'
  simp

theorem map_indexed {α : Type*} (g : EntryN → α) :
    (entries.mapIdx fun i e => (i, e)).map (fun ie => g ie.2) = entries.map g := by
  apply List.ext_getElem (by simp)
  intro i hi hi'
  simp

theorem totals_eq (hteams : cfg.teams ≠ 0) : totals cfg entries = (List.range cfg.teams).map (staked entries) := by
  have hffa : ffa cfg = false := by simp [ffa, hteams]
  rw [totals, nTeams, hffa, if_neg Bool.false_ne_true, bind_pure_comp, List.map_eq_map, List.map_map]
  apply List.map_congr_left
  intro k _
  simp only [Function.comp_apply, teamOf, hffa, Bool.false_eq_true, if_false]
  rw [staked, ← sum_filter, mapIdx_eq_map fun e => if e.team = k then e.stake else 0]

theorem inPlay_start (hteams : cfg.teams ≠ 0) (k : ℕ) :
    inPlay (start p seed entries cfg).F k =
      staked entries k * frac (totals cfg entries) (capPer cfg entries) (k : ℚ) := by
  have hffa : ffa cfg = false := by simp [ffa, hteams]
  let owned : PurseN → ℚ := fun u => if u.team = k then u.own else 0
  have hstart := congrArg (fun l => (l.map owned).sum) (start_purses p seed entries cfg)
  rw [List.map_map, List.map_map] at hstart
  have hfighters : ((start p seed entries cfg).F.map (owned ∘ purse)).sum = inPlay (start p seed entries cfg).F k := by
    rw [inPlay, ← sum_filter]
    rfl
  rw [hfighters] at hstart
  rw [hstart, staked, ← sum_filter, ← List.sum_map_mul_right, ← map_indexed]
  congr 2
  funext ie
  simp only [Function.comp_apply, owned, startPurse, teamOf, hffa, Bool.false_eq_true, if_false]
  split
  · next hteam => rw [hteam]
  · rw [zero_mul]

/-- The first positive number of a sorted list is the least. -/
theorem find_least {l : List ℚ} (hsorted : l.Pairwise (· ≤ ·)) {m : ℚ} (h : l.find? (fun v => 0 < v) = some m) :
    IsLeast {v | v ∈ l ∧ 0 < v} m := by
  induction l with
  | nil => cases h
  | cons v l ih =>
      obtain ⟨hle, hsorted⟩ := List.pairwise_cons.mp hsorted
      by_cases hv : 0 < v
      · rw [List.find?_cons_of_pos (by simpa using hv)] at h
        cases h
        refine ⟨⟨List.mem_cons_self, hv⟩, ?_⟩
        rintro w ⟨hw, -⟩
        rcases List.mem_cons.mp hw with rfl | hw
        · exact le_refl w
        · exact hle w hw
      · rw [List.find?_cons_of_neg (by simpa using hv)] at h
        obtain ⟨⟨hmem, hpos⟩, hleast⟩ := ih hsorted h
        refine ⟨⟨List.mem_cons_of_mem v hmem, hpos⟩, ?_⟩
        rintro w ⟨hw, hwpos⟩
        rcases List.mem_cons.mp hw with rfl | hw
        · exact absurd hwpos hv
        · exact hleast ⟨hw, hwpos⟩

/-- Under the rule of the smallest team the cap is the least positive total, an empty team apart. -/
theorem capPer_min (hrule : cfg.matchRule = .min) (hteams : 2 ≤ cfg.teams) {v : ℚ} (hv : v ∈ totals cfg entries)
    (hpos : 0 < v) : ∃ cap, capPer cfg entries = some cap ∧ IsLeast {v | v ∈ totals cfg entries ∧ 0 < v} cap := by
  have hffa : ffa cfg = false := by simp only [ffa, decide_eq_false_iff_not]; omega
  have hn : nTeams cfg entries = cfg.teams := by rw [nTeams, hffa, if_neg Bool.false_ne_true]
  have hsorted : ((totals cfg entries).mergeSort (· ≤ ·)).Pairwise (· ≤ ·) := by
    have h := List.pairwise_mergeSort' (· ≤ ·) (totals cfg entries)
    simpa using h
  have hmem : ∀ w, w ∈ (totals cfg entries).mergeSort (· ≤ ·) ↔ w ∈ totals cfg entries := fun w => List.mem_mergeSort
  obtain ⟨m, hm⟩ : ∃ m, ((totals cfg entries).mergeSort (· ≤ ·)).find? (fun v => 0 < v) = some m := by
    rw [← Option.isSome_iff_exists, List.find?_isSome]
    exact ⟨v, (hmem v).mpr hv, by simpa using hpos⟩
  have hleast := find_least hsorted hm
  simp only [hmem] at hleast
  refine ⟨m, ?_, hleast⟩
  have hguard : (!ffa cfg && decide (cfg.matchRule ≠ .none) && decide (2 ≤ nTeams cfg entries)) = true := by
    simp [hffa, hrule, hn, hteams]
  rw [capPer, if_pos hguard]
  simp only [hrule, if_true, hm, Option.getD_some]
  split
  · rfl
  · next hfirst =>
      -- the smallest of all is positive, and is found first
      cases hlist : (totals cfg entries).mergeSort (· ≤ ·) with
      | nil =>
          rw [hlist] at hm
          cases hm
      | cons w l =>
          rw [hlist, List.getD_cons_zero] at hfirst
          rw [hlist, List.find?_cons_of_pos (by simpa using hfirst)] at hm
          cases hm
          rfl

theorem mem_totals (hteams : cfg.teams ≠ 0) {v : ℚ} :
    v ∈ totals cfg entries ↔ ∃ k < cfg.teams, v = staked entries k := by
  rw [totals_eq hteams, List.mem_map]
  simp only [List.mem_range, eq_comm]

/-- Each team that staked anything plays with the smallest positive team total. -/
theorem inPlay_min (hrule : cfg.matchRule = .min) {k : ℕ} (hk : k < cfg.teams) (hpos : 0 < staked entries k) :
    IsLeast {v | 0 < v ∧ ∃ j < cfg.teams, v = staked entries j} (inPlay (start p seed entries cfg).F k) := by
  have hteams : cfg.teams ≠ 0 := by omega
  have hsame : {v | 0 < v ∧ ∃ j < cfg.teams, v = staked entries j} = {v | v ∈ totals cfg entries ∧ 0 < v} := by
    ext v
    rw [Set.mem_ofPred_eq, Set.mem_ofPred_eq, mem_totals hteams, and_comm]
  have hlen : (totals cfg entries).length = cfg.teams := by rw [totals_eq hteams, List.length_map, List.length_range]
  have hat : (totals cfg entries).getD k 0 = staked entries k := by
    rw [totals_eq hteams, List.getD_eq_getElem?_getD, List.getElem?_map, List.getElem?_range hk]
    rfl
  rw [hsame, inPlay_start hteams, frac, hlen, slot_cast hk]
  simp only [Option.map_some, hat, hpos, if_true]
  by_cases htwo : 2 ≤ cfg.teams
  · obtain ⟨cap, hcap, hleast⟩ := capPer_min hrule htwo ((mem_totals hteams).mpr ⟨k, hk, rfl⟩) hpos
    have hle : cap ≤ staked entries k := hleast.2 ⟨(mem_totals hteams).mpr ⟨k, hk, rfl⟩, hpos⟩
    have hpart : cap / staked entries k ≤ 1 := (div_le_one hpos).mpr hle
    simp only [hcap]
    rw [min_eq_right hpart, mul_div_cancel₀ cap hpos.ne']
    exact hleast
  · -- the only team there is
    have hone : cfg.teams = 1 := by omega
    have hcap : capPer cfg entries = none := by
      rw [capPer, if_neg]
      simp [nTeams, ffa, hone]
    simp only [hcap, mul_one]
    refine ⟨⟨(mem_totals hteams).mpr ⟨k, hk, rfl⟩, hpos⟩, ?_⟩
    rintro v ⟨hv, -⟩
    obtain ⟨j, hj, rfl⟩ := (mem_totals hteams).mp hv
    obtain rfl : j = k := by omega
    exact le_refl _

/-- A free-for-all plays with the whole of each stake. -/
theorem start_ffa (p : Platform) (seed : String) (entries : List EntryN) (hteams : cfg.teams = 0) :
    (start p seed entries cfg).F.map (fun f => (f.own, f.unmatched)) = entries.map fun e => (e.stake, 0) := by
  have hcap : capPer cfg entries = none := by
    rw [capPer, if_neg]
    simp [ffa, hteams]
  have hfrac : ∀ team, frac (totals cfg entries) none team = 1 := by
    intro team
    unfold frac
    split
    · split <;> rfl
    · rfl
  have hstart := congrArg (List.map fun u : PurseN => (u.own, u.unmatched)) (start_purses p seed entries cfg)
  rw [List.map_map, List.map_map] at hstart
  refine hstart.trans ?_
  rw [← map_indexed]
  apply List.map_congr_left
  intro ie _
  simp only [Function.comp_apply, startPurse, hcap, hfrac, mul_one, sub_self]

/-! ## The battle -/

/-- What holds of the fighters and the log at a tick, against the fighters `F₀` of the start. -/
structure Conserved (entries : List EntryN) (mode : Mode) (F₀ F : List FighterN) (hits : List HitN) : Prop where
  total : (F.map fun f => f.own + f.stolen.sum + f.banked + f.unmatched).sum = (entries.map EntryN.stake).sum
  nonneg : ∀ f ∈ F, (purse f).Nonneg
  unmatched : F.map FighterN.unmatched = F₀.map FighterN.unmatched
  coins : mode = .normal → ∀ c, coinsOf c F = coinsOf c F₀
  landed : ∀ before hit after, hits = before ++ hit :: after →
    ∃ G G', Moments mode (F₀, []) (G, before) ∧ Lands G hit ∧ Moment mode (G, before) (G', before ++ [hit]) ∧
      Moments mode (G', before ++ [hit]) (F, hits)

/-- What holds of a result. -/
structure PaidN (entries : List EntryN) (r : ResultN) : Prop where
  total : r.settlement.values.sum = (entries.map EntryN.stake).sum
  kept : ∀ f ∈ r.fighters, r.settlement.get f.id = some (ring f + f.banked + f.unmatched) ∧
    0 ≤ f.unmatched ∧ f.unmatched ≤ ring f + f.banked + f.unmatched
  ids : r.fighters.map FighterN.id = entries.map EntryN.id

theorem start_nonneg (hstake : ∀ e ∈ entries, 0 < e.stake) : ∀ f ∈ (start p seed entries cfg).F, (purse f).Nonneg := by
  intro f hf
  obtain ⟨ie, -, hie, he⟩ := start_mem hf
  rw [he]
  exact startPurse_nonneg (fun e he => (hstake e he).le) hie

theorem start_seated (h : Whole cfg entries) :
    ∀ f ∈ (start p seed entries cfg).F, (purse f).Seated (nTeams cfg entries) := by
  intro f hf
  obtain ⟨ie, hi, hie, he⟩ := start_mem hf
  rw [he]
  exact startPurse_seated h hi hie

theorem start_bags (p : Platform) (seed : String) (entries : List EntryN) (cfg : CfgN) :
    (start p seed entries cfg).F.map bag = entries.map EntryN.stake := by
  have hstart := congrArg (List.map PurseN.bag) (start_purses p seed entries cfg)
  rw [List.map_map, List.map_map] at hstart
  refine hstart.trans ?_
  rw [← map_indexed]
  apply List.map_congr_left
  intro ie _
  exact startPurse_bag ie

theorem Moments.conserved {F : List FighterN} {hits : List HitN} (hstake : ∀ e ∈ entries, 0 < e.stake)
    (hwhole : Whole cfg entries) (h : Moments cfg.mode ((start p seed entries cfg).F, []) (F, hits)) :
    Conserved entries cfg.mode (start p seed entries cfg).F F hits := by
  have hexact : Exact cfg.mode (nTeams cfg entries) (start p seed entries cfg).F F := h.exact
  constructor
  case total => exact (hexact.fair.bags (start_seated hwhole)).trans (by rw [start_bags])
  case nonneg => exact hexact.fair.nonneg (start_nonneg hstake)
  case unmatched => exact hexact.unmatched
  case coins => exact fun hmode => hexact.coins hmode (start_seated hwhole)
  case landed => exact fun before hit after hsplit => h.landed (start_nonneg hstake) hsplit

/-- With one team only, no moment is a blow. -/
theorem Moments.alone {mode : Mode} {s s' : List FighterN × List HitN} {team : ℚ} (h : Moments mode s s')
    (halone : ∀ f ∈ s.1, f.team = team) : s'.1.map purse = s.1.map purse := by
  induction h with
  | refl => rfl
  | @tail s₁ s₂ hrun hstep ih =>
      have hteams : s₁.1.map FighterN.team = s.1.map FighterN.team := (Moments.exact (n := 0) hrun).teams
      have halone₁ : ∀ f ∈ s₁.1, f.team = team := by
        intro f hf
        have hmem : f.team ∈ s.1.map FighterN.team := hteams ▸ List.mem_map_of_mem hf
        obtain ⟨g, hg, he⟩ := List.mem_map.mp hmem
        rw [← he]
        exact halone g hg
      cases hstep with
      | stand hsame => exact hsame.trans ih
      | blow t plan hi hj hij hteam =>
          exact absurd ((halone₁ _ (fighterAt_mem hi)).trans (halone₁ _ (fighterAt_mem hj)).symm) hteam

theorem simulateN_fighters (p : Platform) (seed : String) (entries : List EntryN) (cfg : CfgN) :
    (simulateN p seed entries cfg).fighters = (fight p seed entries cfg).1.F ∧
      (simulateN p seed entries cfg).hits = (fight p seed entries cfg).1.hits ∧
      (simulateN p seed entries cfg).settlement = settlementOf (fight p seed entries cfg).1.F := by
  unfold simulateN
  rcases fight p seed entries cfg with ⟨w, endTick⟩
  exact ⟨rfl, rfl, rfl⟩

theorem settlementOf_get {F : List FighterN} (hF : (F.map FighterN.id).Nodup) {f : FighterN} (hf : f ∈ F) :
    (settlementOf F).get f.id = some (bag f) := by
  have hentries : (settlementOf F).entries = F.map fun f => (f.id, bag f) := OrderedMap.entries_foldl_set hF
  rw [OrderedMap.get_eq_some, hentries]
  exact List.mem_map.mpr ⟨f, hf, rfl⟩

theorem fight_ids (p : Platform) (seed : String) (entries : List EntryN) (cfg : CfgN) :
    (fight p seed entries cfg).1.F.map FighterN.id = entries.map EntryN.id := by
  have hfair := (fight_moments p seed entries cfg).exact (n := 0) |>.fair
  exact hfair.ids.trans (start_ids p seed entries cfg)

theorem simulateN_paidN (seed : String) (hids : (entries.map EntryN.id).Nodup) (hstake : ∀ e ∈ entries, 0 < e.stake)
    (hwhole : Whole cfg entries) : PaidN entries (simulateN p seed entries cfg) := by
  obtain ⟨hfighters, -, hsettlement⟩ := simulateN_fighters p seed entries cfg
  have hfight := fight_ids p seed entries cfg
  have hconserved := (fight_moments p seed entries cfg).conserved hstake hwhole
  constructor
  case total => exact simulateN_paid seed hids hwhole
  case ids =>
      rw [hfighters]
      exact hfight
  case kept =>
      intro f hf
      rw [hfighters] at hf
      obtain ⟨hown, hstolen, hbanked, hunmatched⟩ := hconserved.nonneg f hf
      have hring : 0 ≤ ring f := add_nonneg hown (List.sum_nonneg hstolen)
      change 0 ≤ f.banked at hbanked
      refine ⟨?_, hunmatched, by linarith⟩
      rw [hsettlement]
      exact settlementOf_get (by rwa [hfight]) hf

/-- A lobby with a single team gets its stakes back. -/
theorem simulateN_alone (seed : String) (hids : (entries.map EntryN.id).Nodup) {team : ℚ}
    (halone : ∀ f ∈ (start p seed entries cfg).F, f.team = team) {e : EntryN} (he : e ∈ entries) :
    (simulateN p seed entries cfg).settlement.get e.id = some e.stake := by
  obtain ⟨-, -, hsettlement⟩ := simulateN_fighters p seed entries cfg
  have hsame := (fight_moments p seed entries cfg).alone halone
  let idBag : PurseN → String × ℚ := fun u => (u.id, u.bag)
  have hbags := congrArg (List.map idBag) hsame
  rw [start_purses, List.map_map, List.map_map] at hbags
  have hmem : (e.id, e.stake) ∈ (fight p seed entries cfg).1.F.map (idBag ∘ purse) := by
    rw [hbags]
    obtain ⟨i, hi, rfl⟩ := List.mem_iff_getElem.mp he
    refine List.mem_map.mpr ⟨(i, entries[i]), List.mem_mapIdx.mpr ⟨i, hi, rfl⟩, ?_⟩
    exact Prod.ext rfl (startPurse_bag _)
  obtain ⟨f, hf, hpair⟩ := List.mem_map.mp hmem
  obtain ⟨hid, hbag⟩ := Prod.mk.inj hpair
  rw [hsettlement, ← hid, ← hbag]
  apply settlementOf_get _ hf
  rwa [fight_ids]

/-- After `m` ticks, or where the battle ended before. -/
def worldAfter (p : Platform) (seed : String) (entries : List EntryN) (cfg : CfgN) (m : ℕ) : World :=
  (ticks p cfg ⌊cfg.battleMs / cfg.tickMs⌋ m 0 (start p seed entries cfg)).1

/-- The battle of many teams conserves value, and matches its teams under the rule of the smallest. -/
theorem teams_conserve (p : Platform) (seed : String) (entries : List EntryN) (cfg : CfgN)
    (hids : (entries.map EntryN.id).Nodup) (hstake : ∀ e ∈ entries, 0 < e.stake) (hwhole : Whole cfg entries) :
    (∀ m, Conserved entries cfg.mode (start p seed entries cfg).F (worldAfter p seed entries cfg m).F
      (worldAfter p seed entries cfg m).hits) ∧
    (∃ m, (simulateN p seed entries cfg).fighters = (worldAfter p seed entries cfg m).F ∧
      (simulateN p seed entries cfg).hits = (worldAfter p seed entries cfg m).hits) ∧
    PaidN entries (simulateN p seed entries cfg) ∧
    (∀ team, (∀ f ∈ (start p seed entries cfg).F, f.team = team) →
      ∀ e ∈ entries, (simulateN p seed entries cfg).settlement.get e.id = some e.stake) ∧
    (cfg.matchRule = .min → ∀ k < cfg.teams, 0 < staked entries k →
      IsLeast {v | 0 < v ∧ ∃ j < cfg.teams, v = staked entries j} (inPlay (start p seed entries cfg).F k)) ∧
    (cfg.teams = 0 →
      (start p seed entries cfg).F.map (fun f => (f.own, f.unmatched)) = entries.map fun e => (e.stake, 0)) := by
  obtain ⟨hfighters, hhits, -⟩ := simulateN_fighters p seed entries cfg
  refine ⟨?_, ?_, ?_, ?_, ?_, ?_⟩
  · intro m
    exact (ticks_moments p cfg _ m 0 (start p seed entries cfg)).conserved hstake hwhole
  · exact ⟨⌊cfg.battleMs / cfg.tickMs⌋.toNat, hfighters, hhits⟩
  · exact simulateN_paidN seed hids hstake hwhole
  · exact fun team halone e he => simulateN_alone seed hids halone he
  · exact fun hrule k hk hpos => inPlay_min hrule hk hpos
  · exact start_ffa p seed entries

def threeWay : CfgN := ⟨.normal, 3, 1, 85 / 1000, 1 / 4, 100, 50, .min, fifty_ne_zero⟩

def threeEntries : List EntryN := [⟨"a|0", 0, 10⟩, ⟨"b|1", 1, 20⟩, ⟨"c|2", 2, 30⟩]

theorem teams_conserve_witness :
    (simulateN stillPlatform "seed" threeEntries threeWay).settlement.values.sum = 60 ∧
      inPlay (start stillPlatform "seed" threeEntries threeWay).F 2 ≤ 10 := by
  have hstake : ∀ e ∈ threeEntries, 0 < e.stake := by simp [threeEntries]
  have hwhole : Whole threeWay threeEntries := by
    right
    simp only [threeEntries, List.mem_cons, List.not_mem_nil, or_false, forall_eq_or_imp, forall_eq]
    exact ⟨⟨0, by decide, by norm_num⟩, ⟨1, by decide, by norm_num⟩, ⟨2, by decide, by norm_num⟩⟩
  have h := teams_conserve stillPlatform "seed" threeEntries threeWay (by decide) hstake hwhole
  obtain ⟨-, -, hpaid, -, hmin, -⟩ := h
  constructor
  · rw [hpaid.total]
    norm_num [threeEntries]
  · have hten : staked threeEntries 0 = 10 := by
      norm_num [staked, threeEntries, List.filter]
    have hthirty : 0 < staked threeEntries 2 := by
      norm_num [staked, threeEntries, List.filter]
    have hleast := hmin rfl 2 (by decide) hthirty
    exact hleast.2 ⟨by norm_num, 0, by decide, hten.symm⟩

def freeForAll : CfgN := ⟨.extraction, 0, 1, 85 / 1000, 1 / 4, 100, 50, .min, fifty_ne_zero⟩

/-- Matched by the rule of the smallest, a free-for-all still plays with unequal stakes. -/
theorem free_for_all_plays_unmatched :
    ¬ ∀ (p : Platform) (seed : String) (entries : List EntryN) (cfg : CfgN), (entries.map EntryN.id).Nodup →
      (∀ e ∈ entries, 0 < e.stake) → Whole cfg entries → 0 < cfg.hitCapFrac → cfg.hitCapFrac ≤ 1 →
      cfg.matchRule = .min → ∀ k < nTeams cfg entries, ∀ j < nTeams cfg entries,
      0 < (totals cfg entries).getD k 0 → 0 < (totals cfg entries).getD j 0 →
      inPlay (start p seed entries cfg).F k = inPlay (start p seed entries cfg).F j := by
  intro h
  have hstake : ∀ e ∈ threeEntries, 0 < e.stake := by simp [threeEntries]
  have hsame := h stillPlatform "seed" threeEntries freeForAll (by decide) hstake (.inl rfl)
    (by norm_num [freeForAll]) (by norm_num [freeForAll]) rfl 0 (by decide) 1 (by decide) (by decide +kernel)
    (by decide +kernel)
  revert hsame
  decide +kernel

end BullsUnicorns.Battle.N

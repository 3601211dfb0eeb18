import BullsUnicorns.Battle.Lemmas.Moments

/-!
# What a round of many teams pays

The matched book splits each stake into a part in play and a part kept out. What is paid sums to the stakes
when every team is one of the arena's.
-/

namespace BullsUnicorns.Battle.N

variable {p : Platform} {cfg : CfgN}

/-! ## The start -/

section
variable {entries : List EntryN}

/-- The purse of an entry as the matched book splits it. -/
def startPurse (cfg : CfgN) (entries : List EntryN) (ie : ℕ × EntryN) : PurseN :=
  let team := teamOf cfg ie.2 ie.1
  let inPlay := ie.2.stake * frac (totals cfg entries) (capPer cfg entries) team
  ⟨ie.2.id, team, inPlay, List.replicate (nTeams cfg entries) 0, 0, ie.2.stake - inPlay⟩

theorem purse_spawn (ie : ℕ × EntryN) (g : Rng) : purse ((spawn p cfg entries ie).run g).1 = startPurse cfg entries ie := rfl

theorem start_purses (p : Platform) (seed : String) (entries : List EntryN) (cfg : CfgN) :
    (start p seed entries cfg).F.map purse = (entries.mapIdx fun i e => (i, e)).map (startPurse cfg entries) :=
  map_mapM_run purse_spawn _ _

theorem mem_indexed {ie : ℕ × EntryN} (h : ie ∈ entries.mapIdx fun i e => (i, e)) :
    ie.1 < entries.length ∧ ie.2 ∈ entries := by
  obtain ⟨i, hi, rfl⟩ := List.mem_mapIdx.mp h
  exact ⟨hi, List.getElem_mem hi⟩

theorem capPer_nonneg {cap : ℚ} (hcap : capPer cfg entries = some cap) : 0 ≤ cap := by
  unfold capPer at hcap
  split at hcap
  · extract_lets sorted cap' at hcap
    split at hcap
    · rw [← Option.some.inj hcap]
      cases hv : sorted.find? fun v => 0 < v with
      | none => exact le_refl 0
      | some v =>
          have hpos : 0 < v := by simpa using List.find?_some hv
          exact hpos.le
    · next hpos =>
        rw [← Option.some.inj hcap]
        exact (not_le.mp hpos).le
  · cases hcap

/-- The part in play is a part. -/
theorem frac_mem (cfg : CfgN) (entries : List EntryN) (team : ℚ) :
    0 ≤ frac (totals cfg entries) (capPer cfg entries) team ∧ frac (totals cfg entries) (capPer cfg entries) team ≤ 1 := by
  have hone : (0 : ℚ) ≤ 1 ∧ (1 : ℚ) ≤ 1 := ⟨zero_le_one, le_refl 1⟩
  unfold frac
  split
  · split
    · next hpos =>
        split
        · next cap hcap => exact ⟨le_min zero_le_one (div_nonneg (capPer_nonneg hcap) hpos.le), min_le_left _ _⟩
        · exact hone
    · exact hone
  · exact hone

theorem startPurse_nonneg (h : ∀ e ∈ entries, 0 ≤ e.stake) {ie : ℕ × EntryN} (hie : ie.2 ∈ entries) :
    (startPurse cfg entries ie).Nonneg := by
  obtain ⟨h0, h1⟩ := frac_mem cfg entries (teamOf cfg ie.2 ie.1)
  have hstake := h ie.2 hie
  refine ⟨mul_nonneg hstake h0, fun v hv => (List.eq_of_mem_replicate hv).ge, le_refl 0, ?_⟩
  simp only [startPurse]
  nlinarith

theorem startPurse_bag (ie : ℕ × EntryN) : (startPurse cfg entries ie).bag = ie.2.stake := by
  simp only [startPurse, PurseN.bag, List.sum_replicate, smul_zero]
  ring

/-- Teams that the arena has. -/
def Whole (cfg : CfgN) (entries : List EntryN) : Prop := cfg.teams = 0 ∨ ∀ e ∈ entries, ∃ i < cfg.teams, e.team = (i : ℕ)

theorem startPurse_seated (h : Whole cfg entries) {ie : ℕ × EntryN} (hi : ie.1 < entries.length) (hie : ie.2 ∈ entries) :
    (startPurse cfg entries ie).Seated (nTeams cfg entries) := by
  refine ⟨List.length_replicate, ?_⟩
  by_cases hffa : cfg.teams = 0
  · exact ⟨ie.1, by simpa [nTeams, ffa, hffa] using hi, by simp [startPurse, teamOf, ffa, hffa]⟩
  · obtain ⟨i, hlt, he⟩ := (h.resolve_left hffa) ie.2 hie
    exact ⟨i, by simpa [nTeams, ffa, hffa] using hlt, by simp [startPurse, teamOf, ffa, hffa, he]⟩

/-! ## The payout -/

/-- The battle from its start to its end. -/
theorem fight_moments (p : Platform) (seed : String) (entries : List EntryN) (cfg : CfgN) :
    Moments cfg.mode ((start p seed entries cfg).F, [])
      ((fight p seed entries cfg).1.F, (fight p seed entries cfg).1.hits) :=
  ticks_moments p cfg _ _ 0 (start p seed entries cfg)

theorem simulateN_settlement (p : Platform) (seed : String) (entries : List EntryN) (cfg : CfgN) :
    ∃ F, (simulateN p seed entries cfg).settlement = settlementOf F ∧
      Fair (nTeams cfg entries) (start p seed entries cfg).F F := by
  refine ⟨(fight p seed entries cfg).1.F, ?_, (fight_moments p seed entries cfg).exact.fair⟩
  unfold simulateN
  rcases fight p seed entries cfg with ⟨w, endTick⟩
  rfl

theorem start_mem {f : FighterN} {seed : String} (h : f ∈ (start p seed entries cfg).F) :
    ∃ ie, ie.1 < entries.length ∧ ie.2 ∈ entries ∧ purse f = startPurse cfg entries ie := by
  have hmem : purse f ∈ (start p seed entries cfg).F.map purse := List.mem_map_of_mem h
  rw [start_purses] at hmem
  obtain ⟨ie, hie, he⟩ := List.mem_map.mp hmem
  exact ⟨ie, (mem_indexed hie).1, (mem_indexed hie).2, he.symm⟩

/-- Nobody is paid less than nothing. -/
theorem simulateN_nonneg (seed : String) (h : ∀ e ∈ entries, 0 ≤ e.stake) :
    ∀ pay ∈ (simulateN p seed entries cfg).settlement.values, 0 ≤ pay := by
  obtain ⟨F, hF, hfair⟩ := simulateN_settlement p seed entries cfg
  have hnonneg : ∀ f ∈ F, (purse f).Nonneg := by
    refine hfair.nonneg fun f hf => ?_
    obtain ⟨ie, -, hie, he⟩ := start_mem hf
    rw [he]
    exact startPurse_nonneg h hie
  intro pay hpay
  rw [hF] at hpay
  obtain ⟨f, hf, rfl⟩ := OrderedMap.mem_foldl_set hpay
  exact (hnonneg f hf).bag

theorem start_ids (p : Platform) (seed : String) (entries : List EntryN) (cfg : CfgN) :
    (start p seed entries cfg).F.map FighterN.id = entries.map EntryN.id := by
  have h1 := congrArg (List.map PurseN.id) (start_purses p seed entries cfg)
  rw [List.map_map, List.map_map] at h1
  refine h1.trans ?_
  refine List.ext_getElem (by simp) fun i hi hi' => ?_
  simp [startPurse]

/-- Nobody is paid but under the id of an entry. -/
theorem simulateN_listed (p : Platform) (seed : String) (entries : List EntryN) (cfg : CfgN) :
    ∀ pay ∈ (simulateN p seed entries cfg).settlement.entries, pay.1 ∈ entries.map EntryN.id := by
  obtain ⟨F, hF, hfair⟩ := simulateN_settlement p seed entries cfg
  intro pay hpay
  rw [hF] at hpay
  have hget : (settlementOf F).get pay.1 = some pay.2 := OrderedMap.get_eq_some.mpr hpay
  obtain ⟨f, hf, hid, -⟩ := OrderedMap.get_foldl_set hget
  rw [← hid, ← start_ids p seed entries cfg, ← hfair.ids]
  exact List.mem_map_of_mem hf

/-- Each entry is paid under its id. -/
theorem simulateN_keys (p : Platform) (seed : String) (cfg : CfgN) (hids : (entries.map EntryN.id).Nodup) :
    (simulateN p seed entries cfg).settlement.entries.map Prod.fst = entries.map EntryN.id ∧
      ∃ F, (simulateN p seed entries cfg).settlement.entries = F.map (fun f => (f.id, bag f)) ∧
        Fair (nTeams cfg entries) (start p seed entries cfg).F F := by
  obtain ⟨F, hF, hfair⟩ := simulateN_settlement p seed entries cfg
  have hstart := start_ids p seed entries cfg
  have hnodup : (F.map FighterN.id).Nodup := by rwa [hfair.ids, hstart]
  have hentries : (settlementOf F).entries = F.map fun f => (f.id, bag f) := OrderedMap.entries_foldl_set hnodup
  rw [hF, hentries]
  refine ⟨?_, F, rfl, hfair⟩
  rw [List.map_map, ← hstart, ← hfair.ids]
  rfl

/-- With entries of the arena's teams, all that was staked is paid. -/
theorem simulateN_paid (seed : String) (hids : (entries.map EntryN.id).Nodup) (h : Whole cfg entries) :
    ((simulateN p seed entries cfg).settlement.values).sum = (entries.map EntryN.stake).sum := by
  obtain ⟨-, F, hF, hfair⟩ := simulateN_keys p seed cfg hids
  have hseated : ∀ f ∈ (start p seed entries cfg).F, (purse f).Seated (nTeams cfg entries) := by
    intro f hf
    obtain ⟨ie, hi, hie, he⟩ := start_mem hf
    rw [he]
    exact startPurse_seated h hi hie
  have hstart : (start p seed entries cfg).F.map bag = entries.map EntryN.stake := by
    have h1 := congrArg (List.map PurseN.bag) (start_purses p seed entries cfg)
    rw [List.map_map, List.map_map] at h1
    refine h1.trans ?_
    refine List.ext_getElem (by simp) fun i hi hi' => ?_
    simp [startPurse_bag]
  have hvalues : (simulateN p seed entries cfg).settlement.values = F.map bag := by
    rw [OrderedMap.values, hF, List.map_map]
    rfl
  rw [hvalues, hfair.bags hseated, hstart]

end

end BullsUnicorns.Battle.N

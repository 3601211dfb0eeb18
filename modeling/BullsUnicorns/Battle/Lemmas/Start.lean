import BullsUnicorns.Battle.Lemmas.Steps

/-!
# The purses a battle starts with, and the payouts it ends with

The matched book splits each stake into a part in play and a part kept out; without a tolerance the two
sides start with the same amount in play.
-/

namespace BullsUnicorns.Battle

variable {p : Platform}

/-- What one stateful computation for each element yields, seen through a projection that the state does
not touch. -/
theorem map_mapM_run {α β γ σ : Type} {f : α → StateM σ β} {g : β → γ} {h : α → γ}
    (hf : ∀ a s, g ((f a).run s).1 = h a) (l : List α) (s : σ) :
    (((l.mapM f).run s).1).map g = l.map h := by
  induction l generalizing s with
  | nil => rfl
  | cons a l ih =>
      rw [List.mapM_cons, List.map_cons, ← hf a s, ← ih ((f a).run s).2]
      rfl

/-- The purse of an entry as the matched book splits it. -/
def startPurse (tot : Totals) (cfg : RoundConfig) (e : Entry) : Purse :=
  let inPlay := e.stake * inPlayFrac tot cfg e.side
  ⟨e.id, e.side, if e.side = .bull then inPlay else 0, if e.side = .uwu then inPlay else 0, 0, 0, e.stake - inPlay⟩

theorem purse_spawn (tot : Totals) (cfg : RoundConfig) (e : Entry) (g : Rng) :
    ((spawn p tot cfg e).run g).1.purse = startPurse tot cfg e := rfl

theorem createSim_purses (seed : String) (entries : List Entry) (cfg : RoundConfig) :
    (createSim p seed entries cfg).purses = entries.map (startPurse (totals entries) cfg) :=
  map_mapM_run (purse_spawn _ _) entries _

@[simp]
theorem createSim_cfg (seed : String) (entries : List Entry) (cfg : RoundConfig) :
    (createSim p seed entries cfg).cfg = cfg := rfl

@[simp]
theorem createSim_hits (seed : String) (entries : List Entry) (cfg : RoundConfig) :
    (createSim p seed entries cfg).hits = [] := rfl

theorem createSim_keyed (p : Platform) (seed : String) {entries : List Entry} (cfg : RoundConfig)
    (hids : (entries.map Entry.id).Nodup) : Table.Keyed Purse.id (createSim p seed entries cfg).purses := by
  rw [createSim_purses, Table.Keyed, List.map_map]
  exact hids

/-! ## Entries as the claim's sides -/

/-- What the entries of a side put up. -/
def staked (entries : List Entry) (side : Side) : ℚ :=
  ((entries.filter (fun e => e.side = side)).map Entry.stake).sum

/-- Entries of the two sides with positive stakes. -/
structure Entered (entries : List Entry) : Prop where
  side : ∀ e ∈ entries, e.side = .bull ∨ e.side = .uwu
  stake : ∀ e ∈ entries, 0 < e.stake

section
variable {entries : List Entry} {cfg : RoundConfig} {side : Side}

theorem stakedAs_eq (h : Entered entries) (hside : side = .bull ∨ side = .uwu) :
    stakedAs entries side.key = staked entries side := by
  rw [stakedAs, staked]
  congr 2
  refine List.filter_congr fun e he => ?_
  rcases h.side e he with hb | hu
  · rcases hside with rfl | rfl <;> simp [hb, Side.key]
  · rcases hside with rfl | rfl <;> simp [hu, Side.key]

theorem sum_filter {α : Type*} (f : α → ℚ) (c : α → Prop) [DecidablePred c] (l : List α) :
    (l.map fun a => if c a then f a else 0).sum = ((l.filter fun a => c a).map f).sum := by
  induction l with
  | nil => rfl
  | cons a l ih =>
      by_cases ha : c a
      · simp [ha, ih]
      · simp [ha, ih]

theorem staked_nonneg (h : Entered entries) (side : Side) : 0 ≤ staked entries side := by
  refine List.sum_nonneg fun x hx => ?_
  obtain ⟨e, he, rfl⟩ := List.mem_map.mp hx
  exact (h.stake e (List.mem_filter.mp he).1).le

theorem inPlayFrac_eq (cfg : RoundConfig) (h : Entered entries) (htol : cfg.matchTol.getD 0 = 0) :
    inPlayFrac (totals entries) cfg .bull =
        (if 0 < staked entries .bull then min 1 (staked entries .uwu / staked entries .bull) else 1) ∧
      inPlayFrac (totals entries) cfg .uwu =
        (if 0 < staked entries .uwu then min 1 (staked entries .bull / staked entries .uwu) else 1) := by
  have hb : (totals entries).bull = staked entries .bull := stakedAs_eq h (Or.inl rfl)
  have hu : (totals entries).uwu = staked entries .uwu := stakedAs_eq h (Or.inr rfl)
  constructor
  · simp [inPlayFrac, Totals.get, Side.key, htol, hb, hu]
  · simp [inPlayFrac, Totals.get, Side.key, htol, hb, hu]

/-- The part in play is a part. -/
theorem inPlayFrac_mem (cfg : RoundConfig) (h : Entered entries) (htol : cfg.matchTol.getD 0 = 0)
    (hside : side = .bull ∨ side = .uwu) :
    0 ≤ inPlayFrac (totals entries) cfg side ∧ inPlayFrac (totals entries) cfg side ≤ 1 := by
  obtain ⟨hb, hu⟩ := inPlayFrac_eq cfg h htol
  have hpart : ∀ a b : ℚ, 0 ≤ b →
      0 ≤ (if 0 < a then min 1 (b / a) else 1) ∧ (if 0 < a then min 1 (b / a) else 1) ≤ 1 := by
    intro a b hb
    split
    · next ha => exact ⟨le_min zero_le_one (div_nonneg hb ha.le), min_le_left _ _⟩
    · exact ⟨zero_le_one, le_refl 1⟩
  rcases hside with rfl | rfl
  · rw [hb]
    exact hpart _ _ (staked_nonneg h .uwu)
  · rw [hu]
    exact hpart _ _ (staked_nonneg h .bull)

theorem startPurse_nonneg (h : Entered entries) (htol : cfg.matchTol.getD 0 = 0) :
    ∀ u ∈ entries.map (startPurse (totals entries) cfg), u.Nonneg := by
  intro u hu
  obtain ⟨e, he, rfl⟩ := List.mem_map.mp hu
  obtain ⟨h0, h1⟩ := inPlayFrac_mem cfg h htol (h.side e he)
  have hplay : 0 ≤ e.stake * inPlayFrac (totals entries) cfg e.side := mul_nonneg (h.stake e he).le h0
  have hrest : 0 ≤ e.stake - e.stake * inPlayFrac (totals entries) cfg e.side := by
    nlinarith [h.stake e he]
  refine ⟨?_, ?_, le_refl 0, le_refl 0, hrest⟩
  · dsimp only [startPurse]
    split
    · exact hplay
    · exact le_refl 0
  · dsimp only [startPurse]
    split
    · exact hplay
    · exact le_refl 0

/-- A stake is in one purse, in its own token. -/
theorem bullIn_start (tot : Totals) (entries : List Entry) :
    bullIn (entries.map (startPurse tot cfg)) = staked entries .bull := by
  rw [bullIn, List.map_map, staked, ← sum_filter]
  congr 1
  refine List.map_congr_left fun e _ => ?_
  by_cases he : e.side = .bull
  · simp [startPurse, Purse.allBull, he]
  · simp [startPurse, Purse.allBull, he]

theorem uwuIn_start (tot : Totals) (entries : List Entry) :
    uwuIn (entries.map (startPurse tot cfg)) = staked entries .uwu := by
  rw [uwuIn, List.map_map, staked, ← sum_filter]
  congr 1
  refine List.map_congr_left fun e _ => ?_
  by_cases he : e.side = .uwu
  · simp [startPurse, Purse.allUwu, he]
  · simp [startPurse, Purse.allUwu, he]

theorem min_part {a b : ℚ} (ha : 0 ≤ a) (hb : 0 ≤ b) : a * (if 0 < a then min 1 (b / a) else 1) = min a b := by
  split
  · next h => rw [mul_min_of_nonneg _ _ ha, mul_one, mul_div_cancel₀ b h.ne']
  · next h =>
      have h0 : a = 0 := le_antisymm (not_lt.mp h) ha
      rw [h0, zero_mul, min_eq_left hb]

/-- Each side starts with what both can cover. -/
theorem inPlay_start (cfg : RoundConfig) (h : Entered entries) (htol : cfg.matchTol.getD 0 = 0) :
    ((entries.map (startPurse (totals entries) cfg)).map Purse.bull).sum =
        min (staked entries .bull) (staked entries .uwu) ∧
      ((entries.map (startPurse (totals entries) cfg)).map Purse.uwu).sum =
        min (staked entries .uwu) (staked entries .bull) := by
  obtain ⟨hb, hu⟩ := inPlayFrac_eq cfg h htol
  have hsum : ∀ side : Side, (entries.map fun e =>
      if e.side = side then e.stake * inPlayFrac (totals entries) cfg e.side else 0).sum =
        staked entries side * inPlayFrac (totals entries) cfg side := by
    intro side
    rw [sum_filter, staked, ← List.sum_map_mul_right]
    congr 1
    refine List.map_congr_left fun e he => ?_
    have hside : e.side = side := by simpa using (List.mem_filter.mp he).2
    rw [hside]
  constructor
  · rw [List.map_map, ← min_part (staked_nonneg h .bull) (staked_nonneg h .uwu), ← hb, ← hsum .bull]
    rfl
  · rw [List.map_map, ← min_part (staked_nonneg h .uwu) (staked_nonneg h .bull), ← hu, ← hsum .uwu]
    rfl

/-- With nobody on the other side, nothing is in play. -/
theorem startPurse_alone (h : Entered entries) (htol : cfg.matchTol.getD 0 = 0)
    (hside : side = .bull ∨ side = .uwu) (halone : ∀ e ∈ entries, e.side = side) {e : Entry} (he : e ∈ entries) :
    startPurse (totals entries) cfg e = ⟨e.id, side, 0, 0, 0, 0, e.stake⟩ := by
  have hnone : ∀ other : Side, other ≠ side → staked entries other = 0 := by
    intro other hne
    have hempty : entries.filter (fun e => e.side = other) = [] := by
      rw [List.filter_eq_nil_iff]
      intro e' he' hs
      exact hne ((of_decide_eq_true hs).symm.trans (halone e' he'))
    rw [staked, hempty]
    rfl
  have hpos : 0 < staked entries side := by
    have hall : entries.filter (fun e => e.side = side) = entries := by
      rw [List.filter_eq_self]
      exact fun e' he' => decide_eq_true (halone e' he')
    rw [staked, hall]
    refine List.sum_pos _ (fun x hx => ?_) (by simpa using List.ne_nil_of_mem he)
    obtain ⟨e', he', rfl⟩ := List.mem_map.mp hx
    exact h.stake e' he'
  obtain ⟨hb, hu⟩ := inPlayFrac_eq cfg h htol
  have hfrac : inPlayFrac (totals entries) cfg side = 0 := by
    rcases hside with rfl | rfl
    · rw [hb, if_pos hpos, hnone .uwu (by decide), zero_div]
      exact min_eq_right zero_le_one
    · rw [hu, if_pos hpos, hnone .bull (by decide), zero_div]
      exact min_eq_right zero_le_one
  simp [startPurse, halone e he, hfrac]

end

/-! ## The payouts -/

/-- Distinct ids: one payout for each fighter, in order. -/
theorem settlementOf_entries {F : List Fighter} (hF : (F.map Fighter.id).Nodup) :
    (settlementOf F).entries = F.map fun f => (f.id, payout f) := OrderedMap.entries_foldl_set hF

theorem settlementOf_get {F : List Fighter} (hF : (F.map Fighter.id).Nodup) {f : Fighter} (hf : f ∈ F) :
    (settlementOf F).get f.id = some (payout f) := by
  rw [OrderedMap.get_eq_some, settlementOf_entries hF]
  exact List.mem_map.mpr ⟨f, hf, rfl⟩

end BullsUnicorns.Battle

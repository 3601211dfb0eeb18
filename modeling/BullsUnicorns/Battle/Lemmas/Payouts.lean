import BullsUnicorns.Battle.Round
import BullsUnicorns.Battle.Theorems.Conservation

/-!
# What a round pays

The payouts of the round that a runner fights: never negative, whoever the entries are; and when the entries
are of the two sides, one for each, summing to the stakes.
-/

namespace BullsUnicorns.Battle

variable {p : Platform} {k : Tick}

/-! ## No purse is overdrawn -/

/-- Every fighter's purse is in order. -/
def Solvent (F : List Fighter) : Prop := ∀ f ∈ F, f.purse.Nonneg

theorem Solvent.of_purses {F F' : List Fighter} (h : Solvent F) (hp : F'.map Fighter.purse = F.map Fighter.purse) :
    Solvent F' := by
  intro f hf
  have hmem : f.purse ∈ F.map Fighter.purse := hp ▸ List.mem_map_of_mem hf
  obtain ⟨g, hg, he⟩ := List.mem_map.mp hmem
  exact he ▸ h g hg

theorem Solvent.set {F : List Fighter} (h : Solvent F) {f : Fighter} (hf : f.purse.Nonneg) (i : ℕ) : Solvent (F.set i f) := by
  intro g hg
  rcases List.mem_or_eq_of_mem_set hg with hg | rfl
  · exact h g hg
  · exact hf

theorem Solvent.at {F : List Fighter} (h : Solvent F) (i : ℕ) : (fighterAt F i).purse.Nonneg := by
  rw [fighterAt, List.getD_eq_getElem?_getD]
  cases hi : F[i]? with
  | none => exact ⟨le_refl _, le_refl _, le_refl _, le_refl _, le_refl _⟩
  | some f => exact h f (List.mem_of_getElem? hi)

/-- A blow takes a part of what is there. -/
theorem applyHit_nonneg (mode : Mode) (t : ℕ) {atk dfn : Fighter} (hits : List HitLog) (hit : Side × ℚ)
    (ha : atk.purse.Nonneg) (hd : dfn.purse.Nonneg) :
    (applyHit mode t atk dfn hits hit).1.purse.Nonneg ∧ (applyHit mode t atk dfn hits hit).2.1.purse.Nonneg := by
  rcases applyHit_cases mode t atk dfn hits hit with he | ⟨atk', dfn', amt, he, h0, hle, hatk, hdfn⟩
  · rw [he]
    exact ⟨ha, hd⟩
  · rw [he, hatk, hdfn]
    exact ⟨ha.gain h0.le, hd.lose hle⟩

theorem exchange_solvent {s : SimState} (h : Solvent s.F) (i j : ℕ) {a b : Fighter} (ha : a.purse.Nonneg)
    (hb : b.purse.Nonneg) : Solvent (exchange p k s i j a b).F := by
  unfold exchange
  rcases (damages p s.cfg k s.t s.steps a b).run s.rng with ⟨⟨dAB, dBA⟩, rng⟩
  obtain ⟨ha₁, hb₁⟩ := applyHit_nonneg s.cfg.mode s.t s.hits (planHit b dAB) ha hb
  rcases h₁ : applyHit s.cfg.mode s.t a b s.hits (planHit b dAB) with ⟨a₁, b₁, hits₁⟩
  rw [h₁] at ha₁ hb₁
  obtain ⟨hb₂, ha₂⟩ := applyHit_nonneg s.cfg.mode s.t hits₁ (planHit a dBA) hb₁ ha₁
  rcases h₂ : applyHit s.cfg.mode s.t b₁ a₁ hits₁ (planHit a dBA) with ⟨b₂, a₂, hits₂⟩
  rw [h₂] at hb₂ ha₂
  simp only [h₁, h₂]
  refine (h.set ?_ i).set ?_ j
  · rwa [purse_bury]
  · rwa [purse_bury]

theorem clash_solvent {s : SimState} (h : Solvent s.F) (ij : ℕ × ℕ) : Solvent (clash p k s ij).F := by
  unfold clash
  extract_lets a b dx dy d m
  split
  · exact h
  split
  · exact h
  obtain ⟨ha, hb⟩ := purse_bounce a b dx dy d m
  rcases hbounce : bounce a b dx dy d m with ⟨a', b'⟩
  rw [hbounce] at ha hb
  have ha' : a'.purse.Nonneg := ha ▸ h.at ij.1
  have hb' : b'.purse.Nonneg := hb ▸ h.at ij.2
  have hset : Solvent ((s.F.set ij.1 a').set ij.2 b') := (h.set ha' ij.1).set hb' ij.2
  dsimp only
  split
  · exact hset
  split
  · exact hset
  split
  · exact hset
  · exact exchange_solvent hset _ _ ha' hb'

theorem stepSim_solvent {s : SimState} (h : Solvent s.F) : Solvent (stepSim p s).F := by
  unfold stepSim
  split
  · exact h
  extract_lets A bulls unis k
  split
  · exact h
  split
  · exact h
  have hmoves := purses_moves (p := p) (k := k) A A s.F s.rng
  rcases hrun : (A.foldlM (move p k A) s.F).run s.rng with ⟨F, rng⟩
  rw [hrun] at hmoves
  have hF : Solvent F := h.of_purses hmoves
  have hclashes : ∀ (l : List (ℕ × ℕ)) (s : SimState), Solvent s.F → Solvent (l.foldl (clash p k) s).F := by
    intro l
    induction l with
    | nil => exact fun s hs => hs
    | cons ij l ih => exact fun s hs => ih _ (clash_solvent hs ij)
  have h1 := hclashes (pairs A) { s with F, rng } hF
  dsimp only
  split
  · exact h1
  · exact h1

/-! ## Nobody joins a battle -/

theorem ids_set {F : List Fighter} {i : ℕ} {f : Fighter} (h : f.id = (fighterAt F i).id) :
    (F.set i f).map Fighter.id = F.map Fighter.id := by
  refine List.ext_getElem (by simp) fun j hj hj' => ?_
  simp only [List.getElem_map, List.getElem_set]
  split
  · next hij =>
      subst hij
      have hi : i < F.length := by simpa using hj'
      rw [h, fighterAt, List.getD_eq_getElem?_getD, List.getElem?_eq_getElem hi, Option.getD_some]
  · rfl

theorem ids_fighterAt {F G : List Fighter} (h : G.map Fighter.id = F.map Fighter.id) (i : ℕ) :
    (fighterAt G i).id = (fighterAt F i).id := by
  have hat : ∀ F : List Fighter, (fighterAt F i).id = ((F.map Fighter.id)[i]?).getD (default : Fighter).id := by
    intro F
    rw [fighterAt, List.getD_eq_getElem?_getD, List.getElem?_map]
    cases F[i]? <;> rfl
  rw [hat, hat, h]

theorem applyHit_ids (mode : Mode) (t : ℕ) (atk dfn : Fighter) (hits : List HitLog) (hit : Side × ℚ) :
    (applyHit mode t atk dfn hits hit).1.id = atk.id ∧ (applyHit mode t atk dfn hits hit).2.1.id = dfn.id := by
  rcases applyHit_cases mode t atk dfn hits hit with he | ⟨atk', dfn', amt, he, -, -, hatk, hdfn⟩
  · rw [he]
    exact ⟨rfl, rfl⟩
  · rw [he]
    have h1 := congrArg Purse.id hatk
    have h2 := congrArg Purse.id hdfn
    rw [Purse.gain_id] at h1
    rw [Purse.lose_id] at h2
    exact ⟨h1, h2⟩

theorem exchange_ids (s : SimState) (i j : ℕ) {a b : Fighter} (ha : a.id = (fighterAt s.F i).id)
    (hb : b.id = (fighterAt s.F j).id) : (exchange p k s i j a b).F.map Fighter.id = s.F.map Fighter.id := by
  unfold exchange
  rcases (damages p s.cfg k s.t s.steps a b).run s.rng with ⟨⟨dAB, dBA⟩, rng⟩
  obtain ⟨ha₁, hb₁⟩ := applyHit_ids s.cfg.mode s.t a b s.hits (planHit b dAB)
  rcases h₁ : applyHit s.cfg.mode s.t a b s.hits (planHit b dAB) with ⟨a₁, b₁, hits₁⟩
  rw [h₁] at ha₁ hb₁
  obtain ⟨hb₂, ha₂⟩ := applyHit_ids s.cfg.mode s.t b₁ a₁ hits₁ (planHit a dBA)
  rcases h₂ : applyHit s.cfg.mode s.t b₁ a₁ hits₁ (planHit a dBA) with ⟨b₂, a₂, hits₂⟩
  rw [h₂] at hb₂ ha₂
  simp only [h₁, h₂]
  have hbury : ∀ f : Fighter, (bury f).id = f.id := fun f => congrArg Purse.id (purse_bury f)
  have hfirst : (s.F.set i (bury a₂)).map Fighter.id = s.F.map Fighter.id :=
    ids_set (by rw [hbury, ha₂, ha₁, ha])
  rw [ids_set (by rw [hbury, hb₂, hb₁, hb, ids_fighterAt hfirst]), hfirst]

theorem clash_ids (s : SimState) (ij : ℕ × ℕ) : (clash p k s ij).F.map Fighter.id = s.F.map Fighter.id := by
  unfold clash
  extract_lets a b dx dy d m
  split
  · rfl
  split
  · rfl
  obtain ⟨ha, hb⟩ := purse_bounce a b dx dy d m
  rcases hbounce : bounce a b dx dy d m with ⟨a', b'⟩
  rw [hbounce] at ha hb
  have ha' : a'.id = a.id := congrArg Purse.id ha
  have hb' : b'.id = b.id := congrArg Purse.id hb
  have hfirst : (s.F.set ij.1 a').map Fighter.id = s.F.map Fighter.id := ids_set ha'
  have hset : ((s.F.set ij.1 a').set ij.2 b').map Fighter.id = s.F.map Fighter.id := by
    rw [ids_set (by rw [hb', ids_fighterAt hfirst]), hfirst]
  dsimp only
  split
  · exact hset
  split
  · exact hset
  split
  · exact hset
  · rw [exchange_ids _ _ _ (by rw [ha', ids_fighterAt hset]) (by rw [hb', ids_fighterAt hset])]
    exact hset

theorem stepSim_ids (s : SimState) : (stepSim p s).F.map Fighter.id = s.F.map Fighter.id := by
  unfold stepSim
  split
  · rfl
  extract_lets A bulls unis k
  split
  · rfl
  split
  · rfl
  have hmoves := purses_moves (p := p) (k := k) A A s.F s.rng
  rcases hrun : (A.foldlM (move p k A) s.F).run s.rng with ⟨F, rng⟩
  rw [hrun] at hmoves
  have hF : F.map Fighter.id = s.F.map Fighter.id := by
    have h1 := congrArg (List.map Purse.id) hmoves
    rwa [List.map_map, List.map_map] at h1
  have hclashes : ∀ (l : List (ℕ × ℕ)) (s : SimState), (l.foldl (clash p k) s).F.map Fighter.id = s.F.map Fighter.id := by
    intro l
    induction l with
    | nil => exact fun s => rfl
    | cons ij l ih => exact fun s => (ih _).trans (clash_ids s ij)
  have h1 := (hclashes (pairs A) { s with F, rng }).trans hF
  dsimp only
  split
  · exact h1
  · exact h1

/-! ## The start, whoever the entries are -/

theorem stakedAs_nonneg {entries : List Entry} (h : ∀ e ∈ entries, 0 ≤ e.stake) (key : String) :
    0 ≤ stakedAs entries key := by
  refine List.sum_nonneg fun x hx => ?_
  obtain ⟨e, he, rfl⟩ := List.mem_map.mp hx
  exact h e (List.mem_filter.mp he).1

theorem startPurse_solvent {entries : List Entry} {cfg : RoundConfig} (h : ∀ e ∈ entries, 0 ≤ e.stake)
    (htol : cfg.matchTol.getD 0 = 0) {e : Entry} (he : 0 ≤ e.stake) : (startPurse (totals entries) cfg e).Nonneg := by
  have hfrac : 0 ≤ inPlayFrac (totals entries) cfg e.side ∧ inPlayFrac (totals entries) cfg e.side ≤ 1 := by
    have hcap : 0 ≤ (if e.side = .bull then (totals entries).uwu else (totals entries).bull) := by
      split
      · exact stakedAs_nonneg h _
      · exact stakedAs_nonneg h _
    simp only [inPlayFrac, htol, add_zero, mul_one]
    split
    · split
      · next hpos => exact ⟨le_min zero_le_one (div_nonneg hcap hpos.le), min_le_left _ _⟩
      · exact ⟨zero_le_one, le_refl 1⟩
    · exact ⟨zero_le_one, le_refl 1⟩
  have hplay : 0 ≤ e.stake * inPlayFrac (totals entries) cfg e.side := mul_nonneg he hfrac.1
  have hrest : 0 ≤ e.stake - e.stake * inPlayFrac (totals entries) cfg e.side := by nlinarith [hfrac.2]
  unfold startPurse
  refine ⟨?_, ?_, le_refl 0, le_refl 0, hrest⟩
  · dsimp only
    split
    · exact hplay
    · exact le_refl 0
  · dsimp only
    split
    · exact hplay
    · exact le_refl 0

theorem createSim_solvent {entries : List Entry} {cfg : RoundConfig} (seed : String) (h : ∀ e ∈ entries, 0 ≤ e.stake)
    (htol : cfg.matchTol.getD 0 = 0) : Solvent (createSim p seed entries cfg).F := by
  intro f hf
  have hmem : f.purse ∈ (createSim p seed entries cfg).purses := List.mem_map_of_mem hf
  rw [createSim_purses] at hmem
  obtain ⟨e, he, hpurse⟩ := List.mem_map.mp hmem
  rw [← hpurse]
  exact startPurse_solvent h htol (h e he)

/-! ## The round that is fought -/

/-- The last state of a round, which ticks lead to from its start. -/
theorem fightRound_end (p : Platform) (seed : String) (entries : List Entry) (cfg : RoundConfig) :
    ∃ s, fightRound p seed entries cfg = { finishSim s with seedHash := seedHash p seed } ∧
      Plays (createSim p seed entries cfg) s ∧
      ((∀ e ∈ entries, 0 ≤ e.stake) → cfg.matchTol.getD 0 = 0 → Solvent s.F) := by
  obtain ⟨s, hs⟩ := simulate_some (p := p) (createSim p seed entries cfg)
  refine ⟨s, ?_, ?_, ?_⟩
  · rw [fightRound]
    simp only [hs, Option.get_some]
  · exact (Loop.whileNot_invariant (fun s hs _ => Plays.tick p hs) .start hs).1
  · intro h htol
    exact (Loop.whileNot_invariant (I := fun s => Solvent s.F) (fun s hs _ => stepSim_solvent hs)
      (createSim_solvent seed h htol) hs).1

/-- Nobody is paid less than nothing. -/
theorem fightRound_nonneg {entries : List Entry} {cfg : RoundConfig} (seed : String) (h : ∀ e ∈ entries, 0 ≤ e.stake)
    (htol : cfg.matchTol.getD 0 = 0) :
    ∀ pay ∈ (fightRound p seed entries cfg).settlement.values, 0 ≤ pay.bull ∧ 0 ≤ pay.uwu := by
  obtain ⟨s, he, -, hsolvent⟩ := fightRound_end p seed entries cfg
  intro pay hpay
  rw [he] at hpay
  obtain ⟨f, hf, rfl⟩ := OrderedMap.mem_foldl_set hpay
  obtain ⟨h1, h2, h3, h4, h5⟩ := hsolvent h htol f hf
  change 0 ≤ f.bull at h1
  change 0 ≤ f.uwu at h2
  change 0 ≤ f.sBull at h3
  change 0 ≤ f.sUwu at h4
  change 0 ≤ f.unmatched at h5
  constructor
  · simp only [payout]
    split <;> linarith
  · simp only [payout]
    split <;> linarith

/-- Nobody is paid but under the id of an entry. -/
theorem fightRound_keys (p : Platform) (seed : String) (entries : List Entry) (cfg : RoundConfig) :
    ∀ pay ∈ (fightRound p seed entries cfg).settlement.entries, pay.1 ∈ entries.map Entry.id := by
  obtain ⟨s, hs⟩ := simulate_some (p := p) (createSim p seed entries cfg)
  have hids : s.F.map Fighter.id = (createSim p seed entries cfg).F.map Fighter.id :=
    (Loop.whileNot_invariant (I := fun s => s.F.map Fighter.id = (createSim p seed entries cfg).F.map Fighter.id)
      (fun s hs _ => (stepSim_ids s).trans hs) rfl hs).1
  have hstart : (createSim p seed entries cfg).F.map Fighter.id = entries.map Entry.id := by
    have h1 := congrArg (List.map Purse.id) (createSim_purses (p := p) seed entries cfg)
    rw [List.map_map] at h1
    simpa [SimState.purses, List.map_map, Function.comp_def, Fighter.purse, startPurse] using h1
  intro pay hpay
  have hsettlement : (fightRound p seed entries cfg).settlement = settlementOf s.F := by
    rw [fightRound]
    simp only [hs, Option.get_some]
    rfl
  rw [hsettlement] at hpay
  have hget : (settlementOf s.F).get pay.1 = some pay.2 := OrderedMap.get_eq_some.mpr hpay
  obtain ⟨f, hf, hid, -⟩ := OrderedMap.get_foldl_set hget
  rw [← hid, ← hstart, ← hids]
  exact List.mem_map_of_mem hf

/-- With entries of the two sides, each is paid under its id and all that was staked is paid. -/
theorem fightRound_paid {entries : List Entry} {cfg : RoundConfig} (seed : String) (hids : (entries.map Entry.id).Nodup)
    (hentered : Entered entries) (htol : cfg.matchTol.getD 0 = 0) :
    (fightRound p seed entries cfg).settlement.entries.map Prod.fst = entries.map Entry.id ∧
      Paid entries (fightRound p seed entries cfg) := by
  obtain ⟨s, he, hplays, -⟩ := fightRound_end p seed entries cfg
  rw [he]
  refine ⟨?_, hplays.paid hids hentered htol _⟩
  have hkeyed := createSim_keyed p seed cfg hids
  obtain ⟨-, -, new, -, -, hreplay⟩ := hplays.struck hkeyed
  have hseats : s.purses.map Purse.seat = (createSim p seed entries cfg).purses.map Purse.seat := by
    rw [hreplay]
    exact replay_seats _ _ new
  have hF : s.F.map Fighter.id = entries.map Entry.id := by
    have h1 := congrArg (List.map Prod.fst) hseats
    rw [createSim_purses] at h1
    simpa [SimState.purses, List.map_map, Function.comp_def, Purse.seat, Fighter.purse, startPurse] using h1
  have hnodup : (s.F.map Fighter.id).Nodup := hF ▸ hids
  change (settlementOf s.F).entries.map Prod.fst = _
  rw [settlementOf_entries hnodup, List.map_map, ← hF]
  rfl

end BullsUnicorns.Battle

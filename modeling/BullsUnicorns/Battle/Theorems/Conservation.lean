import BullsUnicorns.Battle.Lemmas.Start

/-!
# The battle moves value and never makes or hides any

What holds at the start, after every tick and in the payout, wherever the fighters stand and whatever the
square roots and the random numbers are.
-/

namespace BullsUnicorns.Battle

/-- Fighters that differ only in where they are, how fast, and how large. -/
def Placed (f g : Fighter) : Prop := ∃ x y vx vy r, g = { f with x := x, y := y, vx := vx, vy := vy, r := r }

/-- A battle under way: each tick with its own square roots, and between ticks any places and any
random numbers. -/
inductive Plays (s₀ : SimState) : SimState → Prop
  | start : Plays s₀ s₀
  | tick (p : Platform) {s : SimState} : Plays s₀ s → Plays s₀ (stepSim p s)
  | place {s : SimState} {F : List Fighter} (rng : Rng) : Plays s₀ s → List.Forall₂ Placed s.F F →
      Plays s₀ { s with F := F, rng := rng }

/-- What holds of a battle between the start `s₀` and a later state. -/
structure Honest (entries : List Entry) (s₀ s : SimState) : Prop where
  bull : (s.F.map fun f => f.bull + f.sBull).sum +
    ((s.F.filter (fun f => f.side = .bull)).map Fighter.unmatched).sum = staked entries .bull
  uwu : (s.F.map fun f => f.uwu + f.sUwu).sum +
    ((s.F.filter (fun f => f.side = .uwu)).map Fighter.unmatched).sum = staked entries .uwu
  nonneg : ∀ f ∈ s.F, f.purse.Nonneg
  crossing : ∀ h ∈ s.hits, ∃ a ∈ s.F, ∃ d ∈ s.F, a.id = h.atk ∧ d.id = h.dfn ∧ a.side ≠ d.side ∧
    walletOf a.id ≠ walletOf d.id
  held : ∀ before h after, s.hits = before ++ h :: after →
    ∃ d ∈ replay s₀.cfg.mode s₀.purses before, d.id = h.dfn ∧ h.amt ≤ d.held h.tk
  replayed : s.purses = replay s₀.cfg.mode s₀.purses s.hits

/-- What holds of a payout. -/
structure Paid (entries : List Entry) (r : RoundResult) : Prop where
  bull : (r.settlement.values.map Payout.bull).sum = staked entries .bull
  uwu : (r.settlement.values.map Payout.uwu).sum = staked entries .uwu
  kept : ∀ f ∈ r.fighters, ∃ pay, r.settlement.get f.id = some pay ∧ 0 ≤ pay.bull ∧ 0 ≤ pay.uwu ∧
    (f.side = .bull → f.unmatched ≤ pay.bull) ∧ (f.side = .uwu → f.unmatched ≤ pay.uwu)
  alone : ∀ side, (∀ e ∈ entries, e.side = side) → ∀ e ∈ entries,
    r.settlement.get e.id = some (if side = .bull then ⟨e.stake, 0⟩ else ⟨0, e.stake⟩)

/-! ## The run -/

theorem purses_placed {F G : List Fighter} (h : List.Forall₂ Placed F G) :
    G.map Fighter.purse = F.map Fighter.purse := by
  induction h with
  | nil => rfl
  | cons hfg _ ih =>
      obtain ⟨x, y, vx, vy, r, rfl⟩ := hfg
      rw [List.map_cons, List.map_cons, ih]
      rfl

/-- Along a battle the log is a list of fair hits, and the purses are what it replays to. -/
theorem Plays.struck {s₀ s : SimState} (h : Plays s₀ s) (hF : Table.Keyed Purse.id s₀.purses) :
    s.cfg = s₀.cfg ∧ s.steps = s₀.steps ∧ Struck s₀.cfg.mode s₀.purses s₀.hits s.purses s.hits := by
  induction h with
  | start => exact ⟨rfl, rfl, Struck.refl _ _ _⟩
  | tick p _ ih =>
      obtain ⟨hcfg, hsteps, hstruck⟩ := ih
      have htick := stepSim_ticked (p := p) (hstruck.keyed hF)
      exact ⟨htick.cfg.trans hcfg, htick.steps.trans hsteps, hstruck.trans (hcfg ▸ htick.struck)⟩
  | @place s F rng _ hplaced ih =>
      obtain ⟨hcfg, hsteps, hstruck⟩ := ih
      have hsame : SimState.purses { s with F := F, rng := rng } = s.purses := purses_placed hplaced
      exact ⟨hcfg, hsteps, hsame ▸ hstruck⟩

theorem sum_split {α : Type*} (l : List α) (f g : α → ℚ) (c : α → Prop) [DecidablePred c] :
    (l.map fun a => f a + if c a then g a else 0).sum = (l.map f).sum + ((l.filter (fun a => c a)).map g).sum := by
  induction l with
  | nil => simp
  | cons a l ih =>
      by_cases hc : c a
      · simp only [List.map_cons, List.sum_cons, List.filter_cons, ih, hc, if_true, decide_true]
        ring
      · simp only [List.map_cons, List.sum_cons, List.filter_cons, ih, hc, if_false, decide_false,
          Bool.false_eq_true]
        ring

section
variable {p : Platform} {seed : String} {entries : List Entry} {cfg : RoundConfig}

theorem start_balanced (h : Entered entries) (htol : cfg.matchTol.getD 0 = 0) :
    Balanced (createSim p seed entries cfg).purses (createSim p seed entries cfg).purses :=
  ⟨rfl, rfl, rfl, by rw [createSim_purses]; exact startPurse_nonneg h htol⟩

theorem bullIn_fighters (F : List Fighter) : bullIn (F.map Fighter.purse) =
    (F.map fun f => f.bull + f.sBull).sum + ((F.filter (fun f => f.side = .bull)).map Fighter.unmatched).sum := by
  rw [bullIn, List.map_map, ← sum_split]
  rfl

theorem uwuIn_fighters (F : List Fighter) : uwuIn (F.map Fighter.purse) =
    (F.map fun f => f.uwu + f.sUwu).sum + ((F.filter (fun f => f.side = .uwu)).map Fighter.unmatched).sum := by
  rw [uwuIn, List.map_map, ← sum_split]
  rfl

theorem fighter_of_seat {B : List Purse} {F : List Fighter} (h : (F.map Fighter.purse).map Purse.seat = B.map Purse.seat)
    {u : Purse} (hu : u ∈ B) : ∃ f ∈ F, f.id = u.id ∧ f.side = u.side ∧ f.unmatched = u.unmatched := by
  have hmem : u.seat ∈ (F.map Fighter.purse).map Purse.seat := h ▸ List.mem_map_of_mem hu
  obtain ⟨f', hf', he⟩ := List.mem_map.mp hmem
  obtain ⟨f, hf, rfl⟩ := List.mem_map.mp hf'
  refine ⟨f, hf, ?_, ?_, ?_⟩
  · exact congrArg Prod.fst he
  · exact congrArg (fun x => x.2.1) he
  · exact congrArg (fun x => x.2.2) he

theorem Plays.honest (hids : (entries.map Entry.id).Nodup) (h : Entered entries)
    (htol : cfg.matchTol.getD 0 = 0) {s : SimState} (hs : Plays (createSim p seed entries cfg) s) :
    Honest entries (createSim p seed entries cfg) s := by
  have hkeyed := createSim_keyed p seed cfg hids
  obtain ⟨-, -, new, hnew, hfair, hreplay⟩ := hs.struck hkeyed
  rw [createSim_hits, List.nil_append] at hnew
  subst hnew
  have hbal := replay_balanced hkeyed (start_balanced h htol) hfair
  rw [← hreplay] at hbal
  have hseats : (s.F.map Fighter.purse).map Purse.seat =
      (createSim p seed entries cfg).purses.map Purse.seat := hbal.seats
  refine ⟨?_, ?_, ?_, ?_, ?_, hreplay⟩
  · rw [← bullIn_fighters, ← bullIn_start (totals entries) entries, ← createSim_purses (p := p) seed]
    exact hbal.bull
  · rw [← uwuIn_fighters, ← uwuIn_start (totals entries) entries, ← createSim_purses (p := p) seed]
    exact hbal.uwu
  · intro f hf
    exact hbal.nonneg f.purse (List.mem_map_of_mem hf)
  · intro hit hhit
    obtain ⟨before, after, hsplit⟩ := List.append_of_mem hhit
    rw [hsplit, allFair_append] at hfair
    obtain ⟨a, ha, d, hd, hatk, hdfn, hside, hwallet, -⟩ := hfair.2.1.exchange
    have hseats' := hseats.trans (replay_seats cfg.mode _ before).symm
    obtain ⟨fa, hfa, haid, haside, -⟩ := fighter_of_seat hseats' ha
    obtain ⟨fd, hfd, hdid, hdside, -⟩ := fighter_of_seat hseats' hd
    refine ⟨fa, hfa, fd, hfd, haid.trans hatk, hdid.trans hdfn, ?_, ?_⟩
    · rwa [haside, hdside]
    · rwa [haid, hdid]
  · intro before hit after hsplit
    rw [hsplit, allFair_append] at hfair
    obtain ⟨-, -, d, hd, -, hdfn, -, -, hle⟩ := hfair.2.1.exchange
    exact ⟨d, hd, hdfn, hle⟩

/-- With one side only, no hit is ever fair. -/
theorem Plays.alone (hids : (entries.map Entry.id).Nodup) {side : Side} (halone : ∀ e ∈ entries, e.side = side)
    {s : SimState} (hs : Plays (createSim p seed entries cfg) s) :
    s.purses = (createSim p seed entries cfg).purses := by
  have hkeyed := createSim_keyed p seed cfg hids
  obtain ⟨-, -, new, -, hfair, hreplay⟩ := hs.struck hkeyed
  cases new with
  | nil => exact hreplay
  | cons hit new =>
      obtain ⟨a, ha, d, hd, -, -, hside, -⟩ := hfair.1.exchange
      rw [createSim_purses] at ha hd
      obtain ⟨ea, hea, rfl⟩ := List.mem_map.mp ha
      obtain ⟨ed, hed, rfl⟩ := List.mem_map.mp hd
      exact absurd ((halone ea hea).trans (halone ed hed).symm) hside

theorem Plays.paid (hids : (entries.map Entry.id).Nodup) (h : Entered entries)
    (htol : cfg.matchTol.getD 0 = 0) {s : SimState} (hs : Plays (createSim p seed entries cfg) s) (hash : String) :
    Paid entries { finishSim s with seedHash := hash } := by
  have hkeyed := createSim_keyed p seed cfg hids
  obtain ⟨-, -, hstruck⟩ := hs.struck hkeyed
  have hF : (s.F.map Fighter.id).Nodup := by
    have h1 := hstruck.keyed hkeyed
    rwa [Table.Keyed, SimState.purses, List.map_map] at h1
  have hhonest := hs.honest hids h htol
  have hvalues : (settlementOf s.F).values = s.F.map payout := by
    rw [OrderedMap.values, settlementOf_entries hF, List.map_map]
    rfl
  refine ⟨?_, ?_, ?_, ?_⟩
  · rw [← hhonest.bull, ← sum_split]
    change ((settlementOf s.F).values.map Payout.bull).sum = _
    rw [hvalues, List.map_map]
    rfl
  · rw [← hhonest.uwu, ← sum_split]
    change ((settlementOf s.F).values.map Payout.uwu).sum = _
    rw [hvalues, List.map_map]
    rfl
  · intro f hf
    obtain ⟨h1, h2, h3, h4, h5⟩ := hhonest.nonneg f hf
    change 0 ≤ f.bull at h1
    change 0 ≤ f.uwu at h2
    change 0 ≤ f.sBull at h3
    change 0 ≤ f.sUwu at h4
    change 0 ≤ f.unmatched at h5
    have hkept : ∀ (c : Prop) [Decidable c] (a b : ℚ), 0 ≤ a → 0 ≤ b →
        0 ≤ (a + b + if c then f.unmatched else 0) ∧ (c → f.unmatched ≤ a + b + if c then f.unmatched else 0) := by
      intro c _ a b ha hb
      by_cases hc : c
      · simp only [hc, if_true]
        exact ⟨by linarith, fun _ => by linarith⟩
      · simp only [hc, if_false]
        exact ⟨by linarith, False.elim⟩
    refine ⟨payout f, settlementOf_get hF hf, ?_, ?_, ?_, ?_⟩
    · exact (hkept (f.side = .bull) f.bull f.sBull h1 h3).1
    · exact (hkept (f.side = .uwu) f.uwu f.sUwu h2 h4).1
    · exact (hkept (f.side = .bull) f.bull f.sBull h1 h3).2
    · exact (hkept (f.side = .uwu) f.uwu f.sUwu h2 h4).2
  · intro side halone e he
    have hpurses := hs.alone hids halone
    rw [createSim_purses] at hpurses
    have hmem : startPurse (totals entries) cfg e ∈ s.F.map Fighter.purse := by
      rw [SimState.purses] at hpurses
      rw [hpurses]
      exact List.mem_map_of_mem he
    obtain ⟨f, hf, hpurse⟩ := List.mem_map.mp hmem
    have hside : side = .bull ∨ side = .uwu := halone e he ▸ h.side e he
    rw [startPurse_alone h htol hside halone he, Fighter.purse] at hpurse
    injection hpurse with hid hfside hbull huwu hsBull hsUwu hunmatched
    change (settlementOf s.F).get e.id = _
    rw [← hid, settlementOf_get hF hf]
    rcases hside with rfl | rfl
    · simp [payout, hfside, hbull, huwu, hsBull, hsUwu, hunmatched]
    · simp [payout, hfside, hbull, huwu, hsBull, hsUwu, hunmatched]

/-- The loop of a round ends, in a state that ticks from its start reach. -/
theorem simulate_ends (p : Platform) (seed : String) (cfg : RoundConfig) (hids : (entries.map Entry.id).Nodup) : ∃ n, ∀ fuel, n ≤ fuel → ∃ s,
    simulate p fuel (createSim p seed entries cfg) = some s ∧ Plays (createSim p seed entries cfg) s := by
  have hkeyed := createSim_keyed p seed cfg hids
  let s₀ := createSim p seed entries cfg
  -- the ticks left before the clock runs out
  let left : SimState → ℕ := fun s => (s₀.steps - s.t).toNat
  have hstep : ∀ s, Plays s₀ s → s.done = false →
      Plays s₀ (stepSim p s) ∧ ((stepSim p s).done = true ∨ left (stepSim p s) < left s) := by
    intro s hs _
    obtain ⟨-, hsteps, hstruck⟩ := hs.struck hkeyed
    refine ⟨.tick p hs, ?_⟩
    rcases (stepSim_ticked (p := p) (hstruck.keyed hkeyed)).clock with hdone | ⟨ht, hlt⟩
    · exact Or.inl hdone
    · right
      rw [hsteps] at hlt
      simp only [left]
      omega
  refine ⟨left s₀ + 1, fun fuel hfuel => ?_⟩
  obtain ⟨s, hs⟩ := Loop.whileNot_ends left hstep .start (Nat.lt_of_succ_le hfuel)
  have hplays := Loop.whileNot_invariant (fun s hs _ => Plays.tick p hs) .start hs
  exact ⟨s, hs, hplays.1⟩

end

/-- The two-team battle moves value and never creates or hides it. -/
theorem battle_conserves (p : Platform) (seed : String) (entries : List Entry) (cfg : RoundConfig)
    (hids : (entries.map Entry.id).Nodup) (hentered : Entered entries) (htol : cfg.matchTol.getD 0 = 0) :
    ((createSim p seed entries cfg).F.map Fighter.bull).sum =
        ((createSim p seed entries cfg).F.map Fighter.uwu).sum ∧
      (∀ s, Plays (createSim p seed entries cfg) s →
        Honest entries (createSim p seed entries cfg) s ∧ Paid entries (finishSim s)) ∧
      ∃ n, ∀ fuel, n ≤ fuel → ∃ s, simulate p fuel (createSim p seed entries cfg) = some s ∧
        Honest entries (createSim p seed entries cfg) s ∧
        simulateRound p fuel seed entries cfg = some { finishSim s with seedHash := seedHash p seed } ∧
        Paid entries { finishSim s with seedHash := seedHash p seed } := by
  refine ⟨?_, fun s hs => ⟨hs.honest hids hentered htol, hs.paid hids hentered htol ""⟩, ?_⟩
  · obtain ⟨hbull, huwu⟩ := inPlay_start cfg hentered htol
    rw [← createSim_purses (p := p) seed, SimState.purses, List.map_map] at hbull huwu
    rw [min_comm, ← hbull] at huwu
    exact huwu.symm
  · obtain ⟨n, hn⟩ := simulate_ends p seed cfg hids
    refine ⟨n, fun fuel hfuel => ?_⟩
    obtain ⟨s, hs, hplays⟩ := hn fuel hfuel
    refine ⟨s, hs, hplays.honest hids hentered htol, ?_, hplays.paid hids hentered htol _⟩
    rw [simulateRound, hs, Option.map_some]

/-- Square roots of nothing, and no random numbers. -/
def stillPlatform : Platform where
  sqrt _ := 0
  hypot _ _ := 0
  cos _ := 1
  sin _ := 0
  pi := 3
  rngFromSeed _ _ := 0
  sha256 text := text
  sqrt_nonneg _ := le_refl 0
  hypot_nonneg _ _ := le_refl 0

theorem fifty_ne_zero : (50 : ℚ) ≠ 0 := by norm_num

def shortConfig : RoundConfig :=
  ⟨.normal, 1, 85 / 1000, 1 / 4, 100, 50, none, fifty_ne_zero⟩

def twoEntries : List Entry := [⟨"a|bull", .bull, 10⟩, ⟨"b|uwu", .uwu, 20⟩]

theorem battle_conserves_two :
    ((createSim stillPlatform "seed" twoEntries shortConfig).F.map Fighter.bull).sum =
        ((createSim stillPlatform "seed" twoEntries shortConfig).F.map Fighter.uwu).sum ∧
      ∃ n, ∀ fuel, n ≤ fuel → ∃ s, simulate stillPlatform fuel (createSim stillPlatform "seed" twoEntries shortConfig) = some s ∧
        Honest twoEntries (createSim stillPlatform "seed" twoEntries shortConfig) s := by
  have h := battle_conserves stillPlatform "seed" twoEntries shortConfig (by decide)
    ⟨by decide, by decide⟩ rfl
  refine ⟨h.1, ?_⟩
  obtain ⟨n, hn⟩ := h.2.2
  refine ⟨n, fun fuel hfuel => ?_⟩
  obtain ⟨s, hs, hhonest, -⟩ := hn fuel hfuel
  exact ⟨s, hs, hhonest⟩

end BullsUnicorns.Battle

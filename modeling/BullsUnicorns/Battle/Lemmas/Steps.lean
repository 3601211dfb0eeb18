import BullsUnicorns.Battle.Lemmas.Blows

/-!
# What a tick does to the purses

A tick strikes some fair hits and logs them, and either ends the battle or counts one.
-/

namespace BullsUnicorns.Battle

variable {p : Platform} {k : Tick}

def SimState.purses (s : SimState) : List Purse := s.F.map Fighter.purse

/-- Part of a tick: some hits, and the clock and the configuration as they were. -/
structure Part (s s' : SimState) : Prop where
  struck : Struck s.cfg.mode s.purses s.hits s'.purses s'.hits
  cfg : s'.cfg = s.cfg
  steps : s'.steps = s.steps
  t : s'.t = s.t

theorem Part.refl (s : SimState) : Part s s := ⟨Struck.refl _ _ _, rfl, rfl, rfl⟩

/-- Fighters, clocks and log may change where the purses and the hits do not. -/
theorem Part.same {s s' : SimState} (hp : s'.purses = s.purses) (hh : s'.hits = s.hits) (hc : s'.cfg = s.cfg)
    (hs : s'.steps = s.steps) (ht : s'.t = s.t) : Part s s' :=
  ⟨by rw [hp, hh]; exact Struck.refl _ _ _, hc, hs, ht⟩

theorem Part.trans {s₁ s₂ s₃ : SimState} (h : Part s₁ s₂) (h' : Part s₂ s₃) : Part s₁ s₃ where
  struck := h.struck.trans (h.cfg ▸ h'.struck)
  cfg := h'.cfg.trans h.cfg
  steps := h'.steps.trans h.steps
  t := h'.t.trans h.t

theorem Struck.length {mode : Mode} {B B' : List Purse} {l l' : List HitLog} (h : Struck mode B l B' l') :
    B'.length = B.length := by
  obtain ⟨new, -, -, rfl⟩ := h
  simpa using congrArg List.length (replay_seats mode B new)

theorem Part.length {s s' : SimState} (h : Part s s') : s'.F.length = s.F.length := by
  simpa [SimState.purses] using h.struck.length

theorem purse_at {F : List Fighter} {i : ℕ} (hi : i < F.length) :
    (F.map Fighter.purse)[i]? = some (fighterAt F i).purse := by
  rw [List.getElem?_map, List.getElem?_eq_getElem hi, fighterAt, List.getD_eq_getElem?_getD,
    List.getElem?_eq_getElem hi]
  rfl

/-- Equal purses, seat by seat. -/
theorem purse_fighterAt {F F' : List Fighter} {i : ℕ} (h : F'.map Fighter.purse = F.map Fighter.purse)
    (hi : i < F.length) : (fighterAt F' i).purse = (fighterAt F i).purse := by
  have hlen : F'.length = F.length := by simpa using congrArg List.length h
  have h1 := purse_at (F := F') (i := i) (hlen ▸ hi)
  rw [h, purse_at hi, Option.some_inj] at h1
  exact h1.symm

theorem seated_self {B : List Purse} {i j : ℕ} {u v : Purse} (hu : B[i]? = some u) (hv : B[j]? = some v) :
    seated B i j u v = B := by
  obtain ⟨hi, hu⟩ := List.getElem?_eq_some_iff.mp hu
  obtain ⟨hj, hv⟩ := List.getElem?_eq_some_iff.mp hv
  rw [seated, ← hu, List.set_getElem_self, ← hv, List.set_getElem_self]

theorem purses_seated (F : List Fighter) (i j : ℕ) (a b : Fighter) :
    ((F.set i a).set j b).map Fighter.purse = seated (F.map Fighter.purse) i j a.purse b.purse := by
  rw [seated, List.map_set, List.map_set]

/-- Two fighters of a battle that stand as foes. -/
theorem foes_of_fighters {F : List Fighter} {i j : ℕ} {a b : Fighter} (hF : Table.Keyed Purse.id (F.map Fighter.purse))
    (hi : i < F.length) (hj : j < F.length) (hij : i ≠ j) (ha : a.purse = (fighterAt F i).purse)
    (hb : b.purse = (fighterAt F j).purse) (hside : a.side ≠ b.side) (hwallet : walletOf a.id ≠ walletOf b.id) :
    seated (F.map Fighter.purse) i j a.purse b.purse = F.map Fighter.purse ∧
      Foes (F.map Fighter.purse) i j a.purse b.purse := by
  have hself : seated (F.map Fighter.purse) i j a.purse b.purse = F.map Fighter.purse :=
    seated_self (by rw [purse_at hi, ha]) (by rw [purse_at hj, hb])
  exact ⟨hself, by rwa [hself], by simpa using hi, by simpa using hj, hij, hside, hwallet⟩

/-- The two blows of a clash. -/
theorem exchange_part {s : SimState} {i j : ℕ} {a b : Fighter} (hF : Table.Keyed Purse.id s.purses)
    (hi : i < s.F.length) (hj : j < s.F.length) (hij : i ≠ j) (ha : a.purse = (fighterAt s.F i).purse)
    (hb : b.purse = (fighterAt s.F j).purse) (hside : a.side ≠ b.side) (hwallet : walletOf a.id ≠ walletOf b.id) :
    Part s (exchange p k s i j a b) := by
  obtain ⟨hself, hfoes⟩ := foes_of_fighters hF hi hj hij ha hb hside hwallet
  unfold exchange
  rcases (damages p s.cfg k s.t s.steps a b).run s.rng with ⟨⟨dAB, dBA⟩, rng⟩
  rcases h₁ : applyHit s.cfg.mode s.t a b s.hits (planHit b dAB) with ⟨a₁, b₁, hits₁⟩
  obtain ⟨hstruck₁, hfoes₁⟩ := applyHit_struck hfoes h₁
  rcases h₂ : applyHit s.cfg.mode s.t b₁ a₁ hits₁ (planHit a dBA) with ⟨b₂, a₂, hits₂⟩
  obtain ⟨hstruck₂, -⟩ := applyHit_struck hfoes₁.symm h₂
  have hstruck : Struck s.cfg.mode s.purses s.hits
      (((s.F.set i (bury a₂)).set j (bury b₂)).map Fighter.purse) hits₂ := by
    rw [purses_seated, purse_bury, purse_bury, seated_comm hij]
    rw [hself] at hstruck₁
    rw [← seated_comm hij] at hstruck₂
    exact hstruck₁.trans hstruck₂
  simp only [h₁, h₂]
  exact ⟨hstruck, rfl, rfl, rfl⟩

theorem clash_part {s : SimState} {ij : ℕ × ℕ} (hF : Table.Keyed Purse.id s.purses) (hi : ij.1 < s.F.length)
    (hj : ij.2 < s.F.length) (hij : ij.1 ≠ ij.2) : Part s (clash p k s ij) := by
  unfold clash
  extract_lets a b dx dy d m
  split
  · exact Part.refl s
  split
  · exact Part.refl s
  rcases h : bounce a b dx dy d m with ⟨a', b'⟩
  obtain ⟨ha, hb⟩ := purse_bounce a b dx dy d m
  rw [h] at ha hb
  have hset : ((s.F.set ij.1 a').set ij.2 b').map Fighter.purse = s.purses := by
    rw [purses_seated, ha, hb]
    exact seated_self (purse_at hi) (purse_at hj)
  dsimp only
  split
  · exact Part.same hset rfl rfl rfl rfl
  split
  · exact Part.same hset rfl rfl rfl rfl
  split
  · exact Part.same hset rfl rfl rfl rfl
  · next hside hwallet _ =>
      generalize hs₁ : SimState.mk s.rng ((s.F.set ij.1 a').set ij.2 b') s.hits s.t s.steps s.cfg
        (Function.update s.pairCd (pairKey a' b') (some k.nowMs)) s.endTick s.done = s₁
      have hp₁ : s₁.purses = s.purses := by rw [← hs₁]; exact hset
      have hpart : Part s s₁ := by
        rw [← hs₁]
        exact Part.same hset rfl rfl rfl rfl
      refine hpart.trans (exchange_part (hp₁ ▸ hF) ?_ ?_ hij ?_ ?_ hside hwallet)
      · rwa [hpart.length]
      · rwa [hpart.length]
      · rw [purse_fighterAt hp₁ hi]
        exact ha
      · rw [purse_fighterAt hp₁ hj]
        exact hb

/-- The visited pairs are of two places of the list. -/
theorem mem_pairs {A : List ℕ} (hA : A.Nodup) {ij : ℕ × ℕ} (h : ij ∈ pairs A) :
    ij.1 ∈ A ∧ ij.2 ∈ A ∧ ij.1 ≠ ij.2 := by
  induction A with
  | nil => cases h
  | cons i A ih =>
      obtain ⟨hi, hA⟩ := List.nodup_cons.mp hA
      rcases List.mem_append.mp h with h | h
      · obtain ⟨j, hj, rfl⟩ := List.mem_map.mp h
        exact ⟨List.mem_cons_self, List.mem_cons_of_mem i hj, fun he : i = j => hi (he ▸ hj)⟩
      · obtain ⟨h1, h2, h3⟩ := ih hA h
        exact ⟨List.mem_cons_of_mem i h1, List.mem_cons_of_mem i h2, h3⟩

theorem alive_nodup (F : List Fighter) : (alive F).Nodup := List.nodup_range.filter _

theorem mem_alive {F : List Fighter} {i : ℕ} (h : i ∈ alive F) : i < F.length :=
  List.mem_range.mp (List.mem_filter.mp h).1

theorem clashes_part {l : List (ℕ × ℕ)} {s : SimState} (hF : Table.Keyed Purse.id s.purses)
    (hl : ∀ ij ∈ l, ij.1 < s.F.length ∧ ij.2 < s.F.length ∧ ij.1 ≠ ij.2) : Part s (l.foldl (clash p k) s) := by
  induction l generalizing s with
  | nil => exact Part.refl s
  | cons ij l ih =>
      obtain ⟨hi, hj, hij⟩ := hl ij List.mem_cons_self
      have hpart : Part s (clash p k s ij) := clash_part hF hi hj hij
      refine hpart.trans (ih (hpart.struck.keyed hF) fun ij' hmem => ?_)
      rw [hpart.length]
      exact hl ij' (List.mem_cons_of_mem ij hmem)

/-- What a whole tick does: its hits, and the clock counts one while the battle goes on. -/
structure Ticked (s s' : SimState) : Prop where
  struck : Struck s.cfg.mode s.purses s.hits s'.purses s'.hits
  cfg : s'.cfg = s.cfg
  steps : s'.steps = s.steps
  clock : s'.done = true ∨ (s'.t = s.t + 1 ∧ (s'.t : ℤ) < s.steps)

theorem stepSim_ticked {s : SimState} (hF : Table.Keyed Purse.id s.purses) : Ticked s (stepSim p s) := by
  unfold stepSim
  split
  · next hdone => exact ⟨Struck.refl _ _ _, rfl, rfl, Or.inl hdone⟩
  extract_lets A bulls unis k
  split
  · exact ⟨Struck.refl _ _ _, rfl, rfl, Or.inl rfl⟩
  split
  · exact ⟨Struck.refl _ _ _, rfl, rfl, Or.inl rfl⟩
  rcases hmove : (A.foldlM (move p k A) s.F).run s.rng with ⟨F, rng⟩
  have hpurses : F.map Fighter.purse = s.purses := by
    have h1 := purses_moves (p := p) (k := k) A A s.F s.rng
    rw [hmove] at h1
    exact h1
  dsimp only
  generalize hs₁ : SimState.mk rng F s.hits s.t s.steps s.cfg s.pairCd s.endTick s.done = s₁
  have hpart₁ : Part s s₁ := by
    rw [← hs₁]
    exact Part.same hpurses rfl rfl rfl rfl
  have hpart : Part s ((pairs A).foldl (clash p k) s₁) := by
    refine hpart₁.trans (clashes_part (hpart₁.struck.keyed hF) fun ij hij => ?_)
    obtain ⟨h1, h2, h3⟩ := mem_pairs (alive_nodup s.F) hij
    rw [hpart₁.length]
    exact ⟨mem_alive h1, mem_alive h2, h3⟩
  split
  · exact ⟨hpart.struck, hpart.cfg, hpart.steps, Or.inl rfl⟩
  · next hlt =>
      refine ⟨hpart.struck, hpart.cfg, hpart.steps, Or.inr ⟨congrArg (· + 1) hpart.t, ?_⟩⟩
      rw [← hpart.steps]
      simpa using hlt

/-! ## The clock alone, whoever the fighters are -/

theorem clash_clock (s : SimState) (ij : ℕ × ℕ) : (clash p k s ij).t = s.t ∧ (clash p k s ij).steps = s.steps := by
  unfold clash
  extract_lets a b dx dy d m
  split
  · exact ⟨rfl, rfl⟩
  split
  · exact ⟨rfl, rfl⟩
  rcases bounce a b dx dy d m with ⟨a', b'⟩
  dsimp only
  split
  · exact ⟨rfl, rfl⟩
  split
  · exact ⟨rfl, rfl⟩
  split
  · exact ⟨rfl, rfl⟩
  · exact ⟨rfl, rfl⟩

theorem clashes_clock (l : List (ℕ × ℕ)) (s : SimState) :
    (l.foldl (clash p k) s).t = s.t ∧ (l.foldl (clash p k) s).steps = s.steps := by
  induction l generalizing s with
  | nil => exact ⟨rfl, rfl⟩
  | cons ij l ih =>
      obtain ⟨ht, hsteps⟩ := clash_clock (p := p) (k := k) s ij
      obtain ⟨ht', hsteps'⟩ := ih (clash p k s ij)
      exact ⟨ht'.trans ht, hsteps'.trans hsteps⟩

theorem stepSim_clock (s : SimState) :
    (stepSim p s).done = true ∨
      ((stepSim p s).t = s.t + 1 ∧ (stepSim p s).steps = s.steps ∧ ((stepSim p s).t : ℤ) < s.steps) := by
  unfold stepSim
  split
  · next hdone => exact .inl hdone
  extract_lets A bulls unis k
  split
  · exact .inl rfl
  split
  · exact .inl rfl
  rcases (A.foldlM (move p k A) s.F).run s.rng with ⟨F, rng⟩
  dsimp only
  obtain ⟨ht, hsteps⟩ := clashes_clock (p := p) (k := k) (pairs A) { s with F, rng }
  split
  · exact .inl rfl
  · next hlt =>
      refine .inr ⟨congrArg (· + 1) ht, hsteps, ?_⟩
      rw [hsteps] at hlt
      exact not_le.mp hlt

/-- A battle ends when its clock runs out at the latest. -/
theorem simulate_some (s : SimState) : ∃ s', simulate p ((s.steps - s.t).toNat + 1) s = some s' := by
  refine Loop.whileNot_ends (I := fun s' => s'.done = true ∨ s'.steps = s.steps) (fun s' => (s'.steps - s'.t).toNat)
    (fun s' hs' hgoing => ?_) (.inr rfl) (Nat.lt_succ_self _)
  have hsteps' : s'.steps = s.steps := hs'.resolve_left (by rw [hgoing]; exact Bool.false_ne_true)
  rcases stepSim_clock (p := p) s' with hdone | ⟨ht, hsteps, hlt⟩
  · exact ⟨.inl hdone, .inl hdone⟩
  · refine ⟨.inr (hsteps.trans hsteps'), .inr ?_⟩
    rw [ht] at hlt
    omega

end BullsUnicorns.Battle

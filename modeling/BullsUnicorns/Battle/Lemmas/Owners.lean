import BullsUnicorns.Battle.Lemmas.Shares
import BullsUnicorns.Battle.Lemmas.Payouts

/-!
# Who fights whom

Whom a fighter seeks, whom a clash logs as struck, and which fighters a tick leaves alone.
-/

namespace BullsUnicorns.Battle

variable {p : Platform}

/-! ## The battle of two teams -/

/-- Whom the fighter at a place seeks when its turn to move comes. -/
def sought (p : Platform) (A : List ℕ) (F : List Fighter) (i : ℕ) : Option Fighter :=
  let f := fighterAt F i
  target p F A { f with r := f.r + (radiusFor p f - f.r) * (15 / 100) }

theorem target_wallet {F : List Fighter} {A : List ℕ} {f q : Fighter} (h : target p F A f = some q) :
    walletOf q.id ≠ walletOf f.id := by
  let choose : Option Fighter × ℚ → ℕ → Option Fighter × ℚ := fun best j =>
    let q := fighterAt F j
    if q.side = f.side then best
    else if walletOf q.id = walletOf f.id then best
    else if score p f q < best.2 then (some q, score p f q) else best
  have hchoose : ∀ (A : List ℕ) (best : Option Fighter × ℚ), (∀ q, best.1 = some q → walletOf q.id ≠ walletOf f.id) →
      ∀ q, (A.foldl choose best).1 = some q → walletOf q.id ≠ walletOf f.id := by
    intro A
    induction A with
    | nil => exact fun best hbest => hbest
    | cons j A ih =>
        intro best hbest
        rw [List.foldl_cons]
        apply ih
        simp only [choose]
        split
        · exact hbest
        split
        · exact hbest
        · next hwallet =>
            split
            · intro q hq
              cases hq
              exact hwallet
            · exact hbest
  exact hchoose A (none, 10 ^ 18) (fun q hq => by cases hq) q h

/-- Each hit of a log is between two wallets. -/
def BetweenWallets (hits : List HitLog) : Prop := ∀ hit ∈ hits, walletOf hit.atk ≠ walletOf hit.dfn

theorem applyHit_between (mode : Mode) (t : ℕ) {atk dfn : Fighter} {hits : List HitLog} (hit : Side × ℚ)
    (h : BetweenWallets hits) (hwallet : walletOf atk.id ≠ walletOf dfn.id) :
    BetweenWallets (applyHit mode t atk dfn hits hit).2.2 := by
  rcases applyHit_cases mode t atk dfn hits hit with he | ⟨atk', dfn', amt, he, -⟩
  · rw [he]
    exact h
  · rw [he]
    intro hit' hmem
    rcases List.mem_append.mp hmem with hmem | hmem
    · exact h hit' hmem
    · cases List.mem_singleton.mp hmem
      exact hwallet

variable {k : Tick} {s : SimState}

theorem exchange_between {i j : ℕ} {a b : Fighter} (h : BetweenWallets s.hits) (hwallet : walletOf a.id ≠ walletOf b.id) :
    BetweenWallets (exchange p k s i j a b).hits := by
  unfold exchange
  rcases (damages p s.cfg k s.t s.steps a b).run s.rng with ⟨⟨dAB, dBA⟩, rng⟩
  have hfirst := applyHit_between s.cfg.mode s.t (planHit b dAB) h hwallet
  have hids := applyHit_ids s.cfg.mode s.t a b s.hits (planHit b dAB)
  rcases hrun : applyHit s.cfg.mode s.t a b s.hits (planHit b dAB) with ⟨a₁, b₁, hits₁⟩
  rw [hrun] at hfirst hids
  have hsecond := applyHit_between s.cfg.mode s.t (planHit a dBA) hfirst
    (by rw [hids.1, hids.2]; exact hwallet.symm : walletOf b₁.id ≠ walletOf a₁.id)
  simp only [hrun]
  exact hsecond

theorem clash_between (ij : ℕ × ℕ) (h : BetweenWallets s.hits) : BetweenWallets (clash p k s ij).hits := by
  unfold clash
  extract_lets a b dx dy d m
  split
  · exact h
  split
  · exact h
  rcases bounce a b dx dy d m with ⟨a', b'⟩
  dsimp only
  split
  · exact h
  split
  · exact h
  split
  · exact h
  · next hwallet _ => exact exchange_between h hwallet

theorem stepSim_between (h : BetweenWallets s.hits) : BetweenWallets (stepSim p s).hits := by
  unfold stepSim
  split
  · exact h
  extract_lets A bulls unis k
  split
  · exact h
  split
  · exact h
  rcases (A.foldlM (move p k A) s.F).run s.rng with ⟨F, rng⟩
  dsimp only
  have hclashes : ∀ (l : List (ℕ × ℕ)) (s' : SimState), BetweenWallets s'.hits →
      BetweenWallets (l.foldl (clash p k) s').hits := by
    intro l
    induction l with
    | nil => exact fun s' hs' => hs'
    | cons ij l ih => exact fun s' hs' => ih _ (clash_between ij hs')
  have htick := hclashes (pairs A) { s with F, rng } h
  split
  · exact htick
  · exact htick

theorem simulateRound_between {fuel : ℕ} {seed : String} {entries : List Entry} {cfg : RoundConfig} {r : RoundResult}
    (h : simulateRound p fuel seed entries cfg = some r) : BetweenWallets r.hits := by
  obtain ⟨s, hs, rfl⟩ := Option.map_eq_some_iff.mp h
  exact (Loop.whileNot_invariant (I := fun s => BetweenWallets s.hits) (fun s hs _ => stepSim_between hs)
    (fun hit hmem => by cases hmem) hs).1

/-! ## The battle of many teams -/

namespace N

variable {cfg : CfgN} {F : List FighterN} {A : List ℕ}

/-- Whom the fighter at a place seeks when its turn to move comes. -/
def sought (p : Platform) (A : List ℕ) (F : List FighterN) (i : ℕ) : Option FighterN :=
  let f := fighterAt F i
  target p F A { f with r := f.r + (radiusFor p f - f.r) * (15 / 100) }

/-- Whether the scan over the enemies takes the one at a place for nearer than what it has. -/
def nearer (p : Platform) (F : List FighterN) (f : FighterN) (best : Option FighterN × ℚ) (j : ℕ) :
    Option FighterN × ℚ :=
  let q := fighterAt F j
  if q.team = f.team then best
  else if score p f q < best.2 then (some q, score p f q) else best

/-- What the scan has found is an enemy of the list, at the distance it remembers. -/
theorem nearer_some (f : FighterN) (A : List ℕ) :
    ∀ (B : List ℕ) (best : Option FighterN × ℚ),
      (∀ q, best.1 = some q → best.2 < 10 ^ 18 ∧ score p f q = best.2 ∧ q.team ≠ f.team ∧ ∃ j ∈ A, q = fighterAt F j) →
      best.2 ≤ 10 ^ 18 → (∀ j ∈ B, j ∈ A) →
      ∀ q, (B.foldl (nearer p F f) best).1 = some q →
        score p f q < 10 ^ 18 ∧ q.team ≠ f.team ∧ ∃ j ∈ A, q = fighterAt F j := by
  intro B
  induction B with
  | nil =>
      intro best hbest _ _ q hq
      obtain ⟨hlt, hscore, hteam, hmem⟩ := hbest q hq
      exact ⟨hscore ▸ hlt, hteam, hmem⟩
  | cons j B ih =>
      intro best hbest hle hB
      obtain ⟨hj, hB⟩ := List.forall_mem_cons.mp hB
      rw [List.foldl_cons]
      have hstep : nearer p F f best j = best ∨ (nearer p F f best j = (some (fighterAt F j), score p f (fighterAt F j)) ∧
          (fighterAt F j).team ≠ f.team ∧ score p f (fighterAt F j) < best.2) := by
        simp only [nearer]
        split
        · exact .inl rfl
        · next hteam =>
            split
            · next hlt => exact .inr ⟨rfl, hteam, hlt⟩
            · exact .inl rfl
      rcases hstep with hsame | ⟨hnew, hteam, hlt⟩
      · rw [hsame]
        exact ih best hbest hle hB
      · rw [hnew]
        apply ih _ _ (hlt.le.trans hle) hB
        intro q hq
        cases hq
        exact ⟨lt_of_lt_of_le hlt hle, rfl, hteam, j, hj, rfl⟩

theorem target_eq (p : Platform) (F : List FighterN) (A : List ℕ) (f : FighterN) :
    target p F A f = (A.foldl (nearer p F f) (none, 10 ^ 18)).1 := rfl

theorem target_some {f q : FighterN} (h : target p F A f = some q) :
    score p f q < 10 ^ 18 ∧ q.team ≠ f.team ∧ ∃ j ∈ A, q = fighterAt F j :=
  nearer_some f A A (none, 10 ^ 18) (fun q hq => by cases hq) (le_refl _) (fun _ hj => hj) q h

/-- An enemy within sight is enough for a target. -/
theorem exists_target {f : FighterN} {j : ℕ} (hj : j ∈ A) (hteam : (fighterAt F j).team ≠ f.team)
    (hscore : score p f (fighterAt F j) < 10 ^ 18) : ∃ q, target p F A f = some q := by
  have hkeep : ∀ (B : List ℕ) (best : Option FighterN × ℚ), best.1.isSome →
      (B.foldl (nearer p F f) best).1.isSome := by
    intro B
    induction B with
    | nil => exact fun best hbest => hbest
    | cons i B ih =>
        intro best hbest
        rw [List.foldl_cons]
        apply ih
        simp only [nearer]
        split
        · exact hbest
        split
        · rfl
        · exact hbest
  have hfind : ∀ (B : List ℕ) (best : Option FighterN × ℚ), j ∈ B → best.1.isSome ∨ best.2 = 10 ^ 18 →
      (B.foldl (nearer p F f) best).1.isSome := by
    intro B
    induction B with
    | nil => exact fun best hmem => by cases hmem
    | cons i B ih =>
        intro best hmem hbest
        rw [List.foldl_cons]
        rcases hbest with hsome | hfar
        · exact hkeep (i :: B) best hsome
        · rcases List.mem_cons.mp hmem with rfl | hmem
          · apply hkeep
            simp [nearer, hteam, hfar, hscore]
          · apply ih _ hmem
            simp only [nearer]
            split
            · exact .inr hfar
            split
            · exact .inl rfl
            · exact .inr hfar
  rw [← Option.isSome_iff_exists, target_eq]
  exact hfind A (none, 10 ^ 18) hj (.inr rfl)

/-! ## What a tick leaves alone -/

variable {k : Tick} {w : World} {t : ℕ} {steps : ℤ}

theorem clash_frame {ij : ℕ × ℕ} {m : ℕ} (hi : m ≠ ij.1) (hj : m ≠ ij.2) :
    fighterAt (clash p cfg k t steps w ij).F m = fighterAt w.F m := by
  have hset : ∀ (F : List FighterN) (a b : FighterN), fighterAt ((F.set ij.1 a).set ij.2 b) m = fighterAt F m := by
    intro F a b
    rw [fighterAt_set_ne hj.symm, fighterAt_set_ne hi.symm]
  unfold clash
  extract_lets a b dx dy d r
  split
  · rfl
  split
  · rfl
  rcases bounce a b dx dy d r with ⟨a', b'⟩
  dsimp only
  split
  · exact hset _ _ _
  split
  · exact hset _ _ _
  unfold exchange
  rcases (damages p cfg k t steps a' b').run w.rng with ⟨⟨dAB, dBA⟩, rng⟩
  dsimp only
  rw [hset, hset]

theorem clashes_frame {l : List (ℕ × ℕ)} {m : ℕ} (hl : ∀ ij ∈ l, m ≠ ij.1 ∧ m ≠ ij.2) :
    fighterAt (l.foldl (clash p cfg k t steps) w).F m = fighterAt w.F m := by
  induction l generalizing w with
  | nil => rfl
  | cons ij l ih =>
      obtain ⟨⟨hi, hj⟩, hl⟩ := List.forall_mem_cons.mp hl
      rw [List.foldl_cons, ih hl, clash_frame hi hj]

theorem move_frame {i m : ℕ} (h : m ≠ i) (A : List ℕ) (F : List FighterN) (g : Rng) :
    fighterAt ((move p k A F i).run g).1 m = fighterAt F m := fighterAt_set_ne h.symm

theorem moves_frame {B : List ℕ} {m : ℕ} (h : m ∉ B) (A : List ℕ) (F : List FighterN) (g : Rng) :
    fighterAt ((B.foldlM (move p k A) F).run g).1 m = fighterAt F m := by
  induction B generalizing F g with
  | nil => rfl
  | cons i B ih =>
      rw [List.mem_cons, not_or] at h
      obtain ⟨hi, hB⟩ := h
      rw [List.foldlM_cons]
      exact (ih hB _ _).trans (move_frame hi A F g)

/-- A fighter that is out when a tick begins stays as it is. -/
theorem tick_frame {m : ℕ} (h : m ∉ alive w.F) : fighterAt (tick p cfg steps t w).F m = fighterAt w.F m := by
  unfold tick
  extract_lets A k
  have hmoves := moves_frame (p := p) (k := k) h A w.F w.rng
  rcases hrun : (A.foldlM (move p k A) w.F).run w.rng with ⟨F, rng⟩
  rw [hrun] at hmoves
  refine (clashes_frame ?_).trans hmoves
  intro ij hij
  obtain ⟨hi, hj, -⟩ := mem_pairs (List.nodup_range.filter _) hij
  exact ⟨fun he => h (he ▸ hi), fun he => h (he ▸ hj)⟩

/-! ## Wallets kept apart -/

/-- Fighters of one wallet are of one team. -/
def Apart (F : List FighterN) (A : List ℕ) : Prop :=
  ∀ i ∈ A, ∀ j ∈ A, walletOf (fighterAt F i).id = walletOf (fighterAt F j).id →
    (fighterAt F i).team = (fighterAt F j).team

/-- The same fighters, by id and team. -/
def Seats (F G : List FighterN) : Prop := ∀ i, (fighterAt G i).id = (fighterAt F i).id ∧
  (fighterAt G i).team = (fighterAt F i).team

theorem Seats.trans {F G H : List FighterN} (h : Seats F G) (h' : Seats G H) : Seats F H :=
  fun i => ⟨(h' i).1.trans (h i).1, (h' i).2.trans (h i).2⟩

theorem seats_of_maps {F G : List FighterN} (hids : G.map FighterN.id = F.map FighterN.id)
    (hteams : G.map FighterN.team = F.map FighterN.team) : Seats F G := by
  have hat : ∀ {α : Type} (g : FighterN → α) (F : List FighterN) (i : ℕ),
      g (fighterAt F i) = ((F.map g)[i]?).getD (g default) := by
    intro α g F i
    rw [fighterAt, List.getD_eq_getElem?_getD, List.getElem?_map]
    cases F[i]? <;> rfl
  intro i
  rw [hat FighterN.id G, hat FighterN.id F, hids, hat FighterN.team G, hat FighterN.team F, hteams]
  exact ⟨rfl, rfl⟩

theorem Moments.seats {mode : Mode} {s s' : List FighterN × List HitN} (h : Moments mode s s') : Seats s.1 s'.1 :=
  seats_of_maps (Moments.exact (n := 0) h).fair.ids (Moments.exact (n := 0) h).teams

theorem seats_of_purses {F G : List FighterN} (h : G.map purse = F.map purse) : Seats F G := by
  have hexact : Exact .normal 0 F G := Exact.of_purses h
  exact seats_of_maps hexact.fair.ids hexact.teams

theorem Apart.seats {F G : List FighterN} {A B : List ℕ} (h : Apart F A) (hseats : Seats F G) (hsub : ∀ i ∈ B, i ∈ A) :
    Apart G B := by
  intro i hi j hj hwallet
  rw [(hseats i).1, (hseats j).1] at hwallet
  rw [(hseats i).2, (hseats j).2]
  exact h i (hsub i hi) j (hsub j hj) hwallet

/-- Each hit of a log is between two wallets. -/
def BetweenWallets (hits : List HitN) : Prop := ∀ hit ∈ hits, walletOf hit.atk ≠ walletOf hit.dfn

theorem apply_between (mode : Mode) (t : ℕ) {atk dfn : FighterN} {hits : List HitN} (plan : List (Src × ℚ))
    (h : BetweenWallets hits) (hwallet : walletOf atk.id ≠ walletOf dfn.id) :
    BetweenWallets (apply mode t atk dfn hits plan).2.2 := by
  obtain ⟨got, -, hsame | ⟨hlogged, -⟩⟩ := apply_landing mode t atk dfn hits plan
  · rw [hsame]
    exact h
  · rw [hlogged]
    intro hit hmem
    rcases List.mem_append.mp hmem with hmem | hmem
    · exact h hit hmem
    · cases List.mem_singleton.mp hmem
      exact hwallet

theorem exchange_between {i j : ℕ} {a b : FighterN} (h : BetweenWallets w.hits) (hwallet : walletOf a.id ≠ walletOf b.id) :
    BetweenWallets (exchange p cfg k t steps w i j a b).hits := by
  unfold exchange
  rcases (damages p cfg k t steps a b).run w.rng with ⟨⟨dAB, dBA⟩, rng⟩
  have hfirst := apply_between cfg.mode t (takeFrom b dAB) h hwallet
  have hids := (apply_blow cfg.mode t a b w.hits (takeFrom b dAB)).ids
  rcases hrun : apply cfg.mode t a b w.hits (takeFrom b dAB) with ⟨a₁, b₁, hits₁⟩
  rw [hrun] at hfirst hids
  have hsecond := apply_between cfg.mode t (takeFrom a dBA) hfirst
    (by rw [hids.1, hids.2]; exact hwallet.symm : walletOf b₁.id ≠ walletOf a₁.id)
  simp only [hrun]
  exact hsecond

theorem clash_between {ij : ℕ × ℕ} (h : BetweenWallets w.hits) (hapart : Apart w.F [ij.1, ij.2]) :
    BetweenWallets (clash p cfg k t steps w ij).hits := by
  unfold clash
  extract_lets a b dx dy d m
  split
  · exact h
  split
  · exact h
  have hids : (bounce a b dx dy d m).1.id = a.id ∧ (bounce a b dx dy d m).2.id = b.id := ⟨rfl, rfl⟩
  have hteams : (bounce a b dx dy d m).1.team = a.team ∧ (bounce a b dx dy d m).2.team = b.team := ⟨rfl, rfl⟩
  rcases hbounce : bounce a b dx dy d m with ⟨a', b'⟩
  rw [hbounce] at hids hteams
  dsimp only
  split
  · exact h
  split
  · exact h
  · next hteam _ =>
      refine exchange_between (i := ij.1) (j := ij.2) h ?_
      intro hwallet
      rw [hids.1, hids.2] at hwallet
      rw [hteams.1, hteams.2] at hteam
      exact hteam (hapart ij.1 (by simp) ij.2 (by simp) hwallet)

theorem clashes_between {l : List (ℕ × ℕ)} (h : BetweenWallets w.hits) (hapart : Apart w.F A)
    (hl : ∀ ij ∈ l, ij.1 ∈ A ∧ ij.2 ∈ A ∧ ij.1 ≠ ij.2) (hA : ∀ i ∈ A, i < w.F.length) :
    BetweenWallets (l.foldl (clash p cfg k t steps) w).hits := by
  induction l generalizing w with
  | nil => exact h
  | cons ij l ih =>
      obtain ⟨⟨hi, hj, hij⟩, hl⟩ := List.forall_mem_cons.mp hl
      have hmoments : Moments cfg.mode (w.F, w.hits)
          ((clash p cfg k t steps w ij).F, (clash p cfg k t steps w ij).hits) := clash_moments (hA _ hi) (hA _ hj) hij
      have hlen : (clash p cfg k t steps w ij).F.length = w.F.length := hmoments.length
      rw [List.foldl_cons]
      apply ih
      · apply clash_between h
        intro i' hi' j' hj'
        have hmem : ∀ m ∈ [ij.1, ij.2], m ∈ A := by simp [hi, hj]
        exact hapart i' (hmem i' hi') j' (hmem j' hj')
      · exact hapart.seats hmoments.seats fun i hi => hi
      · exact hl
      · intro i hi
        rw [hlen]
        exact hA i hi

/-- The clock of a tick. -/
def tickAt (cfg : CfgN) (steps : ℤ) (t : ℕ) : Tick :=
  { dt := cfg.tickMs / 1000, nowMs := t * cfg.tickMs, ramp := 1 + 16 / 10 * ((t : ℚ) / steps) }

/-- In a tick nobody seeks a fighter of its own wallet when its turn to move comes. -/
def SeeksOthers (p : Platform) (cfg : CfgN) (steps : ℤ) (t : ℕ) (w : World) : Prop :=
  ∀ before i later, alive w.F = before ++ i :: later →
    ∀ q, sought p (alive w.F) ((before.foldlM (move p (tickAt cfg steps t) (alive w.F)) w.F).run w.rng).1 i = some q →
      walletOf q.id ≠ walletOf (fighterAt w.F i).id

theorem tick_apart (p : Platform) (cfg : CfgN) (steps : ℤ) (t : ℕ) (h : BetweenWallets w.hits) (hapart : Apart w.F (alive w.F)) :
    BetweenWallets (tick p cfg steps t w).hits ∧ SeeksOthers p cfg steps t w := by
  constructor
  · unfold tick
    extract_lets A k
    have hmoves := purses_moves (p := p) (k := k) A A w.F w.rng
    rcases hrun : (A.foldlM (move p k A) w.F).run w.rng with ⟨F, rng⟩
    rw [hrun] at hmoves
    have hlen : F.length = w.F.length := by simpa using congrArg List.length hmoves
    refine clashes_between (w := { w with F, rng }) (A := A) h (hapart.seats (seats_of_purses hmoves) fun i hi => hi) ?_ ?_
    · exact fun ij hij => mem_pairs (List.nodup_range.filter _) hij
    · intro i hi
      rw [hlen]
      exact List.mem_range.mp (List.mem_filter.mp hi).1
  · intro before i later hsplit q hq hwallet
    have hmoves := purses_moves (p := p) (k := tickAt cfg steps t) (alive w.F) before w.F w.rng
    have hseats := seats_of_purses hmoves
    obtain ⟨-, hteam, j, hj, rfl⟩ := target_some hq
    have hi : i ∈ alive w.F := by
      rw [hsplit]
      simp
    rw [(hseats j).1] at hwallet
    apply hteam
    refine ((hseats j).2.trans ?_).trans (hseats i).2.symm
    exact hapart j hj i hi hwallet

end N

end BullsUnicorns.Battle

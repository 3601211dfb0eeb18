import BullsUnicorns.Battle.Lemmas.Owners
import BullsUnicorns.Battle.Theorems.Teams

/-!
# A wallet and its own enemies

The battle of two teams asks whose a fighter is before it seeks or strikes. The battle of many teams asks
for the team alone, and a wallet that plays for two teams can meet itself.
-/

namespace BullsUnicorns.Battle

namespace N

variable {p : Platform} {seed : String} {entries : List EntryN} {cfg : CfgN}

/-! ## The start -/

theorem mapM_run_at {α β : Type} {f : α → StateM Rng β} {c : ℕ}
    (hf : ∀ a g, ((f a).run g).2 = { g with used := g.used + c }) (l : List α) (g : Rng) :
    ((l.mapM f).run g).2 = { g with used := g.used + c * l.length } ∧
      ∀ i, ((l.mapM f).run g).1[i]? = l[i]?.map fun a => ((f a).run { g with used := g.used + c * i }).1 := by
  induction l generalizing g with
  | nil => exact ⟨rfl, fun i => rfl⟩
  | cons a l ih =>
      obtain ⟨hrng, hat⟩ := ih ((f a).run g).2
      rw [List.mapM_cons]
      constructor
      · refine hrng.trans ?_
        rw [hf, List.length_cons]
        congr 1
        ring
      · intro i
        cases i with
        | zero => rfl
        | succ i =>
            refine (hat i).trans ?_
            rw [hf, List.getElem?_cons_succ]
            congr 2
            funext a'
            congr 3
            ring

theorem start_at (p : Platform) (seed : String) (entries : List EntryN) (cfg : CfgN) {i : ℕ} (hi : i < entries.length) :
    fighterAt (start p seed entries cfg).F i =
      ((spawn p cfg entries (i, entries[i])).run ⟨p.rngFromSeed seed, 0 + 4 * i⟩).1 := by
  have hspawn : ∀ (ie : ℕ × EntryN) (g : Rng),
      ((spawn p cfg entries ie).run g).2 = { g with used := g.used + 4 } := fun ie g => rfl
  have hat := (mapM_run_at hspawn (entries.mapIdx fun i e => (i, e)) ⟨p.rngFromSeed seed, 0⟩).2 i
  have hentry : (entries.mapIdx fun i e => (i, e))[i]? = some (i, entries[i]) := by simp [hi]
  rw [hentry, Option.map_some] at hat
  rw [fighterAt, List.getD_eq_getElem?_getD]
  change (Option.getD ((((entries.mapIdx fun i e => (i, e)).mapM (spawn p cfg entries)).run
    ⟨p.rngFromSeed seed, 0⟩).1[i]?) default) = _
  rw [hat, Option.getD_some]

theorem start_rng (p : Platform) (seed : String) (entries : List EntryN) (cfg : CfgN) :
    (start p seed entries cfg).rng = ⟨p.rngFromSeed seed, 0 + 4 * entries.length⟩ := by
  have hspawn : ∀ (ie : ℕ × EntryN) (g : Rng),
      ((spawn p cfg entries ie).run g).2 = { g with used := g.used + 4 } := fun ie g => rfl
  have hrng := (mapM_run_at hspawn (entries.mapIdx fun i e => (i, e)) ⟨p.rngFromSeed seed, 0⟩).1
  rw [List.length_mapIdx] at hrng
  exact hrng

theorem start_length (p : Platform) (seed : String) (entries : List EntryN) (cfg : CfgN) :
    (start p seed entries cfg).F.length = entries.length := by
  simpa using congrArg List.length (start_ids p seed entries cfg)

/-- An entry that the matched book leaves with more in play than its dust. -/
def TakesPart (cfg : CfgN) (entries : List EntryN) (i : ℕ) (e : EntryN) : Prop :=
  max (5 / 1000) (e.stake * DUST_FRAC) <
    e.stake * frac (totals cfg entries) (capPer cfg entries) (teamOf cfg e i)

/-- A wallet takes part for two teams. -/
def Divided (cfg : CfgN) (entries : List EntryN) : Prop :=
  ∃ i j, ∃ (hi : i < entries.length) (hj : j < entries.length),
    walletOf entries[i].id = walletOf entries[j].id ∧ teamOf cfg entries[i] i ≠ teamOf cfg entries[j] j ∧
      TakesPart cfg entries i entries[i] ∧ TakesPart cfg entries j entries[j]

theorem ring_spawn (ie : ℕ × EntryN) (g : Rng) :
    ring ((spawn p cfg entries ie).run g).1 =
      ie.2.stake * frac (totals cfg entries) (capPer cfg entries) (teamOf cfg ie.2 ie.1) := by
  change ie.2.stake * frac (totals cfg entries) (capPer cfg entries) (teamOf cfg ie.2 ie.1) +
    (List.replicate (nTeams cfg entries) (0 : ℚ)).sum = _
  rw [List.sum_replicate, smul_zero, add_zero]

theorem aliveF_spawn (ie : ℕ × EntryN) (g : Rng) :
    aliveF ((spawn p cfg entries ie).run g).1 = true ↔ TakesPart cfg entries ie.1 ie.2 := by
  have hdead : ((spawn p cfg entries ie).run g).1.dead = false := rfl
  have hdust : dustFor ((spawn p cfg entries ie).run g).1 = max (5 / 1000) (ie.2.stake * DUST_FRAC) := rfl
  rw [aliveF, hdead, hdust, ring_spawn, TakesPart]
  simp

theorem mem_alive_start {i : ℕ} : i ∈ alive (start p seed entries cfg).F ↔
    ∃ hi : i < entries.length, TakesPart cfg entries i entries[i] := by
  rw [alive, List.mem_filter, List.mem_range, start_length]
  constructor
  · rintro ⟨hi, halive⟩
    refine ⟨hi, ?_⟩
    rw [start_at p seed entries cfg hi] at halive
    exact (aliveF_spawn (i, entries[i]) _).mp halive
  · rintro ⟨hi, hpart⟩
    refine ⟨hi, ?_⟩
    rw [start_at p seed entries cfg hi]
    exact (aliveF_spawn (i, entries[i]) _).mpr hpart

theorem start_seats {i : ℕ} (hi : i < entries.length) :
    (fighterAt (start p seed entries cfg).F i).id = entries[i].id ∧
      (fighterAt (start p seed entries cfg).F i).team = teamOf cfg entries[i] i := by
  rw [start_at p seed entries cfg hi]
  exact ⟨rfl, rfl⟩

theorem start_apart (p : Platform) (seed : String) (h : ¬ Divided cfg entries) :
    Apart (start p seed entries cfg).F (alive (start p seed entries cfg).F) := by
  intro i hi j hj hwallet
  obtain ⟨hilt, hipart⟩ := mem_alive_start.mp hi
  obtain ⟨hjlt, hjpart⟩ := mem_alive_start.mp hj
  rw [(start_seats hilt).1, (start_seats hjlt).1] at hwallet
  rw [(start_seats hilt).2, (start_seats hjlt).2]
  by_contra hteam
  exact h ⟨i, j, hilt, hjlt, hwallet, hteam, hipart, hjpart⟩

/-! ## The run -/

/-- Who is out at the start stays out, as it was. -/
structure Joined (F₀ : List FighterN) (w : World) : Prop where
  seats : Seats F₀ w.F
  length : w.F.length = F₀.length
  out : ∀ i < F₀.length, i ∉ alive F₀ → fighterAt w.F i = fighterAt F₀ i
  between : BetweenWallets w.hits

theorem mem_alive_iff {F : List FighterN} {i : ℕ} : i ∈ alive F ↔ i < F.length ∧ aliveF (fighterAt F i) = true := by
  rw [alive, List.mem_filter, List.mem_range]

theorem Joined.alive {F₀ : List FighterN} {w : World} (h : Joined F₀ w) : ∀ i ∈ alive w.F, i ∈ alive F₀ := by
  intro i hi
  by_contra hout
  obtain ⟨hlt, halive⟩ := mem_alive_iff.mp hi
  rw [h.length] at hlt
  rw [h.out i hlt hout] at halive
  exact hout (mem_alive_iff.mpr ⟨hlt, halive⟩)

theorem Joined.tick {F₀ : List FighterN} {w : World} (h : Joined F₀ w) (hapart : Apart F₀ (N.alive F₀))
    (p : Platform) (cfg : CfgN) (steps : ℤ) (t : ℕ) : Joined F₀ (tick p cfg steps t w) ∧ SeeksOthers p cfg steps t w := by
  have hmoments := tick_moments p cfg steps t w
  obtain ⟨hbetween, hseeks⟩ := tick_apart p cfg steps t h.between
    (hapart.seats h.seats h.alive)
  refine ⟨⟨h.seats.trans hmoments.seats, hmoments.length.trans h.length, ?_, hbetween⟩, hseeks⟩
  intro i hi hout
  rw [tick_frame fun halive => hout (h.alive i halive)]
  exact h.out i hi hout

/-- A battle whose ticks from `t` on, `m` at most, keep wallets from their own. -/
def Peaceful (p : Platform) (cfg : CfgN) (steps : ℤ) : ℕ → ℕ → World → Prop
  | 0, _, w => BetweenWallets w.hits
  | m + 1, t, w =>
    BetweenWallets w.hits ∧
      (2 ≤ teamsAlive w.F (alive w.F) → SeeksOthers p cfg steps t w ∧ Peaceful p cfg steps m (t + 1) (tick p cfg steps t w))

theorem Joined.peaceful {F₀ : List FighterN} (hapart : Apart F₀ (N.alive F₀)) (p : Platform) (cfg : CfgN) (steps : ℤ)
    (m : ℕ) :
    ∀ (t : ℕ) (w : World), Joined F₀ w → Peaceful p cfg steps m t w := by
  induction m with
  | zero => exact fun t w h => h.between
  | succ m ih =>
      intro t w h
      obtain ⟨hjoined, hseeks⟩ := h.tick hapart p cfg steps t
      exact ⟨h.between, fun _ => ⟨hseeks, ih (t + 1) _ hjoined⟩⟩

/-! ## A wallet that meets itself -/

/-- Two points are together or out of sight, cosines are one, and the random numbers put the fighters of two
places together and the others elsewhere. -/
def meeting (n i j : ℕ) : Platform where
  sqrt v := if v = 0 then 0 else 10 ^ 18
  hypot _ _ := 0
  cos _ := 1
  sin _ := 0
  pi := 3
  rngFromSeed _ m :=
    if m < 4 * n then (if m % 4 = 3 then (if m / 4 = i ∨ m / 4 = j then 0 else 1 / 2) else 0) else 1 / 2
  sha256 text := text
  sqrt_nonneg v := by
    split
    · exact le_refl 0
    · norm_num
  hypot_nonneg := stillPlatform.hypot_nonneg

variable {n i j m : ℕ}

theorem meeting_before (hm : m < n) {d : ℕ} (hd : d < 3) : (meeting n i j).rngFromSeed "" (0 + 4 * m + d) = 0 := by
  have hlt : 0 + 4 * m + d < 4 * n := by omega
  have hmod : (0 + 4 * m + d) % 4 ≠ 3 := by omega
  simp only [meeting, hlt, hmod, if_true, if_false]

theorem meeting_place (hm : m < n) :
    (meeting n i j).rngFromSeed "" (0 + 4 * m + 3) = if m = i ∨ m = j then 0 else 1 / 2 := by
  have hlt : 0 + 4 * m + 3 < 4 * n := by omega
  have hmod : (0 + 4 * m + 3) % 4 = 3 := by omega
  have hdiv : (0 + 4 * m + 3) / 4 = m := by omega
  simp only [meeting, hlt, hmod, hdiv, if_true]

theorem meeting_after (hm : 4 * n ≤ m) : (meeting n i j).rngFromSeed "" m = 1 / 2 := by
  have hlt : ¬ m < 4 * n := by omega
  simp only [meeting, hlt, if_false]

/-- Where a fighter starts whose last draw is `u`. -/
def startX (cfg : CfgN) (u : ℚ) : ℚ :=
  clamp (arenaW / 2 + 1 * ((if ffa cfg then 60 else 150) + u * ((if ffa cfg then 240 else 250) - if ffa cfg then 60 else 150)))
    20 (arenaW - 20)

theorem startX_ne (cfg : CfgN) : startX cfg 0 ≠ startX cfg (1 / 2) := by
  unfold startX clamp arenaW
  split
  · norm_num
  · norm_num

/-- A fighter as the start places it. -/
structure Placed (cfg : CfgN) (i j m : ℕ) (f : FighterN) : Prop where
  x : f.x = startX cfg (if m = i ∨ m = j then 0 else 1 / 2)
  y : f.y = 280
  vy : f.vy = -1
  low : 13 ≤ f.r
  high : f.r ≤ 30

theorem radiusFor_mem (p : Platform) (f : FighterN) : 13 ≤ radiusFor p f ∧ radiusFor p f ≤ 30 := by
  unfold radiusFor clamp
  split
  · norm_num
  split
  · norm_num
  · next hlow hhigh => exact ⟨not_lt.mp hlow, not_lt.mp hhigh⟩

theorem start_placed (entries : List EntryN) (cfg : CfgN) (i j : ℕ) (hm : m < entries.length) :
    Placed cfg i j m (fighterAt (start (meeting entries.length i j) "" entries cfg).F m) := by
  rw [start_at _ "" entries cfg hm]
  constructor
  case x =>
      rw [← meeting_place hm]
      rfl
  case y =>
      change clamp (arenaH / 2 + 0 * _ * (arenaH / arenaW)) 20 (arenaH - 20) = 280
      rw [zero_mul, zero_mul, add_zero]
      norm_num [clamp, arenaH]
  case vy =>
      change -1 + (meeting entries.length i j).rngFromSeed "" (0 + 4 * m + 1) * (1 - -1) = -1
      rw [meeting_before hm (by decide)]
      ring
  case low => exact (radiusFor_mem _ _).1
  case high => exact (radiusFor_mem _ _).2

/-- In sight means at the same point. -/
theorem score_meeting {f q : FighterN} : score (meeting n i j) f q < 10 ^ 18 ↔ q.x = f.x ∧ q.y = f.y := by
  have hclose : (q.x - f.x) * (q.x - f.x) + (q.y - f.y) * (q.y - f.y) = 0 ↔ q.x = f.x ∧ q.y = f.y := by
    constructor
    · intro h
      exact ⟨by nlinarith, by nlinarith⟩
    · rintro ⟨hx, hy⟩
      rw [hx, hy]
      ring
  rw [← hclose, score]
  simp only [meeting]
  by_cases htogether : (q.x - f.x) * (q.x - f.x) + (q.y - f.y) * (q.y - f.y) = 0
  · simp [htogether]
  · simp only [htogether, if_false, iff_false, not_lt]
    have hf : 0 < max (1 / 100) (ring f) := lt_of_lt_of_le (by norm_num) (le_max_left _ _)
    have hq : 0 < max (1 / 100) (ring q) := lt_of_lt_of_le (by norm_num) (le_max_left _ _)
    have hratio : 1 ≤ min (if max (1 / 100) (ring q) < max (1 / 100) (ring f)
        then max (1 / 100) (ring f) / max (1 / 100) (ring q)
        else max (1 / 100) (ring q) / max (1 / 100) (ring f)) 8 := by
      apply le_min _ (by norm_num)
      split
      · next hlt => exact (one_le_div hq).mpr hlt.le
      · next hle => exact (one_le_div hf).mpr (not_lt.mp hle)
    rw [SIZE_WEIGHT]
    nlinarith

theorem walls_y (f : FighterN) : (walls f).y = f.y ∨ (walls f).y = f.r ∨ (walls f).y = arenaH - f.r := by
  unfold walls
  extract_lets f₁ f₂ f₃
  have h₁ : f₁.y = f.y ∧ f₁.r = f.r := by
    simp only [f₁]
    split <;> exact ⟨rfl, rfl⟩
  have h₂ : f₂.y = f.y ∧ f₂.r = f.r := by
    simp only [f₂]
    split
    · exact h₁
    · exact h₁
  have h₃ : (f₃.y = f.y ∨ f₃.y = f.r) ∧ f₃.r = f.r := by
    simp only [f₃]
    split
    · exact ⟨.inr h₂.2, h₂.2⟩
    · exact ⟨.inl h₂.1, h₂.2⟩
  split
  · exact .inr (.inr (by rw [h₃.2]))
  · exact h₃.1.imp_right .inl

theorem seek_together {k : Tick} {tgt : Option FighterN} {f : FighterN} (h : ∀ q, tgt = some q → q.y = f.y) :
    (seek p k tgt f).vy = f.vy ∧ (seek p k tgt f).y = f.y ∧ (seek p k tgt f).r = f.r := by
  cases tgt with
  | none => exact ⟨rfl, rfl, rfl⟩
  | some q =>
      refine ⟨?_, rfl, rfl⟩
      simp only [seek, h q rfl, sub_self, zero_div, zero_mul, add_zero]

/-- A fighter of the start that sees only what is at its own point leaves the middle line. -/
theorem move_away {k : Tick} {A : List ℕ} {G : List FighterN} {g : Rng} (hm : m < G.length) (hramp : k.ramp = 1)
    (hdt : k.dt ≠ 0) (hplaced : Placed cfg i j m (fighterAt G m)) (hdraw : g.stream (g.used + 1) = 1 / 2) :
    (fighterAt ((move (meeting n i j) k A G m).run g).1 m).y ≠ 280 := by
  let f := fighterAt G m
  let f₁ : FighterN := { f with r := f.r + (radiusFor (meeting n i j) f - f.r) * (15 / 100) }
  let f₂ := seek (meeting n i j) k (target (meeting n i j) G A f₁) f₁
  have hsight : ∀ q, target (meeting n i j) G A f₁ = some q → q.y = f₁.y :=
    fun q hq => (score_meeting.mp (target_some hq).1).2
  obtain ⟨hvy, hy, hr⟩ := seek_together (p := meeting n i j) (k := k) hsight
  change (fighterAt (G.set m (walls _)) m).y ≠ 280
  rw [fighterAt_set_self hm]
  let jitter : ℕ → ℚ := fun c => -8 + g.stream (g.used + c) * (8 - -8)
  let f₃ : FighterN := { f₂ with vx := f₂.vx + jitter 0 * k.dt, vy := f₂.vy + jitter 1 * k.dt }
  have hslow : limitSpeed (meeting n i j) k f₃ = f₃ := by
    rw [limitSpeed, if_neg]
    simp only [meeting, if_true, speed, hramp]
    norm_num
  let f₄ : FighterN := { limitSpeed (meeting n i j) k f₃ with
    x := (limitSpeed (meeting n i j) k f₃).x + (limitSpeed (meeting n i j) k f₃).vx * k.dt
    y := (limitSpeed (meeting n i j) k f₃).y + (limitSpeed (meeting n i j) k f₃).vy * k.dt }
  change (walls f₄).y ≠ 280
  have hy₄ : f₄.y = 280 - k.dt := by
    change (limitSpeed (meeting n i j) k f₃).y + (limitSpeed (meeting n i j) k f₃).vy * k.dt = 280 - k.dt
    rw [hslow]
    change f₂.y + (f₂.vy + (-8 + g.stream (g.used + 1) * (8 - -8)) * k.dt) * k.dt = 280 - k.dt
    rw [hy, hvy, hdraw]
    change f.y + (f.vy + _) * k.dt = 280 - k.dt
    rw [hplaced.y, hplaced.vy]
    ring
  have hr₄ : 13 ≤ f₄.r ∧ f₄.r ≤ 30 := by
    have heq : f₄.r = f.r + (radiusFor (meeting n i j) f - f.r) * (15 / 100) := by
      change (limitSpeed (meeting n i j) k f₃).r = _
      rw [hslow]
      exact hr
    obtain ⟨hlow, hhigh⟩ := radiusFor_mem (meeting n i j) f
    have hlow' : 13 ≤ f.r := hplaced.low
    have hhigh' : f.r ≤ 30 := hplaced.high
    rw [heq]
    constructor
    · linarith
    · linarith
  rcases walls_y f₄ with h | h | h
  · rw [h, hy₄]
    intro hzero
    exact hdt (by linarith)
  · rw [h]
    linarith [hr₄.2]
  · rw [h, arenaH]
    linarith [hr₄.2]

theorem moves_away {k : Tick} {A B : List ℕ} {G : List FighterN} {g : Rng} (hB : B.Nodup)
    (hlen : ∀ m ∈ B, m < G.length) (hramp : k.ramp = 1) (hdt : k.dt ≠ 0)
    (hplaced : ∀ m ∈ B, Placed cfg i j m (fighterAt G m)) (hdraw : ∀ c, g.stream (g.used + c) = 1 / 2) :
    ∀ m ∈ B, (fighterAt ((B.foldlM (move (meeting n i j) k A) G).run g).1 m).y ≠ 280 := by
  induction B generalizing G g with
  | nil =>
      intro m hm
      cases hm
  | cons b B ih =>
      obtain ⟨hb, hB⟩ := List.nodup_cons.mp hB
      obtain ⟨hlenb, hlen⟩ := List.forall_mem_cons.mp hlen
      obtain ⟨hplacedb, hplaced⟩ := List.forall_mem_cons.mp hplaced
      intro m hm
      rw [List.foldlM_cons]
      rcases List.mem_cons.mp hm with rfl | hm
      · have hkept := moves_frame (p := meeting n i j) (k := k) hb A ((move (meeting n i j) k A G m).run g).1
          ((move (meeting n i j) k A G m).run g).2
        have haway := move_away (n := n) (A := A) hlenb hramp hdt hplacedb (hdraw 1)
        rw [← hkept] at haway
        exact haway
      · refine ih (G := ((move (meeting n i j) k A G b).run g).1) (g := ((move (meeting n i j) k A G b).run g).2) hB
          ?_ ?_ ?_ m hm
        · intro m hm
          have hsame : ((move (meeting n i j) k A G b).run g).1.length = G.length := List.length_set
          rw [hsame]
          exact hlen m hm
        · intro m hm
          have hne : m ≠ b := fun he => hb (he ▸ hm)
          rw [move_frame hne]
          exact hplaced m hm
        · intro c
          have hused : ((move (meeting n i j) k A G b).run g).2 = { g with used := g.used + 1 + 1 } := rfl
          rw [hused]
          change g.stream (g.used + 1 + 1 + c) = 1 / 2
          rw [Nat.add_assoc, Nat.add_assoc]
          exact hdraw (1 + (1 + c))

theorem alive_sorted (F : List FighterN) : (alive F).Pairwise (· < ·) := List.pairwise_lt_range.filter _

/-- The first of the two meets the other in the first tick. -/
theorem meets_itself {steps : ℤ} (hij : i < j) (hi : i < entries.length) (hj : j < entries.length)
    (hwallet : walletOf entries[i].id = walletOf entries[j].id)
    (hteam : teamOf cfg entries[i] i ≠ teamOf cfg entries[j] j) (hpi : TakesPart cfg entries i entries[i])
    (hpj : TakesPart cfg entries j entries[j]) :
    ¬ SeeksOthers (meeting entries.length i j) cfg steps 0 (start (meeting entries.length i j) "" entries cfg) := by
  intro hseeks
  let p := meeting entries.length i j
  let F := (start p "" entries cfg).F
  have hiA : i ∈ alive F := mem_alive_start.mpr ⟨hi, hpi⟩
  have hjA : j ∈ alive F := mem_alive_start.mpr ⟨hj, hpj⟩
  obtain ⟨before, later, hsplit⟩ := List.append_of_mem hiA
  have hsorted := alive_sorted F
  rw [hsplit] at hsorted
  obtain ⟨hbefore, -, hlt⟩ := List.pairwise_append.mp hsorted
  have hearlier : ∀ m ∈ before, m < i := fun m hm => hlt m hm i List.mem_cons_self
  let k := tickAt cfg steps 0
  let G := ((before.foldlM (move p k (alive F)) F).run (start p "" entries cfg).rng).1
  have hlength : ∀ m ∈ alive F, m < entries.length := by
    intro m hm
    obtain ⟨hm, -⟩ := mem_alive_start.mp hm
    exact hm
  have hinA : ∀ m ∈ before, m ∈ alive F := by
    intro m hm
    rw [hsplit]
    exact List.mem_append_left _ hm
  have hplaced : ∀ m < entries.length, Placed cfg i j m (fighterAt F m) := fun m hm => start_placed entries cfg i j hm
  -- who has moved is off the middle line, who has not stands where it started
  have hmoved : ∀ m ∈ before, (fighterAt G m).y ≠ 280 := by
    refine moves_away (hbefore.imp fun h => h.ne) ?_ ?_ ?_ (fun m hm => hplaced m (hlength m (hinA m hm))) ?_
    · intro m hm
      rw [start_length]
      exact hlength m (hinA m hm)
    · simp [k, tickAt]
    · simp only [k, tickAt]
      exact div_ne_zero cfg.tickMs_ne (by norm_num)
    · intro c
      rw [start_rng]
      change p.rngFromSeed "" (0 + 4 * entries.length + c) = 1 / 2
      exact meeting_after (by omega)
  have hstill : ∀ m, m ∉ before → fighterAt G m = fighterAt F m := fun m hm => moves_frame hm _ _ _
  have hGi : fighterAt G i = fighterAt F i := hstill i fun hmem => lt_irrefl i (hearlier i hmem)
  have hGj : fighterAt G j = fighterAt F j := hstill j fun hmem => lt_asymm hij (hearlier j hmem)
  obtain ⟨q, hq⟩ : ∃ q, sought p (alive F) G i = some q := by
    apply exists_target hjA
    · rw [hGj]
      change (fighterAt F j).team ≠ (fighterAt G i).team
      rw [hGi, (start_seats hi).2, (start_seats hj).2]
      exact hteam.symm
    · apply score_meeting.mpr
      rw [hGj]
      change (fighterAt F j).x = (fighterAt G i).x ∧ (fighterAt F j).y = (fighterAt G i).y
      rw [hGi, (hplaced i hi).x, (hplaced j hj).x, (hplaced i hi).y, (hplaced j hj).y]
      simp
  apply hseeks before i later hsplit q hq
  obtain ⟨hscore, hqteam, m, hm, rfl⟩ := target_some hq
  obtain ⟨hx, hy⟩ := score_meeting.mp hscore
  change (fighterAt G m).x = (fighterAt G i).x at hx
  change (fighterAt G m).y = (fighterAt G i).y at hy
  change (fighterAt G m).team ≠ (fighterAt G i).team at hqteam
  rw [hGi, (hplaced i hi).y] at hy
  have hmF : fighterAt G m = fighterAt F m := hstill m fun hmem => hmoved m hmem hy
  have hmlt := hlength m hm
  rw [hmF, hGi, (hplaced i hi).x, (hplaced m hmlt).x, if_pos (Or.inl rfl : i = i ∨ i = j)] at hx
  have hmij : m = i ∨ m = j := by
    by_contra hneither
    rw [if_neg hneither] at hx
    exact startX_ne cfg hx.symm
  rcases hmij with rfl | rfl
  · exact absurd rfl hqteam
  · rw [hmF]
    change walletOf (fighterAt F m).id = walletOf (fighterAt F i).id
    rw [(start_seats hi).1, (start_seats hj).1]
    exact hwallet.symm

theorem two_le_teams {F : List FighterN} {A : List ℕ} (hi : i ∈ A) (hj : j ∈ A)
    (hteam : (fighterAt F i).team ≠ (fighterAt F j).team) : 2 ≤ teamsAlive F A := by
  have hmem : ∀ m ∈ A, (fighterAt F m).team ∈ (A.map fun m => (fighterAt F m).team).dedup :=
    fun m hm => List.mem_dedup.mpr (List.mem_map_of_mem hm)
  have hpair : [(fighterAt F i).team, (fighterAt F j).team].Subperm (A.map fun m => (fighterAt F m).team).dedup := by
    apply List.subperm_of_subset
    · simpa using hteam
    · intro team hteam
      rcases List.mem_pair.mp hteam with rfl | rfl
      · exact hmem i hi
      · exact hmem j hj
  exact hpair.length_le

/-! ## When a wallet is never its own enemy -/

/-- No fighter seeks or strikes one of its own wallet, in any tick of a battle. -/
def NeverItsOwnEnemy (p : Platform) (seed : String) (entries : List EntryN) (cfg : CfgN) : Prop :=
  Peaceful p cfg ⌊cfg.battleMs / cfg.tickMs⌋ ⌊cfg.battleMs / cfg.tickMs⌋.toNat 0 (start p seed entries cfg) ∧
    BetweenWallets (simulateN p seed entries cfg).hits

theorem start_joined (p : Platform) (seed : String) (entries : List EntryN) (cfg : CfgN) :
    Joined (start p seed entries cfg).F (start p seed entries cfg) :=
  ⟨fun _ => ⟨rfl, rfl⟩, rfl, fun _ _ _ => rfl, fun hit hmem => by cases hmem⟩

theorem Joined.ticks {F₀ : List FighterN} (hapart : Apart F₀ (N.alive F₀)) (p : Platform) (cfg : CfgN) (steps : ℤ)
    (m : ℕ) : ∀ (t : ℕ) (w : World), Joined F₀ w → Joined F₀ (ticks p cfg steps m t w).1 := by
  induction m with
  | zero => exact fun t w h => h
  | succ m ih =>
      intro t w h
      rw [N.ticks]
      split
      · exact h
      · exact ih (t + 1) _ (h.tick hapart p cfg steps t).1

end N

/-- In the battle of two teams a wallet is never its own enemy. In the battle of many it is in no battle just
when there is no tick, or no wallet that takes part for two teams. -/
theorem own_enemy_iff (entries : List EntryN) (cfg : CfgN) :
    (∀ (p : Platform) (F : List Fighter) (A : List ℕ) (i : ℕ) (q : Fighter), sought p A F i = some q →
      walletOf q.id ≠ walletOf (fighterAt F i).id) ∧
    (∀ (p : Platform) (fuel : ℕ) (seed : String) (entries : List Entry) (cfg : RoundConfig) (r : RoundResult),
      simulateRound p fuel seed entries cfg = some r → BetweenWallets r.hits) ∧
    ((∀ p seed, N.NeverItsOwnEnemy p seed entries cfg) ↔
      ⌊cfg.battleMs / cfg.tickMs⌋ ≤ 0 ∨ ¬ N.Divided cfg entries) := by
  refine ⟨?_, ?_, ?_⟩
  · exact fun p F A i q hq => target_wallet hq
  · exact fun p fuel seed entries cfg r hr => simulateRound_between hr
  · constructor
    · intro hnever
      by_contra hboth
      obtain ⟨hsteps, hdivided⟩ := not_or.mp hboth
      obtain ⟨i, j, hi, hj, hwallet, hteam, hpi, hpj⟩ := not_not.mp hdivided
      wlog hij : i < j generalizing i j
      · have hne : j ≠ i := by
          rintro rfl
          exact hteam rfl
        exact this j i hj hi hwallet.symm hteam.symm hpj hpi (by omega)
      have hpeace := (hnever (N.meeting entries.length i j) "").1
      obtain ⟨m, hm⟩ : ∃ m, ⌊cfg.battleMs / cfg.tickMs⌋.toNat = m + 1 := ⟨_, (Nat.succ_pred (by omega)).symm⟩
      rw [hm] at hpeace
      have hstart := @N.start_seats (N.meeting entries.length i j) "" entries cfg
      have hteams : 2 ≤ N.teamsAlive (N.start (N.meeting entries.length i j) "" entries cfg).F
          (N.alive (N.start (N.meeting entries.length i j) "" entries cfg).F) := by
        apply N.two_le_teams (N.mem_alive_start.mpr ⟨hi, hpi⟩) (N.mem_alive_start.mpr ⟨hj, hpj⟩)
        rw [(hstart hi).2, (hstart hj).2]
        exact hteam
      exact N.meets_itself hij hi hj hwallet hteam hpi hpj (hpeace.2 hteams).1
    · intro hcondition p seed
      have hhits := (N.simulateN_fighters p seed entries cfg).2.1
      rcases hcondition with hsteps | hundivided
      · have hzero : ⌊cfg.battleMs / cfg.tickMs⌋.toNat = 0 := by omega
        have hnone : N.BetweenWallets (N.start p seed entries cfg).hits := fun hit hmem => by cases hmem
        rw [N.NeverItsOwnEnemy, hhits, N.fight, hzero]
        exact ⟨hnone, hnone⟩
      · have hapart := N.start_apart p seed hundivided
        have hjoined := N.start_joined p seed entries cfg
        rw [N.NeverItsOwnEnemy, hhits]
        exact ⟨hjoined.peaceful hapart p cfg _ _ 0 _, (hjoined.ticks hapart p cfg _ _ 0 _).between⟩

/-- Square roots rounded down, the cosines of the first two of three corners, and dice that never vary. -/
def roundedPlatform : Platform where
  sqrt v := (Nat.sqrt ⌊v⌋.toNat : ℚ)
  hypot x y := (Nat.sqrt ⌊x * x + y * y⌋.toNat : ℚ)
  cos v := if v = 0 then 1 else -1 / 2
  sin v := if v = 0 then 0 else 866 / 1000
  pi := 355 / 113
  rngFromSeed _ _ := 1 / 2
  sha256 text := text
  sqrt_nonneg _ := Nat.cast_nonneg _
  hypot_nonneg _ _ := Nat.cast_nonneg _

/-- One wallet on two of the three teams. -/
def dividedEntries : List EntryN := [⟨"a|0", 0, 100⟩, ⟨"a|1", 1, 100⟩]

theorem clamp_mem {v a b : ℚ} (hab : a ≤ b) : a ≤ clamp v a b ∧ clamp v a b ≤ b := by
  unfold clamp
  split
  · exact ⟨le_refl a, hab⟩
  split
  · exact ⟨hab, le_refl b⟩
  · next hlow hhigh => exact ⟨not_lt.mp hlow, not_lt.mp hhigh⟩

/-- Fighters start inside the arena. -/
theorem start_inside (p : Platform) (seed : String) (entries : List EntryN) (cfg : CfgN) {i : ℕ}
    (hi : i < entries.length) :
    (20 ≤ (N.fighterAt (N.start p seed entries cfg).F i).x ∧ (N.fighterAt (N.start p seed entries cfg).F i).x ≤ 880) ∧
      20 ≤ (N.fighterAt (N.start p seed entries cfg).F i).y ∧ (N.fighterAt (N.start p seed entries cfg).F i).y ≤ 540 := by
  rw [N.start_at p seed entries cfg hi]
  have hx : (20 : ℚ) ≤ arenaW - 20 ∧ arenaW - 20 = 880 := by norm_num [arenaW]
  have hy : (20 : ℚ) ≤ arenaH - 20 ∧ arenaH - 20 = 540 := by norm_num [arenaH]
  constructor
  · rw [← hx.2]
    exact clamp_mem hx.1
  · rw [← hy.2]
    exact clamp_mem hy.1

/-- Everybody inside the arena is in sight. -/
theorem score_inside {p : Platform} (hsqrt : ∀ v, 0 ≤ v → p.sqrt v ≤ v + 1) {f q : FighterN}
    (hf : (20 ≤ f.x ∧ f.x ≤ 880) ∧ 20 ≤ f.y ∧ f.y ≤ 540) (hq : (20 ≤ q.x ∧ q.x ≤ 880) ∧ 20 ≤ q.y ∧ q.y ≤ 540) :
    N.score p f q < 10 ^ 18 := by
  have hx : (q.x - f.x) * (q.x - f.x) ≤ 860 * 860 := by nlinarith [hf.1.1, hf.1.2, hq.1.1, hq.1.2]
  have hy : (q.y - f.y) * (q.y - f.y) ≤ 520 * 520 := by nlinarith [hf.2.1, hf.2.2, hq.2.1, hq.2.2]
  have hd := hsqrt ((q.x - f.x) * (q.x - f.x) + (q.y - f.y) * (q.y - f.y)) (by nlinarith)
  have hd0 := p.sqrt_nonneg ((q.x - f.x) * (q.x - f.x) + (q.y - f.y) * (q.y - f.y))
  simp only [N.score]
  set ratio := min (if max (1 / 100) (N.ring q) < max (1 / 100) (N.ring f)
    then max (1 / 100) (N.ring f) / max (1 / 100) (N.ring q)
    else max (1 / 100) (N.ring q) / max (1 / 100) (N.ring f)) 8
  have hratio : ratio ≤ 8 := min_le_right _ _
  have hfactor : 1 + SIZE_WEIGHT * (ratio - 1) ≤ 10 := by
    rw [SIZE_WEIGHT]
    linarith
  calc p.sqrt ((q.x - f.x) * (q.x - f.x) + (q.y - f.y) * (q.y - f.y)) * (1 + SIZE_WEIGHT * (ratio - 1))
      ≤ p.sqrt ((q.x - f.x) * (q.x - f.x) + (q.y - f.y) * (q.y - f.y)) * 10 := mul_le_mul_of_nonneg_left hfactor hd0
    _ < 10 ^ 18 := by linarith

theorem divided_takes_part : N.TakesPart N.threeWay dividedEntries 0 ⟨"a|0", 0, 100⟩ ∧
    N.TakesPart N.threeWay dividedEntries 1 ⟨"a|1", 1, 100⟩ := by
  have htotals : N.totals N.threeWay dividedEntries = [100, 100, 0] := by decide +kernel
  obtain ⟨cap, hcap, ⟨hmem, hpos⟩, -⟩ := @N.capPer_min dividedEntries N.threeWay rfl (by decide) 100
    (by rw [htotals]; simp) (by norm_num)
  have hcap100 : cap = 100 := by
    rw [htotals] at hmem
    simp only [List.mem_cons, List.not_mem_nil, or_false, or_self_left] at hmem
    rcases hmem with h | h
    · exact h
    · exact absurd h hpos.ne'
  have hfrac : ∀ k < 2, N.frac (N.totals N.threeWay dividedEntries) (N.capPer N.threeWay dividedEntries) (k : ℕ) = 1 := by
    intro k hk
    rw [hcap, hcap100, htotals, N.frac]
    rw [N.slot_cast (show k < [(100 : ℚ), 100, 0].length by simp only [List.length_cons, List.length_nil]; omega)]
    rcases Nat.lt_succ_iff_lt_or_eq.mp hk with h | rfl
    · obtain rfl : k = 0 := by omega
      norm_num
    · norm_num
  have hteam : ∀ e i, N.teamOf N.threeWay e i = e.team := fun e i => rfl
  rw [N.TakesPart, N.TakesPart, hteam, hteam]
  have h0 := hfrac 0 (by decide)
  have h1 := hfrac 1 (by decide)
  rw [Nat.cast_zero] at h0
  rw [Nat.cast_one] at h1
  rw [h0, h1, DUST_FRAC]
  norm_num

/-- With any square root that is no larger than its argument and one more, the first fighter seeks the other. -/
theorem divided_seeks {p : Platform} (hsqrt : ∀ v, 0 ≤ v → p.sqrt v ≤ v + 1) (seed : String) (steps : ℤ) :
    ¬ N.SeeksOthers p N.threeWay steps 0 (N.start p seed dividedEntries N.threeWay) := by
  intro hseeks
  have h0 : 0 < dividedEntries.length := by decide
  have h1 : 1 < dividedEntries.length := by decide
  let F := (N.start p seed dividedEntries N.threeWay).F
  have hi : 0 ∈ N.alive F := N.mem_alive_start.mpr ⟨h0, divided_takes_part.1⟩
  have hj : 1 ∈ N.alive F := N.mem_alive_start.mpr ⟨h1, divided_takes_part.2⟩
  have hsub : ∀ m ∈ N.alive F, m < 2 := by
    intro m hm
    obtain ⟨hm, -⟩ := N.mem_alive_start.mp hm
    exact hm
  obtain ⟨before, later, hsplit⟩ := List.append_of_mem hi
  have hfirst : before = [] := by
    have hsorted := N.alive_sorted F
    rw [hsplit] at hsorted
    obtain ⟨-, -, hlt⟩ := List.pairwise_append.mp hsorted
    exact List.eq_nil_iff_forall_not_mem.mpr fun m hm => Nat.not_lt_zero m (hlt m hm 0 List.mem_cons_self)
  subst hfirst
  have hseats := @N.start_seats p seed dividedEntries N.threeWay
  obtain ⟨q, hq⟩ : ∃ q, N.sought p (N.alive F) F 0 = some q := by
    apply N.exists_target hj
    · change (N.fighterAt F 1).team ≠ (N.fighterAt F 0).team
      rw [(hseats h0).2, (hseats h1).2]
      exact (one_ne_zero : (1 : ℚ) ≠ 0)
    · exact score_inside hsqrt (start_inside p seed dividedEntries N.threeWay h0)
        (start_inside p seed dividedEntries N.threeWay h1)
  apply hseeks [] 0 later hsplit q hq
  obtain ⟨-, hteam, m, hm, rfl⟩ := N.target_some hq
  have hm2 := hsub m hm
  obtain rfl | rfl : m = 0 ∨ m = 1 := by omega
  · exact absurd rfl hteam
  · change walletOf (N.fighterAt F 1).id = walletOf (N.fighterAt F 0).id
    rw [(hseats h0).1, (hseats h1).1]
    change walletOf "a|1" = walletOf "a|0"
    decide

theorem wallet_seeks_its_own :
    (dividedEntries.map EntryN.id).Nodup ∧ ¬ N.NeverItsOwnEnemy roundedPlatform "seed" dividedEntries N.threeWay := by
  refine ⟨by decide, ?_⟩
  rintro ⟨hpeace, -⟩
  have hsqrt : ∀ v, 0 ≤ v → roundedPlatform.sqrt v ≤ v + 1 := by
    intro v hv
    have hroot : Nat.sqrt ⌊v⌋.toNat ≤ ⌊v⌋.toNat := Nat.sqrt_le_self _
    have hfloor : ((⌊v⌋.toNat : ℤ) : ℚ) ≤ v := by
      rw [Int.toNat_of_nonneg (Int.floor_nonneg.mpr hv)]
      exact Int.floor_le v
    have hcast : ((Nat.sqrt ⌊v⌋.toNat : ℕ) : ℚ) ≤ ((⌊v⌋.toNat : ℕ) : ℚ) := by exact_mod_cast hroot
    change ((Nat.sqrt ⌊v⌋.toNat : ℕ) : ℚ) ≤ v + 1
    rw [Int.cast_natCast] at hfloor
    linarith
  have hsteps : ⌊N.threeWay.battleMs / N.threeWay.tickMs⌋ = 2 := by decide +kernel
  rw [hsteps] at hpeace
  have hseats := @N.start_seats roundedPlatform "seed" dividedEntries N.threeWay
  have h0 : 0 < dividedEntries.length := by decide
  have h1 : 1 < dividedEntries.length := by decide
  have hteams : 2 ≤ N.teamsAlive (N.start roundedPlatform "seed" dividedEntries N.threeWay).F
      (N.alive (N.start roundedPlatform "seed" dividedEntries N.threeWay).F) := by
    apply N.two_le_teams (N.mem_alive_start.mpr ⟨h0, divided_takes_part.1⟩)
      (N.mem_alive_start.mpr ⟨h1, divided_takes_part.2⟩)
    rw [(hseats h0).2, (hseats h1).2]
    exact (zero_ne_one : (0 : ℚ) ≠ 1)
  exact divided_seeks hsqrt "seed" 2 (hpeace.2 hteams).1

end BullsUnicorns.Battle

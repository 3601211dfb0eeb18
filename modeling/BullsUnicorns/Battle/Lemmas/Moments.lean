import BullsUnicorns.Battle.Lemmas.Bags

/-!
# A battle of many teams, blow by blow

Between two blows fighters move, bounce and are buried, which leaves their purses alone. Every battle is a
run of such moments, and each hit of its log lands at one of them.
-/

namespace BullsUnicorns.Battle.N

variable {p : Platform} {cfg : CfgN} {k : Tick} {mode : Mode} {n : ℕ}

/-! ## Coins by team -/

/-- The coins of a team that a fighter holds in its ring and pots. -/
def coins (c : ℕ) (f : FighterN) : ℚ := (if f.team = c then f.own else 0) + f.stolen.getD c 0

def coinsOf (c : ℕ) (F : List FighterN) : ℚ := (F.map (coins c)).sum

theorem getD_modify {l : List ℚ} {i : ℕ} (hi : i < l.length) (x : ℚ) (c : ℕ) :
    (l.modify i (· + x)).getD c 0 = l.getD c 0 + if i = c then x else 0 := by
  rw [List.getD_eq_getElem?_getD, List.getD_eq_getElem?_getD, List.getElem?_modify]
  by_cases hic : i = c
  · subst hic
    simp [hi]
  · simp [hic]

/-- The team whose coins a part of a blow is made of. -/
def Src.team (dfn : FighterN) : Src → ℚ
  | .own => dfn.team
  | .stolen i => (i : ℚ)

theorem lose_coins {dfn : FighterN} {src : Src} {take : ℚ} (h0 : 0 < take) (hle : take ≤ FighterN.held dfn src)
    (c : ℕ) : coins c (FighterN.lose dfn src take) = coins c dfn - if src.team dfn = c then take else 0 := by
  cases src with
  | own =>
      simp only [FighterN.lose, coins, Src.team]
      by_cases hteam : dfn.team = c
      · simp only [hteam, if_true]
        ring
      · simp only [hteam, if_false]
        ring
  | stolen i =>
      obtain ⟨w, hw, -⟩ := held_stolen h0 hle
      have hi : i < dfn.stolen.length := (List.getElem?_eq_some_iff.mp hw).1
      simp only [FighterN.lose, coins, Src.team, sub_eq_add_neg, getD_modify hi, Nat.cast_inj]
      by_cases hic : i = c
      · simp only [hic, if_true]
        ring
      · simp only [hic, if_false]
        ring

theorem gain_coins {atk : FighterN} {i : ℕ} (hi : i < atk.stolen.length) (take : ℚ) (c : ℕ) :
    coins c (FighterN.gain atk .normal (i : ℚ) take) = coins c atk + if i = c then take else 0 := by
  simp only [FighterN.gain]
  split
  · next hteam =>
      simp only [coins, ← hteam, Nat.cast_inj]
      split
      · ring
      · ring
  · rw [slot_cast hi]
    simp only [coins, getD_modify hi]
    ring

theorem ring_lose {dfn : FighterN} {src : Src} {take : ℚ} (h0 : 0 < take) (hle : take ≤ FighterN.held dfn src) :
    ring (FighterN.lose dfn src take) = ring dfn - take := by
  have hbag := (lose_spec h0 hle).1
  have hrest : (purse (FighterN.lose dfn src take)).banked = (purse dfn).banked ∧
      (purse (FighterN.lose dfn src take)).unmatched = (purse dfn).unmatched := by
    cases src
    · exact ⟨rfl, rfl⟩
    · exact ⟨rfl, rfl⟩
  rw [PurseN.bag, PurseN.bag, hrest.1, hrest.2] at hbag
  change (purse (FighterN.lose dfn src take)).own + (purse (FighterN.lose dfn src take)).stolen.sum =
    (purse dfn).own + (purse dfn).stolen.sum - take
  linarith

/-! ## A blow -/

/-- What a blow has taken when it has come to `f'` and `g'`. -/
structure Landing (mode : Mode) (f g f' g' : FighterN) (got : ℚ) : Prop where
  blow : Blow f g f' g'
  unmatched : f'.unmatched = f.unmatched ∧ g'.unmatched = g.unmatched
  taken : ring g' + got = ring g
  got_nonneg : 0 ≤ got
  coins : mode = .normal → ∀ n, (purse f).Seated n → (purse g).Seated n →
    ∀ c, coins c f' + coins c g' = coins c f + coins c g

theorem Landing.start (mode : Mode) (f g : FighterN) : Landing mode f g f g 0 :=
  ⟨Blow.refl f g, ⟨rfl, rfl⟩, add_zero _, le_refl 0, fun _ _ _ _ _ => rfl⟩

theorem gain_unmatched (atk : FighterN) (mode : Mode) (asTeam take : ℚ) :
    (FighterN.gain atk mode asTeam take).unmatched = atk.unmatched := by
  cases mode with
  | extraction => rfl
  | normal =>
      simp only [FighterN.gain]
      split
      · rfl
      split <;> rfl

theorem lose_unmatched (dfn : FighterN) (src : Src) (take : ℚ) :
    (FighterN.lose dfn src take).unmatched = dfn.unmatched := by
  cases src <;> rfl

theorem applyPart_eq (mode : Mode) (atk dfn : FighterN) (got want : ℚ) (src : Src) :
    applyPart mode (atk, dfn, got) (src, want) =
      if min want (FighterN.held dfn src) ≤ 5 / 1000 then (atk, dfn, got)
      else (FighterN.gain atk mode (src.team dfn) (min want (FighterN.held dfn src)),
        FighterN.lose dfn src (min want (FighterN.held dfn src)), got + min want (FighterN.held dfn src)) := by
  cases src <;> rfl

theorem Landing.part {f g f' g' : FighterN} {got : ℚ} (h : Landing mode f g f' g' got) (part : Src × ℚ) :
    Landing mode f g (applyPart mode (f', g', got) part).1 (applyPart mode (f', g', got) part).2.1
      (applyPart mode (f', g', got) part).2.2 := by
  have hblow := h.blow.trans (applyPart_blow mode f' g' got part)
  obtain ⟨src, want⟩ := part
  rw [applyPart_eq] at hblow ⊢
  by_cases hskip : min want (FighterN.held g' src) ≤ 5 / 1000
  · rw [if_pos hskip]
    exact h
  · have h0 : 0 < min want (FighterN.held g' src) := by linarith [not_le.mp hskip]
    have hle : min want (FighterN.held g' src) ≤ FighterN.held g' src := min_le_right _ _
    rw [if_neg hskip] at hblow ⊢
    constructor
    case blow => exact hblow
    case unmatched => exact ⟨(gain_unmatched _ _ _ _).trans h.unmatched.1, (lose_unmatched _ _ _).trans h.unmatched.2⟩
    case taken =>
        rw [ring_lose h0 hle, ← h.taken]
        ring
    case got_nonneg => linarith [h.got_nonneg]
    case coins =>
        rintro rfl n hf hg c
        obtain ⟨hf', hg'⟩ := h.blow.seated hf hg
        have hseat : ∃ i < n, src.team g' = (i : ℕ) := by
          cases src with
          | own => exact hg'.2
          | stolen i =>
              obtain ⟨w, hw, -⟩ := held_stolen h0 hle
              have hlen : g'.stolen.length = n := hg'.1
              exact ⟨i, hlen ▸ (List.getElem?_eq_some_iff.mp hw).1, rfl⟩
        obtain ⟨i, hi, hsrc⟩ := hseat
        have hlen : f'.stolen.length = n := hf'.1
        rw [lose_coins h0 hle, hsrc, gain_coins (hlen ▸ hi), ← h.coins rfl n hf hg c]
        simp only [Nat.cast_inj]
        ring

theorem Landing.parts {f g f' g' : FighterN} {got : ℚ} (h : Landing mode f g f' g' got) (plan : List (Src × ℚ)) :
    Landing mode f g (plan.foldl (applyPart mode) (f', g', got)).1 (plan.foldl (applyPart mode) (f', g', got)).2.1
      (plan.foldl (applyPart mode) (f', g', got)).2.2 := by
  induction plan generalizing f' g' got with
  | nil => exact h
  | cons part plan ih => exact ih (h.part part)

/-- A blow, whatever its plan: what it takes is what the log says, or too little to be logged. -/
theorem apply_landing (mode : Mode) (t : ℕ) (atk dfn : FighterN) (hits : List HitN) (plan : List (Src × ℚ)) :
    ∃ got, Landing mode atk dfn (apply mode t atk dfn hits plan).1 (apply mode t atk dfn hits plan).2.1 got ∧
      ((apply mode t atk dfn hits plan).2.2 = hits ∨
        (apply mode t atk dfn hits plan).2.2 = hits ++ [⟨t, atk.id, dfn.id, got⟩] ∧ 0 < got) := by
  have h := (Landing.start mode atk dfn).parts plan
  unfold apply
  rcases hrun : plan.foldl (applyPart mode) (atk, dfn, 0) with ⟨winner, loser, got⟩
  rw [hrun] at h
  obtain ⟨hblow, hunmatched, htaken, hnonneg, hcoins⟩ := h
  dsimp only
  split
  · exact ⟨got, ⟨hblow, hunmatched, htaken, hnonneg, hcoins⟩, .inl rfl⟩
  · next hmuch =>
      have hlogged : Landing mode atk dfn
          { winner with
            raided := winner.raided + got, dmgDealt := winner.dmgDealt + got, bestHit := max winner.bestHit got }
          { loser with dmgTaken := loser.dmgTaken + got } got :=
        ⟨⟨hblow.ids, hblow.teams, hblow.lengths, hblow.nonneg, hblow.bags⟩, hunmatched, htaken, hnonneg, hcoins⟩
      exact ⟨got, hlogged, .inr ⟨rfl, by linarith [not_le.mp hmuch]⟩⟩

/-! ## Moments -/

/-- From one moment of a battle to the next: purses stay as they are, or one fighter strikes one of another
team. -/
inductive Moment (mode : Mode) : List FighterN × List HitN → List FighterN × List HitN → Prop
  | stand {F F' : List FighterN} {hits : List HitN} (h : F'.map purse = F.map purse) :
      Moment mode (F, hits) (F', hits)
  | blow {F : List FighterN} {hits : List HitN} (t : ℕ) (plan : List (Src × ℚ)) {i j : ℕ} (hi : i < F.length)
      (hj : j < F.length) (hij : i ≠ j) (hteam : (fighterAt F i).team ≠ (fighterAt F j).team) :
      Moment mode (F, hits)
        ((F.set i (apply mode t (fighterAt F i) (fighterAt F j) hits plan).1).set j
          (apply mode t (fighterAt F i) (fighterAt F j) hits plan).2.1,
        (apply mode t (fighterAt F i) (fighterAt F j) hits plan).2.2)

abbrev Moments (mode : Mode) := Relation.ReflTransGen (Moment mode)

variable {F F' : List FighterN} {i j : ℕ}

/-- What a moment leaves as it was, besides what is fair. -/
structure Exact (mode : Mode) (n : ℕ) (F F' : List FighterN) : Prop where
  fair : Fair n F F'
  teams : F'.map FighterN.team = F.map FighterN.team
  unmatched : F'.map FighterN.unmatched = F.map FighterN.unmatched
  coins : mode = .normal → (∀ f ∈ F, (purse f).Seated n) → ∀ c, coinsOf c F' = coinsOf c F

theorem Exact.trans {F'' : List FighterN} (h : Exact mode n F F') (h' : Exact mode n F' F'') :
    Exact mode n F F'' where
  fair := h.fair.trans h'.fair
  teams := h'.teams.trans h.teams
  unmatched := h'.unmatched.trans h.unmatched
  coins := fun hmode hF c => (h'.coins hmode (h.fair.seated hF) c).trans (h.coins hmode hF c)

theorem Exact.of_purses (h : F'.map purse = F.map purse) : Exact mode n F F' := by
  constructor
  case fair => exact Fair.of_purses h
  case teams =>
      have hteams := congrArg (List.map PurseN.team) h
      simpa [List.map_map, Function.comp_def, purse] using hteams
  case unmatched =>
      have hunmatched := congrArg (List.map PurseN.unmatched) h
      simpa [List.map_map, Function.comp_def, purse] using hunmatched
  case coins =>
      intro _ _ c
      let ofPurse : PurseN → ℚ := fun u => (if u.team = c then u.own else 0) + u.stolen.getD c 0
      have hcoins := congrArg (fun l => (l.map ofPurse).sum) h
      rw [List.map_map, List.map_map] at hcoins
      exact hcoins

theorem map_set_set {α : Type*} (g : FighterN → α) {a b : FighterN} (hi : i < F.length) (hj : j < F.length)
    (ha : g a = g (fighterAt F i)) (hb : g b = g (fighterAt F j)) : ((F.set i a).set j b).map g = F.map g := by
  rw [fighterAt_getElem hi] at ha
  rw [fighterAt_getElem hj] at hb
  apply List.ext_getElem (by simp)
  intro m hm hm'
  simp only [List.getElem_map, List.getElem_set]
  split
  · next hjm => subst hjm; exact hb
  split
  · next him => subst him; exact ha
  · rfl

theorem sum_set_set (g : FighterN → ℚ) {a b : FighterN} (hi : i < F.length) (hj : j < F.length) (hij : i ≠ j)
    (h : g a + g b = g (fighterAt F i) + g (fighterAt F j)) :
    (((F.set i a).set j b).map g).sum = (F.map g).sum := by
  rw [fighterAt_getElem hi, fighterAt_getElem hj] at h
  rw [List.map_set, List.map_set, List.sum_set', List.sum_set']
  have hi' : i < (F.map g).length := by simpa using hi
  have hj' : j < ((F.map g).set i (g a)).length := by simpa using hj
  rw [dif_pos hi', dif_pos hj', List.getElem_set_of_ne hij, List.getElem_map, List.getElem_map]
  linarith

theorem Exact.of_landing {a b : FighterN} {got : ℚ} (hi : i < F.length) (hj : j < F.length) (hij : i ≠ j)
    (h : Landing mode (fighterAt F i) (fighterAt F j) a b got) : Exact mode n F ((F.set i a).set j b) := by
  constructor
  case fair => exact Fair.of_blow hi hj hij rfl rfl h.blow
  case teams => exact map_set_set FighterN.team hi hj h.blow.teams.1 h.blow.teams.2
  case unmatched => exact map_set_set FighterN.unmatched hi hj h.unmatched.1 h.unmatched.2
  case coins =>
      intro hmode hF c
      have hfi : (purse (fighterAt F i)).Seated n := by
        rw [fighterAt_getElem hi]
        exact hF _ (List.getElem_mem hi)
      have hfj : (purse (fighterAt F j)).Seated n := by
        rw [fighterAt_getElem hj]
        exact hF _ (List.getElem_mem hj)
      exact sum_set_set (N.coins c) hi hj hij (h.coins hmode n hfi hfj c)

theorem Moment.exact {s s' : List FighterN × List HitN} (h : Moment mode s s') : Exact mode n s.1 s'.1 := by
  cases h with
  | stand h => exact Exact.of_purses h
  | @blow F hits t plan i j hi hj hij hteam =>
      obtain ⟨got, hlanding, -⟩ := apply_landing mode t (fighterAt F i) (fighterAt F j) hits plan
      exact Exact.of_landing hi hj hij hlanding

theorem Moments.exact {s s' : List FighterN × List HitN} (h : Moments mode s s') : Exact mode n s.1 s'.1 := by
  induction h with
  | refl => exact Exact.of_purses rfl
  | tail _ hstep ih => exact ih.trans hstep.exact

/-! ## Where a hit lands -/

/-- A hit that the fighters can take and give: of two teams, and no more than the one struck has. -/
def Lands (F : List FighterN) (hit : HitN) : Prop :=
  ∃ a ∈ F, ∃ d ∈ F, a.id = hit.atk ∧ d.id = hit.dfn ∧ a.team ≠ d.team ∧ 0 < hit.amt ∧ hit.amt ≤ ring d

theorem fighterAt_mem (hi : i < F.length) : fighterAt F i ∈ F := by
  rw [fighterAt_getElem hi]
  exact List.getElem_mem hi

/-- A moment logs nothing, or one hit that lands on the fighters as they stood. -/
theorem Moment.logs {s s' : List FighterN × List HitN} (h : Moment mode s s')
    (hnonneg : ∀ f ∈ s.1, (purse f).Nonneg) : s'.2 = s.2 ∨ ∃ hit, s'.2 = s.2 ++ [hit] ∧ Lands s.1 hit := by
  cases h with
  | stand h => exact .inl rfl
  | @blow F hits t plan i j hi hj hij hteam =>
      obtain ⟨got, hlanding, hsame | ⟨hlogged, hpos⟩⟩ :=
        apply_landing mode t (fighterAt F i) (fighterAt F j) hits plan
      · exact .inl hsame
      · refine .inr ⟨_, hlogged, fighterAt F i, fighterAt_mem hi, fighterAt F j, fighterAt_mem hj, rfl, rfl, hteam,
          hpos, ?_⟩
        have hloser := (hlanding.blow.nonneg (hnonneg _ (fighterAt_mem hi)) (hnonneg _ (fighterAt_mem hj))).2
        have hring : 0 ≤ ring (apply mode t (fighterAt F i) (fighterAt F j) hits plan).2.1 :=
          add_nonneg hloser.own (List.sum_nonneg hloser.stolen)
        linarith [hlanding.taken]

/-- Each hit of a log landed at a moment of the battle, on the fighters as they stood just before it. -/
theorem Moments.landed {F₀ : List FighterN} {s : List FighterN × List HitN} (h : Moments mode (F₀, []) s)
    (hnonneg : ∀ f ∈ F₀, (purse f).Nonneg) {before after : List HitN} {hit : HitN}
    (hsplit : s.2 = before ++ hit :: after) :
    ∃ G G', Moments mode (F₀, []) (G, before) ∧ Lands G hit ∧ Moment mode (G, before) (G', before ++ [hit]) ∧
      Moments mode (G', before ++ [hit]) s := by
  induction h generalizing after with
  | refl =>
      have hempty : ([] : List HitN) = before ++ hit :: after := hsplit
      simp at hempty
  | @tail s s' hrun hstep ih =>
      rcases hstep.logs (Exact.fair (Moments.exact (n := 0) hrun) |>.nonneg hnonneg) with hsame | ⟨last, hlogged, hlands⟩
      · obtain ⟨G, G', hG, hland, hmoment, hrest⟩ := ih (hsame ▸ hsplit)
        exact ⟨G, G', hG, hland, hmoment, hrest.tail hstep⟩
      · rcases List.eq_nil_or_concat after with rfl | ⟨after, hit', rfl⟩
        · obtain ⟨hbefore, hlast⟩ := List.append_inj' (hlogged.symm.trans hsplit) rfl
          cases hlast
          obtain ⟨G, hits⟩ := s
          obtain ⟨G', hits'⟩ := s'
          cases hbefore
          cases hlogged
          exact ⟨G, G', hrun, hlands, hstep, .refl⟩
        · rw [List.concat_eq_append, ← List.cons_append, ← List.append_assoc] at hsplit
          obtain ⟨hbefore, -⟩ := List.append_inj' (hlogged.symm.trans hsplit) rfl
          obtain ⟨G, G', hG, hland, hmoment, hrest⟩ := ih hbefore
          exact ⟨G, G', hG, hland, hmoment, hrest.tail hstep⟩

/-! ## A tick is a run of moments -/

theorem fighterAt_set_self {f : FighterN} (hi : i < F.length) : fighterAt (F.set i f) i = f := by
  rw [fighterAt_getElem (by simpa using hi), List.getElem_set_self]

theorem fighterAt_set_ne {f : FighterN} (hij : i ≠ j) : fighterAt (F.set i f) j = fighterAt F j := by
  rw [fighterAt, fighterAt, List.getD_eq_getElem?_getD, List.getD_eq_getElem?_getD, List.getElem?_set_ne hij]

section
variable {t : ℕ} {steps : ℤ} {w : World}

theorem exchange_moments {a b : FighterN} (hi : i < w.F.length) (hj : j < w.F.length) (hij : i ≠ j)
    (ha : fighterAt w.F i = a) (hb : fighterAt w.F j = b) (hteam : a.team ≠ b.team) :
    Moments cfg.mode (w.F, w.hits)
      ((exchange p cfg k t steps w i j a b).F, (exchange p cfg k t steps w i j a b).hits) := by
  unfold exchange
  rcases (damages p cfg k t steps a b).run w.rng with ⟨⟨dAB, dBA⟩, rng⟩
  have hfirst := @Moment.blow cfg.mode w.F w.hits t (takeFrom b dAB) i j hi hj hij (by rwa [ha, hb])
  rw [ha, hb] at hfirst
  have hteams := (apply_blow cfg.mode t a b w.hits (takeFrom b dAB)).teams
  rcases hrun₁ : apply cfg.mode t a b w.hits (takeFrom b dAB) with ⟨a₁, b₁, hits₁⟩
  rw [hrun₁] at hfirst hteams
  have hat : fighterAt ((w.F.set i a₁).set j b₁) i = a₁ := by
    rw [fighterAt_set_ne hij.symm, fighterAt_set_self hi]
  have hbt : fighterAt ((w.F.set i a₁).set j b₁) j = b₁ := fighterAt_set_self (by simpa using hj)
  have hsecond := @Moment.blow cfg.mode ((w.F.set i a₁).set j b₁) hits₁ t (takeFrom a dBA) j i (by simpa using hj) (by simpa using hi) hij.symm
    (by rw [hat, hbt, hteams.1, hteams.2]; exact hteam.symm)
  rw [hat, hbt] at hsecond
  rcases hrun₂ : apply cfg.mode t b₁ a₁ hits₁ (takeFrom a dBA) with ⟨b₂, a₂, hits₂⟩
  rw [hrun₂] at hsecond
  have hseats : (((w.F.set i a₁).set j b₁).set j b₂).set i a₂ = (w.F.set i a₂).set j b₂ := by
    rw [List.set_set, List.set_comm _ _ hij, List.set_set, List.set_comm _ _ hij.symm]
  simp only [hrun₁, hrun₂]
  refine (Relation.ReflTransGen.single hfirst).tail hsecond |>.tail ?_
  rw [hseats]
  apply Moment.stand
  rw [List.map_set, List.map_set, List.map_set, List.map_set, purse_bury, purse_bury]

theorem clash_moments {ij : ℕ × ℕ} (hi : ij.1 < w.F.length) (hj : ij.2 < w.F.length) (hij : ij.1 ≠ ij.2) :
    Moments cfg.mode (w.F, w.hits)
      ((clash p cfg k t steps w ij).F, (clash p cfg k t steps w ij).hits) := by
  unfold clash
  extract_lets a b dx dy d m
  split
  · exact .refl
  split
  · exact .refl
  rcases hbounce : bounce a b dx dy d m with ⟨a', b'⟩
  have ha : purse a' = purse a := by
    have hpurse : purse (bounce a b dx dy d m).1 = purse a := rfl
    rwa [hbounce] at hpurse
  have hb : purse b' = purse b := by
    have hpurse : purse (bounce a b dx dy d m).2 = purse b := rfl
    rwa [hbounce] at hpurse
  have hset : ((w.F.set ij.1 a').set ij.2 b').map purse = w.F.map purse := map_set_set purse hi hj ha hb
  dsimp only
  split
  · exact .single (.stand hset)
  split
  · exact .single (.stand hset)
  · next hteam _ =>
      generalize hw : World.mk w.rng ((w.F.set ij.1 a').set ij.2 b') w.hits
        (Function.update w.pairCd (pairKey a' b') (some k.nowMs)) = w₁
      have hF : w₁.F = (w.F.set ij.1 a').set ij.2 b' := by rw [← hw]
      have hhits : w₁.hits = w.hits := by rw [← hw]
      have hstand : Moment cfg.mode (w.F, w.hits) (w₁.F, w₁.hits) := by
        rw [hF, hhits]
        exact .stand hset
      have hlen : w₁.F.length = w.F.length := by simp [hF]
      refine (Relation.ReflTransGen.single hstand).trans
        (exchange_moments (hlen ▸ hi) (hlen ▸ hj) hij ?_ ?_ hteam)
      · rw [hF, fighterAt_set_ne hij.symm, fighterAt_set_self hi]
      · rw [hF]
        exact fighterAt_set_self (by simpa using hj)

theorem Moments.length {s s' : List FighterN × List HitN} (h : Moments mode s s') : s'.1.length = s.1.length :=
  (Moments.exact (n := 0) h).fair.length

theorem clashes_moments {l : List (ℕ × ℕ)} (hl : ∀ ij ∈ l, ij.1 < w.F.length ∧ ij.2 < w.F.length ∧ ij.1 ≠ ij.2) :
    Moments cfg.mode (w.F, w.hits)
      ((l.foldl (clash p cfg k t steps) w).F, (l.foldl (clash p cfg k t steps) w).hits) := by
  induction l generalizing w with
  | nil => exact .refl
  | cons ij l ih =>
      obtain ⟨⟨hi, hj, hij⟩, hl⟩ := List.forall_mem_cons.mp hl
      have hclash : Moments cfg.mode (w.F, w.hits)
          ((clash p cfg k t steps w ij).F, (clash p cfg k t steps w ij).hits) := clash_moments hi hj hij
      have hlen : (clash p cfg k t steps w ij).F.length = w.F.length := hclash.length
      rw [List.foldl_cons]
      refine hclash.trans (ih ?_)
      intro kl hkl
      rw [hlen]
      exact hl kl hkl

theorem tick_moments (p : Platform) (cfg : CfgN) (steps : ℤ) (t : ℕ) (w : World) :
    Moments cfg.mode (w.F, w.hits) ((tick p cfg steps t w).F, (tick p cfg steps t w).hits) := by
  unfold tick
  extract_lets A k
  have hmoves := purses_moves (p := p) (k := k) A A w.F w.rng
  rcases hrun : (A.foldlM (move p k A) w.F).run w.rng with ⟨F, rng⟩
  rw [hrun] at hmoves
  have hstand : Moment cfg.mode (w.F, w.hits) (F, w.hits) := .stand hmoves
  refine (Relation.ReflTransGen.single hstand).trans (clashes_moments (w := { w with F, rng }) ?_)
  intro ij hij
  have hlen : F.length = w.F.length := by simpa using congrArg List.length hmoves
  have hmem : ∀ i ∈ A, i < F.length := by
    intro i hi
    rw [hlen]
    exact List.mem_range.mp (List.mem_filter.mp hi).1
  obtain ⟨hi, hj, hne⟩ := mem_pairs (List.nodup_range.filter _) hij
  exact ⟨hmem _ hi, hmem _ hj, hne⟩

/-- A battle is a run of moments. -/
theorem ticks_moments (p : Platform) (cfg : CfgN) (steps : ℤ) (m t : ℕ) (w : World) :
    Moments cfg.mode (w.F, w.hits) ((ticks p cfg steps m t w).1.F, (ticks p cfg steps m t w).1.hits) := by
  induction m generalizing t w with
  | zero => exact .refl
  | succ m ih =>
      rw [ticks]
      split
      · exact .refl
      · exact (tick_moments p cfg steps t w).trans (ih _ _)

end

end BullsUnicorns.Battle.N

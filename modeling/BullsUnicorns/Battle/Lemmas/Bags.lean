import BullsUnicorns.Battle.Round
import BullsUnicorns.Battle.Lemmas.Start

/-!
# What a blow of a battle of many teams moves

No fighter's coins are ever overdrawn. When every team is one of the arena's, a blow moves coins from one bag
to another.
-/

namespace BullsUnicorns.Battle.N

variable {p : Platform} {cfg : CfgN} {k : Tick}

/-! ## Purses -/

/-- What a fighter owns, and who it is. -/
structure PurseN where
  id : String
  team : ℚ
  own : ℚ
  stolen : List ℚ
  banked : ℚ
  unmatched : ℚ

def purse (f : FighterN) : PurseN := ⟨f.id, f.team, f.own, f.stolen, f.banked, f.unmatched⟩

namespace PurseN

def bag (u : PurseN) : ℚ := u.own + u.stolen.sum + u.banked + u.unmatched

structure Nonneg (u : PurseN) : Prop where
  own : 0 ≤ u.own
  stolen : ∀ v ∈ u.stolen, 0 ≤ v
  banked : 0 ≤ u.banked
  unmatched : 0 ≤ u.unmatched

/-- The team is one of the `n`, and there is a pot for each. -/
def Seated (n : ℕ) (u : PurseN) : Prop := u.stolen.length = n ∧ ∃ i < n, u.team = i

theorem Nonneg.bag {u : PurseN} (h : u.Nonneg) : 0 ≤ u.bag :=
  add_nonneg (add_nonneg (add_nonneg h.own (List.sum_nonneg h.stolen)) h.banked) h.unmatched

end PurseN

theorem bag_purse (f : FighterN) : bag f = (purse f).bag := rfl

theorem slot_cast {n i : ℕ} (hi : i < n) : slot n (i : ℚ) = some i := by
  rw [slot, List.find?_range_eq_some]
  refine ⟨by simp, List.mem_range.mpr hi, fun j hj => ?_⟩
  have hne : (j : ℚ) ≠ i := by exact_mod_cast hj.ne
  simp [hne]

theorem sum_modify {l : List ℚ} {i : ℕ} (hi : i < l.length) (x : ℚ) : (l.modify i (· + x)).sum = l.sum + x := by
  induction l generalizing i with
  | nil => cases hi
  | cons v l ih =>
      cases i with
      | zero =>
          simp only [List.modify_zero_cons, List.sum_cons]
          ring
      | succ i =>
          simp only [List.modify_succ_cons, List.sum_cons, ih (Nat.lt_of_succ_lt_succ hi)]
          ring

theorem mem_modify {l : List ℚ} {i : ℕ} {g : ℚ → ℚ} {v : ℚ} (h : v ∈ l.modify i g) :
    v ∈ l ∨ ∃ w, l[i]? = some w ∧ v = g w := by
  obtain ⟨j, hj⟩ := List.mem_iff_getElem?.mp h
  rw [List.getElem?_modify] at hj
  cases hw : l[j]? with
  | none => simp [hw] at hj
  | some w =>
      by_cases hij : i = j
      · subst hij
        have hv : g w = v := by simpa [hw] using hj
        exact .inr ⟨w, hw, hv.symm⟩
      · have hv : w = v := by simpa [hw, hij] using hj
        exact .inl (hv ▸ List.mem_of_getElem? hw)

/-- A pot that holds something is one of the pots. -/
theorem held_stolen {dfn : FighterN} {i : ℕ} {take : ℚ} (h0 : 0 < take) (hle : take ≤ FighterN.held dfn (.stolen i)) :
    ∃ v, dfn.stolen[i]? = some v ∧ take ≤ v := by
  rw [FighterN.held, List.getD_eq_getElem?_getD] at hle
  cases hv : dfn.stolen[i]? with
  | none =>
      rw [hv, Option.getD_none] at hle
      exact absurd hle (not_le.mpr h0)
  | some v => exact ⟨v, rfl, by simpa [hv] using hle⟩

/-! ## A part of a blow -/

section
variable {mode : Mode} {atk dfn : FighterN} {part : Src × ℚ} {got take : ℚ}

/-- What is taken is there. -/
theorem lose_spec {src : Src} (h0 : 0 < take) (hle : take ≤ FighterN.held dfn src) :
    (purse (FighterN.lose dfn src take)).bag = (purse dfn).bag - take ∧
      (purse (FighterN.lose dfn src take)).team = (purse dfn).team ∧
      (purse (FighterN.lose dfn src take)).stolen.length = (purse dfn).stolen.length ∧
      ((purse dfn).Nonneg → (purse (FighterN.lose dfn src take)).Nonneg) := by
  cases src with
  | own =>
      refine ⟨?_, rfl, rfl, fun h => ⟨sub_nonneg.mpr hle, h.stolen, h.banked, h.unmatched⟩⟩
      simp only [FighterN.lose, purse, PurseN.bag]
      ring
  | stolen i =>
      obtain ⟨w, hw, hle⟩ := held_stolen h0 hle
      have hi : i < dfn.stolen.length := (List.getElem?_eq_some_iff.mp hw).1
      have hsum := sum_modify hi (-take)
      refine ⟨?_, rfl, by simp [FighterN.lose, purse], fun h => ⟨h.own, ?_, h.banked, h.unmatched⟩⟩
      · simp only [FighterN.lose, purse, PurseN.bag, sub_eq_add_neg, hsum]
        ring
      · intro v hv
        rcases mem_modify hv with hv | ⟨w', hw', rfl⟩
        · exact h.stolen v hv
        · rw [hw, Option.some_inj] at hw'
          exact sub_nonneg.mpr (hw' ▸ hle)

theorem gain_spec (mode : Mode) (atk : FighterN) (asTeam : ℚ) (h0 : 0 ≤ take) :
    ((∃ i < atk.stolen.length, asTeam = i) →
      (purse (FighterN.gain atk mode asTeam take)).bag = (purse atk).bag + take) ∧
      (purse (FighterN.gain atk mode asTeam take)).team = (purse atk).team ∧
      (purse (FighterN.gain atk mode asTeam take)).stolen.length = (purse atk).stolen.length ∧
      ((purse atk).Nonneg → (purse (FighterN.gain atk mode asTeam take)).Nonneg) := by
  cases mode with
  | extraction =>
      refine ⟨fun _ => ?_, rfl, rfl, fun h => ⟨h.own, h.stolen, add_nonneg h.banked h0, h.unmatched⟩⟩
      simp only [FighterN.gain, purse, PurseN.bag]
      ring
  | normal =>
      simp only [FighterN.gain]
      split
      · refine ⟨fun _ => ?_, rfl, rfl, fun h => ⟨add_nonneg h.own h0, h.stolen, h.banked, h.unmatched⟩⟩
        simp only [purse, PurseN.bag]
        ring
      split
      · next i hslot =>
          refine ⟨?_, rfl, by simp [purse], fun h => ⟨h.own, ?_, h.banked, h.unmatched⟩⟩
          · rintro ⟨j, hj, rfl⟩
            rw [slot_cast hj, Option.some_inj] at hslot
            subst hslot
            simp only [purse, PurseN.bag, sum_modify hj take]
            ring
          · intro v hv
            rcases mem_modify hv with hv | ⟨w, hw, rfl⟩
            · exact h.stolen v hv
            · exact add_nonneg (h.stolen w (List.mem_of_getElem? hw)) h0
      · next hnone =>
          refine ⟨?_, rfl, rfl, fun h => h⟩
          rintro ⟨j, hj, rfl⟩
          rw [slot_cast hj] at hnone
          cases hnone

/-- Two fighters before and after a part of a blow: ids and teams stay, nothing is overdrawn, and between
seated fighters nothing is lost. -/
structure Blow (f g f' g' : FighterN) : Prop where
  ids : f'.id = f.id ∧ g'.id = g.id
  teams : f'.team = f.team ∧ g'.team = g.team
  lengths : f'.stolen.length = f.stolen.length ∧ g'.stolen.length = g.stolen.length
  nonneg : (purse f).Nonneg → (purse g).Nonneg → (purse f').Nonneg ∧ (purse g').Nonneg
  bags : ∀ n, (purse f).Seated n → (purse g).Seated n → bag f' + bag g' = bag f + bag g

theorem Blow.refl (f g : FighterN) : Blow f g f g :=
  ⟨⟨rfl, rfl⟩, ⟨rfl, rfl⟩, ⟨rfl, rfl⟩, fun hf hg => ⟨hf, hg⟩, fun _ _ _ => rfl⟩

theorem Blow.seated {n : ℕ} {f g f' g' : FighterN} (h : Blow f g f' g') (hf : (purse f).Seated n)
    (hg : (purse g).Seated n) : (purse f').Seated n ∧ (purse g').Seated n := by
  obtain ⟨i, hi, hfi⟩ := hf.2
  obtain ⟨j, hj, hgj⟩ := hg.2
  exact ⟨⟨h.lengths.1.trans hf.1, i, hi, h.teams.1.trans hfi⟩, ⟨h.lengths.2.trans hg.1, j, hj, h.teams.2.trans hgj⟩⟩

theorem Blow.trans {f g f' g' f'' g'' : FighterN} (h : Blow f g f' g') (h' : Blow f' g' f'' g'') : Blow f g f'' g'' where
  ids := ⟨h'.ids.1.trans h.ids.1, h'.ids.2.trans h.ids.2⟩
  teams := ⟨h'.teams.1.trans h.teams.1, h'.teams.2.trans h.teams.2⟩
  lengths := ⟨h'.lengths.1.trans h.lengths.1, h'.lengths.2.trans h.lengths.2⟩
  nonneg := fun hf hg => h'.nonneg (h.nonneg hf hg).1 (h.nonneg hf hg).2
  bags := fun n hf hg => by
    obtain ⟨hf', hg'⟩ := h.seated hf hg
    rw [h'.bags n hf' hg', h.bags n hf hg]

theorem Blow.symm {f g f' g' : FighterN} (h : Blow f g f' g') : Blow g f g' f' where
  ids := h.ids.symm
  teams := h.teams.symm
  lengths := h.lengths.symm
  nonneg := fun hg hf => (h.nonneg hf hg).symm
  bags := fun n hg hf => by rw [add_comm, h.bags n hf hg, add_comm]

/-- Coins of a team go from one fighter to another. -/
theorem take_blow {src : Src} {asTeam : ℚ} (h0 : 0 < take) (hle : take ≤ FighterN.held dfn src)
    (hteam : ∀ n, (purse dfn).Seated n → ∃ i < n, asTeam = (i : ℕ)) :
    Blow atk dfn (FighterN.gain atk mode asTeam take) (FighterN.lose dfn src take) := by
  obtain ⟨hbag, hteam₁, hlen, hnn⟩ := lose_spec h0 hle
  obtain ⟨hbag', hteam₂, hlen', hnn'⟩ := gain_spec mode atk asTeam h0.le
  refine ⟨⟨?_, ?_⟩, ⟨hteam₂, hteam₁⟩, ⟨hlen', hlen⟩, fun hf hg => ⟨hnn' hf, hnn hg⟩, ?_⟩
  · cases mode with
    | extraction => rfl
    | normal =>
        simp only [FighterN.gain]
        split
        · rfl
        split <;> rfl
  · cases src <;> rfl
  · intro n hatk hdfn
    have hn : atk.stolen.length = n := hatk.1
    rw [bag_purse, bag_purse, hbag' (hn ▸ hteam n hdfn), hbag, bag_purse, bag_purse]
    ring

theorem applyPart_blow (mode : Mode) (atk dfn : FighterN) (got : ℚ) (part : Src × ℚ) :
    Blow atk dfn (applyPart mode (atk, dfn, got) part).1 (applyPart mode (atk, dfn, got) part).2.1 := by
  obtain ⟨src, want⟩ := part
  have hpos : ∀ {take : ℚ}, ¬take ≤ 5 / 1000 → 0 < take := fun h => by linarith [not_le.mp h]
  cases src with
  | own =>
      simp only [applyPart]
      split
      · exact Blow.refl atk dfn
      · next htake => exact take_blow (hpos htake) (min_le_right _ _) fun n h => h.2
  | stolen i =>
      simp only [applyPart]
      split
      · exact Blow.refl atk dfn
      · next htake =>
          refine take_blow (hpos htake) (min_le_right _ _) fun n h => ?_
          obtain ⟨w, hw, -⟩ := held_stolen (hpos htake) (min_le_right _ _)
          have hn : dfn.stolen.length = n := h.1
          exact ⟨i, hn ▸ (List.getElem?_eq_some_iff.mp hw).1, rfl⟩

theorem apply_blow (mode : Mode) (t : ℕ) (atk dfn : FighterN) (hits : List HitN) (plan : List (Src × ℚ)) :
    Blow atk dfn (apply mode t atk dfn hits plan).1 (apply mode t atk dfn hits plan).2.1 := by
  have hfold : ∀ (plan : List (Src × ℚ)) (atk dfn : FighterN) (got : ℚ),
      Blow atk dfn (plan.foldl (applyPart mode) (atk, dfn, got)).1 (plan.foldl (applyPart mode) (atk, dfn, got)).2.1 := by
    intro plan
    induction plan with
    | nil => exact fun atk dfn _ => Blow.refl atk dfn
    | cons part plan ih =>
        intro atk dfn got
        rw [List.foldl_cons]
        exact (applyPart_blow mode atk dfn got part).trans (ih _ _ _)
  unfold apply
  have h := hfold plan atk dfn 0
  rcases hrun : plan.foldl (applyPart mode) (atk, dfn, 0) with ⟨winner, loser, got⟩
  rw [hrun] at h
  dsimp only
  split
  · exact h
  · exact ⟨h.ids, h.teams, h.lengths, h.nonneg, h.bags⟩

end

/-! ## The fighters of a tick -/

section
variable {n : ℕ} {F F' F'' : List FighterN} {i j : ℕ}

/-- Fighters before and after: the same ones, none overdrawn, and between seated ones nothing lost. -/
structure Fair (n : ℕ) (F F' : List FighterN) : Prop where
  ids : F'.map FighterN.id = F.map FighterN.id
  nonneg : (∀ f ∈ F, (purse f).Nonneg) → ∀ f ∈ F', (purse f).Nonneg
  seated : (∀ f ∈ F, (purse f).Seated n) → ∀ f ∈ F', (purse f).Seated n
  bags : (∀ f ∈ F, (purse f).Seated n) → (F'.map bag).sum = (F.map bag).sum

theorem Fair.trans (h : Fair n F F') (h' : Fair n F' F'') : Fair n F F'' where
  ids := h'.ids.trans h.ids
  nonneg := fun hF => h'.nonneg (h.nonneg hF)
  seated := fun hF => h'.seated (h.seated hF)
  bags := fun hF => (h'.bags (h.seated hF)).trans (h.bags hF)

theorem Fair.of_purses (h : F'.map purse = F.map purse) : Fair n F F' := by
  have hmem : ∀ f ∈ F', ∃ g ∈ F, purse g = purse f := by
    intro f hf
    have h1 : purse f ∈ F.map purse := h ▸ List.mem_map_of_mem hf
    exact List.mem_map.mp h1
  refine ⟨?_, ?_, ?_, ?_⟩
  · have h1 := congrArg (List.map PurseN.id) h
    simpa [List.map_map, Function.comp_def, purse] using h1
  · intro hF f hf
    obtain ⟨g, hg, he⟩ := hmem f hf
    exact he ▸ hF g hg
  · intro hF f hf
    obtain ⟨g, hg, he⟩ := hmem f hf
    exact he ▸ hF g hg
  · intro _
    have h1 : ((F'.map purse).map PurseN.bag).sum = ((F.map purse).map PurseN.bag).sum := by rw [h]
    rw [List.map_map, List.map_map] at h1
    exact h1

theorem Fair.refl (F : List FighterN) : Fair n F F := Fair.of_purses rfl

theorem fighterAt_getElem (hi : i < F.length) : fighterAt F i = F[i] := by
  rw [fighterAt, List.getD_eq_getElem?_getD, List.getElem?_eq_getElem hi, Option.getD_some]

theorem purses_set {f : FighterN} (h : purse f = purse (fighterAt F i)) : (F.set i f).map purse = F.map purse := by
  refine List.ext_getElem (by simp) fun j hj hj' => ?_
  simp only [List.getElem_map, List.getElem_set]
  split
  · next hij =>
      subst hij
      rw [h, fighterAt_getElem (by simpa using hj')]
  · rfl

/-- A blow between two places. -/
theorem Fair.of_blow {a b a' b' : FighterN} (hi : i < F.length) (hj : j < F.length) (hij : i ≠ j)
    (ha : purse a = purse (fighterAt F i)) (hb : purse b = purse (fighterAt F j)) (h : Blow a b a' b') :
    Fair n F ((F.set i a').set j b') := by
  rw [fighterAt_getElem hi] at ha
  rw [fighterAt_getElem hj] at hb
  have hida : a'.id = F[i].id := h.ids.1.trans (congrArg PurseN.id ha)
  have hidb : b'.id = F[j].id := h.ids.2.trans (congrArg PurseN.id hb)
  have hmem : ∀ f ∈ (F.set i a').set j b', f ∈ F ∨ f = a' ∨ f = b' := by
    intro f hf
    rcases List.mem_or_eq_of_mem_set hf with hf | rfl
    · rcases List.mem_or_eq_of_mem_set hf with hf | rfl
      · exact .inl hf
      · exact .inr (.inl rfl)
    · exact .inr (.inr rfl)
  refine ⟨?_, ?_, ?_, ?_⟩
  · refine List.ext_getElem (by simp) fun k hk hk' => ?_
    simp only [List.getElem_map, List.getElem_set]
    split
    · next hjk => subst hjk; exact hidb
    split
    · next hik => subst hik; exact hida
    · rfl
  · intro hF f hf
    have hF' := h.nonneg (ha ▸ hF _ (List.getElem_mem hi)) (hb ▸ hF _ (List.getElem_mem hj))
    rcases hmem f hf with hf | rfl | rfl
    · exact hF f hf
    · exact hF'.1
    · exact hF'.2
  · intro hF f hf
    have hF' := h.seated (ha ▸ hF _ (List.getElem_mem hi)) (hb ▸ hF _ (List.getElem_mem hj))
    rcases hmem f hf with hf | rfl | rfl
    · exact hF f hf
    · exact hF'.1
    · exact hF'.2
  · intro hF
    have hbags := h.bags n (ha ▸ hF _ (List.getElem_mem hi)) (hb ▸ hF _ (List.getElem_mem hj))
    rw [bag_purse a, bag_purse b, ha, hb, ← bag_purse, ← bag_purse] at hbags
    rw [List.map_set, List.map_set, List.sum_set', List.sum_set']
    have hi' : i < (F.map bag).length := by simpa using hi
    have hj' : j < ((F.map bag).set i (bag a')).length := by simpa using hj
    rw [dif_pos hi', dif_pos hj', List.getElem_set_of_ne hij, List.getElem_map, List.getElem_map]
    linarith

/-! ## A tick -/

theorem purse_ite {c : Prop} [Decidable c] {f g : FighterN} {u : PurseN} (hf : purse f = u) (hg : purse g = u) :
    purse (if c then f else g) = u := by
  split
  · exact hf
  · exact hg

theorem purse_walls (f : FighterN) : purse (walls f) = purse f := by
  unfold walls
  extract_lets f₁ f₂ f₃
  have h₁ : purse f₁ = purse f := purse_ite rfl rfl
  have h₂ : purse f₂ = purse f := purse_ite h₁ h₁
  have h₃ : purse f₃ = purse f := purse_ite h₂ h₂
  exact purse_ite h₃ h₃

theorem purse_seek (tgt : Option FighterN) (f : FighterN) : purse (seek p k tgt f) = purse f := by
  cases tgt <;> rfl

theorem purse_limitSpeed (f : FighterN) : purse (limitSpeed p k f) = purse f := purse_ite rfl rfl

theorem purse_bury (f : FighterN) : purse (bury f) = purse f := purse_ite rfl rfl

theorem purses_move (A : List ℕ) (F : List FighterN) (i : ℕ) (g : Rng) :
    (((move p k A F i).run g).1).map purse = F.map purse := by
  apply purses_set
  rw [purse_walls]
  exact (purse_limitSpeed _).trans (purse_seek _ _)

theorem purses_moves (A B : List ℕ) (F : List FighterN) (g : Rng) :
    (((B.foldlM (move p k A) F).run g).1).map purse = F.map purse := by
  induction B generalizing F g with
  | nil => rfl
  | cons i B ih =>
      rw [List.foldlM_cons]
      exact (ih _ _).trans (purses_move A F i g)

theorem Fair.length (h : Fair n F F') : F'.length = F.length := by
  simpa using congrArg List.length h.ids

end

end BullsUnicorns.Battle.N

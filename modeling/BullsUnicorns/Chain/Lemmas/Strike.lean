import BullsUnicorns.Chain.Lemmas.Fight

/-!
# One blow

The body of the fight's loop with the draw and the die given, and the blow that it lands.
-/

namespace BullsUnicorns.Chain

open Word Replay

section
variable {m : ℕ}

/-- The body of the loop, for a pair and a roll. -/
def strike (a d roll : ℕ) (fighters : Vector Fighter m) : Vector Fighter m :=
  if hk : a < m ∧ d < m then
    let att := fighters[a]
    let dfd := fighters[d]
    if mayStrike att dfd then
      let dmg := blow att dfd roll
      if dmg = 0 then fighters else (fighters.set d (dfd.struck dmg)).set a (att.raids dmg)
    else fighters
  else fighters

theorem trade_eq_strike (h : Bytes32) (n : ℕ) (fs : Vector Fighter m) :
    trade h n fs = strike (drawPair h n).1 (drawPair h n).2 (rollOf h) fs := rfl

/-- A blow that lands: who on whom, for how much. -/
structure Blow (m : ℕ) where
  attacker : Fin m
  defender : Fin m
  amount : ℕ
deriving DecidableEq

/-- The blow of a pair and a roll, when it moves anything. -/
def landed (a d roll : ℕ) (fighters : Vector Fighter m) : Option (Blow m) :=
  if hk : a < m ∧ d < m then
    let dmg := blow fighters[a] fighters[d] roll
    if mayStrike fighters[a] fighters[d] ∧ dmg ≠ 0 then some ⟨⟨a, hk.1⟩, ⟨d, hk.2⟩, dmg⟩ else none
  else none

/-- What a blow leaves: the defender has lost it, the attacker has banked it, nobody else is touched. -/
structure Landed (fs gs : Vector Fighter m) (b : Blow m) : Prop where
  ne : b.attacker ≠ b.defender
  sides : fs[b.attacker].side ≠ fs[b.defender].side
  wallets : fs[b.attacker].wallet ≠ fs[b.defender].wallet
  standing : fs[b.attacker].dead ≠ 1 ∧ fs[b.defender].dead ≠ 1
  pos : 0 < b.amount
  le : b.amount ≤ fs[b.defender].hp
  finish : fs[b.defender].hp ≤ dust → b.amount = fs[b.defender].hp
  share : dust < fs[b.defender].hp → b.amount * 100 ≤ 90 * min fs[b.attacker].hp fs[b.defender].hp
  defender : gs[b.defender] = { fs[b.defender] with
    hp := fs[b.defender].hp - b.amount
    dead := if fs[b.defender].hp = b.amount then 1 else fs[b.defender].dead }
  attacker : gs[b.attacker] = { fs[b.attacker] with
    banked := if fs[b.attacker].banked + b.amount < 2 ^ 64 then fs[b.attacker].banked + b.amount else 2 ^ 64 - 1 }
  others : ∀ i : Fin m, i ≠ b.attacker → i ≠ b.defender → gs[i] = fs[i]

/-- The blow of a step, if it lands one, is all that the step does. -/
def Stepped (fs gs : Vector Fighter m) : Option (Blow m) → Prop
  | none => gs = fs
  | some b => Landed fs gs b

theorem blow_share {att dfd : Fighter} {roll : ℕ} (hroll : roll ≤ 90) (hdust : dust < dfd.hp) :
    blow att dfd roll * 100 ≤ 90 * min att.hp dfd.hp := by
  have hmul := satMul_le 64 (min att.hp dfd.hp) roll
  have hle : min att.hp dfd.hp * roll ≤ min att.hp dfd.hp * 90 := Nat.mul_le_mul_left _ hroll
  simp only [blow, if_neg (Nat.not_le.mpr hdust)]
  omega

theorem strike_stepped {a d roll : ℕ} (hne : a ≠ d) (hroll : roll ≤ 90) (fs : Vector Fighter m) :
    Stepped fs (strike a d roll fs) (landed a d roll fs) := by
  unfold strike landed
  by_cases hk : a < m ∧ d < m
  · rw [dif_pos hk, dif_pos hk]
    by_cases hmay : mayStrike fs[a] fs[d] = true
    · by_cases hdmg : blow fs[a] fs[d] roll = 0
      · simp [hmay, hdmg, Stepped]
      · simp only [hmay, hdmg, if_true, if_false, ne_eq, not_false_eq_true, and_self, Stepped]
        obtain ⟨hside, hwallet, hatt, hdfd⟩ := mayStrike_iff.mp hmay
        have hle : blow fs[a] fs[d] roll ≤ fs[d].hp := blow_le (hroll.trans (by norm_num))
        refine ⟨?_, hside, hwallet, ⟨hatt, hdfd⟩, Nat.pos_of_ne_zero hdmg, hle, fun h => if_pos h,
          blow_share hroll, ?_, ?_, ?_⟩
        · exact fun he => hne (congrArg Fin.val he)
        · have hzero : fs[d].hp - blow fs[a] fs[d] roll = 0 ↔ fs[d].hp = blow fs[a] fs[d] roll := by omega
          simp only [Fin.getElem_fin]
          rw [Vector.getElem_set_ne _ _ hne, Vector.getElem_set_self]
          simp only [Fighter.struck, satSub, hzero]
        · simp only [Fin.getElem_fin]
          rw [Vector.getElem_set_self]
          simp only [Fighter.raids, satAdd, maxVal]
          congr 1
          split <;> omega
        · intro i hia hid
          simp only [Fin.getElem_fin]
          rw [Vector.getElem_set_ne _ _ (fun he => hia (Fin.ext he.symm)),
            Vector.getElem_set_ne _ _ (fun he => hid (Fin.ext he.symm))]
    · simp [hmay, Stepped]
  · rw [dif_neg hk, dif_neg hk]
    rfl

/-! ## What a step does to each fighter -/

variable {fs gs : Vector Fighter m} {o : Option (Blow m)}

/-- A fighter after a step: the ring only shrinks, the bank only grows, the dead stay as they are. -/
structure Fighter.Onward (f g : Fighter) : Prop where
  hp : g.hp ≤ f.hp
  banked : f.banked < 2 ^ 64 → f.banked ≤ g.banked ∧ g.banked < 2 ^ 64
  dead : g.dead = f.dead ∨ g.dead = 1
  gone : f.dead = 1 → g = f
  entry : g.entry = f.entry

theorem Fighter.Onward.refl (f : Fighter) : f.Onward f := ⟨le_refl _, fun h => ⟨le_refl _, h⟩, .inl rfl, fun _ => rfl, rfl⟩

theorem Fighter.Onward.trans {f g h : Fighter} (h₁ : f.Onward g) (h₂ : g.Onward h) : f.Onward h where
  hp := h₂.hp.trans h₁.hp
  banked := by
    intro hf
    obtain ⟨hle, hg⟩ := h₁.banked hf
    exact ⟨hle.trans (h₂.banked hg).1, (h₂.banked hg).2⟩
  dead := by
    rcases h₂.dead with hd | hd
    · exact h₁.dead.imp hd.trans hd.trans
    · exact .inr hd
  gone := by
    intro hf
    rw [h₂.gone ((h₁.gone hf).symm ▸ hf), h₁.gone hf]
  entry := h₂.entry.trans h₁.entry

theorem Stepped.onward (h : Stepped fs gs o) (i : Fin m) : (fs.get i).Onward (gs.get i) := by
  change fs[i].Onward gs[i]
  cases o with
  | none =>
      rw [show gs = fs from h]
      exact .refl _
  | some b =>
      obtain ⟨hne, -, -, ⟨hatt, hdfd⟩, hpos, hle, -, -, hd, ha, hothers⟩ := show Landed fs gs b from h
      by_cases hia : i = b.attacker
      · subst hia
        rw [ha]
        refine ⟨le_refl _, fun hf => ?_, .inl rfl, fun hdead => absurd hdead hatt, rfl⟩
        dsimp only
        split <;> omega
      by_cases hid : i = b.defender
      · subst hid
        rw [hd]
        refine ⟨Nat.sub_le _ _, fun hf => ⟨le_refl _, hf⟩, ?_, fun hdead => absurd hdead hdfd, rfl⟩
        dsimp only
        split
        · exact .inr rfl
        · exact .inl rfl
      · rw [hothers i hia hid]
        exact .refl _

/-- Who stands keeps something in the ring. -/
theorem Stepped.full (h : Stepped fs gs o) {i : Fin m} (hf : (fs.get i).dead ≠ 1 → 0 < (fs.get i).hp)
    (hstand : (gs.get i).dead ≠ 1) : 0 < (gs.get i).hp := by
  change fs[i].dead ≠ 1 → 0 < fs[i].hp at hf
  change gs[i].dead ≠ 1 at hstand
  change 0 < gs[i].hp
  have hbefore : fs[i].dead ≠ 1 := fun hd => hstand ((congrArg Fighter.dead ((h.onward i).gone hd)).trans hd)
  have hpos := hf hbefore
  cases o with
  | none => rwa [show gs = fs from h]
  | some b =>
      have hb : Landed fs gs b := h
      by_cases hia : i = b.attacker
      · subst hia
        rw [hb.attacker]
        exact hpos
      by_cases hid : i = b.defender
      · subst hid
        rw [hb.defender] at hstand ⊢
        dsimp only at hstand ⊢
        split at hstand
        · exact absurd rfl hstand
        · next hne =>
            have hle := hb.le
            omega
      · rw [hb.others i hia hid]
        exact hpos

/-! ## The rings together -/

def ringTotal (fs : Vector Fighter m) : ℕ := Prefix.sum Fighter.hp fs m

theorem strike_total {a d roll : ℕ} (hne : a ≠ d) (hroll : roll ≤ 90) (fs : Vector Fighter m) :
    ringTotal (strike a d roll fs) + ((landed a d roll fs).map Blow.amount).getD 0 = ringTotal fs := by
  unfold strike landed
  by_cases hk : a < m ∧ d < m
  · rw [dif_pos hk, dif_pos hk]
    by_cases hmay : mayStrike fs[a] fs[d] = true
    · by_cases hdmg : blow fs[a] fs[d] roll = 0
      · simp [hmay, hdmg]
      · simp only [hmay, hdmg, if_true, if_false, ne_eq, not_false_eq_true, and_self, Option.map_some, Option.getD_some]
        have hle : blow fs[a] fs[d] roll ≤ fs[d].hp := blow_le (hroll.trans (by norm_num))
        have hd := Prefix.sum_set (f := Fighter.hp) (v := fs) (le_refl m) hk.2 (fs[d].struck (blow fs[a] fs[d] roll))
        have ha := Prefix.sum_set (f := Fighter.hp) (v := fs.set d (fs[d].struck (blow fs[a] fs[d] roll))) (le_refl m)
          hk.1 (fs[a].raids (blow fs[a] fs[d] roll))
        rw [Vector.getElem_set_ne _ _ (Ne.symm hne)] at ha
        simp only [Fighter.struck, Fighter.raids, satSub] at hd ha
        simp only [ringTotal, Fighter.struck, Fighter.raids, satSub] at *
        omega
    · simp [hmay]
  · rw [dif_neg hk, dif_neg hk]
    rfl

end

end BullsUnicorns.Chain

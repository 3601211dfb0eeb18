import BullsUnicorns.Battle.Purses

/-!
# What a clash does to the purses

Movement, recoil and burial leave every purse as it was. A clash strikes at most one fair hit each way,
and logs it.
-/

namespace BullsUnicorns.Battle

variable {p : Platform} {k : Tick}

/-! ## Movement -/

theorem purse_ite {c : Prop} [Decidable c] {f g : Fighter} {u : Purse} (hf : f.purse = u) (hg : g.purse = u) :
    (if c then f else g).purse = u := by
  split
  · exact hf
  · exact hg

theorem purse_seek (tgt : Option Fighter) (f : Fighter) : (seek p k tgt f).purse = f.purse := by
  cases tgt <;> rfl

theorem purse_limitSpeed (f : Fighter) : (limitSpeed p k f).purse = f.purse := purse_ite rfl rfl

theorem purse_walls (f : Fighter) : (walls f).purse = f.purse := by
  unfold walls
  extract_lets f₁ f₂ f₃
  have h₁ : f₁.purse = f.purse := purse_ite rfl rfl
  have h₂ : f₂.purse = f.purse := purse_ite h₁ h₁
  have h₃ : f₃.purse = f.purse := purse_ite h₂ h₂
  exact purse_ite h₃ h₃

theorem purse_bounce (a b : Fighter) (dx dy d m : ℚ) :
    (bounce a b dx dy d m).1.purse = a.purse ∧ (bounce a b dx dy d m).2.purse = b.purse := ⟨rfl, rfl⟩

theorem purse_bury (f : Fighter) : (bury f).purse = f.purse := by
  unfold bury
  exact purse_ite rfl rfl

/-- A fighter put back with the purse it had. -/
theorem purses_set {F : List Fighter} {i : ℕ} {f : Fighter} (h : f.purse = (fighterAt F i).purse) :
    (F.set i f).map Fighter.purse = F.map Fighter.purse := by
  refine List.ext_getElem (by simp) fun j hj hj' => ?_
  simp only [List.getElem_map, List.getElem_set]
  split
  · next hij =>
      subst hij
      have hi : i < F.length := by simpa using hj'
      rw [h, fighterAt, List.getD_eq_getElem?_getD, List.getElem?_eq_getElem hi, Option.getD_some]
  · rfl

theorem purses_move (A : List ℕ) (F : List Fighter) (i : ℕ) (g : Rng) :
    (((move p k A F i).run g).1).map Fighter.purse = F.map Fighter.purse := by
  apply purses_set
  rw [purse_walls]
  exact (purse_limitSpeed _).trans (purse_seek _ _)

theorem purses_moves (A B : List ℕ) (F : List Fighter) (g : Rng) :
    (((B.foldlM (move p k A) F).run g).1).map Fighter.purse = F.map Fighter.purse := by
  induction B generalizing F g with
  | nil => rfl
  | cons i B ih =>
      rw [List.foldlM_cons]
      exact (ih _ _).trans (purses_move A F i g)

/-! ## Blows -/

theorem purse_lose (f : Fighter) (tk : Side) (amt : ℚ) : (f.lose tk amt).purse = f.purse.lose tk amt := by
  unfold Fighter.lose Purse.lose
  split <;> rfl

theorem purse_gain (f : Fighter) (mode : Mode) (tk : Side) (amt : ℚ) :
    (f.gain mode tk amt).purse = f.purse.gain mode tk amt := by
  cases mode <;> by_cases htk : tk = .bull <;> simp [Fighter.gain, Purse.gain, Fighter.purse, htk]

/-- A blow does nothing, or it moves a part of what the defender holds and logs that. -/
theorem applyHit_cases (mode : Mode) (t : ℕ) (atk dfn : Fighter) (hits : List HitLog) (hit : Side × ℚ) :
    applyHit mode t atk dfn hits hit = (atk, dfn, hits) ∨
    ∃ atk' dfn' amt, applyHit mode t atk dfn hits hit = (atk', dfn', hits ++ [⟨t, atk.id, dfn.id, amt, hit.1⟩]) ∧
      0 < amt ∧ amt ≤ dfn.purse.held hit.1 ∧
      atk'.purse = atk.purse.gain mode hit.1 amt ∧ dfn'.purse = dfn.purse.lose hit.1 amt := by
  simp only [applyHit]
  split
  · exact Or.inl rfl
  · next hamt =>
      right
      refine ⟨_, _, min hit.2 (dfn.held hit.1), rfl, by linarith, min_le_right _ _, ?_, ?_⟩
      · exact purse_gain atk mode hit.1 _
      · exact purse_lose dfn hit.1 _

/-- The purses of two fighters beside those of the others. -/
def seated (B : List Purse) (i j : ℕ) (u v : Purse) : List Purse := (B.set i u).set j v

/-- Two seats that may fight: apart, and of different sides and wallets. -/
structure Foes (B : List Purse) (i j : ℕ) (u v : Purse) : Prop where
  keyed : Table.Keyed Purse.id (seated B i j u v)
  left : i < B.length
  right : j < B.length
  apart : i ≠ j
  side : u.side ≠ v.side
  wallet : walletOf u.id ≠ walletOf v.id

section
variable {B : List Purse} {i j : ℕ} {u v : Purse} {mode : Mode} {tk : Side} {amt : ℚ} {t : ℕ}

theorem seated_comm (hij : i ≠ j) : seated B i j u v = seated B j i v u := List.set_comm u v hij

theorem seated_left (hi : i < B.length) (hij : i ≠ j) : (seated B i j u v)[i]? = some u := by
  simp [seated, Ne.symm hij, hi]

theorem seated_right (hj : j < B.length) : (seated B i j u v)[j]? = some v := by
  simp [seated, hj]

theorem seated_set_left (hij : i ≠ j) (u' : Purse) : (seated B i j u v).set i u' = seated B i j u' v := by
  rw [seated_comm hij, seated, List.set_set, ← seated, seated_comm hij.symm]

theorem Foes.symm (h : Foes B i j u v) : Foes B j i v u :=
  ⟨seated_comm h.apart ▸ h.keyed, h.right, h.left, h.apart.symm, h.side.symm, h.wallet.symm⟩

/-- A hit from one seat to the other, as the auditor replays it. -/
theorem Foes.strike (h : Foes B i j u v) :
    Battle.strike mode (seated B i j u v) ⟨t, u.id, v.id, amt, tk⟩ =
      seated B i j (u.gain mode tk amt) (v.lose tk amt) := by
  have hlen : (seated B i j u v).length = B.length := by simp [seated]
  have hi : i < (seated B i j u v).length := hlen ▸ h.left
  have hj : j < (seated B i j u v).length := hlen ▸ h.right
  have hv : (seated B i j u v)[j] = v := by
    have h1 := seated_right (B := B) (i := i) (u := u) (v := v) h.right
    rwa [List.getElem?_eq_getElem hj, Option.some_inj] at h1
  have hlose : Table.modify Purse.id v.id (·.lose tk amt) (seated B i j u v) = seated B i j u (v.lose tk amt) := by
    have h1 := Table.modify_eq_set (f := (·.lose tk amt)) h.keyed hj
    rw [hv] at h1
    rw [h1, seated, List.set_set, ← seated]
  have hkeyed : Table.Keyed Purse.id (seated B i j u (v.lose tk amt)) :=
    hlose ▸ h.keyed.modify fun _ => Purse.lose_id
  have hi' : i < (seated B i j u (v.lose tk amt)).length := by simpa [seated] using h.left
  have hu : (seated B i j u (v.lose tk amt))[i] = u := by
    have h1 := seated_left (B := B) (u := u) (v := v.lose tk amt) h.left h.apart
    rwa [List.getElem?_eq_getElem hi', Option.some_inj] at h1
  have hgain := Table.modify_eq_set (f := (·.gain mode tk amt)) hkeyed hi'
  rw [hu] at hgain
  rw [Battle.strike, hlose, hgain, seated_set_left h.apart]

theorem Foes.fair (h : Foes B i j u v) (h0 : 0 ≤ amt) (hle : amt ≤ v.held tk) :
    Fair (seated B i j u v) ⟨t, u.id, v.id, amt, tk⟩ := by
  have hu : u ∈ seated B i j u v := List.mem_of_getElem? (seated_left h.left h.apart)
  have hv : v ∈ seated B i j u v := List.mem_of_getElem? (seated_right h.right)
  exact ⟨⟨u, hu, v, hv, rfl, rfl, h.side, h.wallet, hle⟩, h0⟩

theorem Foes.struck (h : Foes B i j u v) : Foes B i j (u.gain mode tk amt) (v.lose tk amt) where
  keyed := by
    rw [← h.strike (t := 0)]
    exact keyed_of_seats (strike_seats mode _ _) h.keyed
  left := h.left
  right := h.right
  apart := h.apart
  side := by simpa using h.side
  wallet := by simpa using h.wallet

end

/-- Purses and hit log before and after: some fair hits, each logged. -/
def Struck (mode : Mode) (B : List Purse) (hits : List HitLog) (B' : List Purse) (hits' : List HitLog) : Prop :=
  ∃ new, hits' = hits ++ new ∧ AllFair mode B new ∧ B' = replay mode B new

theorem Struck.refl (mode : Mode) (B : List Purse) (hits : List HitLog) : Struck mode B hits B hits :=
  ⟨[], by simp, trivial, rfl⟩

theorem Struck.trans {mode : Mode} {B₁ B₂ B₃ : List Purse} {l₁ l₂ l₃ : List HitLog}
    (h : Struck mode B₁ l₁ B₂ l₂) (h' : Struck mode B₂ l₂ B₃ l₃) : Struck mode B₁ l₁ B₃ l₃ := by
  obtain ⟨new, rfl, hf, rfl⟩ := h
  obtain ⟨new', rfl, hf', rfl⟩ := h'
  exact ⟨new ++ new', by simp, allFair_append.mpr ⟨hf, hf'⟩, (replay_append mode B₁ new new').symm⟩

theorem Struck.keyed {mode : Mode} {B B' : List Purse} {l l' : List HitLog} (h : Struck mode B l B' l')
    (hB : Table.Keyed Purse.id B) : Table.Keyed Purse.id B' := by
  obtain ⟨new, -, -, rfl⟩ := h
  exact keyed_of_seats (replay_seats mode B new) hB

/-- One blow between two seats that may fight. -/
theorem applyHit_struck {B : List Purse} {i j : ℕ} {a b a' b' : Fighter} {mode : Mode} {t : ℕ}
    {hits hits' : List HitLog} {hit : Side × ℚ} (h : Foes B i j a.purse b.purse)
    (he : applyHit mode t a b hits hit = (a', b', hits')) :
    Struck mode (seated B i j a.purse b.purse) hits (seated B i j a'.purse b'.purse) hits' ∧
      Foes B i j a'.purse b'.purse := by
  rcases applyHit_cases mode t a b hits hit with hnone | ⟨a₁, b₁, amt, hsome, h0, hle, ha, hb⟩
  · rw [hnone] at he
    cases he
    exact ⟨Struck.refl _ _ _, h⟩
  · rw [hsome] at he
    cases he
    rw [ha, hb]
    refine ⟨⟨[⟨t, a.id, b.id, amt, hit.1⟩], rfl, ⟨h.fair h0.le hle, trivial⟩, ?_⟩, h.struck⟩
    exact (h.strike (t := t)).symm

end BullsUnicorns.Battle

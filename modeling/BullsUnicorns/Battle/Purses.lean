import BullsUnicorns.Battle.Game

/-!
# What a battle is for

A battle moves value between purses, one logged hit at a time. A hit is fair when it is struck between two
purses of different sides and wallets for no more than the defender holds. A log of fair hits moves the
value of each token and neither makes nor hides any. An auditor replays the log over the first purses.
-/

namespace BullsUnicorns.Battle

/-- What a fighter owns: its ring, its bank, and the stake that was never at risk. -/
structure Purse where
  id : String
  side : Side
  bull : ℚ
  uwu : ℚ
  sBull : ℚ
  sUwu : ℚ
  unmatched : ℚ
deriving DecidableEq, Inhabited

def Fighter.purse (f : Fighter) : Purse := ⟨f.id, f.side, f.bull, f.uwu, f.sBull, f.sUwu, f.unmatched⟩

namespace Purse

def held (u : Purse) (tk : Side) : ℚ := if tk = .bull then u.bull else u.uwu

def lose (u : Purse) (tk : Side) (amt : ℚ) : Purse :=
  if tk = .bull then { u with bull := u.bull - amt } else { u with uwu := u.uwu - amt }

def gain (u : Purse) (mode : Mode) (tk : Side) (amt : ℚ) : Purse :=
  match mode with
  | .extraction =>
    if tk = .bull then { u with sBull := u.sBull + amt } else { u with sUwu := u.sUwu + amt }
  | .normal =>
    if tk = .bull then { u with bull := u.bull + amt } else { u with uwu := u.uwu + amt }

/-- All that a purse holds of bull. -/
def allBull (u : Purse) : ℚ := u.bull + u.sBull + if u.side = .bull then u.unmatched else 0

def allUwu (u : Purse) : ℚ := u.uwu + u.sUwu + if u.side = .uwu then u.unmatched else 0

structure Nonneg (u : Purse) : Prop where
  bull : 0 ≤ u.bull
  uwu : 0 ≤ u.uwu
  sBull : 0 ≤ u.sBull
  sUwu : 0 ≤ u.sUwu
  unmatched : 0 ≤ u.unmatched

variable {u : Purse} {mode : Mode} {tk : Side} {amt : ℚ}

@[simp]
theorem lose_id : (u.lose tk amt).id = u.id := by
  unfold lose
  split <;> rfl

@[simp]
theorem lose_side : (u.lose tk amt).side = u.side := by
  unfold lose
  split <;> rfl

@[simp]
theorem gain_id : (u.gain mode tk amt).id = u.id := by
  cases mode <;> by_cases htk : tk = .bull <;> simp [gain, htk]

@[simp]
theorem gain_side : (u.gain mode tk amt).side = u.side := by
  cases mode <;> by_cases htk : tk = .bull <;> simp [gain, htk]

theorem lose_allBull : (u.lose tk amt).allBull = u.allBull - if tk = .bull then amt else 0 := by
  unfold lose allBull
  split <;> ring

theorem lose_allUwu : (u.lose tk amt).allUwu = u.allUwu - if tk = .bull then 0 else amt := by
  unfold lose allUwu
  split <;> ring

theorem gain_allBull : (u.gain mode tk amt).allBull = u.allBull + if tk = .bull then amt else 0 := by
  cases mode <;> by_cases htk : tk = .bull <;> simp only [gain, allBull, htk, if_true, if_false] <;> ring

theorem gain_allUwu : (u.gain mode tk amt).allUwu = u.allUwu + if tk = .bull then 0 else amt := by
  cases mode <;> by_cases htk : tk = .bull <;> simp only [gain, allUwu, htk, if_true, if_false] <;> ring

theorem Nonneg.lose (h : u.Nonneg) (hle : amt ≤ u.held tk) : (u.lose tk amt).Nonneg := by
  obtain ⟨h1, h2, h3, h4, h5⟩ := h
  by_cases htk : tk = .bull
  · rw [held, if_pos htk] at hle
    rw [Purse.lose, if_pos htk]
    exact ⟨sub_nonneg.mpr hle, h2, h3, h4, h5⟩
  · rw [held, if_neg htk] at hle
    rw [Purse.lose, if_neg htk]
    exact ⟨h1, sub_nonneg.mpr hle, h3, h4, h5⟩

theorem Nonneg.gain (h : u.Nonneg) (h0 : 0 ≤ amt) : (u.gain mode tk amt).Nonneg := by
  obtain ⟨h1, h2, h3, h4, h5⟩ := h
  cases mode with
  | normal =>
      simp only [Purse.gain]
      split
      · exact ⟨add_nonneg h1 h0, h2, h3, h4, h5⟩
      · exact ⟨h1, add_nonneg h2 h0, h3, h4, h5⟩
  | extraction =>
      simp only [Purse.gain]
      split
      · exact ⟨h1, h2, add_nonneg h3 h0, h4, h5⟩
      · exact ⟨h1, h2, h3, add_nonneg h4 h0, h5⟩

end Purse

/-! ## Hits on the purses -/

/-- What one hit of the log did. -/
def strike (mode : Mode) (B : List Purse) (h : HitLog) : List Purse :=
  Table.modify Purse.id h.atk (·.gain mode h.tk h.amt)
    (Table.modify Purse.id h.dfn (·.lose h.tk h.amt) B)

/-- The auditor's fold of a hit log. -/
def replay (mode : Mode) (B : List Purse) (hits : List HitLog) : List Purse := hits.foldl (strike mode) B

/-- A hit that purses may exchange: across sides and wallets, for a part of what the defender holds. -/
structure Fair (B : List Purse) (h : HitLog) : Prop where
  exchange : ∃ a ∈ B, ∃ d ∈ B, a.id = h.atk ∧ d.id = h.dfn ∧ a.side ≠ d.side ∧
    walletOf a.id ≠ walletOf d.id ∧ h.amt ≤ d.held h.tk
  amt_nonneg : 0 ≤ h.amt

/-- Every hit of a log is fair on the purses it finds. -/
def AllFair (mode : Mode) (B : List Purse) : List HitLog → Prop
  | [] => True
  | h :: hits => Fair B h ∧ AllFair mode (strike mode B h) hits

theorem replay_append (mode : Mode) (B : List Purse) (l₁ l₂ : List HitLog) :
    replay mode B (l₁ ++ l₂) = replay mode (replay mode B l₁) l₂ := List.foldl_append

theorem allFair_append {mode : Mode} {B : List Purse} {l₁ l₂ : List HitLog} :
    AllFair mode B (l₁ ++ l₂) ↔ AllFair mode B l₁ ∧ AllFair mode (replay mode B l₁) l₂ := by
  induction l₁ generalizing B with
  | nil => simp [AllFair, replay]
  | cons h l₁ ih => simp [AllFair, replay, ih, and_assoc]

/-- Ids, sides and unmatched parts, which no hit changes. -/
def Purse.seat (u : Purse) : String × Side × ℚ := (u.id, u.side, u.unmatched)

theorem strike_seats (mode : Mode) (B : List Purse) (h : HitLog) :
    (strike mode B h).map Purse.seat = B.map Purse.seat := by
  have hlose : ∀ u : Purse, (u.lose h.tk h.amt).seat = u.seat := by
    intro u
    unfold Purse.lose
    split <;> rfl
  have hgain : ∀ u : Purse, (u.gain mode h.tk h.amt).seat = u.seat := by
    intro u
    cases mode <;> by_cases htk : h.tk = .bull <;> simp [Purse.gain, Purse.seat, htk]
  rw [strike, Table.map_modify hgain, Table.map_modify hlose]

theorem replay_seats (mode : Mode) (B : List Purse) (hits : List HitLog) :
    (replay mode B hits).map Purse.seat = B.map Purse.seat := by
  induction hits generalizing B with
  | nil => rfl
  | cons h hits ih => exact (ih (strike mode B h)).trans (strike_seats mode B h)

theorem keyed_of_seats {B B' : List Purse} (h : B'.map Purse.seat = B.map Purse.seat)
    (hB : Table.Keyed Purse.id B) : Table.Keyed Purse.id B' := by
  have hids : B'.map Purse.id = B.map Purse.id := by
    have h1 := congrArg (List.map Prod.fst) h
    simpa [List.map_map, Function.comp_def, Purse.seat] using h1
  rw [Table.Keyed, hids]
  exact hB

/-! ## What fair hits keep -/

/-- The value of each token over all purses. -/
def bullIn (B : List Purse) : ℚ := (B.map Purse.allBull).sum

def uwuIn (B : List Purse) : ℚ := (B.map Purse.allUwu).sum

theorem Fair.of_sums {mode : Mode} {B : List Purse} {h : HitLog} (hB : Table.Keyed Purse.id B) (hf : Fair B h)
    (g : Purse → ℚ) (v : ℚ) (hlose : ∀ u, g (u.lose h.tk h.amt) = g u - v)
    (hgain : ∀ u, g (u.gain mode h.tk h.amt) = g u + v) :
    ((strike mode B h).map g).sum = (B.map g).sum := by
  obtain ⟨a, ha, d, hd, hatk, hdfn, hside, -, -⟩ := hf.exchange
  have hne : a.id ≠ h.dfn := by
    intro he
    have had : a = d := List.inj_on_of_nodup_map hB ha hd (he.trans hdfn.symm)
    exact hside (had ▸ rfl)
  have hB' : Table.Keyed Purse.id (Table.modify Purse.id h.dfn (·.lose h.tk h.amt) B) :=
    hB.modify fun _ => Purse.lose_id
  have ha' : a ∈ Table.modify Purse.id h.dfn (·.lose h.tk h.amt) B :=
    List.mem_map.mpr ⟨a, ha, if_neg hne⟩
  rw [strike, Table.sum_modify hB' ha' hatk g, Table.sum_modify hB hd hdfn g, hlose, hgain]
  ring

/-- A fair hit keeps the value of each token. -/
theorem Fair.bullIn_strike {mode : Mode} {B : List Purse} {h : HitLog} (hB : Table.Keyed Purse.id B)
    (hf : Fair B h) : bullIn (strike mode B h) = bullIn B :=
  hf.of_sums hB _ _ (fun _ => Purse.lose_allBull) (fun _ => Purse.gain_allBull)

theorem Fair.uwuIn_strike {mode : Mode} {B : List Purse} {h : HitLog} (hB : Table.Keyed Purse.id B)
    (hf : Fair B h) : uwuIn (strike mode B h) = uwuIn B :=
  hf.of_sums hB _ _ (fun _ => Purse.lose_allUwu) (fun _ => Purse.gain_allUwu)

theorem Fair.nonneg_strike {mode : Mode} {B : List Purse} {h : HitLog} (hB : Table.Keyed Purse.id B)
    (hf : Fair B h) (hn : ∀ u ∈ B, u.Nonneg) : ∀ u ∈ strike mode B h, u.Nonneg := by
  obtain ⟨a, ha, d, hd, -, hdfn, -, -, hle⟩ := hf.exchange
  have hlose : ∀ u ∈ Table.modify Purse.id h.dfn (·.lose h.tk h.amt) B, u.Nonneg := by
    intro u hu
    obtain ⟨u', hu', rfl⟩ := Table.mem_modify hu
    split
    · next hid =>
        have hud : u' = d := List.inj_on_of_nodup_map hB hu' hd (hid.trans hdfn.symm)
        exact (hn u' hu').lose (hud ▸ hle)
    · exact hn u' hu'
  intro u hu
  obtain ⟨u', hu', rfl⟩ := Table.mem_modify hu
  split
  · exact (hlose u' hu').gain hf.amt_nonneg
  · exact hlose u' hu'

/-- The books of a battle that began with the purses `B₀`: nothing made, hidden or overdrawn. -/
structure Balanced (B₀ B : List Purse) : Prop where
  seats : B.map Purse.seat = B₀.map Purse.seat
  bull : bullIn B = bullIn B₀
  uwu : uwuIn B = uwuIn B₀
  nonneg : ∀ u ∈ B, u.Nonneg

theorem replay_balanced {mode : Mode} {B₀ B : List Purse} {hits : List HitLog} (h0 : Table.Keyed Purse.id B₀)
    (h : Balanced B₀ B) (hfair : AllFair mode B hits) : Balanced B₀ (replay mode B hits) := by
  induction hits generalizing B with
  | nil => exact h
  | cons hit hits ih =>
      obtain ⟨hf, hrest⟩ := hfair
      have hB : Table.Keyed Purse.id B := keyed_of_seats h.seats h0
      refine ih ⟨?_, ?_, ?_, ?_⟩ hrest
      · exact (strike_seats mode B hit).trans h.seats
      · exact (hf.bullIn_strike hB).trans h.bull
      · exact (hf.uwuIn_strike hB).trans h.uwu
      · exact hf.nonneg_strike hB h.nonneg

end BullsUnicorns.Battle

import BullsUnicorns.Engine.Lemmas.Books
import BullsUnicorns.Battle.Lemmas.Payouts
import BullsUnicorns.Battle.Lemmas.Shares

/-!
# Stakes and payouts on the books

A stake is a debit, the shares of its fee and an entry; a payout is a credit in each token of the fighter.
Each is booked, and no account is overdrawn by it.
-/

namespace BullsUnicorns.Engine

open Battle

section
variable {pool : List String} {e : State} {id : String} {arena : Arena} {round : ℕ} {f : Field} {x : ℚ}

/-- Dollars that an account has staked, and what else its entry says. -/
theorem cosmetic_dep {usd : ℚ} (h : 0 ≤ usd) (side : Account → Side) (refBy : Account → String) :
    Cosmetic fun a => { a with dep := a.dep + usd, side := side a, refBy := refBy a } :=
  ⟨fun _ => rfl, fun _ => rfl, fun _ => rfl,
    fun _ => ⟨rfl, rfl, fun h => h, fun h => h, le_refl _, le_add_of_nonneg_right h⟩⟩

theorem cosmetic_side (side : Side) : Cosmetic fun a => { a with side } :=
  ⟨fun _ => rfl, fun _ => rfl, fun _ => rfl, fun _ => ⟨rfl, rfl, fun h => h, fun h => h, le_refl _, le_refl _⟩⟩

theorem cosmetic_ref (refCut : ℚ) : Cosmetic fun a => { a with refEarned := a.refEarned + refCut } :=
  ⟨fun _ => rfl, fun _ => rfl, fun _ => rfl, fun _ => ⟨rfl, rfl, fun h => h, fun h => h, le_refl _, le_refl _⟩⟩

theorem cosmetic_games (usd : ℚ) : Cosmetic fun a => { a with games := a.games + 1, ret := a.ret + usd } :=
  ⟨fun _ => rfl, fun _ => rfl, fun _ => rfl,
    fun a => ⟨rfl, rfl, fun h => h, fun h => h, Nat.le_succ a.games, le_refl _⟩⟩

theorem isSome_touch {g : Account → Account} (h : (e.ledger.get id).isSome) (k : String) :
    ((e.touch k g).ledger.get id).isSome := by
  rw [State.touch_ledger, Ledger.get_modify]
  split
  · next hk => simpa [← hk] using h
  · exact h

theorem isSome_post (h : (e.ledger.get id).isSome) (k : String) : ((e.post arena round k f x).ledger.get id).isSome := by
  rw [State.post_ledger, (Ledger.Same.add (l := e.ledger)).isSome id]
  exact h

/-- A debit of what is there, after a change of the account that moves nothing. -/
theorem Booked.debit {g : Account → Account} (hg : Cosmetic g) (hget : (e.ledger.get id).isSome)
    (hle : x ≤ e.ledger.bal id f) (arena : Arena) (round : ℕ) :
    Booked pool nobody e ((e.touch id g).post arena round id f (-x)) := by
  refine (Booked.touch hg e id).and (Booked.post arena round (isSome_touch hget id) fun _ => ?_)
  rw [State.touch_ledger, touch_bal hg]
  linarith

theorem Booked.credit (hget : (e.ledger.get id).isSome) (h0 : 0 ≤ x) (arena : Arena) (round : ℕ) (f : Field) :
    Booked pool nobody e (e.post arena round id f x) :=
  Booked.post arena round hget fun hn => add_nonneg (hn id f) h0

theorem treasury_isSome (l : Ledger) : ((treasuryAcct l).get TREASURY_ID).isSome := by
  unfold treasuryAcct
  cases h : l.get TREASURY_ID with
  | some a => simp [h]
  | none => simp [OrderedMap.get_set]

theorem acct_isSome (l : Ledger) (wallet : String) (side : Side) : ((acct l wallet side).get wallet).isSome := by
  unfold acct
  cases h : l.get wallet with
  | some a => simp [h]
  | none => simp [OrderedMap.get_set]

theorem Booked.bankFee (e : State) (arena : Arena) (round : ℕ) (f : Field) (tokens : ℚ) :
    Booked pool nobody e (e.bankFee arena round f tokens) := by
  unfold State.bankFee
  split
  · exact Booked.of_eq rfl rfl
  · next h => exact (Booked.treasury e).and (Booked.credit (treasury_isSome e.ledger) (not_le.mp h).le arena round f)

theorem Booked.freeze (e : State) (arena : Arena) (round : ℕ) (f : Field) (q : Quotes) :
    Booked pool nobody e (e.freeze arena round f q) := .of_eq rfl rfl

theorem unitsAtRound_nonneg {usd : ℚ} (h : 0 ≤ usd) (e : State) (arena : Arena) (round : ℕ) (f : Field) :
    0 ≤ unitsAtRound e arena round f usd := by
  unfold unitsAtRound
  split
  · next hpx => exact div_nonneg h hpx.le
  · exact le_refl 0

end

theorem FEE_pos : 0 < FEE := by norm_num [FEE]

theorem FEE_lt : FEE < 1 := by norm_num [FEE]

section
variable {s : Settings} {e : State} {id : String}

theorem Booked.deployBot {aid : ArenaId} {side : Side} {tokens usd : ℚ} (hget : (e.ledger.get id).isSome)
    (hle : tokens ≤ e.ledger.bal id (slotField aid side)) (husd : 0 ≤ usd) :
    Booked s.pool nobody e (deployBot s e aid id side tokens usd) := by
  unfold Engine.deployBot
  extract_lets f round e₁
  have h₁ : Booked s.pool nobody e e₁ := Booked.debit (cosmetic_dep husd (·.side) (·.refBy)) hget hle _ _
  exact (h₁.and (Booked.bankFee _ _ _ _ _)).and (Booked.of_eq rfl rfl)

theorem Booked.payReferrer {m : EnterMsg} {round : ℕ} {refBy : String} {refCut : ℚ} (h0 : 0 ≤ refCut) :
    Booked s.pool nobody e (payReferrer e m round refBy refCut) := by
  unfold Engine.payReferrer
  refine (Booked.acct e refBy m.side).and ?_
  exact (Booked.touch (cosmetic_ref refCut) _ refBy).and
    (Booked.credit (isSome_touch (acct_isSome e.ledger refBy m.side) refBy) h0 _ _ _)

theorem Booked.deployPlayer {m : EnterMsg} {stake px : ℚ} (hget : (e.ledger.get m.wallet).isSome)
    (hle : stake ≤ e.ledger.bal m.wallet (slotField m.aid m.side)) (h0 : 0 ≤ stake) (hpx : 0 ≤ px) :
    Booked s.pool nobody e (deployPlayer s e m stake px) := by
  unfold Engine.deployPlayer
  extract_lets f round refBy e₁ fee refCut e₂
  have h₁ : Booked s.pool nobody e e₁ :=
    Booked.debit (cosmetic_dep (mul_nonneg h0 hpx) (fun _ => m.side) fun _ => refBy) hget hle _ _
  have h₂ : Booked s.pool nobody e e₂ := by
    simp only [e₂]
    split
    · exact h₁
    · next href =>
        refine h₁.and (Booked.payReferrer ?_)
        simp only [refCut, if_neg href, fee]
        have := mul_nonneg h0 FEE_pos.le
        linarith
  exact (h₂.and (Booked.bankFee _ _ _ _ _)).and (Booked.of_eq rfl rfl)

theorem Booked.returnFee (e : State) (arena : Arena) (round : ℕ) (f : Field) (amount : ℚ) :
    Booked s.pool nobody e (e.returnFee s arena round f amount) := by
  unfold State.returnFee
  split
  · exact Booked.of_eq rfl rfl
  · next h =>
      split
      · exact Booked.of_eq rfl rfl
      · next target htarget =>
          exact Booked.credit (mem_poolAccounts.mp (poorest_mem htarget)).2 (not_le.mp h).le _ _ _

theorem Booked.deployBotN {aid : NArena} {team tokens usd : ℚ} (hget : (e.ledger.get id).isSome)
    (hle : tokens ≤ e.ledger.bal id (aid.field team)) (husd : 0 ≤ usd) :
    Booked s.pool nobody e (deployBotN s e aid id team tokens usd) := by
  unfold Engine.deployBotN
  extract_lets f round e₁
  have h₁ : Booked s.pool nobody e e₁ :=
    (Booked.post _ _ hget fun _ => by linarith).and (Booked.returnFee _ _ _ _ _)
  have h₂ : Booked s.pool nobody e (e₁.touch id fun a => { a with dep := a.dep + usd }) :=
    h₁.and (Booked.touch (cosmetic_dep husd (·.side) (·.refBy)) _ id)
  exact h₂.and (Booked.of_eq rfl rfl)

theorem Booked.deployPlayerN {m : EnterNMsg} {stake usd : ℚ} (hget : (e.ledger.get m.wallet).isSome)
    (hle : stake ≤ e.ledger.bal m.wallet (m.aid.field m.slot)) (husd : 0 ≤ usd) :
    Booked s.pool nobody e (deployPlayerN s e m stake usd) := by
  unfold Engine.deployPlayerN
  extract_lets f round e₁
  have h₁ : Booked s.pool nobody e e₁ := Booked.debit (cosmetic_dep husd (·.side) (·.refBy)) hget hle _ _
  exact (h₁.and (Booked.bankFee _ _ _ _ _)).and (Booked.of_eq rfl rfl)

theorem Booked.payFighter (q : Quotes) (aid : ArenaId) (round : ℕ) {pay : String × Battle.Payout}
    (h : 0 ≤ pay.2.bull ∧ 0 ≤ pay.2.uwu) : Booked s.pool nobody e (payFighter q aid round e pay) := by
  unfold Engine.payFighter
  extract_lets id fA fB e₁ retA retB ret e₂ e₃
  split
  · exact Booked.of_eq rfl rfl
  · next a ha =>
      have hget : (e₁.ledger.get id).isSome := by
        simp only [e₁, freeze_ledger]
        simp [ha]
      have h₁ : Booked s.pool nobody e e₁ := (Booked.freeze e _ _ _ q).and (Booked.freeze _ _ _ _ q)
      have h₂ : Booked s.pool nobody e e₂ :=
        (h₁.and (Booked.credit hget (unitsAtRound_nonneg h.1 _ _ _ _) _ _ _)).and
          (Booked.credit (isSome_post hget _) (unitsAtRound_nonneg h.2 _ _ _ _) _ _ _)
      exact (h₂.and (Booked.touch (cosmetic_games ret) _ id)).and (Booked.of_eq rfl rfl)

theorem Booked.payFighterN (q : Quotes) (aid : NArena) (round : ℕ) {pay : String × ℚ} (h : 0 ≤ pay.2) :
    Booked s.pool nobody e (payFighterN s q aid round e pay) := by
  unfold Engine.payFighterN
  extract_lets id f e₁ ret usd e₂
  split
  · exact Booked.of_eq rfl rfl
  · next a ha =>
      have hget : (e₁.ledger.get id).isSome := by
        simp only [e₁, freeze_ledger]
        simp [ha]
      have h₁ : Booked s.pool nobody e e₂ :=
        ((Booked.freeze e _ _ _ q).and (Booked.credit hget (unitsAtRound_nonneg h _ _ _ _) _ _ _)).and
          (Booked.touch (cosmetic_games usd) _ id)
      exact h₁.and (Booked.of_eq rfl rfl)

/-- A settlement that pays nobody less than nothing. -/
theorem Booked.foldl {α : Type} {pay : State → α → State} {l : List α}
    (h : ∀ e, ∀ x ∈ l, Booked s.pool nobody e (pay e x)) (e : State) : Booked s.pool nobody e (l.foldl pay e) := by
  induction l generalizing e with
  | nil => exact Booked.of_eq rfl rfl
  | cons x l ih =>
      have hx := h e x List.mem_cons_self
      exact hx.and (ih (fun e y hy => h e y (List.mem_cons_of_mem x hy)) _)

theorem mem_entries_values {κ ν : Type} {m : OrderedMap κ ν} {kv : κ × ν} (h : kv ∈ m.entries) : kv.2 ∈ m.values :=
  List.mem_map_of_mem h

theorem Booked.settleRound (q : Quotes) (aid : ArenaId) {r : RoundResult}
    (h : ∀ pay ∈ r.settlement.values, 0 ≤ pay.bull ∧ 0 ≤ pay.uwu) : Booked s.pool nobody e (settleRound q aid r e) := by
  have h₁ : Booked s.pool nobody e { e with two := Function.update e.two aid (settling (e.two aid)) } := Booked.of_eq rfl rfl
  exact h₁.and (Booked.foldl (fun e pay hpay => Booked.payFighter q aid _ (h pay.2 (mem_entries_values hpay))) _)

theorem Booked.settleRoundN (q : Quotes) (aid : NArena) {r : ResultN} (h : ∀ pay ∈ r.settlement.values, 0 ≤ pay) :
    Booked s.pool nobody e (settleRoundN s q aid r e) := by
  have h₁ : Booked s.pool nobody e { e with many := Function.update e.many aid (settling (e.many aid)) } := Booked.of_eq rfl rfl
  exact h₁.and (Booked.foldl (fun e pay hpay => Booked.payFighterN q aid _ (h pay.2 (mem_entries_values hpay))) _)

end

end BullsUnicorns.Engine

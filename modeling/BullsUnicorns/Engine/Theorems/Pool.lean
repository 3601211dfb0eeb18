import BullsUnicorns.Engine.Lemmas.Pool

/-!
# The pool gives exactly what it says

One call moves what it says it moves, to within the tolerance where an exact amount is taken, and nothing else;
so do any calls one after the other.
-/

namespace BullsUnicorns.Engine

variable {pool : List String} {l l' : Ledger} {f g : Field}

/-- What the calls on one field do to the pool. -/
structure Gives (pool : List String) (l : Ledger) (f : Field) : Prop where
  drawn : ∀ want spread,
    (drawBank pool l f want spread).2 = max 0 (min want (poolBalance pool l f / max 1 spread)) ∧
      poolBalance pool (drawBank pool l f want spread).1 f = poolBalance pool l f - (drawBank pool l f want spread).2
  taken : ∀ amount, (takeExact pool l f amount).2 = true →
    |poolBalance pool l f - poolBalance pool (takeExact pool l f amount).1 f - amount| ≤ 1 / 10 ^ 9
  refused : ∀ amount, (takeExact pool l f amount).2 = false → (takeExact pool l f amount).1 = l
  returned : PoolReady pool l → ∀ amount, 0 ≤ amount →
    poolBalance pool (returnBank pool l f amount) f = poolBalance pool l f + amount
  /-- A negative amount is refused. -/
  unreturned : ∀ amount, amount < 0 → returnBank pool l f amount = l

/-- No wallet of the pool is in debt. -/
def Funded (pool : List String) (l : Ledger) : Prop := ∀ id ∈ pool, ∀ f, 0 ≤ l.bal id f

/-- A call touches the balances of one field of the pool wallets only, and brings none of them into debt. -/
structure Confined (pool : List String) (f : Field) (l l' : Ledger) : Prop where
  same : l.Same l'
  others : ∀ id g, id ∉ pool ∨ g ≠ f → l'.bal id g = l.bal id g
  solvent : Solvent l l'

/-! ## One call -/

/-- A call is a shift of the pool by what it says, but for the tolerance of an exact amount. -/
theorem PoolCall.run_shift (hpool : pool.Nodup) (hl : Funded pool l) (call : PoolCall) :
    ∃ x, Shift pool call.field x l (call.run pool l).1 ∧
      (PoolReady pool l ∨ (∀ f amount, call ≠ .giveBack f amount) →
        |x - (call.returned - (call.run pool l).2)| ≤ if call.isTake then 1 / 10 ^ 9 else 0) := by
  cases call with
  | draw f want spread =>
      refine ⟨_, (drawBank_shift pool f want spread l).1, fun _ => ?_⟩
      simp [PoolCall.returned, PoolCall.run, PoolCall.isTake]
  | take f amount =>
      obtain ⟨taken, hshift, htaken⟩ := takeExact_shift hpool (fun id hid => hl id hid f) amount
      refine ⟨-taken, hshift, fun _ => ?_⟩
      simp only [PoolCall.returned, PoolCall.run, PoolCall.isTake, if_true]
      rw [abs_le]
      split at htaken
      · next hgiven =>
          rw [if_pos hgiven]
          constructor <;> linarith [htaken.1, htaken.2]
      · next hrefused =>
          rw [if_neg hrefused, htaken.1]
          norm_num
  | giveBack f amount =>
      obtain ⟨x, hshift, hready⟩ := returnBank_shift_max pool l f amount
      refine ⟨x, hshift, fun h => ?_⟩
      rcases h with h | h
      · rw [hready h]
        simp [PoolCall.returned, PoolCall.run, PoolCall.isTake]
      · exact absurd rfl (h f amount)

theorem PoolCall.run_solvent (pool : List String) (l : Ledger) (call : PoolCall) : Solvent l (call.run pool l).1 := by
  cases call with
  | draw f want spread => exact drawBank_solvent pool l f want spread
  | take f amount => exact takeExact_solvent pool l f amount
  | giveBack f amount => exact returnBank_solvent pool l f amount

theorem Funded.solvent (hl : Funded pool l) (h : Solvent l l') : Funded pool l' := fun id hid f => h id f (hl id hid f)

theorem Funded.gives (hl : Funded pool l) (hpool : pool.Nodup) (f : Field) : Gives pool l f := by
  have hwallets : ∀ id ∈ pool, 0 ≤ l.bal id f := fun id hid => hl id hid f
  constructor
  case drawn =>
    intro want spread
    refine ⟨drawBank_granted hpool hwallets want spread, ?_⟩
    rw [poolBalance_shift hpool (drawBank_shift pool f want spread l).1, if_pos rfl, sub_eq_add_neg]
  case taken =>
    intro amount hgiven
    obtain ⟨taken, hshift, htaken⟩ := takeExact_shift hpool hwallets amount
    rw [if_pos hgiven] at htaken
    rw [poolBalance_shift hpool hshift, if_pos rfl, abs_le]
    constructor <;> linarith [htaken.1, htaken.2]
  case refused =>
    intro amount hrefused
    rw [takeExact_refused hwallets hpool hrefused]
  case returned =>
    intro hready amount h0
    obtain ⟨x, hshift, hx⟩ := returnBank_shift pool f h0 l
    rw [poolBalance_shift hpool hshift, if_pos rfl, hx hready]
  case unreturned => exact fun amount hneg => if_pos hneg.le

theorem Funded.confined (hl : Funded pool l) (hpool : pool.Nodup) (call : PoolCall) :
    Confined pool call.field l (call.run pool l).1 := by
  obtain ⟨x, hshift, _⟩ := call.run_shift hpool hl
  exact ⟨hshift.same, hshift.others, call.run_solvent pool l⟩

/-! ## Any calls -/

/-- What the log says has come into the pool in a field, less what has gone. -/
def netIn (f : Field) (log : List (PoolCall × ℚ)) : ℚ := returnedIn f log - grantedIn f log

/-- The pool is where the log says it is, to within the tolerance for each exact amount. -/
structure Tallies (pool : List String) (l : Ledger) (log : List (PoolCall × ℚ)) (l' : Ledger) : Prop where
  funded : Funded pool l'
  ready : PoolReady pool l → PoolReady pool l'
  balance : ∀ f, PoolReady pool l ∨ (∀ entry ∈ log, ∀ f amount, entry.1 ≠ .giveBack f amount) →
    |poolBalance pool l' f - (poolBalance pool l f + netIn f log)| ≤ takesIn f log / 10 ^ 9

theorem netIn_snoc (f : Field) (log : List (PoolCall × ℚ)) (entry : PoolCall × ℚ) :
    netIn f (log ++ [entry]) = netIn f log + if f = entry.1.field then entry.1.returned - entry.2 else 0 := by
  by_cases hf : entry.1.field = f
  · simp [netIn, returnedIn, grantedIn, hf]
    ring
  · simp [netIn, returnedIn, grantedIn, hf, Ne.symm hf]

theorem takesIn_snoc (f : Field) (log : List (PoolCall × ℚ)) (entry : PoolCall × ℚ) :
    takesIn f (log ++ [entry]) = takesIn f log + if f = entry.1.field ∧ entry.1.isTake then 1 else 0 := by
  by_cases hf : entry.1.field = f
  · simp [takesIn, hf, List.countP_cons]
  · simp [takesIn, hf, Ne.symm hf]

theorem Tallies.nil (hl : Funded pool l) : Tallies pool l [] l :=
  ⟨hl, id, fun f _ => by simp [netIn, returnedIn, grantedIn, takesIn]⟩

theorem Tallies.snoc {log : List (PoolCall × ℚ)} (h : Tallies pool l log l') (hpool : pool.Nodup) (call : PoolCall) :
    Tallies pool l (log ++ [(call, (call.run pool l').2)]) (call.run pool l').1 := by
  obtain ⟨x, hshift, hx⟩ := call.run_shift hpool h.funded
  constructor
  case funded => exact h.funded.solvent (call.run_solvent pool l')
  case ready => exact fun hready => (h.ready hready).of_same hshift.same
  case balance =>
    intro f hback
    have hbefore : PoolReady pool l ∨ ∀ entry ∈ log, ∀ f amount, entry.1 ≠ .giveBack f amount :=
      hback.imp_right fun hnone entry hentry => hnone entry (List.mem_append_left _ hentry)
    have hnow : PoolReady pool l' ∨ ∀ f amount, call ≠ .giveBack f amount :=
      hback.imp h.ready fun hnone => hnone _ (List.mem_append_right _ (List.mem_singleton.mpr rfl))
    have hold := abs_le.mp (h.balance f hbefore)
    have hmoved := abs_le.mp (hx hnow)
    rw [poolBalance_shift hpool hshift, netIn_snoc, takesIn_snoc, abs_le]
    by_cases hf : f = call.field
    · by_cases htake : call.isTake
      · simp only [hf, htake, and_self, if_true, Nat.cast_add, Nat.cast_one, add_div] at hold hmoved ⊢
        constructor <;> linarith [hold.1, hold.2, hmoved.1, hmoved.2]
      · simp only [hf, htake, and_false, if_true, Bool.false_eq_true, if_false, add_zero] at hold hmoved ⊢
        constructor <;> linarith [hold.1, hold.2, hmoved.1, hmoved.2]
    · simp only [hf, false_and, if_false, add_zero]
      exact hold

/-- The calls of the bot bank on distinct wallets without debt. -/
theorem pool_gives_exactly (hpool : pool.Nodup) (hl : Funded pool l) :
    (∀ f, Gives pool l f) ∧ (∀ call : PoolCall, Confined pool call.field l (call.run pool l).1) ∧
      ∀ calls : List PoolCall,
        Tallies pool l ((botBank pool).accepted l calls) ((botBank pool).run l calls) := by
  refine ⟨hl.gives hpool, hl.confined hpool, fun calls => ?_⟩
  refine Machine.run_history (H := fun log l' => Tallies pool l log l') ?_ (h := []) (Tallies.nil hl) calls
  intro log l' call l'' granted h hs
  have hrun : call.run pool l' = (l'', granted) := Except.ok.inj hs
  have hnext := h.snoc hpool call
  rwa [hrun] at hnext

/-- Two house wallets and a player. -/
def threeWallets : Ledger :=
  ((acct (acct (acct .empty "house1" .bull) "house2" .bull) "player" .bull).add "house1" .bull 3).add "house2" .bull 1

theorem pool_gives_exactly_witness :
    (∀ f, Gives ["house1", "house2"] threeWallets f) ∧
      (∀ call : PoolCall, Confined ["house1", "house2"] call.field threeWallets
        (call.run ["house1", "house2"] threeWallets).1) ∧
      ∀ calls : List PoolCall, Tallies ["house1", "house2"] threeWallets
        ((botBank ["house1", "house2"]).accepted threeWallets calls)
        ((botBank ["house1", "house2"]).run threeWallets calls) := by
  refine pool_gives_exactly (by decide) fun id hid f => ?_
  simp only [List.mem_cons, List.not_mem_nil, or_false] at hid
  rcases hid with rfl | rfl
  · cases f <;> decide +kernel
  · cases f <;> decide +kernel

/-- What is given back to an empty pool is in no total, and a negative amount lowers none. -/
theorem returned_amount_is_not_added :
    poolBalance [] (returnBank [] threeWallets .bull 1) .bull ≠ poolBalance [] threeWallets .bull + 1 ∧
      poolBalance ["house1"] (returnBank ["house1"] threeWallets .bull (-1)) .bull ≠
        poolBalance ["house1"] threeWallets .bull + -1 := by
  constructor
  · decide +kernel
  · decide +kernel

end BullsUnicorns.Engine

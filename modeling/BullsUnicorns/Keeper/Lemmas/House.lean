import BullsUnicorns.Chain.Lemmas.Steps
import BullsUnicorns.Keeper.HouseBank

/-!
# What a plan adds up to

How the sides are shared out, how the entries are placed, and what is free, as counts.
-/

namespace BullsUnicorns.Keeper

open Chain (Pubkey RoundState)

/-! ## Sharing out -/

/-- Each fighter goes onto the smaller side, so no side is ahead by more than the last one placed. -/
theorem allocateFrom_counts (n : ℕ) (filled : SideCounts) :
    (allocateFrom n filled).count .side0 + (allocateFrom n filled).count .side1 = n ∧
      (0 < (allocateFrom n filled).count .side1 →
        filled.side1 + (allocateFrom n filled).count .side1 ≤
          filled.side0 + (allocateFrom n filled).count .side0) ∧
      (0 < (allocateFrom n filled).count .side0 →
        filled.side0 + (allocateFrom n filled).count .side0 ≤
          filled.side1 + (allocateFrom n filled).count .side1 + 1) := by
  induction n generalizing filled with
  | zero => simp [allocateFrom]
  | succ n ih =>
      rw [allocateFrom]
      split
      · have hrest := ih { filled with side1 := filled.side1 + 1 }
        have h0 : (Side.side1 :: allocateFrom n { filled with side1 := filled.side1 + 1 }).count .side0 =
            (allocateFrom n { filled with side1 := filled.side1 + 1 }).count .side0 := by simp
        have h1 : (Side.side1 :: allocateFrom n { filled with side1 := filled.side1 + 1 }).count .side1 =
            (allocateFrom n { filled with side1 := filled.side1 + 1 }).count .side1 + 1 := by simp
        rw [h0, h1]
        dsimp only at hrest
        omega
      · have hrest := ih { filled with side0 := filled.side0 + 1 }
        have h0 : (Side.side0 :: allocateFrom n { filled with side0 := filled.side0 + 1 }).count .side0 =
            (allocateFrom n { filled with side0 := filled.side0 + 1 }).count .side0 + 1 := by simp
        have h1 : (Side.side0 :: allocateFrom n { filled with side0 := filled.side0 + 1 }).count .side1 =
            (allocateFrom n { filled with side0 := filled.side0 + 1 }).count .side1 := by simp
        rw [h0, h1]
        dsimp only at hrest
        omega

/-! ## The target -/

theorem houseFighterCount_bounds (cfg : HouseConfig) (real : SideCounts) (policy : EmptyRoomPolicy) :
    0 ≤ houseFighterCount cfg real policy ∧ houseFighterCount cfg real policy ≤ cfg.walletCount := by
  have hbank := cfg.wallets_bounds.1
  simp only [houseFighterCount, houseMaxWithoutRealPlayer]
  split
  · omega
  · omega

/-! ## Placing -/

theorem placeEntries_wallets (cfg : HouseConfig) (roundNo : ℕ) (ws : List HouseWallet) (left : ℕ)
    (need0 need1 : ℤ) :
    ((placeEntries cfg roundNo ws left need0 need1).map HouseEntry.wallet).Sublist ws := by
  induction ws generalizing left need0 need1 with
  | nil => exact .slnil
  | cons w ws ih =>
      cases left with
      | zero => exact List.nil_sublist _
      | succ left =>
          unfold placeEntries
          dsimp only
          split
          · split
            · exact (ih _ _ _).cons _
            · exact (ih _ _ _).cons_cons _
          · split
            · exact (ih _ _ _).cons _
            · exact (ih _ _ _).cons_cons _

/-- How many of some entries go onto a side. -/
def onSide (entries : List HouseEntry) (side : Side) : ℕ := entries.countP (·.side = side)

theorem onSide_cons (e : HouseEntry) (entries : List HouseEntry) (side : Side) :
    onSide (e :: entries) side = onSide entries side + if e.side = side then 1 else 0 := by
  simp [onSide, List.countP_cons]

theorem onSide_add (entries : List HouseEntry) :
    onSide entries .side0 + onSide entries .side1 = entries.length := by
  induction entries with
  | nil => rfl
  | cons e entries ih =>
      rw [onSide_cons, onSide_cons, List.length_cons, ← ih]
      cases e.side with
      | side0 => simp; omega
      | side1 => simp; omega

/-- The larger deficit is filled first, one entry at a time. -/
structure Placed (need0 need1 : ℤ) (left wallets k0 k1 : ℕ) : Prop where
  all : (k0 + k1 : ℤ) = min (left : ℤ) (min (wallets : ℤ) (max 0 need0 + max 0 need1))
  some0 : (k0 : ℤ) ≤ max 0 need0
  some1 : (k1 : ℤ) ≤ max 0 need1
  even0 : 0 < k0 → need1 - k1 ≤ need0 - k0 + 1
  even1 : 0 < k1 → need0 - k0 ≤ need1 - k1

section
variable {need0 need1 : ℤ} {left wallets k0 k1 : ℕ}

/-- With no entries or no wallets left, or nothing to meet, nothing is placed. -/
theorem Placed.nobody (h : left = 0 ∨ wallets = 0 ∨ need0 ≤ 0 ∧ need1 ≤ 0) :
    Placed need0 need1 left wallets 0 0 := by
  refine ⟨?_, by simp, by simp, fun h0 => absurd h0 (lt_irrefl 0), fun h0 => absurd h0 (lt_irrefl 0)⟩
  rcases h with rfl | rfl | ⟨h0, h1⟩
  · omega
  · omega
  · rw [max_eq_left h0, max_eq_left h1]
    omega

theorem Placed.enter0 (h : Placed (need0 - 1) need1 left wallets k0 k1) (hneed : 0 < need0)
    (hlarger : need1 ≤ need0) : Placed need0 need1 (left + 1) (wallets + 1) (k0 + 1) k1 := by
  obtain ⟨hall, h0, h1, he0, he1⟩ := h
  have hmax : max 0 (need0 - 1) = need0 - 1 := by omega
  have hmax' : max 0 need0 = need0 := by omega
  rw [hmax] at hall h0
  refine ⟨?_, ?_, h1, ?_, ?_⟩
  · rw [hmax', Nat.cast_add, Nat.cast_one, add_right_comm, hall]
    omega
  · rw [hmax']
    omega
  · omega
  · omega

theorem Placed.enter1 (h : Placed need0 (need1 - 1) left wallets k0 k1) (hneed : 0 < need1)
    (hlarger : need0 < need1) : Placed need0 need1 (left + 1) (wallets + 1) k0 (k1 + 1) := by
  obtain ⟨hall, h0, h1, he0, he1⟩ := h
  have hmax : max 0 (need1 - 1) = need1 - 1 := by omega
  have hmax' : max 0 need1 = need1 := by omega
  rw [hmax] at hall h1
  refine ⟨?_, h0, ?_, ?_, ?_⟩
  · rw [hmax', Nat.cast_add, Nat.cast_one, ← add_assoc, hall]
    omega
  · rw [hmax']
    omega
  · omega
  · omega

/-- Nothing is placed on a side that asks for nothing. -/
theorem Placed.skip (h : Placed need0 need1 left wallets k0 k1) (h0 : need0 ≤ 0) (h1 : need1 ≤ 0) :
    Placed need0 need1 left (wallets + 1) k0 k1 := by
  obtain ⟨hall, hsome0, hsome1, -, -⟩ := h
  rw [max_eq_left h0] at hsome0
  rw [max_eq_left h1] at hsome1
  obtain rfl : k0 = 0 := by omega
  obtain rfl : k1 = 0 := by omega
  exact .nobody (.inr (.inr ⟨h0, h1⟩))

end

theorem placeEntries_placed (cfg : HouseConfig) (roundNo : ℕ) (ws : List HouseWallet) (left : ℕ)
    (need0 need1 : ℤ) :
    Placed need0 need1 left ws.length (onSide (placeEntries cfg roundNo ws left need0 need1) .side0)
      (onSide (placeEntries cfg roundNo ws left need0 need1) .side1) := by
  induction ws generalizing left need0 need1 with
  | nil => exact .nobody (.inr (.inl rfl))
  | cons w ws ih =>
      cases left with
      | zero => exact .nobody (.inl rfl)
      | succ left =>
          unfold placeEntries
          dsimp only
          rw [List.length_cons]
          split
          · next hlarger =>
              split
              · next hnone => exact (ih (left + 1) need0 need1).skip hnone (by omega)
              · next hsome =>
                  rw [onSide_cons, onSide_cons]
                  exact (ih left (need0 - 1) need1).enter0 (by omega) hlarger
          · next hlarger =>
              split
              · next hnone => exact (ih (left + 1) need0 need1).skip (by omega) hnone
              · next hsome =>
                  rw [onSide_cons, onSide_cons]
                  exact (ih left need0 (need1 - 1)).enter1 (by omega) (by omega)

/-! ## The bank -/

section
variable {count : ℕ} (bank : HouseBank count) (round : RoundState)

theorem active_pubkeys : bank.active.map HouseWallet.pubkey = bank.bankPubkeys.take count := by
  rw [HouseBank.active, List.map_map]
  exact List.zipIdx_map_fst 0 _

theorem active_length : bank.active.length = count := by
  simp [HouseBank.active, bank.enough]

theorem active_isHouse {w : HouseWallet} (h : w ∈ bank.active) : bank.isHouse w.pubkey = true := by
  have hmem : w.pubkey ∈ bank.bankPubkeys.take count := by
    rw [← active_pubkeys]
    exact List.mem_map_of_mem h
  simpa [HouseBank.isHouse] using List.mem_of_mem_take hmem

theorem rotated_perm (split : FighterSplit) (roundNo : ℕ) :
    (rotated bank split roundNo).Perm (freeWallets bank split) := by
  simp only [rotated]
  generalize (if (List.filter _ bank.active).length > 0 then _ else 0 : ℕ) = offset
  have hsplit := List.take_append_drop offset (freeWallets bank split)
  exact List.perm_append_comm.trans (by rw [freeWallets] at hsplit ⊢; rw [hsplit])

theorem freeWallets_nodup (split : FighterSplit) :
    ((freeWallets bank split).map HouseWallet.pubkey).Nodup := by
  have hactive : (bank.active.map HouseWallet.pubkey).Nodup := by
    rw [active_pubkeys]
    exact bank.distinct.sublist (List.take_sublist _ _)
  exact hactive.sublist (List.Sublist.map _ List.filter_sublist)

/-- Who sits in the round, real or house. -/
theorem classify_counts :
    (bank.classify round).realCount + (bank.classify round).houseCount = (seated round).length ∧
      (bank.classify round).houseIn.length = (bank.classify round).houseCount := by
  simp only [HouseBank.classify, FighterSplit.realCount, FighterSplit.houseCount]
  induction seated round with
  | nil => simp
  | cons f fs ih =>
      simp only [List.countP_cons, List.map_cons, List.filter_cons, List.length_cons]
      cases bank.isHouse f.1 with
      | false =>
          by_cases hs : f.2 = 0
          · simp [hs] at ih ⊢
            omega
          · simp [hs] at ih ⊢
            omega
      | true =>
          by_cases hs : f.2 = 0
          · simp [hs] at ih ⊢
            omega
          · simp [hs] at ih ⊢
            omega

/-- A wallet is taken by a seat only. -/
theorem freeWallets_length :
    count ≤ (freeWallets bank (bank.classify round)).length + (bank.classify round).houseCount := by
  have hsplit := List.length_eq_length_filter_add (l := bank.active)
    fun w => decide (w.pubkey ∉ (bank.classify round).houseIn)
  have htaken : (bank.active.filter fun w => !decide (w.pubkey ∉ (bank.classify round).houseIn)).length ≤
      (bank.classify round).houseIn.length := by
    rw [← List.length_map HouseWallet.pubkey]
    apply List.Subperm.length_le
    apply List.subperm_of_subset
    · have hactive : (bank.active.map HouseWallet.pubkey).Nodup := by
        rw [active_pubkeys]
        exact bank.distinct.sublist (List.take_sublist _ _)
      exact hactive.sublist (List.Sublist.map _ List.filter_sublist)
    · intro key hkey
      obtain ⟨w, hw, rfl⟩ := List.mem_map.mp hkey
      simpa using (List.mem_filter.mp hw).2
  rw [active_length, ← freeWallets] at hsplit
  rw [(classify_counts bank round).2] at htaken
  omega

end

/-! ## Landing -/

/-- Entries that the program takes, one after another, each in an instruction of its own. -/
inductive Lands : RoundState → List HouseEntry → RoundState → Prop where
  | none {r : RoundState} : Lands r [] r
  | enter {r r₁ r₂ : RoundState} {e : HouseEntry} {es : List HouseEntry} {arena : Chain.Arena} {now : ℤ}
      {event : Option Chain.Event}
      (h : Chain.enter r arena now e.wallet.pubkey e.side.byte (.ofNat e.stake) =
        .ok (r₁, event))
      (rest : Lands r₁ es r₂) : Lands r (e :: es) r₂

theorem seated_length {r : RoundState} (hk : r.fighterCount ≤ Chain.maxFighters) :
    (seated r).length = r.fighterCount := by
  simp [seated, hk]

/-- Somebody new takes the next seat. -/
theorem enter_seated {r r' : RoundState} {arena : Chain.Arena} {now : ℤ} {who : Pubkey} {side : UInt8}
    {stake : UInt64} {event : Option Chain.Event}
    (h : Chain.enter r arena now who side stake = .ok (r', event)) (hnew : who ∉ (seated r).map Prod.fst) :
    seated r' = seated r ++ [(who, side)] ∧ r'.fighterCount = r.fighterCount + 1 ∧
      r.fighterCount < Chain.maxFighters := by
  cases @Chain.enter_effect (fun _ => Chain.zeroBytes) _ _ _ _ _ _ _ _ h with
  | topUp ok split live seat pot fees =>
      rename_i i
      have hmem : r.fighters[i] ∈ r.fighters.toList.take r.fighterCount := by
        rw [List.mem_take_iff_getElem]
        exact ⟨i, by simpa using live, by simp⟩
      have hwallet : r.fighters[i].wallet = who := congrArg Prod.fst seat
      refine absurd ?_ hnew
      rw [seated, List.map_map, ← hwallet]
      exact List.mem_map_of_mem (f := Prod.fst ∘ fun f : Chain.Fighter => (f.wallet, f.side)) hmem
  | join ok split fresh pot fees =>
      have hroom := ok.room
      have hlen : r.fighterCount < r.fighters.toList.length := by simpa using hroom
      refine ⟨?_, rfl, hroom⟩
      simp only [seated, Vector.toList_set]
      rw [List.take_succ_eq_append_getElem (by simpa using hroom), List.getElem_set_self,
        List.take_set_of_le (le_refl _), List.map_append]
      rfl

theorem Lands.seated {r r' : RoundState} {es : List HouseEntry} (h : Lands r es r')
    (hdistinct : (es.map fun e => e.wallet.pubkey).Nodup)
    (hnew : ∀ e ∈ es, e.wallet.pubkey ∉ (seated r).map Prod.fst) :
    seated r' = seated r ++ es.map (fun e => (e.wallet.pubkey, e.side.byte)) ∧
      r'.fighterCount = r.fighterCount + es.length ∧
      (r.fighterCount ≤ Chain.maxFighters → r'.fighterCount ≤ Chain.maxFighters) := by
  induction h with
  | none => simp
  | enter h rest ih =>
      rename_i r r₁ r₂ e es arena now event
      obtain ⟨hseat, hcount, hroom⟩ := enter_seated h (hnew e List.mem_cons_self)
      obtain ⟨hfirst, hdistinct⟩ := List.nodup_cons.mp hdistinct
      have hrest : ∀ e' ∈ es, e'.wallet.pubkey ∉ (Keeper.seated r₁).map Prod.fst := by
        intro e' he' hmem
        rw [hseat, List.map_append, List.mem_append] at hmem
        rcases hmem with hmem | hmem
        · exact hnew e' (List.mem_cons_of_mem _ he') hmem
        · rw [List.map_singleton, List.mem_singleton] at hmem
          exact hfirst (List.mem_map.mpr ⟨e', he', hmem⟩)
      obtain ⟨hs, hc, hle⟩ := ih hdistinct hrest
      refine ⟨?_, ?_, ?_⟩
      · rw [hs, hseat, List.map_cons, List.append_assoc, List.singleton_append]
      · rw [hc, hcount, List.length_cons]
        omega
      · intro _
        exact hle (by omega)

/-- The split of a round that some house entries have landed on. -/
theorem classify_landed {count : ℕ} (bank : HouseBank count) {r r' : RoundState} {es : List HouseEntry}
    (hseated : seated r' = seated r ++ es.map fun e => (e.wallet.pubkey, e.side.byte))
    (hhouse : ∀ e ∈ es, bank.isHouse e.wallet.pubkey = true) :
    (bank.classify r').real = (bank.classify r).real ∧
      (bank.classify r').house.side0 = (bank.classify r).house.side0 + onSide es .side0 ∧
      (bank.classify r').house.side1 = (bank.classify r).house.side1 + onSide es .side1 ∧
      (bank.classify r').houseIn = (bank.classify r).houseIn ++ es.map fun e => e.wallet.pubkey := by
  have hreal : ∀ p : UInt8 → Prop, [DecidablePred p] →
      (es.map fun e => (e.wallet.pubkey, e.side.byte)).countP
        (fun f => decide (bank.isHouse f.1 = false ∧ p f.2)) = 0 := by
    intro p _
    rw [List.countP_eq_zero]
    intro f hf
    obtain ⟨e, he, rfl⟩ := List.mem_map.mp hf
    simp [hhouse e he]
  have hside : ∀ e ∈ es, (e.side.byte = 0 ↔ e.side = .side0) ∧ (e.side.byte ≠ 0 ↔ e.side = .side1) := by
    intro e _
    cases e.side with
    | side0 => exact ⟨by decide, by decide⟩
    | side1 => exact ⟨by decide, by decide⟩
  have hhouse0 : (es.map fun e => (e.wallet.pubkey, e.side.byte)).countP
      (fun f => decide (bank.isHouse f.1 = true ∧ f.2 = 0)) = onSide es .side0 := by
    rw [List.countP_map, onSide]
    exact List.countP_congr fun e he => by simp [hhouse e he, (hside e he).1]
  have hhouse1 : (es.map fun e => (e.wallet.pubkey, e.side.byte)).countP
      (fun f => decide (bank.isHouse f.1 = true ∧ f.2 ≠ 0)) = onSide es .side1 := by
    rw [List.countP_map, onSide]
    exact List.countP_congr fun e he => by simpa [hhouse e he] using (hside e he).2
  have hin : ((es.map fun e => (e.wallet.pubkey, e.side.byte)).map Prod.fst).filter bank.isHouse =
      es.map fun e => e.wallet.pubkey := by
    rw [List.map_map]
    refine List.filter_eq_self.mpr fun key hkey => ?_
    obtain ⟨e, he, rfl⟩ := List.mem_map.mp hkey
    exact hhouse e he
  simp only [HouseBank.classify, hseated, List.countP_append, List.map_append, List.filter_append]
  rw [hreal (· = 0), hreal (· ≠ 0), hhouse0, hhouse1, hin]
  exact ⟨rfl, rfl, rfl, rfl⟩

end BullsUnicorns.Keeper

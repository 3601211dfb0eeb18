import BullsUnicorns.Engine.Lemmas.RoundPrices

/-!
# When a round is priced once

A price is found again as long as its round is not forgotten. The flow of a round is never forgotten before
its audit: only open rounds of two teams have any.
-/

namespace BullsUnicorns.Engine

open Battle

variable {s : RoundPrices} {k k' : RoundKey} {f : Field} {feed : Feed}

/-! ## Prices over a run -/

/-- Two calls for a round and field agree once the first has found a price. -/
def PricedOnce (calls : List PriceCall) : Prop :=
  calls.Pairwise fun c d => c.key = d.key → c.field = d.field → 0 < c.price → d.price = c.price

/-- The call forgets no open round that has a price, of a coin whose price can move. -/
def SparesFor (w : PriceWorld) (arena : Arena) : Prop :=
  w.prices.roundPx.get (w.key arena) = none → KEPT_ROUNDS ≤ w.prices.roundPx.entries.length →
    ∀ other m, (w.key other, m) ∈ w.prices.roundPx.entries.take FORGOTTEN_ROUNDS → ∀ f, f ≠ .sol → m f ≤ 0

/-- Only a call for a price, in an arena that is on, can forget a round. -/
def Spares (enabled : Arena → Bool) (w : PriceWorld) : PriceEvent → Prop
  | .price arena _ _ => enabled arena → SparesFor w arena
  | _ => True

/-- What the record of the calls and the map say of each other. -/
structure Priced (enabled : Arena → Bool) (w : PriceWorld) : Prop where
  once : PricedOnce w.calls
  on : ∀ c ∈ w.calls, enabled c.key.1
  sol : ∀ c ∈ w.calls, c.field = .sol → c.price = 1
  solKept : ∀ k m, w.prices.roundPx.get k = some m → m .sol = 0 ∨ m .sol = 1
  past : ∀ c ∈ w.calls, c.key.2 ≤ (w.turn c.key.1).round
  frozen : ∀ c ∈ w.calls, 0 < c.price → c.field ≠ .sol → c.key.2 = (w.turn c.key.1).round →
    ∃ m, w.prices.roundPx.get c.key = some m ∧ m c.field = c.price
  backed : ∀ k m f, w.prices.roundPx.get k = some m → 0 < m f →
    ∃ c ∈ w.calls, c.key = k ∧ c.field = f ∧ c.price = m f

variable {env : RoundEnv} {enabled : Arena → Bool} {w w' : PriceWorld} {arena : Arena}

def PriceWorld.priced (w : PriceWorld) (arena : Arena) (f : Field) (feed : Feed) : PriceWorld :=
  { w with
    prices := (w.prices.pxForRound feed (w.key arena) f).2
    calls := w.calls ++ [⟨w.key arena, f, (w.prices.pxForRound feed (w.key arena) f).1⟩] }

/-- A call for a coin that is its own price. -/
theorem Priced.call_sol (h : Priced enabled w) (feed : Feed) (k : RoundKey) :
    (w.prices.pxForRound feed k .sol).1 = 1 := by
  by_cases hpos : 0 < (w.prices.openPx k).1 .sol
  · cases hget : w.prices.roundPx.get k with
    | some m =>
        rw [RoundPrices.openPx_found hget] at hpos
        rw [RoundPrices.pxForRound_found hget hpos]
        rcases h.solKept k m hget with hzero | hone
        · exact absurd hzero hpos.ne'
        · exact hone
    | none =>
        rw [RoundPrices.openPx_new hget] at hpos
        exact absurd hpos (lt_irrefl 0)
  · rw [(RoundPrices.pxForRound_asked hpos).1]
    exact RoundPrices.usdPerUnitSafe_sol feed _

/-- A call agrees with the calls before it, whatever it forgets. -/
theorem Priced.once_call (h : Priced enabled w) (arena : Arena) (f : Field) (feed : Feed) :
    PricedOnce (w.priced arena f feed).calls := by
  refine List.pairwise_append.mpr ⟨h.once, List.pairwise_singleton _ _, ?_⟩
  intro c hc d hd hkey hfield hpos
  cases List.mem_singleton.mp hd
  change c.key = w.key arena at hkey
  change c.field = f at hfield
  change (w.prices.pxForRound feed (w.key arena) f).1 = c.price
  by_cases hsol : f = .sol
  · rw [h.sol c hc (hfield.trans hsol), hsol]
    exact h.call_sol feed _
  · have hopen : c.key.2 = (w.turn c.key.1).round := by
      rw [hkey]
      rfl
    obtain ⟨m, hget, hm⟩ := h.frozen c hc hpos (hfield ▸ hsol) hopen
    rw [hkey] at hget
    rw [hfield] at hm
    rw [RoundPrices.pxForRound_found hget (hm ▸ hpos)]
    exact hm

theorem Priced.call (h : Priced enabled w) (hon : enabled arena) (f : Field) (feed : Feed)
    (hspares : SparesFor w arena) : Priced enabled (w.priced arena f feed) := by
  have hkept := RoundPrices.pxForRound_kept feed (w.key arena) f w.prices
  have hopenSol : (w.prices.openPx (w.key arena)).1 .sol = 0 ∨ (w.prices.openPx (w.key arena)).1 .sol = 1 := by
    cases hget : w.prices.roundPx.get (w.key arena) with
    | some m =>
        rw [RoundPrices.openPx_found hget]
        exact h.solKept _ m hget
    | none =>
        rw [RoundPrices.openPx_new hget]
        exact .inl rfl
  constructor
  case once => exact h.once_call arena f feed
  case on =>
      intro c hc
      rcases List.mem_append.mp hc with hc | hc
      · exact h.on c hc
      · cases List.mem_singleton.mp hc
        exact hon
  case sol =>
      intro c hc hsol
      rcases List.mem_append.mp hc with hc | hc
      · exact h.sol c hc hsol
      · cases List.mem_singleton.mp hc
        cases hsol
        exact h.call_sol feed _
  case solKept =>
      intro k m hget
      by_cases hk : k = w.key arena
      · rw [hk] at hget
        rw [← Option.some.inj (hkept.symm.trans hget)]
        by_cases hf : f = .sol
        · subst hf
          rw [Function.update_self, h.call_sol feed (w.key arena)]
          exact .inr rfl
        · rw [Function.update_of_ne (Ne.symm hf)]
          exact hopenSol
      · have hold := (RoundPrices.pxForRound_other feed f hk).symm.trans hget
        exact h.solKept k m (RoundPrices.of_openPx hk hold)
  case past =>
      intro c hc
      rcases List.mem_append.mp hc with hc | hc
      · exact h.past c hc
      · cases List.mem_singleton.mp hc
        exact le_refl _
  case frozen =>
      intro c hc hpos hsol hopen
      rcases List.mem_append.mp hc with hc | hc
      · obtain ⟨m, hget, hm⟩ := h.frozen c hc hpos hsol hopen
        by_cases hk : c.key = w.key arena
        · rw [hk] at hget ⊢
          refine ⟨_, hkept, ?_⟩
          by_cases hf : c.field = f
          · rw [hf, Function.update_self, ← hm, hf]
            rw [RoundPrices.pxForRound_found hget (by rw [← hf, hm]; exact hpos)]
          · rw [Function.update_of_ne hf, RoundPrices.openPx_found hget]
            exact hm
        · refine ⟨m, (RoundPrices.pxForRound_other feed f hk).trans (RoundPrices.openPx_spared hget ?_), hm⟩
          intro hnew hfull hmem
          have hkey : c.key = w.key c.key.1 := Prod.ext rfl hopen
          rw [hkey] at hmem
          have hle := hspares hnew hfull c.key.1 m hmem c.field hsol
          rw [hm] at hle
          exact absurd hpos (not_lt.mpr hle)
      · cases List.mem_singleton.mp hc
        exact ⟨_, hkept, Function.update_self _ _ _⟩
  case backed =>
      intro k m f' hget hpos
      by_cases hk : k = w.key arena
      · rw [hk] at hget
        rw [← Option.some.inj (hkept.symm.trans hget)] at hpos ⊢
        by_cases hf : f' = f
        · refine ⟨_, List.mem_append_right _ (List.mem_singleton_self _), hk.symm, hf.symm, ?_⟩
          rw [hf, Function.update_self]
        · rw [Function.update_of_ne hf] at hpos ⊢
          cases hold : w.prices.roundPx.get (w.key arena) with
          | some m₀ =>
              rw [RoundPrices.openPx_found hold] at hpos ⊢
              obtain ⟨c, hc, hckey, hcf, hprice⟩ := h.backed _ m₀ f' hold hpos
              exact ⟨c, List.mem_append_left _ hc, hckey.trans hk.symm, hcf, hprice⟩
          | none =>
              rw [RoundPrices.openPx_new hold] at hpos
              exact absurd hpos (lt_irrefl 0)
      · have hold := (RoundPrices.pxForRound_other feed f hk).symm.trans hget
        obtain ⟨c, hc, hcall⟩ := h.backed k m f' (RoundPrices.of_openPx hk hold) hpos
        exact ⟨c, List.mem_append_left _ hc, hcall⟩

/-- Nothing else changes a price, and a round that has passed does not come back. -/
theorem Priced.later (h : Priced enabled w) (hpx : w'.prices.roundPx = w.prices.roundPx) (hcalls : w'.calls = w.calls)
    (hround : ∀ arena, (w.turn arena).round ≤ (w'.turn arena).round) : Priced enabled w' := by
  constructor
  case once =>
      rw [hcalls]
      exact h.once
  case on =>
      rw [hcalls]
      exact h.on
  case sol =>
      rw [hcalls]
      exact h.sol
  case solKept =>
      rw [hpx]
      exact h.solKept
  case past =>
      rw [hcalls]
      intro c hc
      exact (h.past c hc).trans (hround c.key.1)
  case frozen =>
      rw [hcalls, hpx]
      intro c hc hpos hsol hopen
      have hpast := h.past c hc
      have hnow : c.key.2 = (w.turn c.key.1).round := le_antisymm hpast (hopen ▸ hround c.key.1)
      exact h.frozen c hc hpos hsol hnow
  case backed =>
      rw [hcalls, hpx]
      exact h.backed

theorem Priced.boot (round : Arena → ℕ) (now : ℚ) : Priced enabled (PriceWorld.boot env round now) := by
  constructor
  case once => exact List.Pairwise.nil
  case on => simp [PriceWorld.boot]
  case sol => simp [PriceWorld.boot]
  case solKept => simp [PriceWorld.boot, RoundPrices.empty]
  case past => simp [PriceWorld.boot]
  case frozen => simp [PriceWorld.boot]
  case backed => simp [PriceWorld.boot, RoundPrices.empty]

/-- What an accepted event does: a call for a price, or nothing to the prices. -/
theorem price_step {e : PriceEvent} {o : Unit} (hstep : (priceRounds env enabled).step w e = .ok (w', o)) :
    (∃ arena f feed, e = .price arena f feed ∧ enabled arena ∧ w' = w.priced arena f feed) ∨
      (w'.prices.roundPx = w.prices.roundPx ∧ w'.calls = w.calls ∧
        ∀ arena, (w.turn arena).round ≤ (w'.turn arena).round) := by
  change (if e.arena.all enabled then w.step env e else .error ()) = .ok (w', o) at hstep
  split at hstep
  case isFalse => cases hstep
  next hon =>
  cases e with
  | price arena f feed =>
      cases hstep
      exact .inl ⟨arena, f, feed, rfl, hon, rfl⟩
  | quote f feed =>
      cases hstep
      exact .inr ⟨(RoundPrices.usdPerUnitSafe_maps feed f w.prices).1, rfl, fun arena => le_refl _⟩
  | flow aid f out into fee =>
      cases hstep
      refine .inr ⟨?_, rfl, fun arena => le_refl _⟩
      simp only [RoundPrices.flow]
      split
      · rfl
      · rfl
  | battle arena now endTick =>
      simp only [PriceWorld.step] at hstep
      split at hstep
      case isFalse => cases hstep
      cases hstep
      refine .inr ⟨rfl, rfl, fun other => ?_⟩
      by_cases hother : other = arena
      · rw [hother]
        simp
      · simp [Function.update_of_ne hother]
  | settle arena now =>
      simp only [PriceWorld.step] at hstep
      split at hstep
      case isFalse => cases hstep
      cases hstep
      refine .inr ⟨?_, rfl, fun other => ?_⟩
      · cases arena with
        | two aid =>
            simp only [PriceWorld.settled, RoundPrices.auditRound]
            split
            · rfl
            · rfl
        | many aid => rfl
      · by_cases hother : other = arena
        · rw [hother]
          simp [PriceWorld.settled]
        · simp [PriceWorld.settled, Function.update_of_ne hother]

theorem Priced.step {e : PriceEvent} {o : Unit} (h : Priced enabled w) (hspares : Spares enabled w e)
    (hstep : (priceRounds env enabled).step w e = .ok (w', o)) : Priced enabled w' := by
  rcases price_step hstep with ⟨arena, f, feed, rfl, hon, rfl⟩ | ⟨hpx, hcalls, hround⟩
  · exact h.call hon f feed (hspares hon)
  · exact h.later hpx hcalls hround

theorem Priced.run (round : Arena → ℕ) (now : ℚ) (events : List PriceEvent)
    (hspares : (priceRounds env enabled).Each (Spares enabled) (PriceWorld.boot env round now) events) :
    Priced enabled ((priceRounds env enabled).run (PriceWorld.boot env round now) events) :=
  Machine.run_history_when (H := fun _ w => Priced enabled w)
    (fun _ _ _ _ _ hP h hstep => h.step hP hstep) (h := []) (Priced.boot round now) events hspares

/-! ## What a lost price does -/

theorem run_two (w : PriceWorld) (e e' : PriceEvent) : (priceRounds env enabled).run w [e, e'] =
    (priceRounds env enabled).attempt ((priceRounds env enabled).attempt w e) e' := rfl

theorem attempt_price (hon : enabled arena) (f : Field) (feed : Feed) :
    (priceRounds env enabled).attempt w (.price arena f feed) = w.priced arena f feed := by
  apply Machine.attempt_ok (o := ())
  exact if_pos hon

/-- A call that forgets the price of an open round is found out by a call for that price at a moved feed. -/
theorem Priced.forgotten (env : RoundEnv) (h : Priced enabled w) (hon : enabled arena) (f : Field) (feed : Feed)
    (hforgets : ¬ SparesFor w arena) : ∃ other f' feed',
      ¬ PricedOnce ((priceRounds env enabled).run w [.price arena f feed, .price other f' feed']).calls := by
  unfold SparesFor at hforgets
  push Not at hforgets
  obtain ⟨hnew, hfull, other, m, hmem, f', hsol, hpos⟩ := hforgets
  have hget : w.prices.roundPx.get (w.key other) = some m := OrderedMap.get_eq_some.mpr (List.mem_of_mem_take hmem)
  have hne : w.key other ≠ w.key arena := by
    intro heq
    rw [heq, hnew] at hget
    cases hget
  obtain ⟨c, hc, hckey, hcf, hprice⟩ := h.backed _ m f' hget hpos
  have hother : enabled other := by
    have hon' := h.on c hc
    rwa [hckey] at hon'
  -- the record is made again, and the feed has moved by one
  have hlost : ((w.priced arena f feed).prices.roundPx).get (w.key other) = none :=
    (RoundPrices.pxForRound_other feed f hne).trans (RoundPrices.openPx_forgets hnew hfull hmem)
  have hzero : ¬ 0 < (((w.priced arena f feed).prices.openPx (w.key other)).1 f' : ℚ) := by
    rw [RoundPrices.openPx_new hlost]
    exact lt_irrefl 0
  have hmoved : ((w.priced arena f feed).prices.pxForRound (fun _ => m f' + 1) (w.key other) f').1 = m f' + 1 := by
    rw [(RoundPrices.pxForRound_asked hzero).1]
    exact RoundPrices.usdPerUnitSafe_feed hsol (add_pos hpos one_pos)
  refine ⟨other, f', fun _ => m f' + 1, fun honce => ?_⟩
  rw [run_two, attempt_price hon, attempt_price hother] at honce
  have hagree := (List.pairwise_append.mp honce).2.2 c (List.mem_append_left _ hc) _ (List.mem_singleton_self _)
    hckey hcf (hprice ▸ hpos)
  change ((w.priced arena f feed).prices.pxForRound (fun _ => m f' + 1) (w.key other) f').1 = c.price at hagree
  rw [hmoved, hprice] at hagree
  linarith

/-- An event spares the open rounds exactly if no call after it can disagree with an earlier one. -/
theorem Priced.spares_iff (h : Priced enabled w) (e : PriceEvent) : Spares enabled w e ↔
    ∀ arena f feed, PricedOnce ((priceRounds env enabled).run w [e, .price arena f feed]).calls := by
  constructor
  case mp =>
      intro hspares arena f feed
      have hnext : Priced enabled ((priceRounds env enabled).attempt w e) := by
        cases hstep : (priceRounds env enabled).step w e with
        | ok r =>
            rcases r with ⟨w', o⟩
            rw [Machine.attempt_ok hstep]
            exact h.step hspares hstep
        | error x =>
            rw [Machine.attempt_error hstep]
            exact h
      rw [run_two]
      by_cases hon : enabled arena
      · rw [attempt_price hon]
        exact hnext.once_call arena f feed
      · rw [Machine.attempt_error (e := ()) (if_neg hon)]
        exact hnext.once
  case mpr =>
      intro honce
      cases e with
      | price arena f feed =>
          intro hon
          by_contra hforgets
          obtain ⟨other, f', feed', hdiffer⟩ := h.forgotten env hon f feed hforgets
          exact hdiffer (honce other f' feed')
      | quote f feed => trivial
      | flow aid f out into fee => trivial
      | battle arena now endTick => trivial
      | settle arena now => trivial

/-! ## The flow of the open rounds -/

theorem RoundPrices.flow_get (g : FlowTally → FlowTally) (k k' : RoundKey) (f : Field) (hshort : s.roundFlow.entries.length < KEPT_ROUNDS) :
    (s.flow k f g).roundFlow.get k' =
      if k' = k then
        some (Function.update ((s.roundFlow.get k).getD fun _ => .zero) f
          (g ((s.roundFlow.get k).getD (fun _ => .zero) f)))
      else s.roundFlow.get k' := by
  rw [RoundPrices.flow]
  cases hget : s.roundFlow.get k with
  | some m => exact OrderedMap.get_set
  | none =>
      dsimp only
      rw [OrderedMap.get_set]
      by_cases hk : k' = k
      · rw [if_pos hk, if_pos hk]
        rfl
      · rw [if_neg hk, if_neg hk]
        cases hold : s.roundFlow.get k' with
        | some m =>
            exact OrderedMap.get_setBounded_of_kept hget (by decide) hold fun hfull => absurd hshort (not_lt.mpr hfull)
        | none =>
            rw [Option.eq_none_iff_forall_ne_some]
            intro m hm
            rw [OrderedMap.of_get_setBounded hget (by decide) hk hm] at hold
            cases hold

/-- Only open rounds have a flow, and it is what was recorded. -/
structure Tallied (w : PriceWorld) : Prop where
  kept : ∀ arena, w.prices.roundFlow.get (w.key arena) = w.recorded arena
  live : ∀ k m, w.prices.roundFlow.get k = some m → ∃ arena, k = w.key arena
  two : ∀ aid, w.recorded (.many aid) = none

theorem PriceWorld.key_inj {a b : Arena} (h : w.key a = w.key b) : a = b := congrArg Prod.fst h

/-- What the open rounds have recorded, each under its key. -/
def PriceWorld.openFlow (w : PriceWorld) : List (RoundKey × (Field → FlowTally)) :=
  allArenas.filterMap fun arena => (w.recorded arena).map fun m => (w.key arena, m)

theorem Tallied.perm (h : Tallied w) : w.prices.roundFlow.entries.Perm w.openFlow := by
  have hkeyed : w.prices.roundFlow.entries.Nodup := List.Nodup.of_map _ w.prices.roundFlow.keyed
  have hopen : w.openFlow.Nodup := by
    refine List.Nodup.filterMap ?_ allArenas_nodup
    intro a b e ha hb
    obtain ⟨m, -, rfl⟩ := Option.map_eq_some_iff.mp ha
    obtain ⟨m', -, he⟩ := Option.map_eq_some_iff.mp hb
    exact PriceWorld.key_inj (congrArg Prod.fst he).symm
  refine (List.perm_ext_iff_of_nodup hkeyed hopen).mpr fun ⟨k, m⟩ => ?_
  rw [← OrderedMap.get_eq_some]
  constructor
  case mp =>
      intro hget
      obtain ⟨arena, rfl⟩ := h.live k m hget
      rw [h.kept arena] at hget
      exact List.mem_filterMap.mpr ⟨arena, mem_allArenas arena, by rw [hget]; rfl⟩
  case mpr =>
      intro hmem
      obtain ⟨arena, -, hrec⟩ := List.mem_filterMap.mp hmem
      obtain ⟨m', hm', heq⟩ := Option.map_eq_some_iff.mp hrec
      cases heq
      rw [h.kept arena, hm']

/-- Far fewer rounds are open than the map keeps. -/
theorem Tallied.short (h : Tallied w) : w.prices.roundFlow.entries.length < KEPT_ROUNDS := by
  rw [h.perm.length_eq]
  calc w.openFlow.length ≤ allArenas.length := List.length_filterMap_le _ _
    _ < KEPT_ROUNDS := by decide

theorem Tallied.same (h : Tallied w) (hflow : w'.prices.roundFlow = w.prices.roundFlow)
    (hrec : w'.recorded = w.recorded) (hkey : ∀ arena, w'.key arena = w.key arena) : Tallied w' := by
  constructor
  case kept =>
      intro arena
      rw [hflow, hrec, hkey]
      exact h.kept arena
  case live =>
      intro k m hget
      rw [hflow] at hget
      obtain ⟨arena, rfl⟩ := h.live k m hget
      exact ⟨arena, (hkey arena).symm⟩
  case two =>
      rw [hrec]
      exact h.two

theorem Tallied.boot (round : Arena → ℕ) (now : ℚ) : Tallied (PriceWorld.boot env round now) := by
  constructor
  case kept => simp [PriceWorld.boot, RoundPrices.empty]
  case live => simp [PriceWorld.boot, RoundPrices.empty]
  case two => simp [PriceWorld.boot]

theorem Tallied.flow (h : Tallied w) (aid : ArenaId) (f : Field) (g : FlowTally → FlowTally) :
    let m := (w.recorded (.two aid)).getD fun _ => .zero
    Tallied { w with
      prices := w.prices.flow (w.key (.two aid)) f g
      recorded := Function.update w.recorded (.two aid) (some (Function.update m f (g (m f)))) } := by
  have hget (k : RoundKey) := RoundPrices.flow_get g (w.key (.two aid)) k f h.short
  constructor
  case kept =>
      intro arena
      change (w.prices.flow _ f g).roundFlow.get (w.key arena) = _
      rw [hget]
      by_cases harena : arena = .two aid
      · rw [harena, if_pos rfl, h.kept]
        simp
      · rw [if_neg fun heq => harena (PriceWorld.key_inj heq), h.kept]
        simp [Function.update_of_ne harena]
  case live =>
      intro k m hm
      change (w.prices.flow _ f g).roundFlow.get k = some m at hm
      rw [hget] at hm
      by_cases hk : k = w.key (.two aid)
      · exact ⟨.two aid, hk⟩
      · rw [if_neg hk] at hm
        exact h.live k m hm
  case two =>
      intro other
      have hne : Arena.many other ≠ .two aid := by simp
      dsimp only
      rw [Function.update_of_ne hne]
      exact h.two other

theorem Tallied.settled (h : Tallied w) (arena : Arena) (now : ℚ) : Tallied (w.settled env arena now) := by
  -- the round that has ended has no flow after its audit
  have hget (k : RoundKey) : (w.settled env arena now).prices.roundFlow.get k =
      if k = w.key arena then none else w.prices.roundFlow.get k := by
    cases arena with
    | two aid =>
        cases hold : w.prices.roundFlow.get (w.key (.two aid)) with
        | some m => simp only [PriceWorld.settled, RoundPrices.auditRound, hold, OrderedMap.get_delete]
        | none =>
            simp only [PriceWorld.settled, RoundPrices.auditRound, hold]
            split
            · next hk => rw [hk, hold]
            · rfl
    | many aid =>
        simp only [PriceWorld.settled]
        split
        · next hk => rw [hk, h.kept, h.two]
        · rfl
  have hother (other : Arena) (hne : other ≠ arena) : (w.settled env arena now).key other = w.key other := by
    simp [PriceWorld.key, PriceWorld.settled, Function.update_of_ne hne]
  have hnext : (w.settled env arena now).key arena = (arena, (w.turn arena).round + 1) := by
    simp [PriceWorld.key, PriceWorld.settled]
  constructor
  case kept =>
      intro other
      rw [hget]
      by_cases hne : other = arena
      · rw [hne, hnext]
        have hnone : w.prices.roundFlow.get (arena, (w.turn arena).round + 1) = none := by
          rw [Option.eq_none_iff_forall_ne_some]
          intro m hm
          obtain ⟨a, ha⟩ := h.live _ m hm
          have harena : arena = a := congrArg Prod.fst ha
          have hround := congrArg Prod.snd ha
          rw [← harena] at hround
          exact absurd hround (Nat.succ_ne_self _)
        rw [hnone, ite_self]
        simp [PriceWorld.settled]
      · rw [hother other hne, if_neg fun heq => hne (PriceWorld.key_inj heq), h.kept]
        simp [PriceWorld.settled, Function.update_of_ne hne]
  case live =>
      intro k m hm
      rw [hget] at hm
      by_cases hk : k = w.key arena
      · rw [if_pos hk] at hm
        cases hm
      · rw [if_neg hk] at hm
        obtain ⟨a, rfl⟩ := h.live k m hm
        exact ⟨a, (hother a fun heq => hk (heq ▸ rfl)).symm⟩
  case two =>
      intro aid
      by_cases heq : Arena.many aid = arena
      · rw [← heq]
        simp [PriceWorld.settled]
      · simp [PriceWorld.settled, Function.update_of_ne heq, h.two]

theorem Tallied.step {e : PriceEvent} {o : Unit} (h : Tallied w)
    (hstep : (priceRounds env enabled).step w e = .ok (w', o)) : Tallied w' := by
  change (if e.arena.all enabled then w.step env e else .error ()) = .ok (w', o) at hstep
  split at hstep
  case isFalse => cases hstep
  cases e with
  | price arena f feed =>
      cases hstep
      exact h.same (RoundPrices.pxForRound_flow _ _ _ _) rfl fun _ => rfl
  | quote f feed =>
      cases hstep
      exact h.same (RoundPrices.usdPerUnitSafe_maps feed f w.prices).2 rfl fun _ => rfl
  | flow aid f out into fee =>
      cases hstep
      exact h.flow aid f _
  | battle arena now endTick =>
      simp only [PriceWorld.step] at hstep
      split at hstep
      case isFalse => cases hstep
      cases hstep
      refine h.same rfl rfl fun other => ?_
      by_cases hother : other = arena
      · rw [hother]
        simp [PriceWorld.key]
      · simp [PriceWorld.key, Function.update_of_ne hother]
  | settle arena now =>
      simp only [PriceWorld.step] at hstep
      split at hstep
      case isFalse => cases hstep
      cases hstep
      exact h.settled arena now

theorem Tallied.run (env : RoundEnv) (enabled : Arena → Bool) (round : Arena → ℕ) (now : ℚ) (events : List PriceEvent) :
    Tallied ((priceRounds env enabled).run (PriceWorld.boot env round now) events) :=
  Machine.run_invariant (fun _ _ _ _ h hstep => h.step hstep) (Tallied.boot round now) events

/-- Tokens of a field that the open rounds have recorded as staked and not returned. -/
def PriceWorld.staked (w : PriceWorld) (f : Field) : ℚ :=
  ((allArenas.filterMap w.recorded).map fun m => max 0 ((m f).out - (m f).into)).sum

theorem Tallied.openStakes (h : Tallied w) (f : Field) : w.prices.openStakes f = w.staked f := by
  have hvalues : w.prices.roundFlow.values.Perm (allArenas.filterMap w.recorded) := by
    have hmap := h.perm.map Prod.snd
    rw [PriceWorld.openFlow, List.map_filterMap] at hmap
    simpa [OrderedMap.values] using hmap
  exact (hvalues.map _).sum_eq

theorem Tallied.auditRound (h : Tallied w) (arena : Arena) :
    (w.prices.auditRound (w.key arena)).1 = w.recorded arena := by
  rw [← h.kept arena, RoundPrices.auditRound]
  split
  · next hnone => exact hnone.symm
  · next m hsome => exact hsome.symm

/-! ## A round of long battles among rounds of short ones -/

/-- A coin of the arena. -/
def firstCoin : Arena → Field
  | .two aid => slotField aid .bull
  | .many aid => FIELD (aid.toks.headD .ansem)

/-- The given arenas price a round each, and play it in ten seconds from a time on. -/
def quickRounds (arenas : List Arena) (feed : Feed) (t : ℚ) : List PriceEvent :=
  (arenas.map fun arena => .price arena (firstCoin arena) feed) ++
    (arenas.map fun arena => .battle arena (t + 9000) 0) ++ arenas.map fun arena => .settle arena (t + 10000)

/-- The arena of the long battle. -/
def slowArena : Arena := .two ⟨.au, .normal⟩

def otherArenas : List Arena := allArenas.filter (· ≠ slowArena)

def longBattle : List PriceEvent :=
  quickRounds allArenas (fun _ => 1) 0 ++ quickRounds allArenas (fun _ => 1) 10000 ++
    (.price slowArena .bull fun _ => 1) :: (otherArenas.map fun arena => .price arena (firstCoin arena) fun _ => 1) ++
    (.battle slowArena 29000 800) :: (otherArenas.map fun arena => .battle arena 29000 0) ++
    (otherArenas.map fun arena => .settle arena 30000) ++
    quickRounds otherArenas (fun _ => 1) 30000 ++ quickRounds otherArenas (fun _ => 1) 40000 ++
    quickRounds otherArenas (fun _ => 1) 50000 ++
    (otherArenas.map fun arena => .price arena (firstCoin arena) fun _ => 1) ++ [.price slowArena .bull fun _ => 2]

def usualLengths : RoundEnv where
  LOBBY_MS := 9000
  BATTLE_MS := 40000
  toText _ := ""

def afterLongBattle : PriceWorld :=
  (priceRounds usualLengths fun _ => true).run (PriceWorld.boot usualLengths (fun _ => 1) 0) longBattle

theorem afterLongBattle_spec : (afterLongBattle.turn slowArena).phase = .battle ∧
    (afterLongBattle.turn slowArena).round = 3 ∧ afterLongBattle.calls.filter (fun c => c.key = (slowArena, 3)) =
      [⟨(slowArena, 3), .bull, 1⟩, ⟨(slowArena, 3), .bull, 2⟩] := by
  decide +kernel

/-- A round of the arena of a long battle is priced twice. -/
theorem open_round_priced_twice : (afterLongBattle.turn slowArena).phase = .battle ∧
    (afterLongBattle.turn slowArena).round = 3 ∧ ¬ PricedOnce afterLongBattle.calls := by
  obtain ⟨hphase, hround, hcalls⟩ := afterLongBattle_spec
  refine ⟨hphase, hround, fun honce => ?_⟩
  have hround := honce.filter fun c => decide (c.key = (slowArena, 3))
  rw [hcalls] at hround
  have hagree := List.rel_of_pairwise_cons hround (List.mem_singleton_self _) rfl rfl one_pos
  norm_num at hagree

/-! ## Every run -/

/-- The prices hold, with whatever call comes next, as long as no call forgets an open round with a price; the
flow of an open round is always found. -/
theorem priced_once_iff_spared (env : RoundEnv) (enabled : Arena → Bool) (round : Arena → ℕ) (now : ℚ)
    (events : List PriceEvent) :
    let m := priceRounds env enabled
    let start := PriceWorld.boot env round now
    let w := m.run start events
    (m.Each (Spares enabled) start events ↔
      m.Each (fun w e => ∀ arena f feed, PricedOnce (m.run w [e, .price arena f feed]).calls) start events) ∧
    (m.Each (Spares enabled) start events → PricedOnce w.calls) ∧
    ∀ arena, (w.prices.auditRound (w.key arena)).1 = w.recorded arena ∧
      ∀ f, w.prices.openStakes f = w.staked f := by
  dsimp only
  refine ⟨?_, fun hspares => (Priced.run round now events hspares).once, fun arena => ?_⟩
  · exact Machine.each_congr (I := Priced enabled) (fun w e h => h.spares_iff e)
      (fun w e w' o h hspares hstep => h.step hspares hstep) (Priced.boot round now) events
  · have htallied := Tallied.run env enabled round now events
    exact ⟨htallied.auditRound arena, htallied.openStakes⟩

end BullsUnicorns.Engine

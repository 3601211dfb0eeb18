import BullsUnicorns.Engine.Lemmas.Acts

/-!
# What an act does to the books

An act leaves every account in place, under its id and with its record, and the sum over any part of the
ledger that holds the house changes by what the record says. Both compose, so a chain of acts does the same.
-/

namespace BullsUnicorns.Engine

open Battle

/-- What the record says has moved in a part of the ledger. -/
def moved (w : Part) (flows : List Flow) (f : Field) : ℚ :=
  (flows.map fun flow => if flow.field = f ∧ w flow.account flow.isBot then flow.amount else 0).sum

@[simp]
theorem moved_append (w : Part) (flows new : List Flow) (f : Field) :
    moved w (flows ++ new) f = moved w flows f + moved w new f := by
  simp [moved]

/-- An id that the engine gives out. -/
def Born (id : String) : Prop := id = TREASURY_ID ∨ ∃ arena : Arena, ∃ n, id = botId arena.text n

/-- What every act does, whatever else is in the ledger. The accounts in `dead` may be retired. -/
structure Held (dead : String → Prop) (e e' : State) : Prop where
  nonneg : e.ledger.Nonneg → e'.ledger.Nonneg
  keyed : Keyed e.ledger → Keyed e'.ledger
  lasts : ∀ id a, e.ledger.get id = some a → ∃ a', e'.ledger.get id = some a' ∧ (a.isBot = true → a'.isBot = true) ∧
    (a.retired = false → ¬dead id → a'.retired = false)
  bots : ∀ id a', e'.ledger.get id = some a' → a'.isBot = true → (∃ a, e.ledger.get id = some a ∧ a.isBot = true) ∨ Born id
  retirees : ∀ id a', e'.ledger.get id = some a' → a'.retired = true →
    (∃ a, e.ledger.get id = some a ∧ a.retired = true) ∨ dead id

/-- What every act does that replaces no account. -/
structure Booked (pool : List String) (dead : String → Prop) (e e' : State) : Prop extends Held dead e e' where
  continues : ∀ id a, e.ledger.get id = some a → ∃ a', e'.ledger.get id = some a' ∧ a.Continues a' ∧ a'.isBot = a.isBot
  total : PoolReady pool e.ledger → ∀ w : Part, (∀ id b, house pool id b = true → w id b = true) → ∀ f,
    total w e'.ledger f - moved w e'.flows f = total w e.ledger f - moved w e.flows f

def nobody : String → Prop := fun _ => False

section
variable {pool : List String} {dead dead' : String → Prop} {e e' e'' : State} {id : String} {a : Account}

theorem Held.trans (h : Held dead e e') (h' : Held dead' e' e'') : Held (fun id => dead id ∨ dead' id) e e'' where
  nonneg := fun hl => h'.nonneg (h.nonneg hl)
  keyed := fun hl => h'.keyed (h.keyed hl)
  lasts := by
    intro id a ha
    obtain ⟨a', ha', hb, hr⟩ := h.lasts id a ha
    obtain ⟨a'', ha'', hb', hr'⟩ := h'.lasts id a' ha'
    exact ⟨a'', ha'', fun hbot => hb' (hb hbot),
      fun hret hdead => hr' (hr hret fun hd => hdead (Or.inl hd)) fun hd => hdead (Or.inr hd)⟩
  bots := by
    intro id a'' ha'' hb
    rcases h'.bots id a'' ha'' hb with ⟨a', ha', hb'⟩ | hborn
    · exact h.bots id a' ha' hb'
    · exact Or.inr hborn
  retirees := by
    intro id a'' ha'' hr
    rcases h'.retirees id a'' ha'' hr with ⟨a', ha', hr'⟩ | hdead
    · exact (h.retirees id a' ha' hr').imp_right Or.inl
    · exact Or.inr (Or.inr hdead)

theorem Held.mono (h : Held dead e e') (hd : ∀ id, dead id → dead' id) : Held dead' e e' where
  nonneg := h.nonneg
  keyed := h.keyed
  lasts := by
    intro id a ha
    obtain ⟨a', ha', hb, hr⟩ := h.lasts id a ha
    exact ⟨a', ha', hb, fun hret hdead => hr hret fun hd' => hdead (hd id hd')⟩
  bots := h.bots
  retirees := fun id a' ha' hr => (h.retirees id a' ha' hr).imp_right (hd id)

theorem Booked.ready (h : Booked pool dead e e') (hp : PoolReady pool e.ledger) : PoolReady pool e'.ledger := by
  obtain ⟨id, hid, hget⟩ := hp
  obtain ⟨a, ha⟩ := Option.isSome_iff_exists.mp hget
  obtain ⟨a', ha', -⟩ := h.continues id a ha
  exact ⟨id, hid, by simp [ha']⟩

theorem Booked.trans (h : Booked pool dead e e') (h' : Booked pool dead' e' e'') :
    Booked pool (fun id => dead id ∨ dead' id) e e'' where
  toHeld := h.toHeld.trans h'.toHeld
  continues := by
    intro id a ha
    obtain ⟨a', ha', hc, hb⟩ := h.continues id a ha
    obtain ⟨a'', ha'', hc', hb'⟩ := h'.continues id a' ha'
    exact ⟨a'', ha'', hc.trans hc', hb'.trans hb⟩
  total := fun hp w hw f => (h'.total (h.ready hp) w hw f).trans (h.total hp w hw f)

theorem Booked.mono (h : Booked pool dead e e') (hd : ∀ id, dead id → dead' id) : Booked pool dead' e e' :=
  ⟨h.toHeld.mono hd, h.continues, h.total⟩

/-- Two parts of one act, none of which retires anybody. -/
theorem Booked.and (h : Booked pool nobody e e') (h' : Booked pool nobody e' e'') : Booked pool nobody e e'' :=
  (h.trans h').mono fun _ hd => hd.elim (fun hf => hf) fun hf => hf

/-- The ledger and the record are as they were. -/
theorem Booked.of_eq (hl : e'.ledger = e.ledger) (hf : e'.flows = e.flows) : Booked pool nobody e e' where
  nonneg := fun h => hl ▸ h
  keyed := fun h => hl ▸ h
  lasts := fun id a ha => ⟨a, hl ▸ ha, fun h => h, fun h _ => h⟩
  bots := fun id a ha hb => Or.inl ⟨a, hl ▸ ha, hb⟩
  retirees := fun id a ha hr => Or.inl ⟨a, hl ▸ ha, hr⟩
  continues := fun id a ha => ⟨a, hl ▸ ha, .refl a, rfl⟩
  total := fun _ w _ f => by rw [hl, hf]

/-! ## The small steps -/

theorem Account.Continues.of_skeleton {a' : Account} (h : a'.skeleton = a.skeleton) :
    a.Continues a' ∧ a'.isBot = a.isBot ∧ a'.retired = a.retired := by
  have hid : a'.skeleton.id = a.skeleton.id := congrArg Account.id h
  have hbot : a'.skeleton.isBot = a.skeleton.isBot := congrArg Account.isBot h
  have hret : a'.skeleton.retired = a.skeleton.retired := congrArg Account.retired h
  have hgames : a'.skeleton.games = a.skeleton.games := congrArg Account.games h
  have hdep : a'.skeleton.dep = a.skeleton.dep := congrArg Account.dep h
  have hborn : (a'.skeleton.temper, a'.skeleton.skip, a'.skeleton.nteam) =
      (a.skeleton.temper, a.skeleton.skip, a.skeleton.nteam) := congrArg (fun a => (a.temper, a.skip, a.nteam)) h
  exact ⟨⟨hid, hborn, fun hb => hbot.trans hb, fun hr => hret.trans hr, hgames.ge, hdep.ge⟩, hbot, hret⟩

/-- Balances change and nothing else: what is left to show is about the balances. -/
theorem Booked.of_same (hs : e.ledger.Same e'.ledger) (hn : e.ledger.Nonneg → e'.ledger.Nonneg)
    (ht : PoolReady pool e.ledger → ∀ w : Part, (∀ id b, house pool id b = true → w id b = true) → ∀ f,
      Engine.total w e'.ledger f - moved w e'.flows f = Engine.total w e.ledger f - moved w e.flows f) :
    Booked pool nobody e e' where
  nonneg := hn
  keyed := by
    intro hk id a' ha'
    obtain ⟨a, ha, he⟩ := hs.symm.get ha'
    rw [← hk id a ha]
    exact (Account.Continues.of_skeleton he).1.id.symm
  lasts := by
    intro id a ha
    obtain ⟨a', ha', he⟩ := hs.get ha
    obtain ⟨hc, hb, hr⟩ := Account.Continues.of_skeleton he
    exact ⟨a', ha', fun h => hb.trans h, fun h _ => hr.trans h⟩
  bots := by
    intro id a' ha' hb
    obtain ⟨a, ha, he⟩ := hs.symm.get ha'
    exact Or.inl ⟨a, ha, (Account.Continues.of_skeleton he).2.1.trans hb⟩
  retirees := by
    intro id a' ha' hr
    obtain ⟨a, ha, he⟩ := hs.symm.get ha'
    exact Or.inl ⟨a, ha, (Account.Continues.of_skeleton he).2.2.trans hr⟩
  continues := by
    intro id a ha
    obtain ⟨a', ha', he⟩ := hs.get ha
    exact ⟨a', ha', (Account.Continues.of_skeleton he).1, (Account.Continues.of_skeleton he).2.1⟩
  total := ht

theorem touch_bal {g : Account → Account} (hg : Cosmetic g) (l : Ledger) (id k : String) (f : Field) :
    (l.modify id g).bal k f = l.bal k f := by
  rw [Ledger.bal, Ledger.get_modify]
  by_cases hk : k = id
  · subst hk
    cases h : l.get k with
    | none => simp [h, Ledger.bal]
    | some a => simp [h, Ledger.bal, hg.bal]
  · simp [hk, Ledger.bal]

theorem Booked.touch {g : Account → Account} (hg : Cosmetic g) (e : State) (id : String) :
    Booked pool nobody e (e.touch id g) where
  nonneg := by
    intro hn k f
    rw [State.touch_ledger, touch_bal hg]
    exact hn k f
  keyed := by
    intro hk k a ha
    rw [State.touch_ledger, Ledger.get_modify] at ha
    split at ha
    · next hid =>
        obtain ⟨a₀, ha₀, rfl⟩ := Option.map_eq_some_iff.mp ha
        rw [(hg.continues a₀).id, hid]
        exact hk id a₀ ha₀
    · exact hk k a ha
  lasts := by
    intro k a ha
    rw [State.touch_ledger, Ledger.get_modify]
    by_cases hk : k = id
    · subst hk
      exact ⟨g a, by simp [ha], fun h => (hg.isBot a).trans h, fun h _ => (hg.retired a).trans h⟩
    · exact ⟨a, by simp [hk, ha], fun h => h, fun h _ => h⟩
  bots := by
    intro k a ha hb
    rw [State.touch_ledger, Ledger.get_modify] at ha
    split at ha
    · next hid =>
        obtain ⟨a₀, ha₀, rfl⟩ := Option.map_eq_some_iff.mp ha
        exact Or.inl ⟨a₀, hid ▸ ha₀, (hg.isBot a₀).symm.trans hb⟩
    · exact Or.inl ⟨a, ha, hb⟩
  retirees := by
    intro k a ha hr
    rw [State.touch_ledger, Ledger.get_modify] at ha
    split at ha
    · next hid =>
        obtain ⟨a₀, ha₀, rfl⟩ := Option.map_eq_some_iff.mp ha
        exact Or.inl ⟨a₀, hid ▸ ha₀, (hg.retired a₀).symm.trans hr⟩
    · exact Or.inl ⟨a, ha, hr⟩
  continues := by
    intro k a ha
    rw [State.touch_ledger, Ledger.get_modify]
    by_cases hk : k = id
    · subst hk
      exact ⟨g a, by simp [ha], hg.continues a, hg.isBot a⟩
    · exact ⟨a, by simp [hk, ha], .refl a, rfl⟩
  total := by
    intro _ w _ f
    rw [State.touch_flows, State.touch_ledger]
    cases h : e.ledger.get id with
    | none =>
        have hsame : e.ledger.modify id g = e.ledger := by simp [Ledger.modify, h]
        rw [hsame]
    | some a =>
        rw [total_modify w h (hg.isBot a), hg.bal]
        simp

/-- A new account with nothing in it. -/
theorem Booked.open (hnone : e.ledger.get id = none) (hid : a.id = id) (hbal : ∀ f, a.bal f = 0)
    (hbot : a.isBot = true → Born id) (hret : a.retired = false) (hl : e'.ledger = e.ledger.set id a) (hf : e'.flows = e.flows) : Booked pool nobody e e' := by
  have hother : ∀ k b, e.ledger.get k = some b → (e.ledger.set id a).get k = some b := by
    intro k b hb
    rw [OrderedMap.get_set, if_neg, hb]
    rintro rfl
    rw [hnone] at hb
    cases hb
  refine ⟨⟨?_, ?_, ?_, ?_, ?_⟩, ?_, ?_⟩
  · intro hn k f
    rw [hl, Ledger.bal, OrderedMap.get_set]
    split
    · simp [hbal]
    · exact hn k f
  · intro hk k b hb
    rw [hl, OrderedMap.get_set] at hb
    split at hb
    · next hkid =>
        cases hb
        rw [hid, hkid]
    · exact hk k b hb
  · intro k b hb
    exact ⟨b, by rw [hl, hother k b hb], fun h => h, fun h _ => h⟩
  · intro k b hb hbb
    rw [hl, OrderedMap.get_set] at hb
    split at hb
    · next hkid =>
        cases hb
        exact Or.inr (hkid ▸ hbot hbb)
    · exact Or.inl ⟨b, hb, hbb⟩
  · intro k b hb hbr
    rw [hl, OrderedMap.get_set] at hb
    split at hb
    · cases hb
      rw [hret] at hbr
      cases hbr
    · exact Or.inl ⟨b, hb, hbr⟩
  · intro k b hb
    exact ⟨b, by rw [hl, hother k b hb], .refl b, rfl⟩
  · intro _ w _ f
    rw [hl, hf, total_set_new w hnone, hbal]
    simp

theorem Booked.acct (e : State) (wallet : String) (side : Side) :
    Booked pool nobody e { e with ledger := acct e.ledger wallet side } := by
  cases h : e.ledger.get wallet with
  | none =>
      refine Booked.open (a := Account.fresh wallet side false) h rfl (fun _ => rfl) (fun hb => by cases hb) rfl ?_ rfl
      simp [Engine.acct, h]
  | some a =>
      refine Booked.of_eq ?_ rfl
      simp [Engine.acct, h]

theorem Booked.treasury (e : State) : Booked pool nobody e { e with ledger := treasuryAcct e.ledger } := by
  cases h : e.ledger.get TREASURY_ID with
  | none =>
      refine Booked.open (a := Account.fresh TREASURY_ID .bull true) h rfl (fun _ => rfl) (fun _ => Or.inl rfl) rfl ?_ rfl
      simp [treasuryAcct, h]
  | some a =>
      refine Booked.of_eq ?_ rfl
      simp [treasuryAcct, h]

/-- A movement of an entry or a settlement, which the account can bear. -/
theorem Booked.post (arena : Arena) (round : ℕ) {f : Field} {x : ℚ} (ha : (e.ledger.get id).isSome)
    (h0 : e.ledger.Nonneg → 0 ≤ e.ledger.bal id f + x) : Booked pool nobody e (e.post arena round id f x) := by
  refine Booked.of_same (Ledger.Same.add) ?_ ?_
  · intro hn k g
    rw [State.post_ledger, Ledger.bal_add ha]
    split
    · next hk =>
        rw [hk.1, hk.2]
        exact h0 hn
    · simpa using hn k g
  · intro _ w _ g
    obtain ⟨a, ha⟩ := Option.isSome_iff_exists.mp ha
    have hflows : (e.post arena round id f x).flows = e.flows ++ [⟨e.boot, arena, round, id, a.isBot, f, x⟩] := by
      simp [State.post, State.account, ha]
    rw [hflows, moved_append, State.post_ledger, total_add w ha]
    by_cases hg : g = f
    · subst hg
      simp only [moved, List.map_cons, List.map_nil, List.sum_cons, List.sum_nil, true_and, and_true]
      split <;> ring
    · have hg' : f ≠ g := fun h => hg h.symm
      simp [moved, hg, hg']

/-! ## Money inside the house -/

theorem house_pool {id : String} (hid : id ∈ pool) (b : Bool) : house pool id b = true := by
  simp [house, hid]

/-- What the pool gives or takes and one bot takes or gives. -/
theorem Booked.exchange {l : Ledger} {f : Field} {x : ℚ} (hs : Shift pool f (-x) e.ledger l)
    (ha : e.ledger.get id = some a) (hbot : a.isBot = true) (h0 : l.Nonneg → 0 ≤ l.bal id f + x) (hf : e'.flows = e.flows)
    (hl : e'.ledger = l.add id f x) : Booked pool nobody e e' := by
  obtain ⟨a', ha', hsk⟩ := hs.same.get ha
  have hget : (l.get id).isSome := by simp [ha']
  refine Booked.of_same ?_ ?_ ?_
  · rw [hl]
    exact hs.same.trans Ledger.Same.add
  · intro hn k g
    rw [hl, Ledger.bal_add hget]
    split
    · next hk =>
        rw [hk.1, hk.2]
        exact h0 (hs.nonneg hn)
    · simpa using hs.nonneg hn k g
  · intro _ w hw g
    have hb' : a'.isBot = true := (Account.Continues.of_skeleton hsk).2.1.trans hbot
    have hwid : w id a'.isBot = true := hw id _ (by simp [house, hb'])
    rw [hl, hf, total_add w ha', hs.total w fun k hk b => hw k b (house_pool hk b)]
    by_cases hg : g = f
    · simp only [hwid, hg, and_self, if_true]
      ring
    · simp [hg]

theorem Booked.topUp {s : Settings} (ha : e.ledger.get id = some a) (hbot : a.isBot = true) (f : Field) (amount : ℚ) :
    Booked s.pool nobody e (topUp s e id f amount).1 := by
  obtain ⟨hshift, h0⟩ := drawBank_shift s.pool f amount 1 e.ledger
  unfold Engine.topUp
  rcases hdraw : drawBank s.pool e.ledger f amount 1 with ⟨l, drawn⟩
  rw [hdraw] at hshift h0
  dsimp only at hshift h0 ⊢
  split
  · exact Booked.exchange hshift ha hbot (fun hn => by linarith [hn id f]) rfl rfl
  · next hle =>
      have hzero : drawn = 0 := le_antisymm (not_lt.mp hle) h0
      rw [hzero, neg_zero] at hshift
      refine Booked.of_same hshift.same hshift.nonneg fun _ w hw g => ?_
      rw [hshift.total w fun k hk b => hw k b (house_pool hk b)]
      simp

theorem Ledger.bal_shift {l l' : Ledger} {f g : Field} {x : ℚ} (h : Shift pool f x l l') (hid : id ∉ pool) :
    l'.bal id g = l.bal id g := h.others id g (Or.inl hid)

theorem Booked.skim {s : Settings} (q : Quotes) (f : Field) (ha : e.ledger.get id = some a) (hbot : a.isBot = true) :
    Booked s.pool nobody e (levelField s q e id f) := by
  have hsame : Booked s.pool nobody e e := Booked.of_eq rfl rfl
  unfold levelField
  extract_lets px usd skimTok
  split
  · exact hsame
  split
  · exact hsame
  · next hpx husd =>
      have hpx := not_le.mp hpx
      have husd := not_le.mp husd
      have hskim : 0 ≤ skimTok := (div_pos (sub_pos.mpr husd) hpx).le
      -- what is left is the ceiling
      have hleft : 0 ≤ e.ledger.bal id f + -skimTok := by
        have hbal : e.ledger.bal id f = usd / px := (mul_div_cancel_right₀ _ hpx.ne').symm
        have hceil : usd / px - skimTok = s.BOT_MAX_BANK_USD / px := by
          rw [← sub_div]
          ring
        have := div_nonneg s.bank_nonneg hpx.le
        linarith
      have hget : (e.ledger.get id).isSome := by simp [ha]
      obtain ⟨x, hshift, hx⟩ := returnBank_shift s.pool f hskim (e.ledger.add id f (-skimTok))
      have hadd : e.ledger.Same (e.ledger.add id f (-skimTok)) := Ledger.Same.add
      refine Booked.of_same (hadd.trans hshift.same) ?_ ?_
      · intro hn
        refine hshift.nonneg fun k g => ?_
        rw [Ledger.bal_add hget]
        split
        · next hk =>
            rw [hk.1, hk.2]
            exact hleft
        · simpa using hn k g
      · intro hp w hw g
        rw [hshift.total w fun k hk b => hw k b (house_pool hk b), total_add w ha, hx (hp.of_same hadd),
          hw id a.isBot (by simp [house, hbot])]
        by_cases hg : g = f <;> simp [hg]

/-- One field of a bot goes back to the pool, all of it. -/
theorem handBack_spec {s : Settings} {l : Ledger} (f : Field) (ha : l.get id = some a) (hbot : a.isBot = true)
    (hid : id ∉ s.pool) (hn : l.Nonneg) :
    l.Same (handBack s l id f) ∧ (handBack s l id f).Nonneg ∧
      (∀ g, (handBack s l id f).bal id g = if g = f then 0 else l.bal id g) ∧
      (∀ k g, k ≠ id → k ∉ s.pool → (handBack s l id f).bal k g = l.bal k g) ∧
      (PoolReady s.pool l → ∀ w : Part, (∀ id b, house s.pool id b = true → w id b = true) → ∀ g,
        Engine.total w (handBack s l id f) g = Engine.total w l g) := by
  unfold handBack
  extract_lets left
  split
  · next hle =>
      have hzero : l.bal id f = 0 := le_antisymm hle (hn id f)
      refine ⟨Ledger.Same.refl l, hn, fun g => ?_, fun _ _ _ _ => rfl, fun _ w _ g => rfl⟩
      split
      · next hg => rw [hg, hzero]
      · rfl
  · next hle =>
      obtain ⟨x, hshift, hx⟩ := returnBank_shift s.pool f (not_le.mp hle).le l
      obtain ⟨a', ha', hsk⟩ := hshift.same.get ha
      generalize returnBank s.pool l f left = l' at hshift ha'
      have hbal : ∀ g, a'.bal g = l.bal id g := by
        intro g
        rw [← Ledger.bal_of_get ha', Ledger.bal_shift hshift hid]
      -- emptying a field is taking out what is there
      have hzero : l'.modify id (fun a => { a with bal := Function.update a.bal f 0 }) = l'.add id f (-left) := by
        have hupd : Function.update a'.bal f 0 = Function.update a'.bal f (a'.bal f + -left) := by
          rw [hbal f, add_neg_cancel]
        simp only [Ledger.add, Ledger.modify, ha', Account.add, hupd]
      rw [hzero]
      have hget : (l'.get id).isSome := by simp [ha']
      refine ⟨hshift.same.trans Ledger.Same.add, ?_, ?_, ?_, ?_⟩
      · intro k g
        rw [Ledger.bal_add hget]
        split
        · next hk =>
            rw [hk.1, hk.2, Ledger.bal_shift hshift hid, add_neg_cancel]
        · simpa using hshift.nonneg hn k g
      · intro g
        rw [Ledger.bal_add hget, Ledger.bal_shift hshift hid]
        by_cases hg : g = f
        · simp [hg, left]
        · simp [hg]
      · intro k g hk hpool
        rw [Ledger.bal_add hget, if_neg fun h => hk h.1, add_zero, Ledger.bal_shift hshift hpool]
      · intro hp w hw g
        have hb' : a'.isBot = true := (Account.Continues.of_skeleton hsk).2.1.trans hbot
        rw [total_add w ha', hshift.total w fun k hk b => hw k b (house_pool hk b), hx hp,
          hw id a'.isBot (by simp [house, hb'])]
        by_cases hg : g = f <;> simp [hg]

/-- A retired bot holds nothing, and the pool has what it held. -/
theorem retireBot_spec {s : Settings} (ha : e.ledger.get id = some a) (hbot : a.isBot = true) (hid : id ∉ s.pool)
    (hn : e.ledger.Nonneg) :
    ∃ l, e.ledger.Same l ∧ l.Nonneg ∧ (∀ g, l.bal id g = 0) ∧
      (∀ k g, k ≠ id → k ∉ s.pool → l.bal k g = e.ledger.bal k g) ∧
      (PoolReady s.pool e.ledger → ∀ w : Part, (∀ id b, house s.pool id b = true → w id b = true) → ∀ g,
        Engine.total w l g = Engine.total w e.ledger g) ∧
      retireBot s e id = { e with ledger := l.modify id fun a => { a with retired := true } } := by
  obtain ⟨hs₁, hn₁, hz₁, ho₁, ht₁⟩ := handBack_spec (s := s) .bull ha hbot hid hn
  obtain ⟨a₁, ha₁, hsk₁⟩ := hs₁.get ha
  obtain ⟨hs₂, hn₂, hz₂, ho₂, ht₂⟩ := handBack_spec (s := s) .uwu ha₁
    ((Account.Continues.of_skeleton hsk₁).2.1.trans hbot) hid hn₁
  obtain ⟨a₂, ha₂, hsk₂⟩ := (hs₁.trans hs₂).get ha
  obtain ⟨hs₃, hn₃, hz₃, ho₃, ht₃⟩ := handBack_spec (s := s) .sol ha₂
    ((Account.Continues.of_skeleton hsk₂).2.1.trans hbot) hid hn₂
  refine ⟨_, (hs₁.trans hs₂).trans hs₃, hn₃, ?_, ?_, ?_, rfl⟩
  · intro g
    rw [hz₃, hz₂, hz₁]
    cases g <;> simp
  · intro k g hk hpool
    rw [ho₃ k g hk hpool, ho₂ k g hk hpool, ho₁ k g hk hpool]
  · intro hp w hw g
    have hp₁ := hp.of_same hs₁
    rw [ht₃ (hp₁.of_same hs₂) w hw, ht₂ hp₁ w hw, ht₁ hp w hw]

theorem Booked.retire {s : Settings} (ha : e.ledger.get id = some a) (hbot : a.isBot = true) (hid : id ∉ s.pool)
    (hn : e.ledger.Nonneg) : Booked s.pool (· = id) e (retireBot s e id) := by
  obtain ⟨l, hs, hnl, -, -, ht, he⟩ := retireBot_spec ha hbot hid hn
  have hmark : ∀ k b, l.get k = some b →
      ∃ b', (l.modify id fun a => { a with retired := true }).get k = some b' ∧ b'.bal = b.bal ∧ b'.isBot = b.isBot ∧
        b.Continues b' ∧ (k ≠ id → b' = b) := by
    intro k b hb
    rw [Ledger.get_modify]
    by_cases hk : k = id
    · subst hk
      exact ⟨{ b with retired := true }, by rw [if_pos rfl, hb]; rfl, rfl, rfl,
        ⟨rfl, rfl, fun h => h, fun _ => rfl, le_refl _, le_refl _⟩, fun h => absurd rfl h⟩
    · exact ⟨b, by rw [if_neg hk, hb], rfl, rfl, .refl b, fun _ => rfl⟩
  have hbal : ∀ k g, (l.modify id fun a => { a with retired := true }).bal k g = l.bal k g := by
    intro k g
    cases hb : l.get k with
    | none =>
        have hnone : (l.modify id fun a => { a with retired := true }).get k = none := by
          rw [Ledger.get_modify]
          split
          · next hk => rw [← hk, hb]; rfl
          · exact hb
        rw [Ledger.bal_of_none hb, Ledger.bal_of_none hnone]
    | some b =>
        obtain ⟨b', hb', hsame, -⟩ := hmark k b hb
        rw [Ledger.bal_of_get hb, Ledger.bal_of_get hb', hsame]
  have hbook : ∀ k b, e.ledger.get k = some b →
      ∃ b', (retireBot s e id).ledger.get k = some b' ∧ b.Continues b' ∧ b'.isBot = b.isBot ∧
        (k ≠ id → b'.retired = b.retired) := by
    intro k b hb
    obtain ⟨b₁, hb₁, hsk⟩ := hs.get hb
    obtain ⟨b₂, hb₂, -, hbot₂, hc₂, hother⟩ := hmark k b₁ hb₁
    obtain ⟨hc₁, hbot₁, hret₁⟩ := Account.Continues.of_skeleton hsk
    exact ⟨b₂, by rw [he]; exact hb₂, hc₁.trans hc₂, hbot₂.trans hbot₁, fun hk => by rw [hother hk, hret₁]⟩
  have hback : ∀ k b', (retireBot s e id).ledger.get k = some b' →
      ∃ b, e.ledger.get k = some b ∧ b.Continues b' ∧ b'.isBot = b.isBot ∧ (k ≠ id → b'.retired = b.retired) := by
    intro k b' hb'
    have hsome : (l.get k).isSome := by
      rw [he] at hb'
      dsimp only at hb'
      rw [Ledger.get_modify] at hb'
      split at hb'
      · next hkid =>
          obtain ⟨b, hb, -⟩ := Option.map_eq_some_iff.mp hb'
          simp [hkid, hb]
      · simp [hb']
    obtain ⟨b, hb⟩ := Option.isSome_iff_exists.mp ((hs.isSome k).symm.trans hsome)
    obtain ⟨b₂, hb₂, hrest⟩ := hbook k b hb
    rw [hb'] at hb₂
    cases hb₂
    exact ⟨b, hb, hrest⟩
  refine ⟨⟨?_, ?_, ?_, ?_, ?_⟩, ?_, ?_⟩
  · intro _ k g
    rw [he]
    exact (hbal k g).ge.trans' (hnl k g)
  · intro hk k b' hb'
    obtain ⟨b, hb, hc, -⟩ := hback k b' hb'
    rw [hc.id]
    exact hk k b hb
  · intro k b hb
    obtain ⟨b', hb', hc, -, hret⟩ := hbook k b hb
    exact ⟨b', hb', hc.isBot, fun h hk => (hret hk).trans h⟩
  · intro k b' hb' hbb
    obtain ⟨b, hb, -, hbot', -⟩ := hback k b' hb'
    exact Or.inl ⟨b, hb, hbot'.symm.trans hbb⟩
  · intro k b' hb' hbr
    obtain ⟨b, hb, -, -, hret⟩ := hback k b' hb'
    by_cases hk : k = id
    · exact Or.inr hk
    · exact Or.inl ⟨b, hb, (hret hk).symm.trans hbr⟩
  · intro k b hb
    obtain ⟨b', hb', hc, hbot', -⟩ := hbook k b hb
    exact ⟨b', hb', hc, hbot'⟩
  · intro hp w hw f
    rw [← ht hp w hw f, he]
    dsimp only
    cases hb : l.get id with
    | none =>
        have hsame : l.modify id (fun a => { a with retired := true }) = l := by simp [Ledger.modify, hb]
        rw [hsame]
    | some b =>
        rw [total_modify (u := fun a => { a with retired := true }) w hb rfl, sub_self]
        simp

/-! ## A new bot -/

/-- A bank comes out of the pool, unless it is a fake one. -/
theorem bankFor_shift {s : Settings} (f : Field) (want spread : ℚ) (l : Ledger) :
    ∃ x, Shift s.pool f (-x) l (bankFor s l f want spread).1 ∧
      (s.FAKE_BANK_OK = false → x = (bankFor s l f want spread).2 ∧ 0 ≤ x) := by
  unfold bankFor
  split
  · obtain ⟨hs, h0⟩ := drawBank_shift s.pool f want spread l
    exact ⟨_, hs, fun _ => ⟨rfl, h0⟩⟩
  · exact ⟨0, by simpa using Shift.refl s.pool f l, fun hreal => by simp [hreal]⟩

theorem minStakeOf_nonneg (s : Settings) (q : Quotes) (f : Field) : 0 ≤ minStakeOf s q f := by
  unfold minStakeOf
  split
  · next h => exact h.le
  · unfold unitsForUsd
    split
    · next h => exact div_nonneg s.stake_pos.le h.le
    · exact le_refl 0

/-- The two ways that making a bot goes: what was drawn goes back, or an account is set. -/
theorem makeBot_cases (s : Settings) (e : State) (q : Quotes) (a : Account) (f : Field) (want spread : ℚ) :
    ∃ l got, bankFor s e.ledger f want spread = (l, got) ∧
      (makeBot s e q a f want spread = ({ e with ledger := returnBank s.pool l f got }, false) ∨
        (minStakeOf s q f ≤ got ∧ makeBot s e q a f want spread = ({ e with ledger := l.set a.id (a.add f got) }, true))) := by
  refine ⟨_, _, rfl, ?_⟩
  unfold makeBot
  dsimp only
  split
  · exact Or.inl rfl
  · next h => exact Or.inr ⟨not_lt.mp h, rfl⟩

theorem Held.of_shift {l : Ledger} {f : Field} {x : ℚ} (h : Shift pool f x e.ledger l) (hl : e'.ledger = l) :
    Held nobody e e' where
  nonneg := fun hn => hl ▸ h.nonneg hn
  keyed := by
    intro hk id a' ha'
    rw [hl] at ha'
    obtain ⟨a, ha, he⟩ := h.same.symm.get ha'
    rw [← hk id a ha]
    exact (Account.Continues.of_skeleton he).1.id.symm
  lasts := by
    intro id a ha
    obtain ⟨a', ha', he⟩ := h.same.get ha
    obtain ⟨-, hb, hr⟩ := Account.Continues.of_skeleton he
    exact ⟨a', by rw [hl, ha'], fun h => hb.trans h, fun h _ => hr.trans h⟩
  bots := by
    intro id a' ha' hb
    rw [hl] at ha'
    obtain ⟨a, ha, he⟩ := h.same.symm.get ha'
    exact Or.inl ⟨a, ha, (Account.Continues.of_skeleton he).2.1.trans hb⟩
  retirees := by
    intro id a' ha' hr
    rw [hl] at ha'
    obtain ⟨a, ha, he⟩ := h.same.symm.get ha'
    exact Or.inl ⟨a, ha, (Account.Continues.of_skeleton he).2.2.trans hr⟩

theorem Held.makeBot (s : Settings) (e : State) (q : Quotes) {a : Account} (f : Field) (want spread : ℚ)
    (hbal : ∀ f, a.bal f = 0) (hbot : a.isBot = true) (hret : a.retired = false) (hborn : Born a.id) :
    Held nobody e (makeBot s e q a f want spread).1 := by
  obtain ⟨l, got, hbank, hcase⟩ := makeBot_cases s e q a f want spread
  obtain ⟨x, hshift, -⟩ := bankFor_shift (s := s) f want spread e.ledger
  rw [hbank] at hshift
  rcases hcase with he | ⟨hgot, he⟩
  · rw [he]
    by_cases h0 : 0 ≤ got
    · obtain ⟨y, hback, -⟩ := returnBank_shift s.pool f h0 l
      exact Held.of_shift (hshift.trans hback) rfl
    · have hnone : returnBank s.pool l f got = l := by rw [returnBank, if_pos (not_le.mp h0).le]
      exact Held.of_shift hshift hnone
  · rw [he]
    have hgot0 : 0 ≤ got := (minStakeOf_nonneg s q f).trans hgot
    have hfirst := Held.of_shift hshift (show ({ e with ledger := l } : State).ledger = l from rfl)
    refine ⟨?_, ?_, ?_, ?_, ?_⟩
    · intro hn k g
      have hl := hfirst.nonneg hn
      rw [Ledger.bal, OrderedMap.get_set]
      split
      · rw [Option.map_some, Option.getD_some, Account.bal_add, hbal]
        split
        · simpa using hgot0
        · simp
      · exact hl k g
    · intro hk k b hb
      dsimp only at hb
      rw [OrderedMap.get_set] at hb
      split at hb
      · next hid =>
          cases hb
          exact hid.symm
      · exact hfirst.keyed hk k b hb
    · intro k b hb
      dsimp only
      rw [OrderedMap.get_set]
      split
      · exact ⟨_, rfl, fun _ => hbot, fun _ _ => hret⟩
      · exact hfirst.lasts k b hb
    · intro k b hb hbb
      dsimp only at hb
      rw [OrderedMap.get_set] at hb
      split at hb
      · next hk => exact Or.inr (hk ▸ hborn)
      · exact hfirst.bots k b hb hbb
    · intro k b hb hbr
      dsimp only at hb
      rw [OrderedMap.get_set] at hb
      split at hb
      · cases hb
        exact absurd (hret.symm.trans hbr) (by decide)
      · exact hfirst.retirees k b hb hbr

/-- A bot under an id that was free takes only what the pool gives. -/
theorem Booked.makeBot {s : Settings} (q : Quotes) (f : Field) (want spread : ℚ) (hbal : ∀ f, a.bal f = 0)
    (hbot : a.isBot = true) (hret : a.retired = false) (hborn : Born a.id) (hfree : e.ledger.get a.id = none)
    (hreal : s.FAKE_BANK_OK = false) : Booked s.pool nobody e (makeBot s e q a f want spread).1 := by
  refine ⟨Held.makeBot s e q f want spread hbal hbot hret hborn, ?_, ?_⟩
  all_goals
    obtain ⟨l, got, hbank, hcase⟩ := makeBot_cases s e q a f want spread
    obtain ⟨x, hshift, hx⟩ := bankFor_shift (s := s) f want spread e.ledger
    obtain ⟨hx, h0⟩ := hx hreal
    rw [hbank] at hshift hx
    dsimp only at hshift hx
    subst hx
    obtain ⟨y, hback, hy⟩ := returnBank_shift s.pool f h0 l
  · intro k b hb
    obtain ⟨b', hb', hsk⟩ := hshift.same.get hb
    rcases hcase with he | ⟨-, he⟩
    · obtain ⟨b'', hb'', hsk'⟩ := hback.same.get hb'
      rw [he]
      exact ⟨b'', hb'', (Account.Continues.of_skeleton (hsk'.trans hsk)).1,
        (Account.Continues.of_skeleton (hsk'.trans hsk)).2.1⟩
    · rw [he]
      dsimp only
      rw [OrderedMap.get_set, if_neg (fun hk => by rw [← hk, hb] at hfree; cases hfree)]
      exact ⟨b', hb', (Account.Continues.of_skeleton hsk).1, (Account.Continues.of_skeleton hsk).2.1⟩
  · intro hp w hw g
    have hwp : ∀ k ∈ s.pool, ∀ b, w k b = true := fun k hk b => hw k b (house_pool hk b)
    rcases hcase with he | ⟨-, he⟩
    · rw [he]
      dsimp only
      rw [hback.total w hwp, hshift.total w hwp, hy (hp.of_same hshift.same)]
      split <;> ring
    · have hnone : l.get a.id = none := by
        have h1 := hshift.same.isSome a.id
        rw [hfree] at h1
        simpa using h1
      rw [he]
      dsimp only
      rw [total_set_new w hnone, hshift.total w hwp, if_pos (hw _ _ (by simp [house, Account.add, hbot])), Account.bal_add, hbal]
      split <;> ring

end

end BullsUnicorns.Engine

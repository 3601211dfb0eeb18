import BullsUnicorns.Engine.Lemmas.Stakes
import BullsUnicorns.Battle.Lemmas.Rounds

/-!
# What holds at any time

No account is overdrawn, every account is under its id, the stakes of a lobby are positive and each has an
owner and a price, and a battle has the result of its own entries. Every act keeps this, and is booked.
-/

namespace BullsUnicorns.Engine

open Battle

/-! ## Runners through an act -/

section
variable {E R S : Type} [DecidableEq S] (c : RunnerClass E R S)

/-- What an act may do to a runner. A stake is placed under an id and a slot that are in order. -/
inductive Turned (ok : String → S → Prop) : Runner E R → Runner E R → Prop
  | same (r : Runner E R) : Turned ok r r
  | entered {r : Runner E R} {id : String} {slot : S} {stake : ℚ} : r.state.phase = .lobby → 0 < stake → ok id slot →
      Turned ok r { r with state := { r.state with entries := place c id slot stake r.state.entries } }
  | fought {r r' : Runner E R} : Fought c r r' → Turned ok r r'
  | settling {r : Runner E R} : r.state.phase = .battle → Turned ok r (settling r)
  | fresh {r : Runner E R} (p : Platform) (env : RoundEnv) (d : Draw) : r.state.phase = .settle →
      Turned ok r (freshLobby p env (r.state.round + 1) d)

/-- What holds of a runner at any time. -/
structure Fit (ok : String → S → Prop) (r : Runner E R) : Prop where
  stakes : ∀ en ∈ r.state.entries, 0 < c.stake en
  once : (r.state.entries.map fun en => (c.id en, c.slot en)).Nodup
  listed : ∀ en ∈ r.state.entries, ok (c.id en) (c.slot en)
  fought : r.state.phase = .battle →
    ∃ seed multiplier, r.state.result = some (c.fight seed r.state.entries multiplier)

variable {c} {ok ok' : String → S → Prop} {r r' : Runner E R}

/-- A stake changes its own entry, or makes it. -/
theorem mem_place {id : String} {slot : S} {stake : ℚ} {es : List E} {en : E} (h : en ∈ place c id slot stake es) :
    en ∈ es ∨ (c.id en = id ∧ c.slot en = slot ∧
      (c.stake en = stake ∨ ∃ en₀ ∈ es, c.id en₀ = id ∧ c.slot en₀ = slot ∧ c.stake en = c.stake en₀ + stake)) := by
  induction es with
  | nil =>
      obtain ⟨hid, hslot, hstake⟩ := parts_new (c := c) id slot stake
      rw [List.mem_singleton.mp h]
      exact .inr ⟨hid, hslot, .inl hstake⟩
  | cons e es ih =>
      rw [place] at h
      split at h
      · next hkey =>
          rcases List.mem_cons.mp h with rfl | h
          · obtain ⟨hid, hslot, hstake⟩ := parts_new (c := c) id slot (c.stake e + stake)
            exact .inr ⟨hid, hslot, .inr ⟨e, List.mem_cons_self, hkey.1, hkey.2, hstake⟩⟩
          · exact .inl (List.mem_cons_of_mem e h)
      · rcases List.mem_cons.mp h with rfl | h
        · exact .inl List.mem_cons_self
        · rcases ih h with h | ⟨hid, hslot, hstake | ⟨en₀, hen₀, hrest⟩⟩
          · exact .inl (List.mem_cons_of_mem e h)
          · exact .inr ⟨hid, hslot, .inl hstake⟩
          · exact .inr ⟨hid, hslot, .inr ⟨en₀, List.mem_cons_of_mem e hen₀, hrest⟩⟩

theorem place_once {id : String} {slot : S} {stake : ℚ} {es : List E}
    (h : (es.map fun en => (c.id en, c.slot en)).Nodup) :
    ((place c id slot stake es).map fun en => (c.id en, c.slot en)).Nodup := by
  rw [place_keys]
  split
  · exact h
  · next hnew =>
      refine List.nodup_append.mpr ⟨h, List.nodup_singleton _, fun x hx y hy he => hnew ?_⟩
      rwa [← List.mem_singleton.mp hy, ← he]

theorem Turned.fit {enters : String → S → Prop} (h : Turned c enters r r') (hr : Fit c ok r)
    (mono : r'.state.round = r.state.round → ∀ id slot, ok id slot → ok' id slot)
    (henters : ∀ id slot, enters id slot → ok' id slot) : Fit c ok' r' := by
  cases h with
  | same => exact ⟨hr.stakes, hr.once, fun en hen => mono rfl _ _ (hr.listed en hen), hr.fought⟩
  | entered hlobby h0 hok =>
      refine ⟨fun en hen => ?_, place_once hr.once, fun en hen => ?_, fun hbattle => ?_⟩
      · rcases mem_place hen with hen | ⟨-, -, hstake | ⟨en₀, hen₀, -, -, hstake⟩⟩
        · exact hr.stakes en hen
        · rwa [hstake]
        · rw [hstake]
          exact add_pos (hr.stakes en₀ hen₀) h0
      · rcases mem_place hen with hen | ⟨hid, hslot, -⟩
        · exact mono rfl _ _ (hr.listed en hen)
        · rw [hid, hslot]
          exact henters _ _ hok
      · exact absurd (hlobby.symm.trans hbattle) (by decide)
  | fought hf =>
      obtain ⟨seed, hseed⟩ := hf.result
      refine ⟨hf.entries ▸ hr.stakes, hf.entries ▸ hr.once, fun en hen => ?_, fun _ => ⟨seed, r.state.multiplier, ?_⟩⟩
      · exact mono hf.round _ _ (hr.listed en (hf.entries ▸ hen))
      · rw [hseed, hf.entries]
  | settling _ =>
      exact ⟨hr.stakes, hr.once, fun en hen => mono rfl _ _ (hr.listed en hen),
        fun hbattle => absurd hbattle (by simp [Engine.settling])⟩
  | fresh p env d _ =>
      exact ⟨fun en hen => (List.not_mem_nil hen).elim, List.nodup_nil, fun en hen => (List.not_mem_nil hen).elim,
        fun hbattle => absurd hbattle (by simp [freshLobby])⟩

end

/-! ## What leaves the runners alone -/

/-- The runners, their prices and the record of rounds are as they were. -/
structure Still (e e' : State) : Prop where
  two : e'.two = e.two
  many : e'.many = e.many
  px : KeepsPx e e'
  seq : e.seq ≤ e'.seq
  boot : e'.boot = e.boot
  settled : e'.settled = e.settled

theorem Still.of_eq {e e' : State} (two : e'.two = e.two) (many : e'.many = e.many) (px : e'.prices = e.prices)
    (forgotten : e'.forgotten = e.forgotten) (seq : e.seq ≤ e'.seq) (boot : e'.boot = e.boot)
    (settled : e'.settled = e.settled) : Still e e' :=
  ⟨two, many, .of_eq px forgotten, seq, boot, settled⟩

theorem Still.refl (e : State) : Still e e := .of_eq rfl rfl rfl rfl le_rfl rfl rfl

theorem Still.roundOf {e e' : State} (h : Still e e') : e'.roundOf = e.roundOf := by
  funext arena
  cases arena with
  | two aid => simp [State.roundOf, h.two]
  | many aid => simp [State.roundOf, h.many]

theorem Still.trans {e e' e'' : State} (h : Still e e') (h' : Still e' e'') : Still e e'' where
  two := h'.two.trans h.two
  many := h'.many.trans h.many
  px := h.px.trans h'.px h.roundOf
  seq := h.seq.trans h'.seq
  boot := h'.boot.trans h.boot
  settled := h'.settled.trans h.settled

theorem Still.remembers {e e' : State} (h : Still e e') {arena : Arena} (hkept : e'.Remembers arena) :
    e.Remembers arena := h.px.remembers (congrFun h.roundOf arena) hkept

theorem still_foldl {α : Type} {f : State → α → State} (h : ∀ e x, Still e (f e x)) (l : List α) (e : State) :
    Still e (l.foldl f e) := by
  induction l generalizing e with
  | nil => exact Still.refl e
  | cons x l ih => exact (h e x).trans (ih _)

section
variable (s : Settings) (e : State)

theorem still_post (arena : Arena) (round : ℕ) (id : String) (f : Field) (x : ℚ) : Still e (e.post arena round id f x) :=
  .of_eq rfl rfl rfl rfl le_rfl rfl rfl

theorem still_touch (id : String) (g : Account → Account) : Still e (e.touch id g) :=
  .of_eq rfl rfl rfl rfl le_rfl rfl rfl

theorem still_freeze (arena : Arena) (round : ℕ) (f : Field) (q : Quotes) : Still e (e.freeze arena round f q) :=
  ⟨rfl, rfl, .freeze e arena round f q, le_rfl, rfl, rfl⟩

theorem still_bankFee (arena : Arena) (round : ℕ) (f : Field) (tokens : ℚ) : Still e (e.bankFee arena round f tokens) := by
  unfold State.bankFee
  split <;> exact .of_eq rfl rfl rfl rfl le_rfl rfl rfl

theorem still_returnFee (arena : Arena) (round : ℕ) (f : Field) (amount : ℚ) :
    Still e (e.returnFee s arena round f amount) := by
  unfold State.returnFee
  split
  · exact Still.refl e
  split <;> exact .of_eq rfl rfl rfl rfl le_rfl rfl rfl

theorem still_payReferrer (m : EnterMsg) (round : ℕ) (refBy : String) (refCut : ℚ) :
    Still e (payReferrer e m round refBy refCut) := .of_eq rfl rfl rfl rfl le_rfl rfl rfl

theorem still_topUp (id : String) (f : Field) (amount : ℚ) : Still e (topUp s e id f amount).1 := by
  unfold topUp
  rcases drawBank s.pool e.ledger f amount 1 with ⟨l, drawn⟩
  dsimp only
  split <;> exact .of_eq rfl rfl rfl rfl le_rfl rfl rfl

theorem still_levelField (q : Quotes) (id : String) (f : Field) : Still e (levelField s q e id f) := by
  unfold levelField
  extract_lets px usd skimTok
  split
  · exact Still.refl e
  split <;> exact .of_eq rfl rfl rfl rfl le_rfl rfl rfl

theorem still_makeBot (q : Quotes) (a : Account) (f : Field) (want spread : ℚ) :
    Still e (makeBot s e q a f want spread).1 := by
  obtain ⟨l, got, -, he | ⟨-, he⟩⟩ := makeBot_cases s e q a f want spread
  · rw [he]
    exact .of_eq rfl rfl rfl rfl le_rfl rfl rfl
  · rw [he]
    exact .of_eq rfl rfl rfl rfl le_rfl rfl rfl

theorem still_newBot (q : Quotes) (aid : ArenaId) (side : Side) (d : BotDraw) : Still e (newBot s e q aid side d).1 :=
  (Still.of_eq rfl rfl rfl rfl (Nat.le_succ _) rfl rfl : Still e { e with seq := e.seq + 1 }).trans
    (still_makeBot s _ q _ _ _ _)

theorem still_newBotN (q : Quotes) (aid : NArena) (d : BotDraw) : Still e (newBotN s e q aid d).1 :=
  (Still.of_eq rfl rfl rfl rfl (Nat.le_succ _) rfl rfl : Still e { e with seq := e.seq + 1 }).trans
    (still_makeBot s _ q _ _ _ _)

theorem still_retireBot (id : String) : Still e (retireBot s e id) := .of_eq rfl rfl rfl rfl le_rfl rfl rfl

theorem still_payFighter (q : Quotes) (aid : ArenaId) (round : ℕ) (pay : String × Battle.Payout) :
    Still e (payFighter q aid round e pay) := by
  unfold payFighter
  extract_lets id fA fB e₁ retA retB ret e₂ e₃
  split
  · exact Still.refl e
  · have h₁ : Still e e₁ := (still_freeze e _ _ _ q).trans (still_freeze _ _ _ _ q)
    have h₃ : Still e₁ e₃ := ((still_post e₁ _ _ _ _ _).trans (still_post _ _ _ _ _ _)).trans (still_touch _ _ _)
    exact (h₁.trans h₃).trans (.of_eq rfl rfl rfl rfl le_rfl rfl rfl)

theorem still_payFighterN (q : Quotes) (aid : NArena) (round : ℕ) (pay : String × ℚ) :
    Still e (payFighterN s q aid round e pay) := by
  unfold payFighterN
  extract_lets id f e₁ ret usd e₂
  split
  · exact Still.refl e
  · have h₂ : Still e e₂ := ((still_freeze e _ _ _ q).trans (still_post _ _ _ _ _ _)).trans (still_touch _ _ _)
    exact h₂.trans (.of_eq rfl rfl rfl rfl le_rfl rfl rfl)

end

/-- A stake as far as the ledger: all but the entry. -/
theorem deployBot_still (s : Settings) (e : State) (aid : ArenaId) (id : String) (side : Side) (tokens usd : ℚ) :
    ∃ e₁, Still e e₁ ∧ deployBot s e aid id side tokens usd = State.enterRound s e₁ aid id side (usd * (1 - FEE)) :=
  ⟨_, ((still_touch e _ _).trans (still_post _ _ _ _ _ _)).trans (still_bankFee _ _ _ _ _), rfl⟩

theorem deployBotN_still (s : Settings) (e : State) (aid : NArena) (id : String) (team tokens usd : ℚ) :
    ∃ e₁, Still e e₁ ∧ deployBotN s e aid id team tokens usd = State.enterRoundN s e₁ aid id team (usd * (1 - FEE)) :=
  ⟨_, ((still_post e _ _ _ _ _).trans (still_returnFee s _ _ _ _ _)).trans (still_touch _ _ _), rfl⟩

theorem deployPlayerN_still (s : Settings) (e : State) (m : EnterNMsg) (stake usd : ℚ) :
    ∃ e₁, Still e e₁ ∧ deployPlayerN s e m stake usd = State.enterRoundN s e₁ m.aid m.wallet m.slot (usd * (1 - FEE)) :=
  ⟨_, ((still_touch e _ _).trans (still_post _ _ _ _ _ _)).trans (still_bankFee _ _ _ _ _), rfl⟩

theorem deployPlayer_still (s : Settings) (e : State) (m : EnterMsg) (stake px : ℚ) :
    ∃ e₁, Still e e₁ ∧
      deployPlayer s e m stake px = State.enterRound s e₁ m.aid m.wallet m.side (stake * px * (1 - FEE)) := by
  refine ⟨_, ?_, rfl⟩
  refine Still.trans ?_ (still_bankFee _ _ _ _ _)
  split
  · exact (still_touch e _ _).trans (still_post _ _ _ _ _ _)
  · exact ((still_touch e _ _).trans (still_post _ _ _ _ _ _)).trans (still_payReferrer _ _ _ _ _)

end BullsUnicorns.Engine

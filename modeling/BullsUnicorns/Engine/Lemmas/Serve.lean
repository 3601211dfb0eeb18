import BullsUnicorns.Engine.Lemmas.Kept

/-!
# The server acts

Each function of the server is a chain of acts, and the kinds of the acts say what it may do: fill a lobby,
stake, or renew the bots of an arena.
-/

namespace BullsUnicorns.Engine

open Battle

/-! ## Kinds -/

def Staking (arena : Arena) (k : Kind) : Prop := k = .house ∨ k = .stake arena

def Filling (arena : Arena) (k : Kind) : Prop := k = .house ∨ k = .newBot arena ∨ k = .stake arena

def Renewing (arena : Arena) (k : Kind) : Prop :=
  k = .house ∨ k = .newBot arena ∨ ∃ n, k = .retire (botId arena.text n)

def Retiring (ids : List String) (k : Kind) : Prop := k = .house ∨ ∃ id ∈ ids, k = .retire id

def Housekeeping (k : Kind) : Prop := k = .house

variable {s : Settings} {e e' : State} {K : Kind → Prop} {arena : Arena} {id : String}

theorem Acts.quiet (hK : K .house) (h : Quiet e e') : Acts s K e e' := .one hK (.quiet h)

theorem Acts.samePhase (h : Acts s K e e') (hK : ∀ k, K k → ∀ arena, k ≠ .turn arena) : SamePhase e e' := by
  induction h with
  | refl => exact fun _ => ⟨rfl, rfl⟩
  | tail _ hact ih =>
      obtain ⟨k, hk, hact⟩ := hact
      exact ih.trans (hact.samePhase (hK k hk))

theorem Acts.px (h : Acts s K e e') (hs : Sound s e) (hK : ∀ k, K k → ∀ arena, k ≠ .turn arena) : KeepsPx e e' := by
  refine (h.keep (P := fun e' => SamePhase e e' ∧ KeepsPx e e') hs ?_ ⟨fun _ => ⟨rfl, rfl⟩, .of_eq rfl rfl⟩).2.2
  rintro k e₁ e₂ hk hs hact ⟨hsame, hpx⟩
  exact ⟨hsame.trans (hact.samePhase (hK k hk)), hpx.trans (hact.turns hs).px (funext fun arena => (hsame arena).2)⟩

/-- A chain for every element of a list, each of which stays fit for its turn. -/
theorem Acts.foldl {σ : Type} (view : σ → State) {f : σ → String → σ} (B : State → String → Prop)
    (hB : ∀ e e' id, Sound s e → Acts s K e e' → B e id → B e' id)
    (hf : ∀ st id, Sound s (view st) → B (view st) id → Acts s K (view st) (view (f st id))) (ids : List String) (st : σ)
    (hs : Sound s (view st)) (hids : ∀ id ∈ ids, B (view st) id) : Acts s K (view st) (view (ids.foldl f st)) := by
  induction ids generalizing st with
  | nil => exact .refl _
  | cons id ids ih =>
      obtain ⟨hid, hrest⟩ := List.forall_mem_cons.mp hids
      have hstep := hf st id hs hid
      exact hstep.trans (ih (f st id) (hstep.sound hs) fun k hk => hB _ _ k hs hstep (hrest k hk))

/-! ## Prices and scans -/

theorem freeze_quiet (e : State) (arena : Arena) (round : ℕ) (f : Field) (q : Quotes) :
    Quiet e (e.freeze arena round f q) :=
  ⟨rfl, rfl, rfl, rfl, rfl, rfl, rfl, rfl, .freeze e arena round f q⟩

theorem botsFor_quiet (e : State) (arena : String) : Quiet e (botsFor e arena).2 := by
  unfold botsFor
  extract_lets all
  split <;> exact ⟨rfl, rfl, rfl, rfl, rfl, rfl, rfl, rfl, .of_eq rfl rfl⟩

/-- The bots of an arena that have not been retired. -/
def liveBots (arena : Arena) (l : Ledger) : List String := (l.values.filter (isArenaBot arena.text)).map (·.id)

theorem mem_liveBots {l : Ledger} (hk : Keyed l) : id ∈ liveBots arena l ↔ Alive arena l id := by
  rw [liveBots, List.mem_map]
  constructor
  · rintro ⟨a, ha, rfl⟩
    obtain ⟨hmem, hbot⟩ := List.mem_filter.mp ha
    obtain ⟨k, hget⟩ := OrderedMap.mem_values.mp hmem
    rw [isArenaBot, Bool.and_eq_true, Bool.and_eq_true, Bool.not_eq_true'] at hbot
    exact ⟨a, by rw [hk k a hget]; exact hget, hbot.1.1, hbot.2, hbot.1.2⟩
  · rintro ⟨a, hget, hbot, hprefix, hret⟩
    have hid := hk id a hget
    refine ⟨a, List.mem_filter.mpr ⟨OrderedMap.mem_values.mpr ⟨id, hget⟩, ?_⟩, hid⟩
    simp [isArenaBot, hbot, hret, hid, hprefix]

/-- A scan lists them from some place on. -/
theorem botsFor_perm (e : State) (arena : Arena) : ((botsFor e arena.text).1).Perm (liveBots arena e.ledger) := by
  unfold botsFor
  extract_lets all k
  split
  · exact List.Perm.refl _
  · change (all.drop k ++ all.take k).Perm all
    exact List.perm_append_comm.trans (.of_eq (List.take_append_drop k all))

theorem botsFor_alive (arena : Arena) (hk : Keyed e.ledger) : ∀ id ∈ (botsFor e arena.text).1, Alive arena e.ledger id :=
  fun _ hid => (mem_liveBots hk).mp ((botsFor_perm e arena).mem_iff.mp hid)

/-! ## Stakes of bots -/

/-- A lobby is open, at this price for a token unless it was forgotten. -/
structure Lobby (arena : Arena) (f : Field) (px : ℚ) (e : State) : Prop where
  phase : e.phaseOf arena = .lobby
  pos : 0 < px
  px : e.Remembers arena → e.roundPx (arena, e.roundOf arena, f) = px

theorem Lobby.keep {f : Field} {px : ℚ} (h : Lobby arena f px e) (hs : Sound s e) (hacts : Acts s K e e')
    (hK : ∀ k, K k → ∀ arena, k ≠ .turn arena) : Lobby arena f px e' where
  phase := ((hacts.samePhase hK) arena).1.trans h.phase
  pos := h.pos
  px := by
    intro hkept
    have hround := ((hacts.samePhase hK) arena).2
    have hprice := h.px ((hacts.px hs hK).remembers hround hkept)
    rw [State.Remembers, hround] at hkept
    rw [hround, (hacts.px hs hK).px _ _ hkept (hprice.symm ▸ h.pos)]
    exact hprice

theorem Staking.not_turn {k : Kind} (h : Staking arena k) (arena' : Arena) : k ≠ .turn arena' := by
  rcases h with rfl | rfl <;> simp

theorem Filling.not_turn {k : Kind} (h : Filling arena k) (arena' : Arena) : k ≠ .turn arena' := by
  rcases h with rfl | rfl | rfl <;> simp

theorem Renewing.not_turn {k : Kind} (h : Renewing arena k) (arena' : Arena) : k ≠ .turn arena' := by
  rcases h with rfl | rfl | ⟨n, rfl⟩ <;> simp

theorem Staking.filling {k : Kind} (h : Staking arena k) : Filling arena k := h.imp_right .inr

theorem Filling.dead {k : Kind} (h : Filling arena k) : ¬k.dead id := by
  rcases h with rfl | rfl | rfl <;> exact fun hf => hf

/-- Topping up is an act of the house, and what the bot then has is counted right. -/
theorem topUpTo_acts (hK : K .house) {f : Field} {px : ℚ} (want : ℚ) (hs : Sound s e)
    (hid : Alive arena e.ledger id) : Acts s K e (topUpTo s e id f px want).1 ∧
      (topUpTo s e id f px want).2 = (topUpTo s e id f px want).1.ledger.bal id f * px := by
  unfold topUpTo
  extract_lets held
  split
  · have hact : Acts s K e (topUp s e id f ((want - held) / px)).1 := .one hK (.topUp f _ hid)
    refine ⟨hact, ?_⟩
    obtain ⟨n, rfl⟩ := hid.born hs
    have hpool : botId arena.text n ∉ s.pool := fun hp => (s.pool_keys _ hp).1 (colon_mem_botId arena n)
    obtain ⟨hshift, h0⟩ := drawBank_shift s.pool f ((want - held) / px) 1 e.ledger
    unfold topUp
    rcases hdraw : drawBank s.pool e.ledger f ((want - held) / px) 1 with ⟨l, drawn⟩
    rw [hdraw] at hshift h0
    dsimp only at hshift h0 ⊢
    have hbal : l.bal (botId arena.text n) f = e.ledger.bal (botId arena.text n) f := Ledger.bal_shift hshift hpool
    have hget : (l.get (botId arena.text n)).isSome := (hshift.same.isSome _).trans hid.isSome
    split
    · rw [Ledger.bal_add hget, hbal, if_pos ⟨rfl, rfl⟩, add_mul]
    · rw [hbal]
  · exact ⟨.refl e, rfl⟩

/-- A stake of a bot at the price of its round. -/
theorem deployBot_acts {aid : ArenaId} {side : Side} {px usd : ℚ} (hK : K (.stake (.two aid)))
    (hid : Alive (.two aid) e.ledger id) (hlobby : Lobby (.two aid) (slotField aid side) px e)
    (hside : side = .bull ∨ side = .uwu) (h0 : 0 < usd) (hle : usd / px ≤ e.ledger.bal id (slotField aid side)) :
    Acts s K e (deployBot s e aid id side (usd / px) usd) := by
  refine .one hK (.stakeBot hid hlobby.phase hside h0 (div_pos h0 hlobby.pos) hle fun hkept => ?_)
  rw [hlobby.px hkept, div_mul_cancel₀ _ hlobby.pos.ne']

theorem MIN_ENTRY_pos : 0 < MIN_ENTRY := by norm_num [MIN_ENTRY]

theorem foeOf_side (side : Side) : foeOf side = .bull ∨ foeOf side = .uwu := by
  unfold foeOf
  split <;> simp

/-- Who can answer: a bot of the arena while its lobby is open at the price. -/
def Answers (arena : Arena) (f : Field) (px : ℚ) (e : State) (id : String) : Prop :=
  Alive arena e.ledger id ∧ Lobby arena f px e

theorem Answers.keep {f : Field} {px : ℚ} (hs : Sound s e) (hacts : Acts s K e e') (hK : ∀ k, K k → Filling arena k)
    (h : Answers arena f px e id) : Answers arena f px e' id :=
  ⟨hacts.alive hs h.1 fun k hk => (hK k hk).dead, h.2.keep hs hacts fun k hk => (hK k hk).not_turn⟩

theorem noteAnswer_quiet (e : State) (key : ArenaId × ℕ) (foe : Side) (give : ℚ) : Quiet e (noteAnswer e key foe give) := by
  unfold noteAnswer
  split <;> exact ⟨rfl, rfl, rfl, rfl, rfl, rfl, rfl, rfl, .of_eq rfl rfl⟩

theorem answerWith_acts {aid : ArenaId} {foe : Side} {px : ℚ} (hfoe : foe = .bull ∨ foe = .uwu) (spread : ℕ) (u : ℕ → ℚ)
    (st : State × ℚ × ℕ) (hs : Sound s st.1) (h : Answers (.two aid) (slotField aid foe) px st.1 id) :
    Acts s (Staking (.two aid)) st.1 (answerWith s aid foe px spread u st id).1 := by
  obtain ⟨e, need, idx⟩ := st
  unfold answerWith
  dsimp only at hs h
  dsimp -zeta only
  split
  · exact .refl e
  extract_lets f fair want give e₂
  have hpos := h.2.pos
  obtain ⟨hacts, hheld⟩ := topUpTo_acts (s := s) (K := Staking (.two aid)) (f := f) (.inl rfl) want hs h.1
  split
  · exact hacts
  · next hgive =>
      have hgive : 0 < give := MIN_ENTRY_pos.trans_le (not_lt.mp hgive)
      have hready := h.keep hs hacts fun k hk => hk.filling
      have hle : give / px ≤ (topUpTo s e id f px want).1.ledger.bal id f := by
        rw [div_le_iff₀ hpos, ← hheld]
        exact (min_le_left _ _).trans (min_le_right _ _)
      have hdeploy : Acts s (Staking (.two aid)) (topUpTo s e id f px want).1 e₂ :=
        deployBot_acts (.inr rfl) hready.1 hready.2 hfoe hgive hle
      exact (hacts.trans hdeploy).trans (.quiet (.inl rfl) (noteAnswer_quiet e₂ _ foe give))

theorem openBook_quiet (e : State) (key : ArenaId × ℕ) : Quiet e (openBook e key) := by
  unfold openBook
  split <;> exact ⟨rfl, rfl, rfl, rfl, rfl, rfl, rfl, rfl, .of_eq rfl rfl⟩

theorem Quiet.roundOf (h : Quiet e e') : e'.roundOf = e.roundOf := by
  funext arena
  cases arena with
  | two aid => simp [State.roundOf, h.two]
  | many aid => simp [State.roundOf, h.many]

theorem matchPlayerStake_acts (q : Quotes) (aid : ArenaId) (side : Side) (stakeUsd : ℚ) (u : ℕ → ℚ) (hs : Sound s e) :
    Acts s (Staking (.two aid)) e (matchPlayerStake s q aid side stakeUsd u e) := by
  unfold matchPlayerStake
  extract_lets round foe e₁ px e₂ need
  split
  · exact .refl e
  · next hphase =>
      have hphase := not_not.mp hphase
      have h₁ : Acts s (Staking (.two aid)) e e₁ := .quiet (.inl rfl) (freeze_quiet e _ _ _ q)
      split
      · exact h₁
      · next hpx =>
          have hpx := not_le.mp hpx
          have h₂ : Acts s (Staking (.two aid)) e e₂ := h₁.trans (.quiet (.inl rfl) (openBook_quiet e₁ _))
          split
          · exact h₂
          · have hs₂ := h₂.sound hs
            have hlobby₁ : Lobby (.two aid) (slotField aid foe) px e₁ := by
              refine ⟨?_, hpx, fun _ => ?_⟩
              · exact (((h₁.samePhase fun k hk => hk.not_turn) (.two aid)).1).trans hphase
              · rw [((h₁.samePhase fun k hk => hk.not_turn) (.two aid)).2]
                rfl
            have hlobby₂ : Lobby (.two aid) (slotField aid foe) px e₂ :=
              hlobby₁.keep (h₁.sound hs) (.quiet (K := Staking (.two aid)) (.inl rfl) (openBook_quiet e₁ _))
                fun k hk => hk.not_turn
            have hquiet := botsFor_quiet e₂ aid.text
            have hmem : ∀ id ∈ (botsFor e₂ aid.text).1, Alive (.two aid) e₂.ledger id :=
              botsFor_alive (.two aid) hs₂.keyed
            rcases hscan : botsFor e₂ aid.text with ⟨all, e₃⟩
            rw [hscan] at hquiet hmem
            dsimp only at hquiet hmem ⊢
            have h₃ : Acts s (Staking (.two aid)) e₂ e₃ := .quiet (.inl rfl) hquiet
            refine (h₂.trans h₃).trans ?_
            refine Acts.foldl Prod.fst (Answers (.two aid) (slotField aid foe) px)
              (fun e e' id hs hacts h => h.keep hs hacts fun k hk => hk.filling)
              (fun st id hs h => answerWith_acts (foeOf_side side) _ u st hs h) _ (e₃, need, 0) (h₃.sound hs₂) ?_
            intro id hid
            have hall : id ∈ all := by
              rcases List.mem_append.mp hid with hid | hid <;> exact (List.mem_filter.mp hid).1
            have hready : Answers (.two aid) (slotField aid foe) px e₂ id := ⟨hmem id hall, hlobby₂⟩
            exact hready.keep hs₂ h₃ fun k hk => hk.filling

/-! ## The enter message -/

theorem prepared_acts (q : Quotes) (m : EnterMsg) (e : State) : Acts s Housekeeping e (prepared q m e) := by
  have hjoin : Acts s Housekeeping e { e with ledger := acct e.ledger m.wallet m.side } := .one rfl (.join e m.side m.key)
  unfold prepared
  extract_lets e₁
  split
  · exact hjoin
  · exact hjoin.trans (.quiet rfl (freeze_quiet e₁ _ _ _ q))

theorem prepared_isSome (q : Quotes) (m : EnterMsg) (e : State) : ((prepared q m e).ledger.get m.wallet).isSome := by
  unfold prepared
  extract_lets e₁
  have hget : (e₁.ledger.get m.wallet).isSome := acct_isSome e.ledger m.wallet m.side
  split
  · exact hget
  · rwa [freeze_ledger]

/-- A message that passes the checks is a stake of the player, and what the house answers. -/
theorem enterMessage_cases (q : Quotes) (u : ℕ → ℚ) (m : EnterMsg) (hs : Sound s e) :
    enterMessage s q u m e = e ∨ enterMessage s q u m e = prepared q m e ∨
      (accepts (prepared q m e) m = true ∧ ∃ e₁, Act s (.player m) (prepared q m e) e₁ ∧
        Acts s (Staking (.two m.aid)) e₁ (enterMessage s q u m e)) := by
  have hs₁ : Sound s (prepared q m e) := (prepared_acts q m e).sound hs
  have hget := prepared_isSome q m e
  unfold enterMessage
  split
  · exact .inl rfl
  extract_lets e₁ px stake
  change Sound s e₁ at hs₁
  change (e₁.ledger.get m.wallet).isSome at hget
  split
  · exact .inr (.inl rfl)
  · next hok =>
      have hok : accepts e₁ m = true := by simpa using hok
      refine .inr (.inr ⟨hok, deployPlayer s e₁ m stake px, ?_⟩)
      simp only [accepts, Bool.and_eq_true, decide_eq_true_eq] at hok
      obtain ⟨⟨⟨hphase, hpx⟩, -⟩, hmin⟩ := hok
      have hstake : 0 < stake := pos_of_mul_pos_left (MIN_ENTRY_pos.trans_le hmin) hpx.le
      have hact : Act s (.player m) e₁ (deployPlayer s e₁ m stake px) :=
        .stakePlayer hget hphase hpx hstake ((min_le_left _ _).trans (min_le_right _ _)) rfl
      exact ⟨hact, matchPlayerStake_acts q _ _ _ u (hact.sound hs₁)⟩

/-! ## Filling a lobby -/

theorem fillSide_acts (q : Quotes) (aid : ArenaId) (side : Side) (n : ℕ) (d : ℕ → BotDraw) (e : State) :
    Acts s (Filling (.two aid)) e (fillSide s q aid side n d e) := by
  induction n generalizing d e with
  | zero => exact .refl e
  | succ n ih =>
      rw [fillSide]
      have hscan : Acts s (Filling (.two aid)) e (botsFor e aid.text).2 := .quiet (.inl rfl) (botsFor_quiet e _)
      rcases hbots : botsFor e aid.text with ⟨bots, e₁⟩
      rw [hbots] at hscan
      dsimp only at hscan ⊢
      split
      · have hnew : Acts s (Filling (.two aid)) e₁ (newBot s e₁ q aid side (d 0)).1 :=
          .one (.inr (.inl rfl)) (.newBot e₁ q aid side (d 0))
        rcases hmade : newBot s e₁ q aid side (d 0) with ⟨e₂, made⟩
        rw [hmade] at hnew
        dsimp only at hnew
        cases made with
        | true => exact (hscan.trans hnew).trans (ih _ e₂)
        | false => exact hscan.trans hnew
      · exact hscan

theorem addMinimum_acts {aid : ArenaId} {side : Side} {px : ℚ} (hside : side = .bull ∨ side = .uwu) (st : State × ℕ)
    (hs : Sound s st.1) (h : Answers (.two aid) (slotField aid side) px st.1 id) :
    Acts s (Filling (.two aid)) st.1 (addMinimum s aid side px st id).1 := by
  obtain ⟨e, count⟩ := st
  unfold addMinimum
  dsimp only at hs h
  dsimp -zeta only
  extract_lets minUsd
  have hpos := h.2.pos
  split
  · exact .refl e
  split
  · exact .refl e
  obtain ⟨hacts, hheld⟩ := topUpTo_acts (s := s) (K := Filling (.two aid)) (f := slotField aid side) (.inl rfl) minUsd hs h.1
  split
  · exact hacts
  · next hle =>
      have hready := h.keep hs hacts fun k hk => hk
      refine hacts.trans (deployBot_acts (.inr (.inr rfl)) hready.1 hready.2 hside s.stake_pos ?_)
      rw [div_le_iff₀ hpos, ← hheld]
      exact not_lt.mp hle

theorem ensureSide_acts (q : Quotes) {aid : ArenaId} (d : Side → ℕ → BotDraw) {side : Side}
    (hside : side = .bull ∨ side = .uwu) (hs : Sound s e) (hphase : (e.two aid).state.phase = .lobby) :
    Acts s (Filling (.two aid)) e (ensureSide s q aid d e side) := by
  unfold ensureSide
  extract_lets round f e₁ px count e₂
  have h₁ : Acts s (Filling (.two aid)) e e₁ := .quiet (.inl rfl) (freeze_quiet e _ _ _ q)
  split
  · exact h₁
  · next hpx =>
      split
      · exact h₁
      · have hlobby₁ : Lobby (.two aid) f px e₁ := by
          refine ⟨?_, not_le.mp hpx, fun _ => ?_⟩
          · exact (((h₁.samePhase fun k hk => hk.not_turn) (.two aid)).1).trans hphase
          · rw [((h₁.samePhase fun k hk => hk.not_turn) (.two aid)).2]
            rfl
        have hfill : Acts s (Filling (.two aid)) e₁ e₂ := fillSide_acts q aid side _ _ e₁
        have hs₁ := h₁.sound hs
        have hs₂ := hfill.sound hs₁
        have hmem : ∀ id ∈ (botsFor e₂ aid.text).1, Alive (.two aid) e₂.ledger id :=
        botsFor_alive (.two aid) hs₂.keyed
        have h₃ : Acts s (Filling (.two aid)) e₂ (botsFor e₂ aid.text).2 := .quiet (.inl rfl) (botsFor_quiet e₂ _)
        refine ((h₁.trans hfill).trans h₃).trans ?_
        refine Acts.foldl Prod.fst (Answers (.two aid) f px) (fun e e' id hs hacts h => h.keep hs hacts fun k hk => hk)
          (fun st id hs h => addMinimum_acts hside st hs h) _ (_, count) (h₃.sound hs₂) fun id hid => ?_
        have hready : Answers (.two aid) f px e₂ id := ⟨hmem id hid, hlobby₁.keep hs₁ hfill fun k hk => hk.not_turn⟩
        exact hready.keep hs₂ h₃ fun k hk => hk

theorem ensureMinimumEntries_acts (q : Quotes) (aid : ArenaId) (d : Side → ℕ → BotDraw) (hs : Sound s e) :
    Acts s (Filling (.two aid)) e (ensureMinimumEntries s q aid d e) := by
  unfold ensureMinimumEntries
  split
  · exact .refl e
  · next hphase =>
      have hphase := not_not.mp hphase
      have hbull := ensureSide_acts q d (.inl rfl : Side.bull = .bull ∨ Side.bull = .uwu) hs hphase
      have hphase' := ((hbull.samePhase fun k hk => hk.not_turn) (.two aid)).1.trans hphase
      exact hbull.trans (ensureSide_acts q d (.inr rfl) (hbull.sound hs) hphase')

/-! ## The bots of a lobby -/

/-- The bots of an arena beyond a few rotations of entrants, the poorest first. -/
def thin (s : Settings) (e : State) (q : Quotes) (aid : ArenaId) : List String :=
  let perSideCap := if 0 < s.PLAY_MAX then s.PLAY_MAX else 9
  let target := max 6 (perSideCap * 2 * s.POP_ROTATIONS)
  let (bots, e) := botsFor e aid.text
  let byWorth := bots.mergeSort fun x y => worth q.safe (e.account x) ≤ worth q.safe (e.account y)
  if bots.length ≤ target then [] else byWorth.take (bots.length - target)

theorem capPopulation_eq (s : Settings) (e : State) (q : Quotes) (aid : ArenaId) :
    capPopulation s e q aid = (thin s e q aid).foldl (retireBot s) (botsFor e aid.text).2 := by
  unfold capPopulation thin
  extract_lets perSideCap target
  rcases botsFor e aid.text with ⟨bots, e₁⟩
  dsimp only
  split <;> rfl

theorem thin_alive (hs : Sound s e) {q : Quotes} {aid : ArenaId} (h : id ∈ thin s e q aid) : Alive (.two aid) e.ledger id := by
  have hmem : id ∈ (botsFor e aid.text).1 := by
    unfold thin at h
    extract_lets perSideCap target at h
    dsimp only at h
    split at h
    · cases h
    · exact (List.mergeSort_perm _ _).mem_iff.mp (List.mem_of_mem_take h)
  exact botsFor_alive (.two aid) hs.keyed id hmem

theorem BotOf.keep {k : Kind} {e e' : State} (h : Held k.dead e e') (hid : BotOf arena e.ledger id) :
    BotOf arena e'.ledger id := by
  obtain ⟨a, ha, hbot, hprefix⟩ := hid
  obtain ⟨a', ha', hbot', -⟩ := h.lasts id a ha
  exact ⟨a', ha', hbot' hbot, hprefix⟩

theorem Acts.botOf (h : Acts s K e e') (hs : Sound s e) (hid : BotOf arena e.ledger id) : BotOf arena e'.ledger id :=
  (h.keep (P := fun e => BotOf arena e.ledger id) hs (fun _ _ _ _ hs hact h0 => h0.keep (hact.held hs)) hid).2

/-- A bot of an arena has the id that it was made under, retired or not. -/
theorem BotOf.born (h : BotOf arena e.ledger id) (hs : Sound s e) : ∃ n, id = botId arena.text n := by
  obtain ⟨a, ha, hbot, hprefix⟩ := h
  have hcolon := colon_of_startsWith hprefix
  rcases hs.bots id a ha hbot with hpool | rfl | ⟨arena', n, rfl⟩
  · exact absurd hcolon (s.pool_keys id hpool).1
  · exact absurd rfl (treasury_ne hcolon)
  · exact ⟨n, by rw [arena_of_botId hprefix]⟩

theorem retireBot_acts (hK : K (.retire id)) (hid : BotOf arena e.ledger id) : Acts s K e (retireBot s e id) := by
  obtain ⟨a, ha, hbot, hprefix⟩ := hid
  exact .one hK (.retire ha hbot (colon_of_startsWith hprefix))

theorem capPopulation_acts (q : Quotes) (aid : ArenaId) (hs : Sound s e) :
    Acts s (Retiring (thin s e q aid)) e (capPopulation s e q aid) := by
  rw [capPopulation_eq]
  have hscan : Acts s (Retiring (thin s e q aid)) e (botsFor e aid.text).2 := .quiet (.inl rfl) (botsFor_quiet e _)
  refine hscan.trans ?_
  refine Acts.foldl (fun e => e) (fun e' id => id ∈ thin s e q aid ∧ BotOf (.two aid) e'.ledger id)
    (fun e e' id hs hacts h => ⟨h.1, hacts.botOf hs h.2⟩) (fun e' id _ h => retireBot_acts (.inr ⟨id, h.1, rfl⟩) h.2) _ _
    (hscan.sound hs) fun id hid => ⟨hid, ?_⟩
  exact hscan.botOf hs (thin_alive hs hid).botOf

/-- A bot that can pay for its side has chosen it. -/
theorem chooseSide_pays {q : Quotes} {aid : ArenaId} {a : Account} {u : ℚ}
    (h : minStakeOf s q (slotField aid (chooseSide s q aid a u)) ≤ a.bal (slotField aid (chooseSide s q aid a u))) :
    chooseSide s q aid a u = .bull ∨ chooseSide s q aid a u = .uwu := by
  generalize hside : chooseSide s q aid a u = side at h ⊢
  unfold chooseSide at hside
  extract_lets fA fB okA okB vA vB pA at hside
  split at hside
  · split at hside
    · exact .inl hside.symm
    · exact .inr hside.symm
  split at hside
  · exact .inl hside.symm
  · next hA =>
      split at hside
      · exact .inr hside.symm
      · next hB =>
          -- it keeps the side it had, and can pay for neither
          by_cases hbull : side = .bull
          · exact .inl hbull
          · have hf : slotField aid side = fB := by simp [fB, slotField, slotTok, hbull]
            rw [hf] at h
            exact absurd h hB

theorem botEnter_acts (q : Quotes) {aid : ArenaId} (st : State × (ℕ → PlayDraw)) (hs : Sound s st.1)
    (hid : Alive (.two aid) st.1.ledger id) (hphase : (st.1.two aid).state.phase = .lobby) :
    Acts s (Staking (.two aid)) st.1 (botEnter s q aid st id).1 := by
  obtain ⟨e, d⟩ := st
  unfold botEnter
  dsimp only at hs hid hphase
  dsimp -zeta only
  extract_lets rest a side e₁ f minStake stake round e₂ usdN
  have h₁ : Acts s (Staking (.two aid)) e e₁ := .one (.inl rfl) (.touch e id (cosmetic_side side))
  have h₂ : Acts s (Staking (.two aid)) e₁ e₂ := .quiet (.inl rfl) (freeze_quiet e₁ _ _ _ q)
  split
  · exact .refl e
  split
  · exact h₁
  · next hstake =>
      split
      · exact h₁.trans h₂
      · next husd =>
          have husd := not_le.mp husd
          obtain ⟨hmin, hstake⟩ := not_or.mp hstake
          have hstake0 : 0 < stake := (not_le.mp hmin).trans_le (not_lt.mp hstake)
          have h12 := h₁.trans h₂
          have hsame := h12.samePhase fun k hk => hk.not_turn
          have hround : e₂.roundOf (.two aid) = round := (hsame (.two aid)).2
          have hbal : e₂.ledger.bal id f = a.bal f := by
            rw [show e₂.ledger = e₁.ledger from freeze_ledger e₁ _ _ _ q, show e₁.ledger = e.ledger.modify id _ from rfl,
              touch_bal (cosmetic_side side)]
            obtain ⟨b, hb, -⟩ := hid
            rw [Ledger.bal_of_get hb, show a = b by simp [a, State.account, hb]]
          have hle : stake ≤ a.bal f := by
            simp only [stake, botStake]
            split <;> exact min_le_right _ _
          have hside : side = .bull ∨ side = .uwu := chooseSide_pays ((not_lt.mp hstake).trans hle)
          have hdeploy : Acts s (Staking (.two aid)) e₂ (deployBot s e₂ aid id side stake usdN) := by
            refine .one (.inr rfl) (.stakeBot (h12.alive hs hid fun k hk => hk.filling.dead) ?_ hside husd hstake0 ?_
              fun _ => ?_)
            · exact (hsame (.two aid)).1.trans hphase
            · exact hle.trans hbal.ge
            · rw [hround]
          exact h12.trans hdeploy

theorem botsEnter_acts (q : Quotes) (aid : ArenaId) (pick : Side → Pick) (d : ℕ → PlayDraw) (hs : Sound s e) :
    Acts s (Staking (.two aid)) (capPopulation s e q aid) (botsEnter s q aid pick d e) := by
  have hs₁ := (capPopulation_acts q aid hs).sound hs
  unfold botsEnter
  extract_lets e₁
  change Sound s e₁ at hs₁
  split
  · exact .refl e₁
  · next hphase =>
      have hphase := not_not.mp hphase
      have hscan : Acts s (Staking (.two aid)) e₁ (botsFor e₁ aid.text).2 := .quiet (.inl rfl) (botsFor_quiet e₁ _)
      have hmem : ∀ id ∈ (botsFor e₁ aid.text).1, Alive (.two aid) e₁.ledger id :=
        botsFor_alive (.two aid) hs₁.keyed
      rcases hbots : botsFor e₁ aid.text with ⟨bots, e₂⟩
      rw [hbots] at hscan hmem
      dsimp only at hscan hmem
      dsimp -zeta only
      extract_lets chosen
      have hchosen : ∀ id ∈ chosen, id ∈ bots := by
        intro id hid
        have hside : ∀ side, id ∈ pickSide s e₂ bots (roomFor s e₂ aid) side (pick side) → id ∈ bots := by
          intro side hside
          unfold pickSide at hside
          extract_lets lo want at hside
          exact (List.mem_filter.mp (((pick side).perm _).mem_iff.mp (List.mem_of_mem_take hside))).1
        simp only [chosen] at hid
        split at hid
        · exact (List.mem_append.mp hid).elim (hside _) (hside _)
        · exact hid
      refine hscan.trans ?_
      refine Acts.foldl Prod.fst (fun e id => Alive (.two aid) e.ledger id ∧ e.phaseOf (.two aid) = .lobby)
        (fun e e' id hs hacts h => ⟨hacts.alive hs h.1 fun k hk => hk.filling.dead,
          ((hacts.samePhase fun k hk => hk.not_turn) (.two aid)).1.trans h.2⟩)
        (fun st id hs h => botEnter_acts q st hs h.1 h.2) _ (e₂, d) (hscan.sound hs₁) fun id hid => ?_
      exact ⟨hscan.alive hs₁ (hmem id (hchosen id hid)) fun k hk => hk.filling.dead,
        ((hscan.samePhase fun k hk => hk.not_turn) (.two aid)).1.trans hphase⟩

end BullsUnicorns.Engine

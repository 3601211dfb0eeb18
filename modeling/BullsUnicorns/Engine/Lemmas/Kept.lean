import BullsUnicorns.Engine.Lemmas.Sound

/-!
# What every act keeps

An act keeps the state sound: it is booked, it turns each runner by the rules, and a price once frozen stays until
its round is forgotten.
-/

namespace BullsUnicorns.Engine

open Battle

/-! ## A sound state -/

/-- An entry has an owner with an account, and its token a price that is frozen until the round is forgotten. -/
def Placed (e : State) (aid : ArenaId) (id : String) (side : Side) : Prop :=
  ∃ owner, id = entryId owner side ∧ Owner (.two aid) owner ∧ (e.ledger.get owner).isSome ∧
    (e.Remembers (.two aid) → 0 < e.roundPx (.two aid, e.roundOf (.two aid), slotField aid side))

def PlacedN (s : Settings) (e : State) (aid : NArena) (id : String) (team : ℚ) : Prop :=
  ∃ owner, id = entryIdN s owner team ∧ Owner (.many aid) owner ∧ (e.ledger.get owner).isSome ∧
    (e.Remembers (.many aid) → 0 < e.roundPx (.many aid, e.roundOf (.many aid), aid.field team))

/-- The account has been retired. -/
def Retired (l : Ledger) (id : String) : Prop := ∃ a, l.get id = some a ∧ a.retired = true

/-- An entry that is made: its owner has not been retired. -/
def Entering (e : State) (aid : ArenaId) (id : String) (side : Side) : Prop :=
  Placed e aid id side ∧ ¬Retired e.ledger (walletOf id)

def EnteringN (s : Settings) (e : State) (aid : NArena) (id : String) (team : ℚ) : Prop :=
  PlacedN s e aid id team ∧ ¬Retired e.ledger (walletOf id)

structure Sound (s : Settings) (e : State) : Prop where
  nonneg : e.ledger.Nonneg
  keyed : Keyed e.ledger
  bots : ∀ id a, e.ledger.get id = some a → a.isBot = true → id ∈ s.pool ∨ Born id
  retired : ∀ id a, e.ledger.get id = some a → a.retired = true → ':' ∈ id.toList
  two : ∀ aid, Fit (RoundRunner s.platform s.round aid.eco) (Placed e aid) (e.two aid)
  many : ∀ aid, Fit (RoundRunnerN s.platform s.round aid.eco aid.teams) (PlacedN s e aid) (e.many aid)

/-- The accounts that an act may retire. -/
def Kind.dead : Kind → String → Prop
  | .retire id => (· = id)
  | _ => nobody

variable {s : Settings} {k : Kind} {e e' : State}

/-- A bot of an arena that has not been retired has the id that it was made under. -/
theorem Alive.born {arena : Arena} {id : String} (h : Alive arena e.ledger id) (hs : Sound s e) :
    ∃ n, id = botId arena.text n := by
  obtain ⟨a, ha, hbot, hprefix, -⟩ := h
  have hcolon := colon_of_startsWith hprefix
  rcases hs.bots id a ha hbot with hpool | rfl | ⟨arena', n, rfl⟩
  · exact absurd hcolon (s.pool_keys id hpool).1
  · exact absurd rfl (treasury_ne hcolon)
  · exact ⟨n, by rw [arena_of_botId hprefix]⟩

theorem Alive.owner {arena : Arena} {id : String} (h : Alive arena e.ledger id) (hs : Sound s e) : Owner arena id :=
  .inr (h.born hs)

theorem Alive.isSome {arena : Arena} {id : String} (h : Alive arena e.ledger id) : (e.ledger.get id).isSome := by
  obtain ⟨a, ha, -⟩ := h
  simp [ha]

theorem Alive.not_retired {l : Ledger} {arena : Arena} {id : String} (h : Alive arena l id) : ¬Retired l id := by
  obtain ⟨a, ha, -, -, hret⟩ := h
  rintro ⟨b, hb, hret'⟩
  rw [ha, Option.some_inj] at hb
  rw [← hb, hret] at hret'
  cases hret'

/-- No player is ever retired. -/
theorem Held.key_not_retired {dead : String → Prop} (h : Held dead e e') (hs : Sound s e) {id : String} (hkey : IsKey id)
    (hdead : ¬dead id) : ¬Retired e'.ledger id := by
  rintro ⟨a', ha', hret⟩
  rcases h.retirees id a' ha' hret with ⟨a, ha, hret⟩ | hd
  · exact hkey.1 (hs.retired id a ha hret)
  · exact hdead hd

theorem Held.isSome {dead : String → Prop} (h : Held dead e e') {id : String} (hid : (e.ledger.get id).isSome) :
    (e'.ledger.get id).isSome := by
  obtain ⟨a, ha⟩ := Option.isSome_iff_exists.mp hid
  obtain ⟨a', ha', -⟩ := h.lasts id a ha
  simp [ha']

/-- A bot lives on through what does not retire it. -/
theorem Held.alive {dead : String → Prop} (h : Held dead e e') {arena : Arena} {id : String}
    (hid : Alive arena e.ledger id) (hdead : ¬dead id) : Alive arena e'.ledger id := by
  obtain ⟨a, ha, hbot, hprefix, hret⟩ := hid
  obtain ⟨a', ha', hbot', hret'⟩ := h.lasts id a ha
  exact ⟨a', ha', hbot' hbot, hprefix, hret' hret hdead⟩

/-! ## Acts are booked -/

theorem settlement_nonneg (hs : Sound s e) {aid : ArenaId} {r : RoundResult} (hphase : (e.two aid).state.phase = .battle)
    (hr : (e.two aid).state.result = some r) : ∀ pay ∈ r.settlement.values, 0 ≤ pay.bull ∧ 0 ≤ pay.uwu := by
  obtain ⟨seed, multiplier, hfight⟩ := (hs.two aid).fought hphase
  rw [hr, Option.some_inj] at hfight
  rw [hfight]
  exact fightRound_nonneg seed (fun en hen => ((hs.two aid).stakes en hen).le) rfl

theorem settlementN_nonneg (hs : Sound s e) {aid : NArena} {r : ResultN} (hphase : (e.many aid).state.phase = .battle)
    (hr : (e.many aid).state.result = some r) : ∀ pay ∈ r.settlement.values, 0 ≤ pay := by
  obtain ⟨seed, multiplier, hfight⟩ := (hs.many aid).fought hphase
  rw [hr, Option.some_inj] at hfight
  rw [hfight]
  exact N.simulateN_nonneg seed fun en hen => ((hs.many aid).stakes en hen).le

/-- An act that gives no taken id to a new bot, and no bank that nobody backs, is booked. -/
theorem Act.booked (h : Act s k e e') (hs : Sound s e) (hnew : ∀ arena, k = .newBot arena →
    s.FAKE_BANK_OK = false ∧ e.ledger.get (botId arena.text (e.seq + 1)) = none) : Booked s.pool k.dead e e' := by
  cases h with
  | quiet h => exact .of_eq h.ledger h.flows
  | touch e id hg => exact .touch hg e id
  | join e side _ => exact .acct e _ side
  | topUp f amount halive =>
      obtain ⟨a, ha, hbot, -⟩ := halive
      exact .topUp ha hbot f amount
  | skim q f ha hbot _ _ => exact .skim q f ha hbot
  | newBot e q aid side d =>
      obtain ⟨hreal, hfree⟩ := hnew _ rfl
      have hseq : Booked s.pool nobody e { e with seq := e.seq + 1 } := .of_eq rfl rfl
      exact hseq.and (Booked.makeBot (e := { e with seq := e.seq + 1 }) q _ _ _ (fun _ => rfl) rfl rfl
        (.inr ⟨.two aid, _, rfl⟩) hfree hreal)
  | newBotN e q aid d =>
      obtain ⟨hreal, hfree⟩ := hnew _ rfl
      have hseq : Booked s.pool nobody e { e with seq := e.seq + 1 } := .of_eq rfl rfl
      exact hseq.and (Booked.makeBot (e := { e with seq := e.seq + 1 }) q _ _ _ (fun _ => rfl) rfl rfl
        (.inr ⟨.many aid, _, rfl⟩) hfree hreal)
  | retire ha hbot hid => exact .retire ha hbot (fun hpool => (s.pool_keys _ hpool).1 hid) hs.nonneg
  | stakeBot halive _ _ husd _ hle _ => exact .deployBot halive.isSome hle husd.le
  | stakeBotN halive _ _ husd _ hle _ => exact .deployBotN halive.isSome hle husd.le
  | stakePlayer hget _ hpx h0 hle _ => exact .deployPlayer hget hle h0.le hpx.le
  | stakePlayerN hget _ husd _ hle _ => exact .deployPlayerN hget hle husd.le
  | fight _ => exact .of_eq rfl rfl
  | fightN _ => exact .of_eq rfl rfl
  | settle q hphase hr => exact .settleRound q _ (settlement_nonneg hs hphase hr)
  | settleN q hphase hr => exact .settleRoundN q _ (settlementN_nonneg hs hphase hr)
  | reopen d _ => exact .of_eq rfl rfl
  | reopenN d _ => exact .of_eq rfl rfl

theorem Act.held (h : Act s k e e') (hs : Sound s e) : Held k.dead e e' := by
  by_cases hk : ∃ arena, k = .newBot arena
  · have hseq : Held nobody e { e with seq := e.seq + 1 } := (Booked.of_eq rfl rfl : Booked s.pool nobody e { e with seq := e.seq + 1 }).toHeld
    obtain ⟨arena, rfl⟩ := hk
    cases h with
    | newBot e q aid side d =>
        exact (hseq.trans (Held.makeBot s _ q _ _ _ (fun _ => rfl) rfl rfl (.inr ⟨.two aid, _, rfl⟩))).mono
          fun _ hd => hd.elim id id
    | newBotN e q aid d =>
        exact (hseq.trans (Held.makeBot s _ q _ _ _ (fun _ => rfl) rfl rfl (.inr ⟨.many aid, _, rfl⟩))).mono
          fun _ hd => hd.elim id id
  · exact (h.booked hs fun arena he => absurd ⟨arena, he⟩ hk).toHeld

/-! ## Acts turn the runners by the rules -/

/-- What an act does to the runners and the prices. -/
structure Turns (s : Settings) (e e' : State) : Prop where
  two : ∀ aid, Turned (RoundRunner s.platform s.round aid.eco) (Entering e' aid) (e.two aid) (e'.two aid)
  many : ∀ aid, Turned (RoundRunnerN s.platform s.round aid.eco aid.teams) (EnteringN s e' aid) (e.many aid) (e'.many aid)
  px : KeepsPx e e'
  seq : e.seq ≤ e'.seq

theorem Turns.of_still (h : Still e e') : Turns s e e' where
  two := fun aid => by
    rw [h.two]
    exact .same _
  many := fun aid => by
    rw [h.many]
    exact .same _
  px := h.px
  seq := h.seq

/-- One two-team runner turns, and the rest is still. -/
theorem Turns.of_two {aid : ArenaId} {r : Runner Entry RoundResult} (htwo : e'.two = Function.update e.two aid r)
    (hmany : e'.many = e.many) (hpx : KeepsPx e e') (hseq : e.seq ≤ e'.seq)
    (h : Turned (RoundRunner s.platform s.round aid.eco) (Entering e' aid) (e.two aid) r) : Turns s e e' where
  two := fun aid' => by
    rw [htwo]
    by_cases haid : aid' = aid
    · subst haid
      rwa [Function.update_self]
    · rw [Function.update_of_ne haid]
      exact .same _
  many := fun aid' => by
    rw [hmany]
    exact .same _
  px := hpx
  seq := hseq

theorem Turns.of_many {aid : NArena} {r : Runner EntryN ResultN} (htwo : e'.two = e.two)
    (hmany : e'.many = Function.update e.many aid r) (hpx : KeepsPx e e') (hseq : e.seq ≤ e'.seq)
    (h : Turned (RoundRunnerN s.platform s.round aid.eco aid.teams) (EnteringN s e' aid) (e.many aid) r) :
    Turns s e e' where
  two := fun aid' => by
    rw [htwo]
    exact .same _
  many := fun aid' => by
    rw [hmany]
    by_cases haid : aid' = aid
    · subst haid
      rwa [Function.update_self]
    · rw [Function.update_of_ne haid]
      exact .same _
  px := hpx
  seq := hseq

/-- A stake goes into the lobby of its arena, under its owner. -/
theorem Turns.enterRound {e₁ : State} {aid : ArenaId} {owner : String} {side : Side} {stake : ℚ} (hstill : Still e e₁)
    (hlobby : (e.two aid).state.phase = .lobby) (h0 : 0 < stake) (howner : Owner (.two aid) owner)
    (hget : (e₁.ledger.get owner).isSome) (hret : ¬Retired e₁.ledger owner)
    (hpx : e.Remembers (.two aid) → 0 < e.roundPx (.two aid, e.roundOf (.two aid), slotField aid side)) :
    Turns s e (State.enterRound s e₁ aid owner side stake) := by
  have hrun : (enter (RoundRunner s.platform s.round aid.eco) (e₁.two aid) (entryId owner side) side stake).2 =
      { e.two aid with state := { (e.two aid).state with
        entries := place (RoundRunner s.platform s.round aid.eco) (entryId owner side) side stake (e.two aid).state.entries } } := by
    rw [enter, hstill.two, if_neg (by simp [hlobby])]
  refine Turns.of_two (by rw [State.enterRound, hrun, hstill.two]) hstill.many ⟨hstill.px.forgotten, hstill.px.px⟩
    hstill.seq ?_
  refine .entered hlobby h0 ⟨⟨owner, rfl, howner, hget, ?_⟩, by rwa [walletOf_entryId side howner.clean]⟩
  have hround : (State.enterRound s e₁ aid owner side stake).roundOf (.two aid) = e.roundOf (.two aid) := by
    simp only [State.roundOf, State.enterRound, hrun, Function.update_self]
  intro hkept
  rw [State.Remembers, hround] at hkept
  have hpos := hpx fun hmem => hkept (hstill.px.forgotten _ hmem)
  rw [hround]
  exact (hstill.px.px _ _ hkept hpos).symm ▸ hpos

theorem Turns.enterRoundN {e₁ : State} {aid : NArena} {owner : String} {team stake : ℚ} (hstill : Still e e₁)
    (hlobby : (e.many aid).state.phase = .lobby) (h0 : 0 < stake) (howner : Owner (.many aid) owner)
    (hget : (e₁.ledger.get owner).isSome) (hret : ¬Retired e₁.ledger owner)
    (hpx : e.Remembers (.many aid) → 0 < e.roundPx (.many aid, e.roundOf (.many aid), aid.field team)) :
    Turns s e (State.enterRoundN s e₁ aid owner team stake) := by
  have hrun : (enter (RoundRunnerN s.platform s.round aid.eco aid.teams) (e₁.many aid) (entryIdN s owner team) team stake).2 =
      { e.many aid with state := { (e.many aid).state with
        entries := place (RoundRunnerN s.platform s.round aid.eco aid.teams) (entryIdN s owner team) team stake
          (e.many aid).state.entries } } := by
    rw [enter, hstill.many, if_neg (by simp [hlobby])]
  refine Turns.of_many hstill.two (by rw [State.enterRoundN, hrun, hstill.many])
    ⟨hstill.px.forgotten, hstill.px.px⟩ hstill.seq ?_
  refine .entered hlobby h0 ⟨⟨owner, rfl, howner, hget, ?_⟩, by rwa [walletOf_entryIdN s team howner.clean]⟩
  have hround : (State.enterRoundN s e₁ aid owner team stake).roundOf (.many aid) = e.roundOf (.many aid) := by
    simp only [State.roundOf, State.enterRoundN, hrun, Function.update_self]
  intro hkept
  rw [State.Remembers, hround] at hkept
  have hpos := hpx fun hmem => hkept (hstill.px.forgotten _ hmem)
  rw [hround]
  exact (hstill.px.px _ _ hkept hpos).symm ▸ hpos

theorem net_pos {usd : ℚ} (h : 0 < usd) : 0 < usd * (1 - FEE) := mul_pos h (sub_pos.mpr FEE_lt)

theorem settleRound_still (q : Quotes) (aid : ArenaId) (r : RoundResult) (e : State) :
    Still { e with two := Function.update e.two aid (settling (e.two aid)) } (settleRound q aid r e) :=
  still_foldl (fun e pay => still_payFighter e q aid _ pay) _ _

theorem settleRoundN_still (s : Settings) (q : Quotes) (aid : NArena) (r : ResultN) (e : State) :
    Still { e with many := Function.update e.many aid (settling (e.many aid)) } (settleRoundN s q aid r e) :=
  still_foldl (fun e pay => still_payFighterN s e q aid _ pay) _ _

theorem roundOf_two {aid : ArenaId} {r : Runner Entry RoundResult} (htwo : e'.two = Function.update e.two aid r)
    (hmany : e'.many = e.many) : e'.roundOf = Function.update e.roundOf (.two aid) r.state.round := by
  funext arena
  cases arena with
  | two aid' =>
      by_cases haid : aid' = aid
      · subst haid
        simp [State.roundOf, htwo]
      · simp [State.roundOf, htwo, haid]
  | many aid' => simp [State.roundOf, hmany]

theorem roundOf_many {aid : NArena} {r : Runner EntryN ResultN} (htwo : e'.two = e.two)
    (hmany : e'.many = Function.update e.many aid r) :
    e'.roundOf = Function.update e.roundOf (.many aid) r.state.round := by
  funext arena
  cases arena with
  | two aid' => simp [State.roundOf, htwo]
  | many aid' =>
      by_cases haid : aid' = aid
      · subst haid
        simp [State.roundOf, hmany]
      · simp [State.roundOf, hmany, haid]

/-- A runner changes within its round. -/
theorem roundOf_kept {aid : ArenaId} {r : Runner Entry RoundResult} (h : r.state.round = (e.two aid).state.round) :
    { e with two := Function.update e.two aid r }.roundOf = e.roundOf := by
  refine (roundOf_two (e := e) (r := r) (by rfl) (by rfl)).trans ?_
  rw [h]
  exact Function.update_eq_self (Arena.two aid) e.roundOf

theorem roundOf_keptN {aid : NArena} {r : Runner EntryN ResultN} (h : r.state.round = (e.many aid).state.round) :
    { e with many := Function.update e.many aid r }.roundOf = e.roundOf := by
  refine (roundOf_many (e := e) (r := r) (by rfl) (by rfl)).trans ?_
  rw [h]
  exact Function.update_eq_self (Arena.many aid) e.roundOf

theorem settleRound_px (q : Quotes) (aid : ArenaId) (r : RoundResult) (e : State) :
    KeepsPx e (settleRound q aid r e) := by
  have hturn : KeepsPx e { e with two := Function.update e.two aid (settling (e.two aid)) } := .of_eq rfl rfl
  exact hturn.trans (settleRound_still q aid r e).px (roundOf_kept rfl)

theorem settleRoundN_px (s : Settings) (q : Quotes) (aid : NArena) (r : ResultN) (e : State) :
    KeepsPx e (settleRoundN s q aid r e) := by
  have hturn : KeepsPx e { e with many := Function.update e.many aid (settling (e.many aid)) } := .of_eq rfl rfl
  exact hturn.trans (settleRoundN_still s q aid r e).px (roundOf_keptN rfl)

/-- The kinds of acts that leave the runners alone. -/
def Kind.Aside : Kind → Prop
  | .house | .newBot _ | .retire _ => True
  | _ => False

theorem Act.still (h : Act s k e e') (hk : k.Aside) : Still e e' := by
  cases h with
  | quiet h => exact ⟨h.two, h.many, h.px, h.seq.ge, h.boot, h.settled⟩
  | touch e id hg => exact still_touch e id _
  | join e side _ => exact .of_eq rfl rfl rfl rfl le_rfl rfl rfl
  | topUp f amount _ => exact still_topUp s e _ f amount
  | skim q f _ _ _ _ => exact still_levelField s e q _ f
  | newBot e q aid side d => exact still_newBot s e q aid side d
  | newBotN e q aid d => exact still_newBotN s e q aid d
  | retire _ _ _ => exact still_retireBot s e _
  | _ => exact hk.elim

theorem Act.turns (h : Act s k e e') (hs : Sound s e) : Turns s e e' := by
  have held := h.held hs
  have hstill := h.still
  cases h with
  | stakeBot halive hlobby _ husd h0 _ hprice =>
      obtain ⟨e₁, hstill, he⟩ := deployBot_still s e _ _ _ _ _
      rw [he] at held ⊢
      exact .enterRound hstill hlobby (net_pos husd) (halive.owner hs) (held.isSome halive.isSome)
        (held.alive halive fun h => h).not_retired fun hkept => pos_of_mul_pos_right (hprice hkept ▸ husd) h0.le
  | stakeBotN halive _ hlobby husd h0 _ hprice =>
      obtain ⟨e₁, hstill, he⟩ := deployBotN_still s e _ _ _ _ _
      rw [he] at held ⊢
      exact .enterRoundN hstill hlobby (net_pos husd) (halive.owner hs) (held.isSome halive.isSome)
        (held.alive halive fun h => h).not_retired fun hkept => pos_of_mul_pos_right (hprice hkept ▸ husd) h0.le
  | @stakePlayer e m stake px hget hlobby hpx h0 _ hprice =>
      obtain ⟨e₁, hstill, he⟩ := deployPlayer_still s e m stake px
      rw [he] at held ⊢
      exact .enterRound hstill hlobby (net_pos (mul_pos h0 hpx)) (.inl m.key) (held.isSome hget)
        (held.key_not_retired hs m.key fun h => h) fun _ => hprice ▸ hpx
  | @stakePlayerN e m _ _ hget hlobby husd h0 _ hprice =>
      obtain ⟨e₁, hstill, he⟩ := deployPlayerN_still s e m _ _
      rw [he] at held ⊢
      exact .enterRoundN hstill hlobby (net_pos husd) (.inl m.key) (held.isSome hget)
        (held.key_not_retired hs m.key fun h => h) fun _ => pos_of_mul_pos_right (hprice ▸ husd) h0.le
  | fight hf => exact .of_two rfl rfl (.of_eq rfl rfl) le_rfl (.fought hf)
  | fightN hf => exact .of_many rfl rfl (.of_eq rfl rfl) le_rfl (.fought hf)
  | @settle e q aid r hphase _ =>
      have hstill := settleRound_still q aid r e
      exact .of_two hstill.two hstill.many (settleRound_px q aid r e) hstill.seq (.settling hphase)
  | @settleN e q aid r hphase _ =>
      have hstill := settleRoundN_still s q aid r e
      exact .of_many hstill.two hstill.many (settleRoundN_px s q aid r e) hstill.seq (.settling hphase)
  | reopen d hphase => exact .of_two rfl rfl (.of_eq rfl rfl) le_rfl (.fresh _ _ d hphase)
  | reopenN d hphase => exact .of_many rfl rfl (.of_eq rfl rfl) le_rfl (.fresh _ _ d hphase)
  | _ => exact .of_still (hstill trivial)

/-- The phase that an arena is in. -/
def State.phaseOf (e : State) : Arena → Phase
  | .two aid => (e.two aid).state.phase
  | .many aid => (e.many aid).state.phase

/-- One runner changes, and with it the phase of its arena only. -/
theorem phaseOf_two {aid : ArenaId} {r : Runner Entry RoundResult} (htwo : e'.two = Function.update e.two aid r)
    (hmany : e'.many = e.many) (arena : Arena) :
    e'.phaseOf arena = if arena = .two aid then r.state.phase else e.phaseOf arena := by
  cases arena with
  | two aid' =>
      by_cases haid : aid' = aid
      · simp [State.phaseOf, htwo, haid]
      · simp [State.phaseOf, htwo, haid]
  | many aid' => simp [State.phaseOf, hmany]

theorem phaseOf_many {aid : NArena} {r : Runner EntryN ResultN} (htwo : e'.two = e.two)
    (hmany : e'.many = Function.update e.many aid r) (arena : Arena) :
    e'.phaseOf arena = if arena = .many aid then r.state.phase else e.phaseOf arena := by
  cases arena with
  | two aid' => simp [State.phaseOf, htwo]
  | many aid' =>
      by_cases haid : aid' = aid
      · simp [State.phaseOf, hmany, haid]
      · simp [State.phaseOf, hmany, haid]

/-- The arena is in the phase and the round that it was in. -/
def SamePhase (e e' : State) : Prop := ∀ arena, e'.phaseOf arena = e.phaseOf arena ∧ e'.roundOf arena = e.roundOf arena

theorem SamePhase.trans {e'' : State} (h : SamePhase e e') (h' : SamePhase e' e'') : SamePhase e e'' := fun arena =>
  ⟨(h' arena).1.trans (h arena).1, (h' arena).2.trans (h arena).2⟩

theorem Still.samePhase (h : Still e e') : SamePhase e e' := by
  intro arena
  cases arena with
  | two aid => simp [State.phaseOf, State.roundOf, h.two]
  | many aid => simp [State.phaseOf, State.roundOf, h.many]

theorem enterRound_samePhase (s : Settings) (e : State) (aid : ArenaId) (owner : String) (side : Side) (stake : ℚ) :
    SamePhase e (State.enterRound s e aid owner side stake) := by
  intro arena
  cases arena with
  | two aid' =>
      simp only [State.phaseOf, State.roundOf, State.enterRound, enter]
      by_cases haid : aid' = aid
      · subst haid
        rw [Function.update_self]
        split <;> exact ⟨rfl, rfl⟩
      · rw [Function.update_of_ne haid]
        exact ⟨rfl, rfl⟩
  | many aid' => exact ⟨rfl, rfl⟩

theorem enterRoundN_samePhase (s : Settings) (e : State) (aid : NArena) (owner : String) (team stake : ℚ) :
    SamePhase e (State.enterRoundN s e aid owner team stake) := by
  intro arena
  cases arena with
  | two aid' => exact ⟨rfl, rfl⟩
  | many aid' =>
      simp only [State.phaseOf, State.roundOf, State.enterRoundN, enter]
      by_cases haid : aid' = aid
      · subst haid
        rw [Function.update_self]
        split <;> exact ⟨rfl, rfl⟩
      · rw [Function.update_of_ne haid]
        exact ⟨rfl, rfl⟩

/-- Only a turn takes a round on. -/
theorem Act.samePhase (h : Act s k e e') (hk : ∀ arena, k ≠ .turn arena) : SamePhase e e' := by
  have hstill := h.still
  cases h with
  | stakeBot _ _ _ _ _ _ _ =>
      obtain ⟨e₁, hstill, he⟩ := deployBot_still s e _ _ _ _ _
      rw [he]
      exact hstill.samePhase.trans (enterRound_samePhase s e₁ _ _ _ _)
  | stakeBotN _ _ _ _ _ _ _ =>
      obtain ⟨e₁, hstill, he⟩ := deployBotN_still s e _ _ _ _ _
      rw [he]
      exact hstill.samePhase.trans (enterRoundN_samePhase s e₁ _ _ _ _)
  | @stakePlayer e m stake _ _ _ _ _ _ _ =>
      obtain ⟨e₁, hstill, he⟩ := deployPlayer_still s e m stake _
      rw [he]
      exact hstill.samePhase.trans (enterRound_samePhase s e₁ _ _ _ _)
  | @stakePlayerN e m _ _ _ _ _ _ _ _ =>
      obtain ⟨e₁, hstill, he⟩ := deployPlayerN_still s e m _ _
      rw [he]
      exact hstill.samePhase.trans (enterRoundN_samePhase s e₁ _ _ _ _)
  | fight _ => exact absurd rfl (hk _)
  | fightN _ => exact absurd rfl (hk _)
  | settle _ _ _ => exact absurd rfl (hk _)
  | settleN _ _ _ => exact absurd rfl (hk _)
  | reopen _ _ => exact absurd rfl (hk _)
  | reopenN _ _ => exact absurd rfl (hk _)
  | _ => exact (hstill trivial).samePhase

/-! ## A sound state stays sound -/

theorem Act.sound (h : Act s k e e') (hs : Sound s e) : Sound s e' := by
  have held := h.held hs
  have turns := h.turns hs
  refine ⟨held.nonneg hs.nonneg, held.keyed hs.keyed, ?_, ?_, ?_, ?_⟩
  · intro id a' ha' hbot
    rcases held.bots id a' ha' hbot with ⟨a, ha, hbot⟩ | hborn
    · exact hs.bots id a ha hbot
    · exact .inr hborn
  · intro id a' ha' hret
    rcases held.retirees id a' ha' hret with ⟨a, ha, hret⟩ | hdead
    · exact hs.retired id a ha hret
    · cases h with
      | retire _ _ hcolon =>
          rw [show id = _ from hdead]
          exact hcolon
      | _ => exact False.elim hdead
  · intro aid
    refine (turns.two aid).fit (hs.two aid) (fun hround id side ⟨owner, hid, howner, hget, hpx⟩ => ?_) fun _ _ h => h.1
    refine ⟨owner, hid, howner, held.isSome hget, fun hkept => ?_⟩
    have hsame : e'.roundOf (.two aid) = e.roundOf (.two aid) := hround
    have hpos := hpx (turns.px.remembers hsame hkept)
    rw [State.Remembers, hsame] at hkept
    rw [hsame, turns.px.px _ _ hkept hpos]
    exact hpos
  · intro aid
    refine (turns.many aid).fit (hs.many aid) (fun hround id team ⟨owner, hid, howner, hget, hpx⟩ => ?_) fun _ _ h => h.1
    refine ⟨owner, hid, howner, held.isSome hget, fun hkept => ?_⟩
    have hsame : e'.roundOf (.many aid) = e.roundOf (.many aid) := hround
    have hpos := hpx (turns.px.remembers hsame hkept)
    rw [State.Remembers, hsame] at hkept
    rw [hsame, turns.px.px _ _ hkept hpos]
    exact hpos

/-! ## Chains of acts -/

variable {K K' : Kind → Prop}

theorem Acts.one (hk : K k) (h : Act s k e e') : Acts s K e e' := .single ⟨k, hk, h⟩

theorem Acts.refl (e : State) : Acts s K e e := Relation.ReflTransGen.refl

theorem Acts.trans {e'' : State} (h : Acts s K e e') (h' : Acts s K e' e'') : Acts s K e e'' :=
  Relation.ReflTransGen.trans h h'

theorem Acts.mono (h : Acts s K e e') (hk : ∀ k, K k → K' k) : Acts s K' e e' :=
  Relation.ReflTransGen.mono (fun _ _ ⟨k, hK, hact⟩ => ⟨k, hk k hK, hact⟩) _ _ h

/-- What each act of a chain keeps, the chain keeps. -/
theorem Acts.keep {P : State → Prop} (h : Acts s K e e') (hs : Sound s e)
    (hstep : ∀ k e e', K k → Sound s e → Act s k e e' → P e → P e') (h0 : P e) : Sound s e' ∧ P e' := by
  induction h with
  | refl => exact ⟨hs, h0⟩
  | tail _ hact ih =>
      obtain ⟨k, hk, hact⟩ := hact
      exact ⟨hact.sound ih.1, hstep k _ _ hk ih.1 hact ih.2⟩

theorem Acts.sound (h : Acts s K e e') (hs : Sound s e) : Sound s e' :=
  (h.keep (P := fun _ => True) hs (fun _ _ _ _ _ _ _ => trivial) trivial).1

/-- A bot lives on through a chain that does not retire it. -/
theorem Acts.alive (h : Acts s K e e') (hs : Sound s e) {arena : Arena} {id : String} (hid : Alive arena e.ledger id)
    (hdead : ∀ k, K k → ¬k.dead id) : Alive arena e'.ledger id :=
  (h.keep (P := fun e => Alive arena e.ledger id) hs
    (fun k _ _ hk hs hact h0 => (hact.held hs).alive h0 (hdead k hk)) hid).2

end BullsUnicorns.Engine

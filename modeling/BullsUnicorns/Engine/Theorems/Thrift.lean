import BullsUnicorns.Engine.Lemmas.Boot

/-!
# House money is only moved

Over any run of the engine, restarts included: what the pool and the bots hold together changes by entries and
settlements alone, no account is replaced or overdrawn, and a retired bot holds nothing. This needs that a new
bot finds its number free, that no bot is retired while it plays or is named as a referrer, and that the pool
wallets are house accounts when the process goes down.
-/

namespace BullsUnicorns.Engine

open Battle

/-! ## The run -/

/-- The engine is up, and no round has an entry. -/
structure Opening (s : Settings) (e : State) : Prop where
  accounts : Orderly s e.ledger
  lobbies : ∀ arena, e.phaseOf arena = .lobby
  two : ∀ aid, (e.two aid).state.entries = []
  many : ∀ aid, (e.many aid).state.entries = []

/-- An event that can waste no house money. -/
def Sparing (s : Settings) (e : State) : Event → Prop
  | .enter _ _ m => ¬Retired e.ledger (refOf (e.account m.wallet) m)
  | .botsEnter q aid _ _ => ∀ id ∈ thin s e q aid, Undeployed e id
  | .capPopulation q aid => ∀ id ∈ thin s e q aid, Undeployed e id
  | .ensureMinimumEntries _ aid _ => e.phaseOf (.two aid) = .lobby → Ahead (.two aid) e
  | .tick _ aid now _ _ => (e.two aid).state.phase = .battle → (e.two aid).state.closesAt ≤ now → Ahead (.two aid) e
  | .tickN _ aid now _ _ => (e.many aid).state.phase = .battle → (e.many aid).state.closesAt ≤ now → Ahead (.many aid) e
  | .newBot _ aid _ _ => e.ledger.get (botId aid.text (e.seq + 1)) = none
  | .newBotN _ aid _ => e.ledger.get (botId aid.text (e.seq + 1)) = none
  | .restart signal _ =>
    (∀ id ∈ s.pool, ∀ a, (leaving s signal e).ledger.get id = some a → a.isBot = true ∨ writeOff a = a) ∧
      ∀ arena ∈ liveArenas s, Stocked s e.ledger arena ∨ Unclaimed arena e.ledger
  | _ => True

def Event.isRestart : Event → Prop
  | .restart _ _ => True
  | _ => False

/-- What an event does to house money and accounts. -/
structure HouseStep (s : Settings) (event : Event) (e e' : State) : Prop where
  moved : ∀ f, total (house s.pool) e'.ledger f - moved (house s.pool) e'.flows f =
    total (house s.pool) e.ledger f - moved (house s.pool) e.flows f
  goesOn : ∀ id a, e.ledger.get id = some a → (event.isRestart → hasActivity a = true) →
    ∃ a', e'.ledger.get id = some a' ∧ a.Continues a'

variable {s : Settings} {e e' e'' : State} {event : Event}

/-! ## Steps that waste nothing -/

/-- From one state to a later one, booked and thrifty. -/
structure Thriftily (s : Settings) (e e' : State) : Prop where
  sound : Sound s e'
  thrifty : Thrifty s e'
  booked : Booked s.pool (fun _ => True) e e'

theorem Thriftily.refl (hs : Sound s e) (ht : Thrifty s e) : Thriftily s e e :=
  ⟨hs, ht, (Booked.of_eq rfl rfl).mono fun _ _ => trivial⟩

theorem Thriftily.trans (h : Thriftily s e e') (h' : Thriftily s e' e'') : Thriftily s e e'' :=
  ⟨h'.sound, h'.thrifty, (h.booked.trans h'.booked).mono fun _ _ => trivial⟩

/-- The kinds of acts that need no care. -/
def Kind.Plain : Kind → Prop
  | .house | .stake _ | .playerN _ | .turn _ => True
  | _ => False

theorem Kind.Plain.spared {k : Kind} (h : k.Plain) : Spared s e k := by
  cases k with
  | house => trivial
  | stake _ => trivial
  | playerN _ => trivial
  | turn _ => trivial
  | newBot _ => exact h.elim
  | retire _ => exact h.elim
  | player _ => exact h.elim

theorem Act.thriftily {k : Kind} (h : Act s k e e') (hs : Sound s e) (ht : Thrifty s e) (hk : Spared s e k) :
    Thriftily s e e' := by
  refine ⟨h.sound hs, h.thrifty hs ht hk, (h.booked hs ?_).mono fun _ _ => trivial⟩
  rintro arena rfl
  exact hk

theorem Acts.thriftily {K : Kind → Prop} (h : Acts s K e e') (hs : Sound s e) (ht : Thrifty s e)
    (hK : ∀ k, K k → k.Plain) : Thriftily s e e' := by
  obtain ⟨hs', ht', hb, -⟩ := h.thrifty hs ht (P := fun _ => True)
    (fun k _ _ hk _ _ _ => ⟨(hK k hk).spared, trivial⟩) trivial
  exact ⟨hs', ht', hb⟩

theorem Staking.plain {arena : Arena} {k : Kind} (h : Staking arena k) : k.Plain := by
  rcases h with rfl | rfl <;> trivial

theorem Housekeeping.plain {k : Kind} (h : Housekeeping k) : k.Plain := by
  rw [show k = .house from h]
  trivial

/-- Making the account of a player does not change who referred it. -/
theorem refOf_prepared (q : Quotes) (m : EnterMsg) (e : State) :
    refOf ((prepared q m e).account m.wallet) m = refOf (e.account m.wallet) m ∧
      ∀ id, Retired (prepared q m e).ledger id → Retired e.ledger id := by
  have hledger : (prepared q m e).ledger = acct e.ledger m.wallet m.side := by
    unfold prepared
    extract_lets e₁
    split
    · rfl
    · exact freeze_ledger e₁ _ _ _ q
  unfold Retired refOf
  rw [State.account, State.account, hledger]
  cases h : e.ledger.get m.wallet with
  | some a =>
      have hsame : acct e.ledger m.wallet m.side = e.ledger := by simp [acct, h]
      rw [hsame, h]
      exact ⟨rfl, fun _ hr => hr⟩
  | none =>
      have hnew : acct e.ledger m.wallet m.side = e.ledger.set m.wallet (Account.fresh m.wallet m.side false) := by
        simp [acct, h]
      refine ⟨?_, fun id hr => ?_⟩
      · rw [hnew, OrderedMap.get_set, if_pos rfl]
        rfl
      · obtain ⟨a, ha, hret⟩ := hr
        rw [hnew, OrderedMap.get_set] at ha
        split at ha
        · cases ha
          cases hret
        · exact ⟨a, ha, hret⟩

theorem enter_thriftily (q : Quotes) (u : ℕ → ℚ) (m : EnterMsg) (hs : Sound s e) (ht : Thrifty s e)
    (hspare : Sparing s e (.enter q u m)) : Thriftily s e (enterMessage s q u m e) := by
  have hjoin : Thriftily s e (prepared q m e) := (prepared_acts q m e).thriftily hs ht fun k hk => hk.plain
  rcases enterMessage_cases q u m hs with h | h | ⟨-, e₁, hact, hacts⟩
  · rw [h]
    exact .refl hs ht
  · rwa [h]
  · obtain ⟨href, hback⟩ := refOf_prepared q m e
    have hsp : Spared s (prepared q m e) (.player m) := fun hr => hspare (hback _ (href ▸ hr))
    have hplay := hact.thriftily hjoin.sound hjoin.thrifty hsp
    exact (hjoin.trans hplay).trans (hacts.thriftily hplay.sound hplay.thrifty fun k hk => hk.plain)

theorem capPopulation_thriftily {q : Quotes} {aid : ArenaId} (hs : Sound s e) (ht : Thrifty s e)
    (hspare : ∀ id ∈ thin s e q aid, Undeployed e id) : Thriftily s e (capPopulation s e q aid) := by
  obtain ⟨hs', ht', hb, -⟩ := (capPopulation_acts q aid hs).thrifty hs ht
    (P := fun e' => ∀ id ∈ thin s e q aid, Undeployed e' id) (by
      intro k e₁ e₂ hk _ hact hP
      have hstill : Still e₁ e₂ := by
        refine hact.still ?_
        rcases hk with rfl | ⟨id, -, rfl⟩ <;> trivial
      refine ⟨?_, fun id hid arena hphase => ?_⟩
      · rcases hk with rfl | ⟨id, hid, rfl⟩
        · trivial
        · exact hP id hid
      · rw [hstill.owners]
        exact hP id hid arena ((hstill.samePhase arena).1 ▸ hphase)) hspare
  exact ⟨hs', ht', hb⟩

/-- Filling a lobby makes bots under free numbers. -/
theorem Filling.thriftily {arena : Arena} (hreal : s.FAKE_BANK_OK = false) (hacts : Acts s (Filling arena) e e')
    (hs : Sound s e) (ht : Thrifty s e) (hahead : Ahead arena e) : Thriftily s e e' := by
  obtain ⟨hs', ht', hb, -⟩ := hacts.thrifty hs ht (P := Ahead arena) (by
    intro k e₁ e₂ hk hs₁ hact ha
    refine ⟨?_, hact.ahead hs₁ (fun m => by rcases hk with rfl | rfl | rfl <;> simp) ha⟩
    rcases hk with rfl | rfl | rfl
    · trivial
    · exact ⟨hreal, ha _ (Nat.lt_succ_self _)⟩
    · trivial) hahead
  exact ⟨hs', ht', hb⟩

/-- Only its own arena has an entry of a bot. -/
theorem owners_botId (hs : Sound s e) {arena arena' : Arena} {n : ℕ} (h : botId arena.text n ∈ e.owners arena') :
    arena' = arena := by
  have howner : Owner arena' (botId arena.text n) := by
    cases arena' with
    | two aid =>
        obtain ⟨en, hen, he⟩ := List.mem_map.mp h
        obtain ⟨owner, hid, howner, -, -⟩ := (hs.two aid).listed en hen
        change en.id = _ at hid
        rw [← he, hid, walletOf_entryId _ howner.clean]
        exact howner
    | many aid =>
        obtain ⟨en, hen, he⟩ := List.mem_map.mp h
        obtain ⟨owner, hid, howner, -, -⟩ := (hs.many aid).listed en hen
        change en.id = _ at hid
        rw [← he, hid, walletOf_entryIdN s _ howner.clean]
        exact howner
  rcases howner with hkey | ⟨m, he⟩
  · exact absurd (colon_mem_botId arena n) hkey.1
  · exact (botId_inj he).1.symm

/-- The renewal of an arena retires bots whose stakes have been settled. -/
theorem Renewing.thriftily {arena : Arena} (hreal : s.FAKE_BANK_OK = false) (hacts : Acts s (Renewing arena) e e')
    (hs : Sound s e) (ht : Thrifty s e) (hahead : Ahead arena e) (hphase : e.phaseOf arena = .settle) :
    Thriftily s e e' := by
  obtain ⟨hs', ht', hb, -⟩ := hacts.thrifty hs ht (P := fun e => Ahead arena e ∧ e.phaseOf arena = .settle) (by
    rintro k e₁ e₂ hk hs₁ hact ⟨ha, hp⟩
    refine ⟨?_, hact.ahead hs₁ (fun m => by rcases hk with rfl | rfl | ⟨n, rfl⟩ <;> simp) ha,
      ((hact.still hk.aside).samePhase arena).1.trans hp⟩
    rcases hk with rfl | rfl | ⟨n, rfl⟩
    · trivial
    · exact ⟨hreal, ha _ (Nat.lt_succ_self _)⟩
    · intro arena' hopen howner
      rw [owners_botId hs₁ howner] at hopen
      exact hopen hp) ⟨hahead, hphase⟩
  exact ⟨hs', ht', hb⟩

/-! ## Ticks -/

theorem tick_thriftily (hreal : s.FAKE_BANK_OK = false) (q : Quotes) (aid : ArenaId) (now : ℚ) (draw : Draw)
    (d : ℕ → BotDraw) (hs : Sound s e) (ht : Thrifty s e) (hspare : Sparing s e (.tick q aid now draw d)) :
    Thriftily s e (tickArena s q aid now draw d e) := by
  rcases tickArena_cases q aid now draw d hs with h | ⟨r, hf, h⟩ | ⟨r, e₂, ⟨hphase, hend⟩, hr, hacts, htwo, h⟩
  · rw [h]
    exact .refl hs ht
  · rw [h]
    exact (Act.fight hf).thriftily hs ht trivial
  · rw [h]
    have hact : Act s (.turn (.two aid)) e (settleRound q aid r e) := .settle q hphase hr
    have hpaid := hact.thriftily hs ht trivial
    have hsettling : (settleRound q aid r e).phaseOf (.two aid) = .settle := by
      simp [State.phaseOf, settleRound_two, settling]
    have hnew := Renewing.thriftily hreal hacts hpaid.sound hpaid.thrifty (hact.ahead hs (by simp) (hspare hphase hend))
      hsettling
    have hopen : Act s (.turn (.two aid)) e₂ (reopen s aid draw e₂) := .reopen draw (by rw [htwo]; rfl)
    exact (hpaid.trans hnew).trans (hopen.thriftily hnew.sound hnew.thrifty trivial)

theorem tickN_thriftily (hreal : s.FAKE_BANK_OK = false) (q : Quotes) (aid : NArena) (now : ℚ) (draw : Draw)
    (d : ℕ → BotDraw) (hs : Sound s e) (ht : Thrifty s e) (hspare : Sparing s e (.tickN q aid now draw d)) :
    Thriftily s e (tickArenaN s q aid now draw d e) := by
  rcases tickArenaN_cases q aid now draw d hs with h | ⟨r, hf, h⟩ | ⟨r, e₂, ⟨hphase, hend⟩, hr, hacts, hmany, h⟩
  · rw [h]
    exact .refl hs ht
  · rw [h]
    exact (Act.fightN hf).thriftily hs ht trivial
  · rw [h]
    have hact : Act s (.turn (.many aid)) e (settleRoundN s q aid r e) := .settleN q hphase hr
    have hpaid := hact.thriftily hs ht trivial
    have hsettling : (settleRoundN s q aid r e).phaseOf (.many aid) = .settle := by
      simp [State.phaseOf, settleRoundN_many, settling]
    have hnew := Renewing.thriftily hreal hacts hpaid.sound hpaid.thrifty (hact.ahead hs (by simp) (hspare hphase hend))
      hsettling
    have hopen : Act s (.turn (.many aid)) e₂ (reopenN s aid draw e₂) := .reopenN draw (by rw [hmany]; rfl)
    exact (hpaid.trans hnew).trans (hopen.thriftily hnew.sound hnew.thrifty trivial)

theorem Rested.of_two {aid : ArenaId} {r : Runner Entry RoundResult} (htwo : e'.two = Function.update e.two aid r)
    (hmany : e'.many = e.many) (hphase : r.state.phase ≠ .settle)
    (hother : ∀ arena, arena ≠ .two aid → e.phaseOf arena ≠ .settle) : Rested e' := by
  intro arena
  rw [phaseOf_two htwo hmany]
  split
  · exact hphase
  · next harena => exact hother arena harena

theorem Rested.of_many {aid : NArena} {r : Runner EntryN ResultN} (htwo : e'.two = e.two)
    (hmany : e'.many = Function.update e.many aid r) (hphase : r.state.phase ≠ .settle)
    (hother : ∀ arena, arena ≠ .many aid → e.phaseOf arena ≠ .settle) : Rested e' := by
  intro arena
  rw [phaseOf_many htwo hmany]
  split
  · exact hphase
  · next harena => exact hother arena harena

theorem tick_rested (q : Quotes) (aid : ArenaId) (now : ℚ) (draw : Draw) (d : ℕ → BotDraw) (hs : Sound s e)
    (hr : Rested e) : Rested (tickArena s q aid now draw d e) := by
  rcases tickArena_cases q aid now draw d hs with h | ⟨r, hf, h⟩ | ⟨r, e₂, -, -, hacts, -, h⟩
  · rwa [h]
  · rw [h]
    exact .of_two (e := e) rfl rfl (by simp [hf.phase]) fun arena _ => hr arena
  · rw [h]
    refine .of_two (e := e₂) rfl rfl (by simp [freshLobby]) fun arena harena => ?_
    have hstill := settleRound_still q aid r e
    have hphase := phaseOf_two (e := e) hstill.two hstill.many arena
    rw [if_neg harena] at hphase
    rw [((hacts.samePhase fun k hk => hk.not_turn) arena).1, hphase]
    exact hr arena

theorem tickN_rested (q : Quotes) (aid : NArena) (now : ℚ) (draw : Draw) (d : ℕ → BotDraw) (hs : Sound s e)
    (hr : Rested e) : Rested (tickArenaN s q aid now draw d e) := by
  rcases tickArenaN_cases q aid now draw d hs with h | ⟨r, hf, h⟩ | ⟨r, e₂, -, -, hacts, -, h⟩
  · rwa [h]
  · rw [h]
    exact .of_many (e := e) rfl rfl (by simp [hf.phase]) fun arena _ => hr arena
  · rw [h]
    refine .of_many (e := e₂) rfl rfl (by simp [freshLobby]) fun arena harena => ?_
    have hstill := settleRoundN_still s q aid r e
    have hphase := phaseOf_many (e := e) hstill.two hstill.many arena
    rw [if_neg harena] at hphase
    rw [((hacts.samePhase fun k hk => hk.not_turn) arena).1, hphase]
    exact hr arena

theorem SamePhase.rested (h : SamePhase e e') (hr : Rested e) : Rested e' := fun arena => by
  rw [(h arena).1]
  exact hr arena

theorem Retiring.not_turn {ids : List String} {k : Kind} (h : Retiring ids k) (arena : Arena) : k ≠ .turn arena := by
  rcases h with rfl | ⟨id, -, rfl⟩ <;> simp

theorem Housekeeping.not_turn {k : Kind} (h : Housekeeping k) (arena : Arena) : k ≠ .turn arena := by
  rw [show k = .house from h]
  simp

theorem enter_rested (q : Quotes) (u : ℕ → ℚ) (m : EnterMsg) (hs : Sound s e) (hr : Rested e) :
    Rested (enterMessage s q u m e) := by
  have hjoin := (prepared_acts (s := s) q m e).samePhase fun k hk => hk.not_turn
  rcases enterMessage_cases q u m hs with h | h | ⟨-, e₁, hact, hacts⟩
  · rwa [h]
  · rw [h]
    exact hjoin.rested hr
  · have hplay := hact.samePhase (by simp)
    exact ((hjoin.trans hplay).trans (hacts.samePhase fun k hk => hk.not_turn)).rested hr

/-! ## Restarts -/

theorem house_pool_only {l : Ledger} (hn : l.Nonneg) (hk : Keyed l)
    (hpool : ∀ id ∈ s.pool, ∀ a, l.get id = some a → a.isBot = true ∨ writeOff a = a) (f : Field) :
    total (house s.pool) (loaded s l) f = total (house s.pool) l f := by
  rw [loaded, total_adopt fun _ h => h, total_restore hn hk hpool]

theorem PoolReady.of_thrifty (ht : Thrifty s e) : PoolReady s.pool e.ledger := by
  obtain ⟨id, hid, a, ha, -⟩ := ht.ready
  exact ⟨id, hid, by simp [ha]⟩

theorem leaving_refunded (s : Settings) (signal : Option Quotes) (e : State) : Refunded s e (leaving s signal e) := by
  cases signal with
  | some q => exact refundOpenRounds_refunded s q e
  | none => exact .refl e

theorem hasActivity_credited {a a' : Account} (hsk : a'.skeleton = a.skeleton) (hle : ∀ f, a.bal f ≤ a'.bal f)
    (h : hasActivity a = true) : hasActivity a' = true := by
  have hbot : a'.skeleton.isBot = a.skeleton.isBot := congrArg Account.isBot hsk
  have hdep : a'.skeleton.dep = a.skeleton.dep := congrArg Account.dep hsk
  have hret : a'.skeleton.ret = a.skeleton.ret := congrArg Account.ret hsk
  have hgames : a'.skeleton.games = a.skeleton.games := congrArg Account.games hsk
  have hin : a'.skeleton.depIn = a.skeleton.depIn := congrArg Account.depIn hsk
  have hout : a'.skeleton.wOut = a.skeleton.wOut := congrArg Account.wOut hsk
  have href : a'.skeleton.refEarned = a.skeleton.refEarned := congrArg Account.refEarned hsk
  change a'.isBot = a.isBot at hbot
  change a'.dep = a.dep at hdep
  change a'.ret = a.ret at hret
  change a'.games = a.games at hgames
  change a'.depIn = a.depIn at hin
  change a'.wOut = a.wOut at hout
  change a'.refEarned = a.refEarned at href
  have hbull := hle .bull
  have huwu := hle .uwu
  have hsol := hle .sol
  simp only [hasActivity, Bool.or_eq_true, decide_eq_true_eq, hbot, hdep, hret, hgames, hin, hout, href] at h ⊢
  rcases h with ((((((((h | h) | h) | h) | h) | h) | h) | h) | h) | h
  · simp [h]
  · simp [h.trans_le hbull]
  · simp [h.trans_le huwu]
  · simp [h.trans_le hsol]
  all_goals simp [h]

theorem restart_step (hreal : s.FAKE_BANK_OK = false) (signal : Option Quotes) (b : BootDraw) (hs : Sound s e)
    (ht : Thrifty s e) (hr : Rested e) (hspare : Sparing s e (.restart signal b)) :
    Sound s (restart s signal b e) ∧ Thrifty s (restart s signal b e) ∧ Rested (restart s signal b e) ∧
      HouseStep s (.restart signal b) e (restart s signal b e) := by
  obtain ⟨hpool, hroom⟩ := hspare
  have hrefund := leaving_refunded s signal e
  have horder := hrefund.orderly hs ht hr
  have hroom' : ∀ arena ∈ liveArenas s, Stocked s (leaving s signal e).ledger arena ∨
      Unclaimed arena (leaving s signal e).ledger := by
    intro arena harena
    refine (hroom arena harena).imp (fun hst => ?_) fun hun n hn => hrefund.absent _ (hun n hn)
    exact hst.mono hs.keyed horder.keyed fun id hid => hrefund.booked.alive hid fun hd => hd
  obtain ⟨hs', ht', hb, hlobby⟩ := start_thrifty hreal horder b hroom'
  have hstart : restart s signal b e = start s (snapshot (leaving s signal e)) (leaving s signal e) b := rfl
  rw [hstart]
  refine ⟨hs', ht', fun arena => by rw [hlobby arena]; simp, ⟨fun f => ?_, fun id a ha hact => ?_⟩⟩
  · have hcame := hb.total (PoolReady.of_thrifty (came_thrifty horder b)) (house s.pool) (fun _ _ h => h) f
    have hleft := hrefund.booked.total (PoolReady.of_thrifty ht) (house s.pool) (fun _ _ h => h) f
    rw [hcame, ← hleft]
    exact congrArg (· - _) (house_pool_only horder.nonneg horder.keyed hpool f)
  · obtain ⟨a₁, ha₁, hsk, hle⟩ := hrefund.credits id a ha
    obtain ⟨a₂, ha₂, hcont⟩ := loaded_continues (s := s) horder.keyed ha₁ (hasActivity_credited hsk hle (hact trivial))
    obtain ⟨a₃, ha₃, hcont', -⟩ := hb.continues id a₂ ha₂
    exact ⟨a₃, ha₃, ((Account.Continues.of_skeleton hsk).1.trans hcont).trans hcont'⟩

/-! ## Every event -/

theorem Thriftily.houseStep (h : Thriftily s e e') (ht : Thrifty s e) (event : Event) : HouseStep s event e e' where
  moved := fun f => h.booked.total (PoolReady.of_thrifty ht) (house s.pool) (fun _ _ h => h) f
  goesOn := by
    intro id a ha _
    obtain ⟨a', ha', hcont, -⟩ := h.booked.continues id a ha
    exact ⟨a', ha', hcont⟩

theorem serve_step (hreal : s.FAKE_BANK_OK = false) (hs : Sound s e) (ht : Thrifty s e) (hr : Rested e)
    (hspare : Sparing s e event) :
    Sound s (State.serve s e event) ∧ Thrifty s (State.serve s e event) ∧ Rested (State.serve s e event) ∧
      HouseStep s event e (State.serve s e event) := by
  have hdone : ∀ e', Thriftily s e e' → Rested e' →
      Sound s e' ∧ Thrifty s e' ∧ Rested e' ∧ HouseStep s event e e' :=
    fun e' h hrest => ⟨h.sound, h.thrifty, hrest, h.houseStep ht event⟩
  cases event with
  | enter q u m => exact hdone _ (enter_thriftily q u m hs ht hspare) (enter_rested q u m hs hr)
  | botsEnter q aid pick d =>
      have hcap := capPopulation_thriftily hs ht hspare
      have hacts := botsEnter_acts q aid pick d hs
      have hsame := (capPopulation_acts q aid hs).samePhase fun k hk => hk.not_turn
      exact hdone _ (hcap.trans (hacts.thriftily hcap.sound hcap.thrifty fun k hk => hk.plain))
        ((hsame.trans (hacts.samePhase fun k hk => hk.not_turn)).rested hr)
  | ensureMinimumEntries q aid d =>
      have hacts := ensureMinimumEntries_acts q aid d hs
      refine hdone _ ?_ ((hacts.samePhase fun k hk => hk.not_turn).rested hr)
      by_cases hphase : e.phaseOf (.two aid) = .lobby
      · exact Filling.thriftily hreal hacts hs ht (hspare hphase)
      · have hidle : State.serve s e (.ensureMinimumEntries q aid d) = e := if_pos hphase
        rw [hidle]
        exact .refl hs ht
  | matchPlayerStake q aid side stakeUsd u =>
      have hacts := matchPlayerStake_acts q aid side stakeUsd u hs
      exact hdone _ (hacts.thriftily hs ht fun k hk => hk.plain) ((hacts.samePhase fun k hk => hk.not_turn).rested hr)
  | tick q aid now draw d => exact hdone _ (tick_thriftily hreal q aid now draw d hs ht hspare) (tick_rested q aid now draw d hs hr)
  | enterN q m =>
      rcases enterNMessage_cases (s := s) q m e with hacts | ⟨e₁, hacts, hact⟩
      · exact hdone _ (hacts.thriftily hs ht fun k hk => hk.plain) ((hacts.samePhase fun k hk => hk.not_turn).rested hr)
      · have hjoin := hacts.thriftily hs ht fun k hk => hk.plain
        exact hdone _ (hjoin.trans (hact.thriftily hjoin.sound hjoin.thrifty trivial))
          (((hacts.samePhase fun k hk => hk.not_turn).trans (hact.samePhase (by simp))).rested hr)
  | botsEnterN q aid pick d =>
      have hacts := botsEnterN_acts q aid pick d hs
      exact hdone _ (hacts.thriftily hs ht fun k hk => hk.plain) ((hacts.samePhase fun k hk => hk.not_turn).rested hr)
  | tickN q aid now draw d =>
      exact hdone _ (tickN_thriftily hreal q aid now draw d hs ht hspare) (tickN_rested q aid now draw d hs hr)
  | newBot q aid side d =>
      have hact : Act s (.newBot (.two aid)) e (newBot s e q aid side d).1 := .newBot e q aid side d
      exact hdone _ (hact.thriftily hs ht ⟨hreal, hspare⟩) ((hact.samePhase (by simp)).rested hr)
  | newBotN q aid d =>
      have hact : Act s (.newBot (.many aid)) e (newBotN s e q aid d).1 := .newBotN e q aid d
      exact hdone _ (hact.thriftily hs ht ⟨hreal, hspare⟩) ((hact.samePhase (by simp)).rested hr)
  | capPopulation q aid =>
      exact hdone _ (capPopulation_thriftily hs ht hspare)
        (((capPopulation_acts q aid hs).samePhase fun k hk => hk.not_turn).rested hr)
  | levelBots q =>
      have hacts := levelBots_acts (s := s) q hs
      exact hdone _ (hacts.thriftily hs ht fun k hk => hk.plain) ((hacts.samePhase fun k hk => hk.not_turn).rested hr)
  | restart signal b => exact restart_step hreal signal b hs ht hr hspare

/-! ## Every run -/

theorem Opening.sound (h : Opening s e) : Sound s e where
  nonneg := h.accounts.nonneg
  keyed := h.accounts.keyed
  bots := h.accounts.bots
  retired := h.accounts.retired
  two := fun aid => by
    refine ⟨fun en hen => ?_, ?_, fun en hen => ?_, fun hbattle => ?_⟩
    · rw [h.two aid] at hen
      cases hen
    · rw [h.two aid]
      exact List.nodup_nil
    · rw [h.two aid] at hen
      cases hen
    · exact absurd ((h.lobbies (.two aid)).symm.trans hbattle) (by decide)
  many := fun aid => by
    refine ⟨fun en hen => ?_, ?_, fun en hen => ?_, fun hbattle => ?_⟩
    · rw [h.many aid] at hen
      cases hen
    · rw [h.many aid]
      exact List.nodup_nil
    · rw [h.many aid] at hen
      cases hen
    · exact absurd ((h.lobbies (.many aid)).symm.trans hbattle) (by decide)

theorem Opening.thrifty (h : Opening s e) : Thrifty s e where
  empty := h.accounts.empty
  away := by
    intro id _ arena _ howner
    cases arena with
    | two aid => simp [State.owners, h.two aid] at howner
    | many aid => simp [State.owners, h.many aid] at howner
  ready := h.accounts.ready

/-- What an accepted event does to house money, over a run. -/
theorem run_thrifty (hreal : s.FAKE_BANK_OK = false) {e₀ : State} (h₀ : Opening s e₀) (events : List Event)
    (hspare : (engine s).Each (Sparing s) e₀ events) :
    Sound s ((engine s).run e₀ events) ∧ Thrifty s ((engine s).run e₀ events) ∧ Rested ((engine s).run e₀ events) ∧
      ∀ f, total (house s.pool) ((engine s).run e₀ events).ledger f - moved (house s.pool) ((engine s).run e₀ events).flows f =
        total (house s.pool) e₀.ledger f - moved (house s.pool) e₀.flows f := by
  refine Machine.run_history_when (P := Sparing s) (H := fun _ e => Sound s e ∧ Thrifty s e ∧ Rested e ∧
    ∀ f, total (house s.pool) e.ledger f - moved (house s.pool) e.flows f =
      total (house s.pool) e₀.ledger f - moved (house s.pool) e₀.flows f)
    (h := []) ?_ ⟨h₀.sound, h₀.thrifty, fun arena => by rw [h₀.lobbies arena]; simp, fun _ => rfl⟩ events hspare
  rintro _ e event e' _ hsp ⟨hs, ht, hr, hm⟩ hstep
  simp only [engine] at hstep
  split at hstep
  · cases hstep
    obtain ⟨hs', ht', hr', hhouse⟩ := serve_step hreal hs ht hr hsp
    exact ⟨hs', ht', hr', fun f => (hhouse.moved f).trans (hm f)⟩
  · cases hstep

/-- What a run does with house money: its total follows entries and settlements, nothing is overdrawn, what is
retired is empty, and accounts go on. -/
structure OnlyMoved (s : Settings) (e₀ : State) (events : List Event) : Prop where
  moved : ∀ f, total (house s.pool) ((engine s).run e₀ events).ledger f - total (house s.pool) e₀.ledger f =
    moved (house s.pool) ((engine s).run e₀ events).flows f - moved (house s.pool) e₀.flows f
  nonneg : ((engine s).run e₀ events).ledger.Nonneg
  empty : ∀ id, Retired ((engine s).run e₀ events).ledger id → ∀ f, ((engine s).run e₀ events).ledger.bal id f = 0
  goesOn : ∀ before event after, events = before ++ event :: after → ∀ id a,
    ((engine s).run e₀ before).ledger.get id = some a → (event.isRestart → hasActivity a = true) →
    ∃ a', ((engine s).run e₀ (before ++ [event])).ledger.get id = some a' ∧ a.Continues a'

/-- House money is only moved by the population of bots, in every run whose events waste none. -/
theorem house_money_is_only_moved (hreal : s.FAKE_BANK_OK = false) {e₀ : State} (h₀ : Opening s e₀) (events : List Event)
    (hspare : (engine s).Each (Sparing s) e₀ events) : OnlyMoved s e₀ events := by
  obtain ⟨hs, ht, -, hm⟩ := run_thrifty hreal h₀ events hspare
  refine ⟨fun f => by linarith [hm f], hs.nonneg, ht.empty, ?_⟩
  rintro before event after rfl id a ha hact
  obtain ⟨hbefore, hsp, -⟩ := (Machine.each_append _ _ _ _).mp hspare
  obtain ⟨hs₁, ht₁, hr₁, -⟩ := run_thrifty hreal h₀ before hbefore
  rw [Machine.run_append, Machine.run_cons, Machine.run_nil]
  generalize (engine s).run e₀ before = e at ha hs₁ ht₁ hr₁ hsp
  by_cases hon : event.arena.all fun arena => s.enabled arena
  · have hstep : (engine s).attempt e event = State.serve s e event :=
      Machine.attempt_ok (o := ()) (if_pos hon)
    rw [hstep]
    exact (serve_step hreal hs₁ ht₁ hr₁ hsp).2.2.2.goesOn id a ha hact
  · have hstep : (engine s).attempt e event = e := Machine.attempt_error (if_neg hon)
    rw [hstep]
    exact ⟨a, ha, .refl a⟩

/-! ## A pool of one wallet and one arena -/

/-- A text for every number: small ones as they are, the others in unary. -/
def tallyText (x : ℚ) : String :=
  if x = 0 then "0" else if x = 1 then "1" else if x = 2 then "2"
  else String.ofList ((if x < 0 then ['-'] else []) ++ List.replicate x.num.natAbs 'n' ++ List.replicate x.den 'd')

def readTally (text : String) : ℚ :=
  if text = "0" then 0 else if text = "1" then 1 else if text = "2" then 2
  else (if '-' ∈ text.toList then -1 else 1) * (text.toList.count 'n' : ℚ) / (text.toList.count 'd' : ℚ)

theorem tally_ne (x : ℚ) (l : List Char) (digit : Char) (hd : digit ≠ 'd') :
    String.ofList (l ++ List.replicate x.den 'd') ≠ String.ofList [digit] := by
  intro h
  have hmem : 'd' ∈ l ++ List.replicate x.den 'd' :=
    List.mem_append_right _ (List.mem_replicate.mpr ⟨x.den_nz, rfl⟩)
  rw [String.ofList_inj.mp h] at hmem
  exact hd (List.mem_singleton.mp hmem).symm

theorem readTally_tallyText (x : ℚ) : readTally (tallyText x) = x := by
  unfold tallyText
  by_cases h0 : x = 0
  · rw [if_pos h0, h0]
    rfl
  by_cases h1 : x = 1
  · rw [if_neg h0, if_pos h1, h1]
    rfl
  by_cases h2 : x = 2
  · rw [if_neg h0, if_neg h1, if_pos h2, h2]
    rfl
  rw [if_neg h0, if_neg h1, if_neg h2, readTally, if_neg (tally_ne x _ '0' (by decide)),
    if_neg (tally_ne x _ '1' (by decide)), if_neg (tally_ne x _ '2' (by decide))]
  have hnum : |(x.num : ℚ)| / x.den = |x| := by
    rw [← Nat.abs_cast x.den, ← abs_div, Rat.num_div_den]
  by_cases hneg : x < 0
  · have hread : -|(x.num : ℚ)| / x.den = x := by rw [neg_div, hnum, abs_of_neg hneg, neg_neg]
    simpa [hneg, List.count_replicate] using hread
  · have hread : |(x.num : ℚ)| / x.den = x := by rw [hnum, abs_of_nonneg (not_lt.mp hneg)]
    simpa [hneg, List.count_replicate] using hread

theorem bar_notMem_tallyText (x : ℚ) : '|' ∉ (tallyText x).toList := by
  unfold tallyText
  split
  · decide
  split
  · decide
  split
  · decide
  split <;> simp

/-- Only one arena is on; bots are banked with ten tokens and stake one. -/
def oneArena : Settings where
  platform := stillPlatform
  round := ⟨9000, 40000, fun _ => ""⟩
  enabled arena := arena = .two ⟨.au, .normal⟩
  pool := ["house"]
  FAKE_BANK_OK := false
  BOT_BANK_MIN := 10
  BOT_BANK_MAX := 10
  BOT_STAKE_MIN := 1
  BOT_STAKE_MAX := 1
  BOT_BANK_USD_MIN := 2
  BOT_BANK_USD_MAX := 60
  BOT_STAKE_USD_MIN := 1
  BOT_BUST_USD := 1
  BOT_MAX_BANK_USD := 5
  BOT_MIN_RUNWAY := 2
  BOT_FUND_SPREAD := 1
  BOT_COMMIT_MIN := 1 / 10
  BOT_COMMIT_MAX := 2 / 10
  MATCH_RATIO := 1
  SWARM_SIZE := 4
  MIN_PER_SIDE := 1
  PLAY_MIN := 1
  PLAY_MAX := 0
  PLAY_IDLE_MAX := 2
  PLAY_SCALE_USD := 50
  POP_MIN := 0
  POP_MAX := 40
  POP_START := 4
  POP_GROWTH := 1
  POP_ROTATIONS := 3
  SEED_BOTS := 0
  numText := tallyText
  readNum := readTally
  read_text := readTally_tallyText
  text_clean := bar_notMem_tallyText
  stake_pos := by decide
  bank_nonneg := by decide
  pool_keys := fun id h => by
    obtain rfl := List.mem_singleton.mp h
    exact ⟨by decide, by decide, by decide⟩

/-- Every token is worth a dollar. -/
def par : Quotes where
  usdPerUnit _ := 1
  lastGood _ := 1
  sol := rfl

def plainBot : BotDraw where
  bank := 0
  temper := 1
  skip := 0
  team := 0
  team_mem := by decide

def plainBoot : BootDraw where
  lobby _ := ⟨"secret", 0, 0⟩
  bots _ _ := plainBot
  quotes := par

/-- The house wallet has a hundred of each token, and every arena is in its first lobby. -/
def funded : State where
  ledger := OrderedMap.empty.set "house" { Account.fresh "house" .bull true with bal := fun _ => 100 }
  two _ := freshLobby stillPlatform ⟨9000, 40000, fun _ => ""⟩ 1 ⟨"secret", 0, 0⟩
  many _ := freshLobby stillPlatform ⟨9000, 40000, fun _ => ""⟩ 1 ⟨"secret", 0, 0⟩
  seq := 0
  prices := OrderedMap.empty
  matchedBook := OrderedMap.empty
  botScanOffset := 0
  roundsByArena _ := 0
  boot := 0
  flows := []
  settled := []
  payments := []
  forgotten := []

theorem funded_get {id : String} {a : Account} (h : funded.ledger.get id = some a) :
    id = "house" ∧ a = { Account.fresh "house" .bull true with bal := fun _ => 100 } := by
  rw [funded, OrderedMap.get_set] at h
  split at h
  · next hid =>
      cases h
      exact ⟨hid, rfl⟩
  · cases h

theorem funded_opening : Opening oneArena funded where
  accounts := {
    nonneg := fun id f => by
      unfold Ledger.bal
      cases h : funded.ledger.get id with
      | none => rfl
      | some a =>
          obtain ⟨-, rfl⟩ := funded_get h
          exact (by norm_num : (0 : ℚ) ≤ 100)
    keyed := fun id a h => by
      obtain ⟨rfl, rfl⟩ := funded_get h
      rfl
    bots := fun id a h _ => .inl (List.mem_singleton.mpr (funded_get h).1)
    retired := fun id a h hret => by
      obtain ⟨rfl, rfl⟩ := funded_get h
      cases hret
    empty := by
      rintro id ⟨a, h, hret⟩
      obtain ⟨rfl, rfl⟩ := funded_get h
      cases hret
    ready := ⟨"house", List.mem_singleton.mpr rfl, _, rfl, rfl⟩ }
  lobbies := fun arena => by cases arena <;> rfl
  two := fun _ => rfl
  many := fun _ => rfl

/-- A bot is made and levelled, and is still there after a restart. -/
theorem house_money_is_only_moved_funded : OnlyMoved oneArena funded
    [.newBot par ⟨.au, .normal⟩ .bull plainBot, .levelBots par, .restart (some par) plainBoot, .levelBots par] := by
  have hfree : (funded.ledger.get (botId "au-normal" 1)).isNone = true := by decide +kernel
  have hbot : ((leaving oneArena (some par) ((engine oneArena).run funded
      [.newBot par ⟨.au, .normal⟩ .bull plainBot, .levelBots par])).ledger.get "house").all (·.isBot) = true := by
    decide +kernel
  have hlive : liveBots (.two ⟨.au, .normal⟩) ((engine oneArena).run funded
      [.newBot par ⟨.au, .normal⟩ .bull plainBot, .levelBots par]).ledger ≠ [] := by decide +kernel
  have hon : liveArenas oneArena = [.two ⟨.au, .normal⟩] := by decide +kernel
  refine house_money_is_only_moved rfl funded_opening _
    ⟨Option.isNone_iff_eq_none.mp hfree, trivial, ⟨fun id hid a ha => .inl ?_, fun arena harena => .inl ?_⟩, trivial, trivial⟩
  · obtain rfl := List.mem_singleton.mp hid
    exact (congrArg (Option.all (·.isBot)) ha).symm.trans hbot
  · rw [hon] at harena
    obtain rfl := List.mem_singleton.mp harena
    exact hlive

/-- The numbers of bots start over with the process, and a new bot takes the place of an old one. -/
theorem newBot_replaces_after_restart : ¬OnlyMoved oneArena funded
    [.newBot par ⟨.au, .normal⟩ .bull plainBot, .restart none plainBoot,
      .newBot par ⟨.au, .normal⟩ .bull plainBot] := by
  intro h
  have hm := h.moved .bull
  revert hm
  decide +kernel

end BullsUnicorns.Engine

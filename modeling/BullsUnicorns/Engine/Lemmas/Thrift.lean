import BullsUnicorns.Engine.Lemmas.Renew

/-!
# Retired bots, and the ids of new ones

No act credits a retired bot, as long as no bot is retired that still plays and nobody names one as the
referrer. An act opens no account under the id of a bot but that of the bot it makes.
-/

namespace BullsUnicorns.Engine

open Battle

/-! ## Who plays -/

/-- The owners of the entries of an arena. -/
def State.owners (e : State) : Arena → List String
  | .two aid => (e.two aid).state.entries.map fun en => walletOf en.id
  | .many aid => (e.many aid).state.entries.map fun en => walletOf en.id

/-- The account has no entry in a round that is yet to be settled. -/
def Undeployed (e : State) (id : String) : Prop := ∀ arena, e.phaseOf arena ≠ .settle → id ∉ e.owners arena

/-- Retired bots hold nothing and do not play, and a house wallet has an account. -/
structure Thrifty (s : Settings) (e : State) : Prop where
  empty : ∀ id, Retired e.ledger id → ∀ f, e.ledger.bal id f = 0
  away : ∀ id, Retired e.ledger id → Undeployed e id
  ready : ∃ id ∈ s.pool, ∃ a, e.ledger.get id = some a ∧ a.isBot = true

/-- An act that wastes no house money: a bot that is retired does not play, the referrer of a stake is not a
retired bot, and a new bot has a bank that is real and an id that is free. -/
def Spared (s : Settings) (e : State) : Kind → Prop
  | .retire id => Undeployed e id
  | .player m => ¬Retired e.ledger (refOf (e.account m.wallet) m)
  | .newBot arena => s.FAKE_BANK_OK = false ∧ e.ledger.get (botId arena.text (e.seq + 1)) = none
  | _ => True

/-! ## What the small steps leave alone -/

section
variable {l : Ledger} {e : State} {arena : Arena} {round : ℕ} {id k : String} {f g : Field} {x : ℚ} {side : Side}

theorem Ledger.bal_add_ne (h : k ≠ id) : (l.add id f x).bal k g = l.bal k g := by
  simp [Ledger.bal, Ledger.get_add, h]

theorem bal_acct : (acct l id side).bal k f = l.bal k f := by
  unfold acct
  cases h : l.get id with
  | some a => rfl
  | none =>
      rw [Ledger.bal, OrderedMap.get_set]
      split
      · next hk => rw [hk, Ledger.bal_of_none h]; rfl
      · rfl

theorem bal_treasuryAcct : (treasuryAcct l).bal k f = l.bal k f := by
  unfold treasuryAcct
  cases h : l.get TREASURY_ID with
  | some a => rfl
  | none =>
      rw [Ledger.bal, OrderedMap.get_set]
      split
      · next hk => rw [hk, Ledger.bal_of_none h]; rfl
      · rfl

theorem bal_bankFee (h : k ≠ TREASURY_ID) : (e.bankFee arena round f x).ledger.bal k g = e.ledger.bal k g := by
  unfold State.bankFee
  split
  · rfl
  · exact (Ledger.bal_add_ne h).trans bal_treasuryAcct

theorem bal_returnFee {s : Settings} (h : k ∉ s.pool) : (e.returnFee s arena round f x).ledger.bal k g = e.ledger.bal k g := by
  unfold State.returnFee
  split
  · rfl
  split
  · rfl
  · next target htarget =>
      refine Ledger.bal_add_ne ?_
      rintro rfl
      exact h (mem_poolAccounts.mp (poorest_mem htarget)).1

theorem bal_payReferrer {m : EnterMsg} {refBy : String} (h : k ≠ refBy) :
    (payReferrer e m round refBy x).ledger.bal k g = e.ledger.bal k g := by
  unfold payReferrer
  extract_lets e₁
  refine (Ledger.bal_add_ne h).trans ?_
  rw [State.touch_ledger, touch_bal (cosmetic_ref x)]
  exact bal_acct

end

section
variable {s : Settings} {e : State} {id k : String} {g : Field}

theorem bal_deployBot {aid : ArenaId} {side : Side} {tokens usd : ℚ} (husd : 0 ≤ usd) (h : k ≠ id) (ht : k ≠ TREASURY_ID) :
    (deployBot s e aid id side tokens usd).ledger.bal k g = e.ledger.bal k g := by
  unfold deployBot
  extract_lets f round e₁
  refine (bal_bankFee ht).trans ((Ledger.bal_add_ne h).trans ?_)
  rw [State.touch_ledger, touch_bal (cosmetic_dep husd (·.side) (·.refBy))]

theorem bal_deployBotN {aid : NArena} {team tokens usd : ℚ} (husd : 0 ≤ usd) (h : k ≠ id) (hp : k ∉ s.pool) :
    (deployBotN s e aid id team tokens usd).ledger.bal k g = e.ledger.bal k g := by
  unfold deployBotN
  extract_lets f round e₁
  refine (touch_bal (cosmetic_dep husd (·.side) (·.refBy)) _ _ _ _).trans ((bal_returnFee hp).trans ?_)
  exact Ledger.bal_add_ne h

theorem bal_deployPlayer {m : EnterMsg} {stake px : ℚ} (h0 : 0 ≤ stake * px) (h : k ≠ m.wallet)
    (href : k ≠ refOf (e.account m.wallet) m) (ht : k ≠ TREASURY_ID) :
    (deployPlayer s e m stake px).ledger.bal k g = e.ledger.bal k g := by
  unfold deployPlayer
  extract_lets f round refBy e₁ fee refCut e₂
  have h₁ : e₁.ledger.bal k g = e.ledger.bal k g := by
    refine (Ledger.bal_add_ne h).trans ?_
    rw [State.touch_ledger, touch_bal (cosmetic_dep h0 (fun _ => m.side) fun _ => refBy)]
  have h₂ : e₂.ledger.bal k g = e₁.ledger.bal k g := by
    simp only [e₂]
    split
    · rfl
    · exact bal_payReferrer href
  exact ((bal_bankFee ht).trans h₂).trans h₁

theorem bal_deployPlayerN {m : EnterNMsg} {stake usd : ℚ} (husd : 0 ≤ usd) (h : k ≠ m.wallet) (ht : k ≠ TREASURY_ID) :
    (deployPlayerN s e m stake usd).ledger.bal k g = e.ledger.bal k g := by
  unfold deployPlayerN
  extract_lets f round e₁
  refine (bal_bankFee ht).trans ((Ledger.bal_add_ne h).trans ?_)
  rw [State.touch_ledger, touch_bal (cosmetic_dep husd (·.side) (·.refBy))]

theorem bal_payFighter {q : Quotes} {aid : ArenaId} {round : ℕ} {pay : String × Battle.Payout} (h : k ≠ walletOf pay.1) :
    (payFighter q aid round e pay).ledger.bal k g = e.ledger.bal k g := by
  unfold payFighter
  extract_lets id fA fB e₁ retA retB ret e₂ e₃
  split
  · rfl
  · refine (touch_bal (cosmetic_games ret) _ _ _ _).trans ?_
    refine (Ledger.bal_add_ne h).trans ((Ledger.bal_add_ne h).trans ?_)
    simp only [e₁, freeze_ledger]

theorem bal_payFighterN {q : Quotes} {aid : NArena} {round : ℕ} {pay : String × ℚ} (h : k ≠ walletOf pay.1) :
    (payFighterN s q aid round e pay).ledger.bal k g = e.ledger.bal k g := by
  unfold payFighterN
  extract_lets id f e₁ ret usd e₂
  split
  · rfl
  · refine (touch_bal (cosmetic_games usd) _ _ _ _).trans ((Ledger.bal_add_ne h).trans ?_)
    simp only [e₁, freeze_ledger]

theorem bal_foldl {α : Type} {pay : State → α → State} {l : List α}
    (h : ∀ e, ∀ x ∈ l, (pay e x).ledger.bal k g = e.ledger.bal k g) (e : State) :
    (l.foldl pay e).ledger.bal k g = e.ledger.bal k g := by
  induction l generalizing e with
  | nil => rfl
  | cons x l ih =>
      rw [List.foldl_cons, ih (fun e y hy => h e y (List.mem_cons_of_mem x hy)), h e x List.mem_cons_self]

theorem bal_topUp {f : Field} {amount : ℚ} (h : k ≠ id) (hp : k ∉ s.pool) :
    (topUp s e id f amount).1.ledger.bal k g = e.ledger.bal k g := by
  obtain ⟨hshift, -⟩ := drawBank_shift s.pool f amount 1 e.ledger
  unfold topUp
  rcases hdraw : drawBank s.pool e.ledger f amount 1 with ⟨l, drawn⟩
  rw [hdraw] at hshift
  dsimp only at hshift ⊢
  split
  · exact (Ledger.bal_add_ne h).trans (Ledger.bal_shift hshift hp)
  · exact Ledger.bal_shift hshift hp

theorem bal_levelField {q : Quotes} {f : Field} (h : k ≠ id) (hp : k ∉ s.pool) :
    (levelField s q e id f).ledger.bal k g = e.ledger.bal k g := by
  unfold levelField
  extract_lets px usd skimTok
  split
  · rfl
  split
  · rfl
  · next hpx husd =>
      have hskim : 0 ≤ skimTok := (div_pos (sub_pos.mpr (not_le.mp husd)) (not_le.mp hpx)).le
      obtain ⟨x, hshift, -⟩ := returnBank_shift s.pool f hskim (e.ledger.add id f (-skimTok))
      exact (Ledger.bal_shift hshift hp).trans (Ledger.bal_add_ne h)

theorem bal_makeBot {q : Quotes} {a : Account} {f : Field} {want spread : ℚ} (h : k ≠ a.id) (hp : k ∉ s.pool) :
    (makeBot s e q a f want spread).1.ledger.bal k g = e.ledger.bal k g := by
  obtain ⟨l, got, hbank, hcase⟩ := makeBot_cases s e q a f want spread
  obtain ⟨x, hshift, -⟩ := bankFor_shift (s := s) f want spread e.ledger
  rw [hbank] at hshift
  rcases hcase with he | ⟨-, he⟩
  · rw [he]
    by_cases h0 : 0 ≤ got
    · obtain ⟨y, hback, -⟩ := returnBank_shift s.pool f h0 l
      exact (Ledger.bal_shift hback hp).trans (Ledger.bal_shift hshift hp)
    · have hnone : returnBank s.pool l f got = l := by rw [returnBank, if_pos (not_le.mp h0).le]
      exact (congrArg (Ledger.bal · k g) hnone).trans (Ledger.bal_shift hshift hp)
  · rw [he]
    have hset : Ledger.bal (l.set a.id (a.add f got)) k g = Ledger.bal l k g := by
      rw [Ledger.bal, OrderedMap.get_set, if_neg h]
      rfl
    exact hset.trans (Ledger.bal_shift hshift hp)

end

/-! ## No act credits a retired bot -/

variable {s : Settings} {k : Kind} {e e' : State} {id : String}

theorem Retired.colon (hs : Sound s e) (h : Retired e.ledger id) : ':' ∈ id.toList := by
  obtain ⟨a, ha, hret⟩ := h
  exact hs.retired id a ha hret

theorem Retired.notMem_pool (hs : Sound s e) (h : Retired e.ledger id) : id ∉ s.pool := fun hp =>
  (s.pool_keys id hp).1 (h.colon hs)

/-- What a retired bot holds stays as it is. -/
theorem Act.frozen (h : Act s k e e') (hs : Sound s e) (ht : Thrifty s e) (hspare : Spared s e k)
    (hid : Retired e.ledger id) (f : Field) : e'.ledger.bal id f = e.ledger.bal id f := by
  have hcolon := hid.colon hs
  have hpool := hid.notMem_pool hs
  have htreasury := treasury_ne hcolon
  cases h with
  | quiet h => rw [h.ledger]
  | touch e id' hg => exact touch_bal hg _ _ _ _
  | join e side _ => exact bal_acct
  | topUp f' amount halive => exact bal_topUp (fun he => (he ▸ halive).not_retired hid) hpool
  | skim q f' ha hbot hret _ =>
      refine bal_levelField ?_ hpool
      rintro rfl
      obtain ⟨a', ha', hret'⟩ := hid
      rw [ha, Option.some_inj] at ha'
      rw [← ha', hret] at hret'
      cases hret'
  | newBot e q aid side d =>
      obtain ⟨-, hfree⟩ := hspare
      refine (bal_makeBot (e := { e with seq := e.seq + 1 }) ?_ hpool).trans rfl
      rintro rfl
      obtain ⟨a, ha, -⟩ := hid
      exact absurd (ha.symm.trans hfree) (by simp)
  | newBotN e q aid d =>
      obtain ⟨-, hfree⟩ := hspare
      refine (bal_makeBot (e := { e with seq := e.seq + 1 }) ?_ hpool).trans rfl
      rintro rfl
      obtain ⟨a, ha, -⟩ := hid
      exact absurd (ha.symm.trans hfree) (by simp)
  | @retire e id' a ha hbot hcolon' =>
      obtain ⟨l, -, -, hzero, hother, -, he⟩ :=
        retireBot_spec ha hbot (fun hp => (s.pool_keys _ hp).1 hcolon') hs.nonneg
      have hmark : ∀ k g, (l.modify id' fun a => { a with retired := true }).bal k g = l.bal k g := by
        intro k g
        rw [Ledger.bal, Ledger.get_modify]
        by_cases hk : k = id'
        · subst hk
          cases h : l.get k <;> simp [h, Ledger.bal]
        · simp [hk, Ledger.bal]
      rw [he]
      dsimp only
      rw [hmark]
      by_cases hk : id = id'
      · rw [hk, hzero, ← hk, ht.empty id hid]
      · exact hother id f hk hpool
  | stakeBot halive _ _ husd _ _ _ =>
      exact bal_deployBot husd.le (fun he => (he ▸ halive).not_retired hid) htreasury
  | stakeBotN halive _ _ husd _ _ _ =>
      exact bal_deployBotN husd.le (fun he => (he ▸ halive).not_retired hid) hpool
  | @stakePlayer e m stake px _ _ hpx h0 _ _ =>
      refine bal_deployPlayer (mul_pos h0 hpx).le (m.key.ne_of_colon hcolon) ?_ htreasury
      rintro rfl
      exact hspare hid
  | @stakePlayerN e m stake usd _ _ husd _ _ _ =>
      exact bal_deployPlayerN husd.le (m.key.ne_of_colon hcolon) htreasury
  | fight _ => rfl
  | fightN _ => rfl
  | @settle e q aid r hphase hr =>
      obtain ⟨seed, multiplier, hfight⟩ := (hs.two aid).fought hphase
      rw [hr, Option.some_inj] at hfight
      refine bal_foldl (fun e' pay hpay => bal_payFighter ?_) _
      rintro rfl
      rw [hfight] at hpay
      obtain ⟨en, hen, he⟩ := List.mem_map.mp (fightRound_keys _ _ _ _ pay hpay)
      refine ht.away _ hid (.two aid) ?_ (List.mem_map.mpr ⟨en, hen, by rw [he]⟩)
      simp [State.phaseOf, hphase]
  | @settleN e q aid r hphase hr =>
      obtain ⟨seed, multiplier, hfight⟩ := (hs.many aid).fought hphase
      rw [hr, Option.some_inj] at hfight
      refine bal_foldl (fun e' pay hpay => bal_payFighterN ?_) _
      rintro rfl
      rw [hfight] at hpay
      obtain ⟨en, hen, he⟩ := List.mem_map.mp (N.simulateN_listed _ _ _ _ pay hpay)
      refine ht.away _ hid (.many aid) ?_ (List.mem_map.mpr ⟨en, hen, by rw [he]⟩)
      simp [State.phaseOf, hphase]
  | reopen d _ => rfl
  | reopenN d _ => rfl

/-! ## Who plays after an act -/

section
variable {E R S : Type} [DecidableEq S] {c : RunnerClass E R S} {ok : String → S → Prop} {r r' : Runner E R}

/-- An entry of a round to be settled was there before, or has just been made. -/
theorem Turned.entry (h : Turned c ok r r') (hphase : r'.state.phase ≠ .settle) {en : E} (hen : en ∈ r'.state.entries) :
    (r.state.phase ≠ .settle ∧ en ∈ r.state.entries) ∨ ∃ slot, ok (c.id en) slot := by
  cases h with
  | same => exact .inl ⟨hphase, hen⟩
  | @entered _ slot _ hlobby _ hok =>
      rcases mem_place hen with hen | ⟨hid, -, -⟩
      · exact .inl ⟨by simp [hlobby], hen⟩
      · exact .inr ⟨slot, by rwa [hid]⟩
  | fought hf => exact .inl ⟨by simp [hf.lobby], hf.entries ▸ hen⟩
  | settling _ => exact absurd rfl hphase
  | fresh _ _ _ _ => exact (List.not_mem_nil hen).elim

end

/-- Whoever plays after an act played before it, or has entered and is not retired. -/
theorem Turns.owner (h : Turns s e e') {arena : Arena} (hphase : e'.phaseOf arena ≠ .settle) (hid : id ∈ e'.owners arena) :
    (e.phaseOf arena ≠ .settle ∧ id ∈ e.owners arena) ∨ ¬Retired e'.ledger id := by
  cases arena with
  | two aid =>
      obtain ⟨en, hen, rfl⟩ := List.mem_map.mp hid
      rcases (h.two aid).entry hphase hen with ⟨hp, hen⟩ | ⟨slot, -, hret⟩
      · exact .inl ⟨hp, List.mem_map.mpr ⟨en, hen, rfl⟩⟩
      · exact .inr hret
  | many aid =>
      obtain ⟨en, hen, rfl⟩ := List.mem_map.mp hid
      rcases (h.many aid).entry hphase hen with ⟨hp, hen⟩ | ⟨slot, -, hret⟩
      · exact .inl ⟨hp, List.mem_map.mpr ⟨en, hen, rfl⟩⟩
      · exact .inr hret

theorem Act.thrifty (h : Act s k e e') (hs : Sound s e) (ht : Thrifty s e) (hspare : Spared s e k) : Thrifty s e' := by
  have held := h.held hs
  have turns := h.turns hs
  -- who is retired now was retired before, or is retired by this act
  have hretired : ∀ id, Retired e'.ledger id → Retired e.ledger id ∨ k.dead id := by
    rintro id ⟨a', ha', hret⟩
    rcases held.retirees id a' ha' hret with ⟨a, ha, hret⟩ | hdead
    · exact .inl ⟨a, ha, hret⟩
    · exact .inr hdead
  have hdead : ∀ id, k.dead id → k = .retire id := by
    intro id hd
    cases k with
    | retire id' => rw [show id = id' from hd]
    | _ => exact hd.elim
  refine ⟨fun id hid f => ?_, fun id hid arena hphase howner => ?_, ?_⟩
  · rcases hretired id hid with hold | hnew
    · rw [h.frozen hs ht hspare hold f, ht.empty id hold]
    · rw [hdead id hnew] at h
      cases h with
      | retire ha hbot hcolon =>
          obtain ⟨l, -, -, hzero, -, -, he⟩ :=
            retireBot_spec ha hbot (fun hp => (s.pool_keys _ hp).1 hcolon) hs.nonneg
          rw [he]
          dsimp only
          rw [Ledger.bal, Ledger.get_modify, if_pos rfl]
          have := hzero f
          cases hl : l.get id with
          | none => rfl
          | some b =>
              rw [Ledger.bal_of_get hl] at this
              exact this
  · rcases turns.owner hphase howner with ⟨hp, hmem⟩ | hnot
    · rcases hretired id hid with hold | hnew
      · exact ht.away id hold arena hp hmem
      · rw [hdead id hnew] at hspare
        exact hspare arena hp hmem
    · exact hnot hid
  · obtain ⟨id, hid, a, ha, hbot⟩ := ht.ready
    obtain ⟨a', ha', hbot', -⟩ := held.lasts id a ha
    exact ⟨id, hid, a', ha', hbot' hbot⟩

/-- What each act of a chain needs for its turn, the acts keep; then the chain is booked and stays thrifty. -/
theorem Acts.thrifty {K : Kind → Prop} {P : State → Prop} (h : Acts s K e e') (hs : Sound s e) (ht : Thrifty s e)
    (hspare : ∀ k e e', K k → Sound s e → Act s k e e' → P e → Spared s e k ∧ P e') (h0 : P e) :
    Sound s e' ∧ Thrifty s e' ∧ Booked s.pool (fun _ => True) e e' ∧ P e' := by
  induction h with
  | refl => exact ⟨hs, ht, (Booked.of_eq rfl rfl).mono fun _ _ => trivial, h0⟩
  | tail _ hact ih =>
      obtain ⟨hs₁, ht₁, hb₁, h₁⟩ := ih
      obtain ⟨k, hk, hact⟩ := hact
      obtain ⟨hsp, h₂⟩ := hspare k _ _ hk hs₁ hact h₁
      refine ⟨hact.sound hs₁, hact.thrifty hs₁ ht₁ hsp, ?_, h₂⟩
      refine (hb₁.trans (hact.booked hs₁ ?_)).mono fun _ _ => trivial
      rintro arena rfl
      exact hsp

/-! ## Free ids -/

/-- No account has a number of this arena that the counter has yet to give out. -/
def Ahead (arena : Arena) (e : State) : Prop := ∀ n, e.seq < n → e.ledger.get (botId arena.text n) = none

section
variable {l : Ledger} {arena : Arena} {round : ℕ} {f : Field} {x : ℚ}

theorem Ledger.Same.absent {l' : Ledger} (h : l.Same l') (hid : l.get id = none) : l'.get id = none := by
  have h1 := h.isSome id
  rw [hid] at h1
  simpa using h1

theorem Ledger.absent_modify {k : String} {u : Account → Account} (h : l.get id = none) : (l.modify k u).get id = none := by
  rw [Ledger.get_modify]
  split
  · next hk => rw [← hk, h]; rfl
  · exact h

theorem Ledger.absent_add {k : String} (h : l.get id = none) : (l.add k f x).get id = none := Ledger.absent_modify h

theorem absent_acct {wallet : String} {side : Side} (hne : id ≠ wallet) (h : l.get id = none) :
    (acct l wallet side).get id = none := by
  unfold acct
  split
  · exact h
  · rwa [OrderedMap.get_set, if_neg hne]

theorem absent_bankFee (hne : id ≠ TREASURY_ID) (h : e.ledger.get id = none) :
    (e.bankFee arena round f x).ledger.get id = none := by
  unfold State.bankFee
  split
  · exact h
  · refine Ledger.absent_add ?_
    dsimp only
    unfold treasuryAcct
    split
    · exact h
    · rwa [OrderedMap.get_set, if_neg hne]

theorem absent_returnFee (h : e.ledger.get id = none) : (e.returnFee s arena round f x).ledger.get id = none := by
  unfold State.returnFee
  split
  · exact h
  split
  · exact h
  · exact Ledger.absent_add h

theorem absent_foldl {α : Type} {pay : State → α → State} (l : List α)
    (h : ∀ e x, e.ledger.get id = none → (pay e x).ledger.get id = none) (e : State) (hid : e.ledger.get id = none) :
    (l.foldl pay e).ledger.get id = none := by
  induction l generalizing e with
  | nil => exact hid
  | cons x l ih => exact ih _ (h e x hid)

theorem absent_makeBot {q : Quotes} {a : Account} {want spread : ℚ} (hne : id ≠ a.id) (h : e.ledger.get id = none) :
    (makeBot s e q a f want spread).1.ledger.get id = none := by
  obtain ⟨l, got, hbank, hcase⟩ := makeBot_cases s e q a f want spread
  obtain ⟨x, hshift, -⟩ := bankFor_shift (s := s) f want spread e.ledger
  rw [hbank] at hshift
  have hl : l.get id = none := hshift.same.absent h
  rcases hcase with he | ⟨-, he⟩
  · rw [he]
    by_cases h0 : 0 ≤ got
    · obtain ⟨y, hback, -⟩ := returnBank_shift s.pool f h0 l
      exact hback.same.absent hl
    · have hnone : returnBank s.pool l f got = l := by rw [returnBank, if_pos (not_le.mp h0).le]
      dsimp only
      rwa [hnone]
  · rw [he]
    dsimp only
    rwa [OrderedMap.get_set, if_neg hne]

theorem absent_payFighter {q : Quotes} {aid : ArenaId} {pay : String × Battle.Payout} (h : e.ledger.get id = none) :
    (payFighter q aid round e pay).ledger.get id = none := by
  unfold payFighter
  extract_lets id' fA fB e₁ retA retB ret e₂ e₃
  split
  · exact h
  · refine Ledger.absent_modify (Ledger.absent_add (Ledger.absent_add ?_))
    simpa only [e₁, freeze_ledger] using h

theorem absent_payFighterN {q : Quotes} {aid : NArena} {pay : String × ℚ} (h : e.ledger.get id = none) :
    (payFighterN s q aid round e pay).ledger.get id = none := by
  unfold payFighterN
  extract_lets id' f e₁ ret usd e₂
  split
  · exact h
  · refine Ledger.absent_modify (Ledger.absent_add ?_)
    simpa only [e₁, freeze_ledger] using h

end

/-- Only a new bot opens an account under the id of a bot, or a player who names one as the referrer. -/
theorem Act.absent (h : Act s k e e') (hs : Sound s e) (hplayer : ∀ m, k ≠ .player m)
    (hnew : ∀ arena, k = .newBot arena → id ≠ botId arena.text (e.seq + 1)) (hcolon : ':' ∈ id.toList)
    (hid : e.ledger.get id = none) : e'.ledger.get id = none := by
  have htreasury := treasury_ne hcolon
  cases h with
  | quiet h => rwa [h.ledger]
  | touch e id' hg => exact Ledger.absent_modify hid
  | join e side hkey => exact absent_acct (hkey.ne_of_colon hcolon) hid
  | topUp f amount halive =>
      obtain ⟨a, ha, hbot, -⟩ := halive
      obtain ⟨hshift, -⟩ := drawBank_shift s.pool f amount 1 e.ledger
      unfold Engine.topUp
      rcases hdraw : drawBank s.pool e.ledger f amount 1 with ⟨l, drawn⟩
      rw [hdraw] at hshift
      dsimp only at hshift ⊢
      split
      · exact Ledger.absent_add (hshift.same.absent hid)
      · exact hshift.same.absent hid
  | skim q f ha hbot hret _ =>
      unfold levelField
      extract_lets px usd skimTok
      split
      · exact hid
      split
      · exact hid
      · next hpx husd =>
          have hskim : 0 ≤ skimTok := (div_pos (sub_pos.mpr (not_le.mp husd)) (not_le.mp hpx)).le
          obtain ⟨x, hshift, -⟩ := returnBank_shift s.pool f hskim (e.ledger.add _ f (-skimTok))
          exact hshift.same.absent (Ledger.absent_add hid)
  | newBot e q aid side d => exact absent_makeBot (e := { e with seq := e.seq + 1 }) (hnew _ rfl) hid
  | newBotN e q aid d => exact absent_makeBot (e := { e with seq := e.seq + 1 }) (hnew _ rfl) hid
  | retire ha hbot hcolon' =>
      obtain ⟨l, hsame, -, -, -, -, he⟩ := retireBot_spec ha hbot (fun hp => (s.pool_keys _ hp).1 hcolon') hs.nonneg
      rw [he]
      exact Ledger.absent_modify (hsame.absent hid)
  | stakeBot _ _ _ _ _ _ _ => exact absent_bankFee htreasury (Ledger.absent_add (Ledger.absent_modify hid))
  | stakeBotN _ _ _ _ _ _ _ => exact Ledger.absent_modify (absent_returnFee (Ledger.absent_add hid))
  | stakePlayer _ _ _ _ _ => exact absurd rfl (hplayer _)
  | stakePlayerN _ _ _ _ _ _ => exact absent_bankFee htreasury (Ledger.absent_add (Ledger.absent_modify hid))
  | fight _ => exact hid
  | fightN _ => exact hid
  | settle q _ _ => exact absent_foldl _ (fun e pay h => absent_payFighter h) _ hid
  | settleN q _ _ => exact absent_foldl _ (fun e pay h => absent_payFighterN h) _ hid
  | reopen d _ => exact hid
  | reopenN d _ => exact hid

theorem makeBot_seq (s : Settings) (e : State) (q : Quotes) (a : Account) (f : Field) (want spread : ℚ) :
    (makeBot s e q a f want spread).1.seq = e.seq := by
  obtain ⟨l, got, -, he | ⟨-, he⟩⟩ := makeBot_cases s e q a f want spread
  · rw [he]
  · rw [he]

theorem Act.ahead {arena : Arena} (h : Act s k e e') (hs : Sound s e) (hplayer : ∀ m, k ≠ .player m)
    (ha : Ahead arena e) : Ahead arena e' := by
  have hseq := (h.turns hs).seq
  intro n hn
  refine h.absent hs hplayer ?_ (colon_mem_botId arena n) (ha n (hseq.trans_lt hn))
  rintro arena' rfl he
  -- the number that is given out is behind the counter now
  have hnext : e'.seq = e.seq + 1 := by
    cases h with
    | newBot _ q aid side d => exact makeBot_seq s _ q _ _ _ _
    | newBotN _ q aid d => exact makeBot_seq s _ q _ _ _ _
  obtain ⟨-, hnum⟩ := botId_inj he
  omega

end BullsUnicorns.Engine

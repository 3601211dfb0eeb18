import BullsUnicorns.Engine.Lemmas.Candid
import BullsUnicorns.Engine.Lemmas.Serve

/-!
# Handlers keep the money records

Entries, answers of the house and settlements leave the records of players clean. Only the end of a settlement
moves the counters and the round of its arena.
-/

namespace BullsUnicorns.Engine

open Battle

variable {s : Settings} {e e' : State} {id : String}

/-! ## Two-team entries -/

theorem Passes.enterRound (s : Settings) (e : State) (aid : ArenaId) (owner : String) (side : Side) (stake : ℚ) :
    Passes e (State.enterRound s e aid owner side stake) :=
  ⟨fun h => h, rfl, funext fun arena => (enterRound_samePhase s e aid owner side stake arena).2, rfl⟩

theorem Passes.deployBot (s : Settings) (e : State) (aid : ArenaId) (id : String) (side : Side) (tokens : ℚ) {usd : ℚ}
    (h : 0 ≤ usd) : Passes e (deployBot s e aid id side tokens usd) := by
  unfold Engine.deployBot
  extract_lets f round e₁
  have h₁ : Passes e e₁ := (Passes.touch (.stake h) e id).trans (.post _ _ _ _ _ _)
  exact (h₁.trans (.bankFee e₁ _ round f _)).trans (.enterRound s _ aid id side _)

theorem Passes.topUp (s : Settings) (e : State) (id : String) (f : Field) (amount : ℚ) :
    Passes e (topUp s e id f amount).1 := by
  have hdraw := drawBank_same s.pool e.ledger f amount 1
  unfold Engine.topUp
  rcases hdrawn : drawBank s.pool e.ledger f amount 1 with ⟨l, drawn⟩
  rw [hdrawn] at hdraw
  dsimp only at hdraw ⊢
  split
  · exact .same (hdraw.trans .add)
  · exact .same hdraw

theorem Passes.topUpTo (s : Settings) (e : State) (id : String) (f : Field) (px want : ℚ) :
    Passes e (topUpTo s e id f px want).1 := by
  unfold Engine.topUpTo
  extract_lets held
  split
  · exact .topUp s e id f _
  · exact .refl e

theorem Passes.openBook (e : State) (key : ArenaId × ℕ) : Passes e (openBook e key) := by
  unfold Engine.openBook
  split
  · exact .refl e
  · exact .aside rfl rfl rfl rfl rfl

theorem Passes.noteAnswer (e : State) (key : ArenaId × ℕ) (foe : Side) (give : ℚ) :
    Passes e (noteAnswer e key foe give) := by
  unfold Engine.noteAnswer
  split
  · exact .aside rfl rfl rfl rfl rfl
  · exact .refl e

theorem Passes.answerWith (s : Settings) (aid : ArenaId) (foe : Side) (px : ℚ) (spread : ℕ) (u : ℕ → ℚ)
    (st : State × ℚ × ℕ) (id : String) : Passes st.1 (answerWith s aid foe px spread u st id).1 := by
  obtain ⟨e, need, idx⟩ := st
  unfold Engine.answerWith
  dsimp -zeta only
  split
  · exact .refl e
  extract_lets f fair want give e₂
  have htop := Passes.topUpTo s e id f px want
  split
  · exact htop
  · next hgive =>
      have hgive : 0 ≤ give := MIN_ENTRY_pos.le.trans (not_lt.mp hgive)
      have hdeploy : Passes (Engine.topUpTo s e id f px want).1 e₂ := .deployBot s _ aid id foe _ hgive
      exact (htop.trans hdeploy).trans (.noteAnswer e₂ _ foe give)

theorem Passes.matchPlayerStake (s : Settings) (q : Quotes) (aid : ArenaId) (side : Side) (stakeUsd : ℚ) (u : ℕ → ℚ)
    (e : State) : Passes e (matchPlayerStake s q aid side stakeUsd u e) := by
  unfold Engine.matchPlayerStake
  extract_lets round foe e₁ px e₂ need
  split
  · exact .refl e
  have h₁ : Passes e e₁ := .freeze e _ _ _ q
  split
  · exact h₁
  have h₂ : Passes e e₂ := h₁.trans (.openBook e₁ _)
  split
  · exact h₂
  have hscan := Passes.botsFor e₂ aid.text
  rcases hbots : Engine.botsFor e₂ aid.text with ⟨all, e₃⟩
  rw [hbots] at hscan
  dsimp only at hscan ⊢
  exact (h₂.trans hscan).trans (.foldl Prod.fst (.answerWith s aid foe px _ u) _ (e₃, need, 0))

/-- A referrer gets a cut, and whoever has one has staked. -/
theorem Passes.deployPlayer (s : Settings) (e : State) (m : EnterMsg) {stake px : ℚ} (hstake : 0 ≤ stake)
    (hpaid : 0 < stake * px) : Passes e (deployPlayer s e m stake px) := by
  unfold Engine.deployPlayer
  extract_lets f round refBy e₁ fee refCut e₂
  have hown : Tidy fun a => { a with dep := a.dep + stake * px, side := m.side, refBy } := by
    intro a
    refine ⟨rfl, fun _ h => ?_⟩
    have hdep : 0 < a.dep + stake * px := add_pos_of_nonneg_of_pos h.dep hpaid
    exact ⟨hdep.le, h.depIn, h.wOut, h.refEarned, h.solIn, h.solOut, fun _ => hdep⟩
  have h₁ : Passes e e₁ := (Passes.touch hown e m.wallet).trans (.post _ _ _ _ _ _)
  have hcut : 0 ≤ refCut := by
    simp only [refCut]
    split
    · exact le_refl 0
    · exact mul_nonneg (mul_nonneg hstake FEE_pos.le) (by norm_num)
  have hearned : Tidy fun r => { r with refEarned := r.refEarned + refCut } :=
    fun a => ⟨rfl, fun _ h =>
      ⟨h.dep, h.depIn, h.wOut, add_nonneg h.refEarned hcut, h.solIn, h.solOut, h.referred⟩⟩
  have h₂ : Passes e₁ e₂ := by
    simp only [e₂]
    split
    · exact .refl e₁
    · have hjoin : Passes e₁ { e₁ with ledger := acct e₁.ledger refBy m.side } := .ledger fun h => h.acct refBy m.side
      exact (hjoin.trans (.touch hearned _ refBy)).trans (.post _ _ _ _ _ _)
  exact ((h₁.trans h₂).trans (.bankFee e₂ _ round f _)).trans (.enterRound s _ m.aid m.wallet m.side _)

theorem Passes.prepared (q : Quotes) (m : EnterMsg) (e : State) : Passes e (prepared q m e) := by
  unfold Engine.prepared
  extract_lets e₁
  have h₁ : Passes e e₁ := .ledger fun h => h.acct m.wallet m.side
  split
  · exact h₁
  · exact h₁.trans (.freeze e₁ _ _ _ q)

theorem Passes.enterMessage (s : Settings) (q : Quotes) (u : ℕ → ℚ) (m : EnterMsg) (e : State) :
    Passes e (enterMessage s q u m e) := by
  have hprep := Passes.prepared q m e
  unfold Engine.enterMessage
  split
  · exact .refl e
  extract_lets e₁ px stake
  split
  · exact hprep
  · next hok =>
      have hok : accepts e₁ m = true := by simpa using hok
      simp only [accepts, Bool.and_eq_true, decide_eq_true_eq] at hok
      obtain ⟨⟨⟨-, hpx⟩, -⟩, hmin⟩ := hok
      have hpaid : 0 < stake * px := MIN_ENTRY_pos.trans_le hmin
      have hstake : 0 < stake := pos_of_mul_pos_left hpaid hpx.le
      exact (hprep.trans (.deployPlayer s e₁ m hstake.le hpaid)).trans (.matchPlayerStake s q _ _ _ u _)

/-! ## Filling a lobby -/

theorem Passes.fillSide (s : Settings) (q : Quotes) (aid : ArenaId) (side : Side) (n : ℕ) (d : ℕ → BotDraw) (e : State) :
    Passes e (fillSide s q aid side n d e) := by
  induction n generalizing d e with
  | zero => exact .refl e
  | succ n ih =>
      rw [Engine.fillSide]
      have hscan := Passes.botsFor e aid.text
      rcases hbots : Engine.botsFor e aid.text with ⟨bots, e₁⟩
      rw [hbots] at hscan
      dsimp only at hscan ⊢
      split
      · have hnew := Passes.newBot s e₁ q aid side (d 0)
        rcases hmade : Engine.newBot s e₁ q aid side (d 0) with ⟨e₂, made⟩
        rw [hmade] at hnew
        cases made with
        | true => exact (hscan.trans hnew).trans (ih _ e₂)
        | false => exact hscan.trans hnew
      · exact hscan

theorem Passes.addMinimum (s : Settings) (aid : ArenaId) (side : Side) (px : ℚ) (st : State × ℕ) (id : String) :
    Passes st.1 (addMinimum s aid side px st id).1 := by
  obtain ⟨e, count⟩ := st
  unfold Engine.addMinimum
  dsimp -zeta only
  extract_lets minUsd
  split
  · exact .refl e
  split
  · exact .refl e
  have htop := Passes.topUpTo s e id (slotField aid side) px minUsd
  split
  · exact htop
  · exact htop.trans (.deployBot s _ aid id side _ s.stake_pos.le)

theorem Passes.ensureSide (s : Settings) (q : Quotes) (aid : ArenaId) (d : Side → ℕ → BotDraw) (e : State) (side : Side) :
    Passes e (ensureSide s q aid d e side) := by
  unfold Engine.ensureSide
  extract_lets round f e₁ px count e₂
  have h₁ : Passes e e₁ := .freeze e _ _ _ q
  split
  · exact h₁
  split
  · exact h₁
  have h₂ : Passes e₁ e₂ := .fillSide s q aid side _ _ e₁
  have h₃ := Passes.botsFor e₂ aid.text
  exact ((h₁.trans h₂).trans h₃).trans (.foldl Prod.fst (.addMinimum s aid side px) _ (_, count))

theorem Passes.ensureMinimumEntries (s : Settings) (q : Quotes) (aid : ArenaId) (d : Side → ℕ → BotDraw) (e : State) :
    Passes e (ensureMinimumEntries s q aid d e) := by
  unfold Engine.ensureMinimumEntries
  split
  · exact .refl e
  · exact .foldl (fun e => e) (.ensureSide s q aid d) _ e

theorem Passes.botEnter (s : Settings) (q : Quotes) (aid : ArenaId) (st : State × (ℕ → PlayDraw)) (id : String) :
    Passes st.1 (botEnter s q aid st id).1 := by
  obtain ⟨e, d⟩ := st
  unfold Engine.botEnter
  dsimp -zeta only
  extract_lets rest a side e₁ f minStake stake round e₂ usdN
  have h₁ : Passes e e₁ := .touch (tidy_side side) e id
  have h₂ : Passes e₁ e₂ := .freeze e₁ _ _ _ q
  split
  · exact .refl e
  split
  · exact h₁
  split
  · exact h₁.trans h₂
  · next husd => exact (h₁.trans h₂).trans (.deployBot s e₂ aid id side _ (not_le.mp husd).le)

theorem Passes.botsEnter (s : Settings) (q : Quotes) (aid : ArenaId) (pick : Side → Pick) (d : ℕ → PlayDraw) (e : State) :
    Passes e (botsEnter s q aid pick d e) := by
  have hcap := Passes.capPopulation s e q aid
  unfold Engine.botsEnter
  extract_lets e₁
  change Passes e e₁ at hcap
  split
  · exact hcap
  have hscan := Passes.botsFor e₁ aid.text
  rcases hbots : Engine.botsFor e₁ aid.text with ⟨bots, e₂⟩
  rw [hbots] at hscan
  dsimp only at hscan
  dsimp -zeta only
  extract_lets chosen
  exact (hcap.trans hscan).trans (.foldl Prod.fst (.botEnter s q aid) _ (e₂, d))

/-! ## Settlements -/

theorem Passes.payFighter (q : Quotes) (aid : ArenaId) (round : ℕ) (e : State) (pay : String × Battle.Payout) :
    Passes e (payFighter q aid round e pay) := by
  unfold Engine.payFighter
  extract_lets id fA fB e₁ retA retB ret e₂ e₃
  split
  · exact .refl e
  have h₁ : Passes e e₁ := (Passes.freeze e _ _ _ q).trans (.freeze _ _ _ _ q)
  have h₂ : Passes e₁ e₂ := (Passes.post e₁ _ _ _ _ _).trans (.post _ _ _ _ _ _)
  have h₃ : Passes e₂ e₃ := .touch (tidy_games ret) e₂ id
  exact ((h₁.trans h₂).trans h₃).trans (.aside rfl rfl rfl rfl rfl)

theorem Passes.reviewBot (s : Settings) (q : Quotes) (aid : ArenaId) (e : State) (id : String) :
    Passes e (reviewBot s q aid e id) := by
  unfold Engine.reviewBot
  extract_lets a own usdA usdB want e₁
  have h₁ : Passes e e₁ := by
    simp only [e₁]
    split
    · exact .touch (tidy_side want) e id
    · exact .refl e
  split
  · exact h₁.trans (.retireBot s e₁ id)
  · exact h₁

theorem Passes.populate (s : Settings) (q : Quotes) (aid : ArenaId) (target : ℤ) (n : ℕ) (d : ℕ → BotDraw) (e : State) :
    Passes e (populate s q aid target n d e) := by
  induction n generalizing d e with
  | zero => exact .refl e
  | succ n ih =>
      rw [Engine.populate]
      have h₁ := Passes.botsFor e aid.text
      rcases hbots : Engine.botsFor e aid.text with ⟨bots, e₁⟩
      rw [hbots] at h₁
      dsimp only at h₁ ⊢
      split
      · have h₂ := Passes.botsFor e₁ aid.text
        rcases hfirst : Engine.botsFor e₁ aid.text with ⟨first, e₂⟩
        rw [hfirst] at h₂
        have h₃ := Passes.botsFor e₂ aid.text
        rcases hsecond : Engine.botsFor e₂ aid.text with ⟨second, e₃⟩
        rw [hsecond] at h₃
        dsimp only at h₂ h₃ ⊢
        generalize (if (first.filter fun id => (e₃.account id).side = .bull).length ≤
          (second.filter fun id => (e₃.account id).side = .uwu).length then Side.bull else .uwu) = side
        have hnew := Passes.newBot s e₃ q aid side (d 0)
        rcases hmade : Engine.newBot s e₃ q aid side (d 0) with ⟨e₄, made⟩
        rw [hmade] at hnew
        have h₄ := ((h₁.trans h₂).trans h₃).trans hnew
        cases made with
        | true => exact h₄.trans (ih _ e₄)
        | false => exact h₄
      · exact h₁

/-- A settlement: the records stay clean, and the counter of its arena, and no other, goes up by one. -/
structure Counted (arena : Arena) (e e' : State) : Prop where
  candid : Candid e.ledger → Candid e'.ledger
  counts : e'.roundsByArena = Function.update e.roundsByArena arena (e.roundsByArena arena + 1)
  rounds : e'.roundOf = e.roundOf
  settled : e'.settled = e.settled

theorem Counted.trans {e'' : State} {arena : Arena} (h : Counted arena e e') (h' : Passes e' e'') :
    Counted arena e e'' :=
  ⟨fun hc => h'.candid (h.candid hc), h'.counts.trans h.counts, h'.rounds.trans h.rounds, h'.settled.trans h.settled⟩

theorem Passes.counted {e'' : State} {arena : Arena} (h : Passes e e') (h' : Counted arena e' e'') :
    Counted arena e e'' where
  candid := fun hc => h'.candid (h.candid hc)
  counts := by rw [h'.counts, h.counts]
  rounds := h'.rounds.trans h.rounds
  settled := h'.settled.trans h.settled

theorem counted_update (e : State) (arena : Arena) : Counted arena e
    { e with roundsByArena := Function.update e.roundsByArena arena (e.roundsByArena arena + 1) } where
  candid := fun h => h
  counts := rfl
  rounds := by
    funext arena
    cases arena <;> rfl
  settled := rfl

theorem renew_counted (s : Settings) (q : Quotes) (aid : ArenaId) (realPlaying : ℕ) (d : ℕ → BotDraw) (e : State) :
    Counted (.two aid) e (renew s q aid realPlaying d e) := by
  have hscan := Passes.botsFor e aid.text
  unfold renew
  rcases hbots : botsFor e aid.text with ⟨bots, e₁⟩
  rw [hbots] at hscan
  dsimp only at hscan
  dsimp -zeta only
  extract_lets e₂ e₃ target
  have h₂ : Passes e₁ e₂ := .foldl (fun e => e) (.reviewBot s q aid) _ e₁
  have h₃ : Counted (.two aid) e₂ e₃ := counted_update e₂ (.two aid)
  exact ((hscan.trans h₂).counted h₃).trans (.populate s q aid target _ d e₃)

theorem onSettle_counted (s : Settings) (q : Quotes) (aid : ArenaId) (r : RoundResult) (st : RoundState Entry RoundResult)
    (d : ℕ → BotDraw) (e : State) : Counted (.two aid) e (onSettle s q aid r st d e) := by
  unfold onSettle
  extract_lets e₁ e₂
  have h₁ : Passes e e₁ := .foldl (fun e => e) (.payFighter q aid st.round) _ e
  have h₂ : Passes e₁ e₂ := (Passes.freeze e₁ _ _ _ q).trans (.freeze _ _ _ _ q)
  exact (h₁.trans h₂).counted (renew_counted s q aid _ d e₂)

/-! ## Arenas of many teams -/

theorem Passes.enterRoundN (s : Settings) (e : State) (aid : NArena) (owner : String) (team stake : ℚ) :
    Passes e (State.enterRoundN s e aid owner team stake) :=
  ⟨fun h => h, rfl, funext fun arena => (enterRoundN_samePhase s e aid owner team stake arena).2, rfl⟩

theorem Passes.deployPlayerN (s : Settings) (e : State) (m : EnterNMsg) (stake : ℚ) {usd : ℚ} (h : 0 ≤ usd) :
    Passes e (deployPlayerN s e m stake usd) := by
  unfold Engine.deployPlayerN
  extract_lets f round e₁
  have h₁ : Passes e e₁ := (Passes.touch (.stake h) e m.wallet).trans (.post _ _ _ _ _ _)
  exact (h₁.trans (.bankFee e₁ _ round f _)).trans (.enterRoundN s _ m.aid m.wallet m.slot _)

theorem Passes.returnFee (s : Settings) (e : State) (arena : Arena) (round : ℕ) (f : Field) (amount : ℚ) :
    Passes e (e.returnFee s arena round f amount) := by
  unfold State.returnFee
  split
  · exact .refl e
  split
  · exact .refl e
  · exact .post e _ _ _ _ _

theorem Passes.deployBotN (s : Settings) (e : State) (aid : NArena) (id : String) (team tokens : ℚ) {usd : ℚ}
    (h : 0 ≤ usd) : Passes e (deployBotN s e aid id team tokens usd) := by
  unfold Engine.deployBotN
  extract_lets f round e₁
  have h₁ : Passes e e₁ := (Passes.post e _ _ _ _ _).trans (.returnFee s _ _ _ _ _)
  exact (h₁.trans (.touch (.stake h) e₁ id)).trans (.enterRoundN s _ aid id team _)

theorem Passes.enterNMessage (s : Settings) (q : Quotes) (m : EnterNMsg) (e : State) :
    Passes e (enterNMessage s q m e) := by
  unfold Engine.enterNMessage
  split
  · exact .refl e
  split
  · exact .refl e
  extract_lets f round e₁ px stake
  have hjoin : Passes e { e with ledger := acct e.ledger m.wallet .bull } := .ledger fun h => h.acct m.wallet .bull
  have h₁ : Passes e e₁ := hjoin.trans (.freeze _ _ _ _ q)
  split
  · exact h₁
  split
  · exact h₁
  · next hmin =>
      have husd : 0 ≤ stake * px := MIN_ENTRY_pos.le.trans (not_lt.mp hmin)
      exact h₁.trans (.deployPlayerN s e₁ m stake husd)

theorem Passes.botEnterN (s : Settings) (q : Quotes) (aid : NArena) (st : State × (ℕ → PlayDraw)) (id : String) :
    Passes st.1 (botEnterN s q aid st id).1 := by
  obtain ⟨e, d⟩ := st
  unfold Engine.botEnterN
  dsimp -zeta only
  extract_lets rest team f minStake stake round e₁ usd
  have h₁ : Passes e e₁ := .freeze e _ _ _ q
  split
  · exact .refl e
  split
  · exact .refl e
  split
  · exact h₁
  · next husd => exact h₁.trans (.deployBotN s e₁ aid id team stake (not_le.mp husd).le)

theorem Passes.botsEnterN (s : Settings) (q : Quotes) (aid : NArena) (pick : Pick) (d : ℕ → PlayDraw) (e : State) :
    Passes e (botsEnterN s q aid pick d e) := by
  unfold Engine.botsEnterN
  split
  · exact .refl e
  have hscan := Passes.botsFor e aid.text
  rcases hbots : Engine.botsFor e aid.text with ⟨bots, e₁⟩
  rw [hbots] at hscan
  dsimp only at hscan
  dsimp -zeta only
  extract_lets chosen
  exact hscan.trans (.foldl Prod.fst (.botEnterN s q aid) _ (e₁, d))

theorem Passes.payFighterN (s : Settings) (q : Quotes) (aid : NArena) (round : ℕ) (e : State) (pay : String × ℚ) :
    Passes e (payFighterN s q aid round e pay) := by
  unfold Engine.payFighterN
  extract_lets id f e₁ ret usd e₂
  split
  · exact .refl e
  have h₁ : Passes e e₁ := .freeze e _ _ _ q
  have h₂ : Passes e₁ e₂ := (Passes.post e₁ _ _ _ _ _).trans (.touch (tidy_games usd) _ id)
  exact (h₁.trans h₂).trans (.aside rfl rfl rfl rfl rfl)

theorem Passes.populateN (s : Settings) (q : Quotes) (aid : NArena) (target : ℤ) (n : ℕ) (d : ℕ → BotDraw) (e : State) :
    Passes e (populateN s q aid target n d e) := by
  induction n generalizing d e with
  | zero => exact .refl e
  | succ n ih =>
      rw [Engine.populateN]
      have h₁ := Passes.botsFor e aid.text
      rcases hbots : Engine.botsFor e aid.text with ⟨bots, e₁⟩
      rw [hbots] at h₁
      dsimp only at h₁ ⊢
      split
      · have hnew := Passes.newBotN s e₁ q aid (d 0)
        rcases hmade : Engine.newBotN s e₁ q aid (d 0) with ⟨e₂, made⟩
        rw [hmade] at hnew
        cases made with
        | true => exact (h₁.trans hnew).trans (ih _ e₂)
        | false => exact h₁.trans hnew
      · exact h₁

theorem onSettleN_counted (s : Settings) (q : Quotes) (aid : NArena) (r : ResultN) (st : RoundState EntryN ResultN)
    (d : ℕ → BotDraw) (e : State) : Counted (.many aid) e (onSettleN s q aid r st d e) := by
  unfold onSettleN
  extract_lets e₁
  have h₁ : Passes e e₁ := .foldl (fun e => e) (.payFighterN s q aid st.round) _ e
  refine h₁.counted ?_
  have hreview : ∀ e id, Passes e (reviewBotN s q aid e id) := by
    intro e id
    unfold reviewBotN
    extract_lets f
    split
    · exact .retireBot s e id
    · exact .refl e
  have hscan := Passes.botsFor e₁ aid.text
  unfold renewN
  rcases hbots : botsFor e₁ aid.text with ⟨bots, e₂⟩
  rw [hbots] at hscan
  dsimp only at hscan
  dsimp -zeta only
  extract_lets e₃ e₄ target
  have h₃ : Passes e₂ e₃ := .foldl (fun e => e) hreview _ e₂
  have h₄ : Counted (.many aid) e₃ e₄ := counted_update e₃ (.many aid)
  exact ((hscan.trans h₃).counted h₄).trans (.populateN s q aid target _ d e₄)

end BullsUnicorns.Engine

import BullsUnicorns.Engine.Lemmas.Serve
import Mathlib.Data.List.Infix

/-!
# The server acts: rounds, arenas of many teams, the house

A tick waits, fights, or settles: the payouts, the renewal of the bots, and the next lobby.
-/

namespace BullsUnicorns.Engine

open Battle

variable {s : Settings} {e e' : State} {K : Kind → Prop} {arena : Arena} {id : String}

/-! ## The bots after a round -/

theorem reviewBot_acts (q : Quotes) {aid : ArenaId} (hs : Sound s e) (hid : BotOf (.two aid) e.ledger id) :
    Acts s (Renewing (.two aid)) e (reviewBot s q aid e id) := by
  unfold reviewBot
  extract_lets a own usdA usdB want e₁
  have h₁ : Acts s (Renewing (.two aid)) e e₁ := by
    simp only [e₁]
    split
    · exact .one (.inl rfl) (.touch e id (cosmetic_side want))
    · exact .refl e
  split
  · have hid₁ := h₁.botOf hs hid
    obtain ⟨n, rfl⟩ := hid.born hs
    exact h₁.trans (retireBot_acts (.inr (.inr ⟨n, rfl⟩)) hid₁)
  · exact h₁

theorem reviewBotN_acts (q : Quotes) {aid : NArena} (hs : Sound s e) (hid : BotOf (.many aid) e.ledger id) :
    Acts s (Renewing (.many aid)) e (reviewBotN s q aid e id) := by
  unfold reviewBotN
  extract_lets f
  split
  · obtain ⟨n, rfl⟩ := hid.born hs
    exact retireBot_acts (.inr (.inr ⟨n, rfl⟩)) hid
  · exact .refl e

theorem populate_acts (q : Quotes) (aid : ArenaId) (target : ℤ) (n : ℕ) (d : ℕ → BotDraw) (e : State) :
    Acts s (Renewing (.two aid)) e (populate s q aid target n d e) := by
  induction n generalizing d e with
  | zero => exact .refl e
  | succ n ih =>
      have hscan : ∀ e, Acts s (Renewing (.two aid)) e (botsFor e aid.text).2 :=
        fun e => .quiet (.inl rfl) (botsFor_quiet e _)
      rw [populate]
      have h₁ := hscan e
      rcases hbots : botsFor e aid.text with ⟨bots, e₁⟩
      rw [hbots] at h₁
      dsimp only at h₁ ⊢
      split
      · have h₂ := hscan e₁
        rcases hfirst : botsFor e₁ aid.text with ⟨first, e₂⟩
        rw [hfirst] at h₂
        have h₃ := hscan e₂
        rcases hsecond : botsFor e₂ aid.text with ⟨second, e₃⟩
        rw [hsecond] at h₃
        dsimp only at h₂ h₃ ⊢
        generalize (if (first.filter fun id => (e₃.account id).side = .bull).length ≤
          (second.filter fun id => (e₃.account id).side = .uwu).length then Side.bull else .uwu) = side
        have hnew : Acts s (Renewing (.two aid)) e₃ (newBot s e₃ q aid side (d 0)).1 :=
          .one (.inr (.inl rfl)) (.newBot e₃ q aid side (d 0))
        rcases hmade : newBot s e₃ q aid side (d 0) with ⟨e₄, made⟩
        rw [hmade] at hnew
        dsimp only at hnew
        have h₄ := ((h₁.trans h₂).trans h₃).trans hnew
        cases made with
        | true => exact h₄.trans (ih _ e₄)
        | false => exact h₄
      · exact h₁

theorem populateN_acts (hK : K .house) (q : Quotes) (aid : NArena) (hnew : K (.newBot (.many aid))) (target : ℤ) (n : ℕ)
    (d : ℕ → BotDraw) (e : State) : Acts s K e (populateN s q aid target n d e) := by
  induction n generalizing d e with
  | zero => exact .refl e
  | succ n ih =>
      rw [populateN]
      have h₁ : Acts s K e (botsFor e aid.text).2 := .quiet hK (botsFor_quiet e _)
      rcases hbots : botsFor e aid.text with ⟨bots, e₁⟩
      rw [hbots] at h₁
      dsimp only at h₁ ⊢
      split
      · have h₂ : Acts s K e₁ (newBotN s e₁ q aid (d 0)).1 := .one hnew (.newBotN e₁ q aid (d 0))
        rcases hmade : newBotN s e₁ q aid (d 0) with ⟨e₂, made⟩
        rw [hmade] at h₂
        dsimp only at h₂
        cases made with
        | true => exact (h₁.trans h₂).trans (ih _ e₂)
        | false => exact h₁.trans h₂
      · exact h₁

theorem renew_acts (q : Quotes) (aid : ArenaId) (realPlaying : ℕ) (d : ℕ → BotDraw) (hs : Sound s e) :
    Acts s (Renewing (.two aid)) e (renew s q aid realPlaying d e) := by
  have hscan : Acts s (Renewing (.two aid)) e (botsFor e aid.text).2 := .quiet (.inl rfl) (botsFor_quiet e _)
  have hmem : ∀ id ∈ (botsFor e aid.text).1, Alive (.two aid) e.ledger id :=
        botsFor_alive (.two aid) hs.keyed
  unfold renew
  rcases hbots : botsFor e aid.text with ⟨bots, e₁⟩
  rw [hbots] at hscan hmem
  dsimp only at hscan hmem
  dsimp -zeta only
  extract_lets e₂ e₃ target
  have h₂ : Acts s (Renewing (.two aid)) e₁ e₂ :=
    Acts.foldl (fun e => e) (fun e id => BotOf (.two aid) e.ledger id) (fun e e' id hs hacts h => hacts.botOf hs h)
      (fun e id hs h => reviewBot_acts q hs h) _ _ (hscan.sound hs) fun id hid => hscan.botOf hs (hmem id hid).botOf
  have h₃ : Acts s (Renewing (.two aid)) e₂ e₃ :=
    .quiet (.inl rfl) ⟨rfl, rfl, rfl, rfl, rfl, rfl, rfl, rfl, .of_eq rfl rfl⟩
  exact ((hscan.trans h₂).trans h₃).trans (populate_acts q aid target _ d e₃)

theorem renewN_acts (q : Quotes) (aid : NArena) (realPlaying : ℕ) (d : ℕ → BotDraw) (hs : Sound s e) :
    Acts s (Renewing (.many aid)) e (renewN s q aid realPlaying d e) := by
  have hscan : Acts s (Renewing (.many aid)) e (botsFor e aid.text).2 := .quiet (.inl rfl) (botsFor_quiet e _)
  have hmem : ∀ id ∈ (botsFor e aid.text).1, Alive (.many aid) e.ledger id :=
        botsFor_alive (.many aid) hs.keyed
  unfold renewN
  rcases hbots : botsFor e aid.text with ⟨bots, e₁⟩
  rw [hbots] at hscan hmem
  dsimp only at hscan hmem
  dsimp -zeta only
  extract_lets e₂ e₃ target
  have h₂ : Acts s (Renewing (.many aid)) e₁ e₂ :=
    Acts.foldl (fun e => e) (fun e id => BotOf (.many aid) e.ledger id) (fun e e' id hs hacts h => hacts.botOf hs h)
      (fun e id hs h => reviewBotN_acts q hs h) _ _ (hscan.sound hs) fun id hid => hscan.botOf hs (hmem id hid).botOf
  have h₃ : Acts s (Renewing (.many aid)) e₂ e₃ :=
    .quiet (.inl rfl) ⟨rfl, rfl, rfl, rfl, rfl, rfl, rfl, rfl, .of_eq rfl rfl⟩
  exact ((hscan.trans h₂).trans h₃).trans (populateN_acts (.inl rfl) q aid (.inr (.inl rfl)) target _ d e₃)

/-! ## Ticks -/

theorem Renewing.aside {k : Kind} (h : Renewing arena k) : k.Aside := by
  rcases h with rfl | rfl | ⟨n, rfl⟩ <;> trivial

theorem Acts.still (h : Acts s K e e') (hK : ∀ k, K k → k.Aside) : Still e e' := by
  induction h with
  | refl => exact .refl e
  | tail _ hact ih =>
      obtain ⟨k, hk, hact⟩ := hact
      exact ih.trans (hact.still (hK k hk))

theorem settleRound_two (q : Quotes) (aid : ArenaId) (r : RoundResult) (e : State) :
    (settleRound q aid r e).two aid = settling (e.two aid) := by
  rw [(settleRound_still q aid r e).two]
  exact Function.update_self _ _ _

theorem settleRoundN_many (s : Settings) (q : Quotes) (aid : NArena) (r : ResultN) (e : State) :
    (settleRoundN s q aid r e).many aid = settling (e.many aid) := by
  rw [(settleRoundN_still s q aid r e).many]
  exact Function.update_self _ _ _

theorem onSettle_acts (q : Quotes) (aid : ArenaId) (r : RoundResult) (d : ℕ → BotDraw)
    (hs : Sound s (settleRound q aid r e)) : Acts s (Renewing (.two aid)) (settleRound q aid r e)
      (onSettle s q aid r (settling (e.two aid)).state d
        { e with two := Function.update e.two aid (settling (e.two aid)) }) := by
  unfold onSettle
  extract_lets e₁ e₂
  have hprices : Acts s (Renewing (.two aid)) e₁ e₂ :=
    (Acts.quiet (.inl rfl) (freeze_quiet e₁ _ _ _ q)).trans (.quiet (.inl rfl) (freeze_quiet _ _ _ _ q))
  exact hprices.trans (renew_acts q aid _ d (hprices.sound hs))

/-- A tick waits, fights, or settles the round and opens the next. -/
theorem tickArena_cases (q : Quotes) (aid : ArenaId) (now : ℚ) (draw : Draw) (d : ℕ → BotDraw) (hs : Sound s e) :
    tickArena s q aid now draw d e = e ∨
      (∃ r, Fought (RoundRunner s.platform s.round aid.eco) (e.two aid) r ∧
        tickArena s q aid now draw d e = { e with two := Function.update e.two aid r }) ∨
      ∃ r e₂, ((e.two aid).state.phase = .battle ∧ (e.two aid).state.closesAt ≤ now) ∧
        (e.two aid).state.result = some r ∧
        Acts s (Renewing (.two aid)) (settleRound q aid r e) e₂ ∧ e₂.two aid = settling (e.two aid) ∧
        tickArena s q aid now draw d e = reopen s aid draw e₂ := by
  unfold tickArena
  extract_lets c
  rcases tick_turns s.platform s.round c (e.two aid) now draw with h | ⟨r', h, hf⟩ | ⟨r, h, hphase, hr⟩ | ⟨-, hphase, hnone⟩
  · left
    rw [h]
    simp
  · right
    left
    rw [h]
    exact ⟨r', hf, rfl⟩
  · right
    right
    rw [h]
    dsimp -zeta only
    extract_lets e₂ lobby
    have hact : Act s (.turn (.two aid)) e (settleRound q aid r e) := .settle q hphase.1 hr
    have hrenew : Acts s (Renewing (.two aid)) (settleRound q aid r e) e₂ := onSettle_acts q aid r d (hact.sound hs)
    clear_value e₂
    -- nothing has entered since the battle
    have hentries : e₂.two aid = settling (e.two aid) := by
      rw [(hrenew.still fun k hk => hk.aside).two, settleRound_two]
    refine ⟨r, e₂, hphase, hr, hrenew, hentries, ?_⟩
    simp only [reopen, hentries, lobby]
  · obtain ⟨seed, multiplier, hresult⟩ := (hs.two aid).fought hphase
    rw [hnone] at hresult
    cases hresult

theorem tickArenaN_cases (q : Quotes) (aid : NArena) (now : ℚ) (draw : Draw) (d : ℕ → BotDraw) (hs : Sound s e) :
    tickArenaN s q aid now draw d e = e ∨
      (∃ r, Fought (RoundRunnerN s.platform s.round aid.eco aid.teams) (e.many aid) r ∧
        tickArenaN s q aid now draw d e = { e with many := Function.update e.many aid r }) ∨
      ∃ r e₂, ((e.many aid).state.phase = .battle ∧ (e.many aid).state.closesAt ≤ now) ∧
        (e.many aid).state.result = some r ∧
        Acts s (Renewing (.many aid)) (settleRoundN s q aid r e) e₂ ∧ e₂.many aid = settling (e.many aid) ∧
        tickArenaN s q aid now draw d e = reopenN s aid draw e₂ := by
  unfold tickArenaN
  extract_lets c
  rcases tick_turns s.platform s.round c (e.many aid) now draw with h | ⟨r', h, hf⟩ | ⟨r, h, hphase, hr⟩ | ⟨-, hphase, hnone⟩
  · left
    rw [h]
    simp
  · right
    left
    rw [h]
    exact ⟨r', hf, rfl⟩
  · right
    right
    rw [h]
    dsimp -zeta only
    extract_lets e₂ lobby
    have hact : Act s (.turn (.many aid)) e (settleRoundN s q aid r e) := .settleN q hphase.1 hr
    have hrenew : Acts s (Renewing (.many aid)) (settleRoundN s q aid r e) e₂ := renewN_acts q aid _ d (hact.sound hs)
    clear_value e₂
    have hentries : e₂.many aid = settling (e.many aid) := by
      rw [(hrenew.still fun k hk => hk.aside).many, settleRoundN_many]
    refine ⟨r, e₂, hphase, hr, hrenew, hentries, ?_⟩
    simp only [reopenN, hentries, lobby]
  · obtain ⟨seed, multiplier, hresult⟩ := (hs.many aid).fought hphase
    rw [hnone] at hresult
    cases hresult

/-! ## Entries of arenas of many teams -/

theorem enterNMessage_cases (q : Quotes) (m : EnterNMsg) (e : State) :
    Acts s Housekeeping e (enterNMessage s q m e) ∨
      ∃ e₁, Acts s Housekeeping e e₁ ∧ Act s (.playerN m) e₁ (enterNMessage s q m e) := by
  unfold enterNMessage
  split
  · exact .inl (.refl e)
  split
  · exact .inl (.refl e)
  · next hphase =>
      have hphase := not_not.mp hphase
      extract_lets f round e₁ px stake
      have hjoin : Acts s Housekeeping e { e with ledger := acct e.ledger m.wallet .bull } := .one rfl (.join e .bull m.key)
      have h₁ : Acts s Housekeeping e e₁ := hjoin.trans (.quiet rfl (freeze_quiet _ _ _ _ q))
      split
      · exact .inl h₁
      · next hpx =>
          have hpx := not_le.mp hpx
          split
          · exact .inl h₁
          · next hmin =>
              have hsame := h₁.samePhase fun k hk => by rw [show k = .house from hk]; simp
              have hround : e₁.roundOf (.many m.aid) = round := (hsame (.many m.aid)).2
              have hstake : 0 < stake := pos_of_mul_pos_left (MIN_ENTRY_pos.trans_le (not_lt.mp hmin)) hpx.le
              have hget : (e₁.ledger.get m.wallet).isSome := by
                simp only [e₁, freeze_ledger]
                exact acct_isSome e.ledger m.wallet .bull
              refine .inr ⟨e₁, h₁, .stakePlayerN hget ((hsame (.many m.aid)).1.trans hphase) ?_ hstake ?_ ?_⟩
              · exact mul_pos hstake hpx
              · exact (min_le_left _ _).trans (min_le_right _ _)
              · rw [hround]

theorem botEnterN_acts (q : Quotes) {aid : NArena} (st : State × (ℕ → PlayDraw)) (hs : Sound s st.1)
    (hid : Alive (.many aid) st.1.ledger id) (hphase : (st.1.many aid).state.phase = .lobby) :
    Acts s (Staking (.many aid)) st.1 (botEnterN s q aid st id).1 := by
  obtain ⟨e, d⟩ := st
  unfold botEnterN
  dsimp only at hs hid hphase
  dsimp -zeta only
  extract_lets rest team f minStake stake round e₁ usd
  have h₁ : Acts s (Staking (.many aid)) e e₁ := .quiet (.inl rfl) (freeze_quiet e _ _ _ q)
  split
  · exact .refl e
  split
  · exact .refl e
  · next hstake =>
      split
      · exact h₁
      · next husd =>
          have husd := not_le.mp husd
          obtain ⟨hmin, hstake⟩ := not_or.mp hstake
          have hstake0 : 0 < stake := (not_le.mp hmin).trans_le (not_lt.mp hstake)
          have hsame := h₁.samePhase fun k hk => hk.not_turn
          have hround : e₁.roundOf (.many aid) = round := (hsame (.many aid)).2
          have hledger : e₁.ledger = e.ledger := freeze_ledger e _ _ _ q
          have hle : stake ≤ e.ledger.bal id f := by
            simp only [stake, botStakeN]
            split <;> exact min_le_right _ _
          refine h₁.trans (.one (.inr rfl) (.stakeBotN (h₁.alive hs hid fun k hk => hk.filling.dead) ?_ ?_ husd
            hstake0 ?_ fun _ => ?_))
          · simp only [team, State.account, hledger]
          · exact (hsame (.many aid)).1.trans hphase
          · rwa [hledger]
          · rw [hround]

theorem botsEnterN_acts (q : Quotes) (aid : NArena) (pick : Pick) (d : ℕ → PlayDraw) (hs : Sound s e) :
    Acts s (Staking (.many aid)) e (botsEnterN s q aid pick d e) := by
  unfold botsEnterN
  split
  · exact .refl e
  · next hphase =>
      have hphase := not_not.mp hphase
      have hscan : Acts s (Staking (.many aid)) e (botsFor e aid.text).2 := .quiet (.inl rfl) (botsFor_quiet e _)
      have hmem : ∀ id ∈ (botsFor e aid.text).1, Alive (.many aid) e.ledger id :=
        botsFor_alive (.many aid) hs.keyed
      rcases hbots : botsFor e aid.text with ⟨bots, e₁⟩
      rw [hbots] at hscan hmem
      dsimp only at hscan hmem
      dsimp -zeta only
      extract_lets chosen
      have hchosen : ∀ id ∈ chosen, id ∈ bots := by
        intro id hid
        simp only [chosen] at hid
        split at hid
        · exact ((pick.perm _).mem_iff.mp (List.mem_of_mem_take hid))
        · exact hid
      refine hscan.trans ?_
      refine Acts.foldl Prod.fst (fun e id => Alive (.many aid) e.ledger id ∧ e.phaseOf (.many aid) = .lobby)
        (fun e e' id hs hacts h => ⟨hacts.alive hs h.1 fun k hk => hk.filling.dead,
          ((hacts.samePhase fun k hk => hk.not_turn) (.many aid)).1.trans h.2⟩)
        (fun st id hs h => botEnterN_acts q st hs h.1 h.2) _ (e₁, d) (hscan.sound hs) fun id hid => ?_
      exact ⟨hscan.alive hs (hmem id (hchosen id hid)) fun k hk => hk.filling.dead,
        ((hscan.samePhase fun k hk => hk.not_turn) (.many aid)).1.trans hphase⟩

/-! ## The house -/

theorem levelBot_acts (q : Quotes) (id : String) (hs : Sound s e) : Acts s Housekeeping e (levelBot s q e id) := by
  unfold levelBot
  extract_lets a
  split
  · exact .refl e
  · next hok =>
      simp only [Bool.or_eq_true, Bool.not_eq_true', not_or, Bool.not_eq_false, List.contains_iff_mem] at hok
      obtain ⟨⟨hbot, hret⟩, hpool⟩ := hok
      have hget : e.ledger.get id = some a := by
        cases h : e.ledger.get id with
        | some b => simp [a, State.account, h]
        | none =>
            have ha : a = default := by simp [a, State.account, h]
            rw [ha] at hbot
            exact absurd hbot (by decide)
      -- one field after the other, of a bot that goes on
      have hfold : ∀ (fields : List Field) (e : State), Sound s e → (∃ a, e.ledger.get id = some a ∧ a.isBot = true ∧
          a.retired = false) → Acts s Housekeeping e (fields.foldl (fun e f => levelField s q e id f) e) := by
        intro fields
        induction fields with
        | nil => exact fun e _ _ => .refl e
        | cons f fields ih =>
            rintro e hs ⟨a, ha, hbot, hret⟩
            have hact : Act s .house e (levelField s q e id f) := .skim q f ha hbot hret hpool
            obtain ⟨a', ha', hbot', hret'⟩ := (hact.held hs).lasts id a ha
            have hone : Acts s Housekeeping e (levelField s q e id f) := .one rfl hact
            exact hone.trans (ih _ (hact.sound hs) ⟨a', ha', hbot' hbot, hret' hret fun h => h⟩)
      exact hfold _ e hs ⟨a, hget, hbot, by simpa using hret⟩

theorem levelBots_acts (q : Quotes) (hs : Sound s e) : Acts s Housekeeping e (levelBots s e q) := by
  unfold levelBots
  split
  · exact .refl e
  · exact Acts.foldl (fun e => e) (fun _ _ => True) (fun _ _ _ _ _ _ => trivial)
      (fun e id hs _ => levelBot_acts q id hs) _ e hs fun _ _ => trivial

/-! ## Start -/

/-- Bots are retired whose arena is switched off. -/
def Pruning (s : Settings) (k : Kind) : Prop :=
  ∃ id, k = .retire id ∧ Text.firstPart ':' id ∉ (liveArenas s).map Arena.text

def Seeding (arena : Arena) (k : Kind) : Prop := k = .house ∨ k = .newBot arena

theorem pruneOrphans_acts (hs : Sound s e) : Acts s (Pruning s) e (pruneOrphans s e) := by
  unfold pruneOrphans
  extract_lets live
  refine Acts.foldl (fun e => e)
    (fun e id => (∃ a, e.ledger.get id = some a ∧ a.isBot = true) ∧ ':' ∈ id.toList ∧ Text.firstPart ':' id ∉ live)
    ?_ ?_ _ e hs ?_
  · rintro e e' id hs hacts ⟨hbot, hname⟩
    refine ⟨(hacts.keep (P := fun e => ∃ a, e.ledger.get id = some a ∧ a.isBot = true) hs ?_ hbot).2, hname⟩
    rintro k e e' _ hs hact ⟨a, ha, hbot⟩
    obtain ⟨a', ha', hbot', -⟩ := (hact.held hs).lasts id a ha
    exact ⟨a', ha', hbot' hbot⟩
  · rintro e id _ ⟨⟨a, ha, hbot⟩, hcolon, hlive⟩
    exact .one ⟨id, rfl, hlive⟩ (.retire ha hbot hcolon)
  · intro id hid
    obtain ⟨a, ha, rfl⟩ := List.mem_map.mp hid
    obtain ⟨hmem, hbot⟩ := List.mem_filter.mp ha
    obtain ⟨k, hget⟩ := OrderedMap.mem_values.mp hmem
    simp only [Bool.and_eq_true, Bool.not_eq_true', List.contains_eq_mem, decide_eq_false_iff_not] at hbot
    refine ⟨⟨a, by rw [hs.keyed k a hget]; exact hget, hbot.1.1⟩, ?_, hbot.2⟩
    obtain ⟨rest, hrest, hprefix⟩ := List.any_eq_true.mp hbot.1.2
    exact ((List.mem_tails _ _).mp hrest).subset ((List.isPrefixOf_iff_prefix.mp hprefix).subset (by decide))

theorem seedBots_acts (q : Quotes) (aid : ArenaId) (d : ℕ → BotDraw) (n i : ℕ) (e : State) :
    Acts s (Seeding (.two aid)) e (seedBots s q aid d i n e) := by
  induction n generalizing i e with
  | zero => exact .refl e
  | succ n ih =>
      rw [seedBots]
      generalize (if i % 2 = 1 then Side.uwu else .bull) = side
      have hnew : Acts s (Seeding (.two aid)) e (newBot s e q aid side (d i)).1 := .one (.inr rfl) (.newBot e q aid side (d i))
      rcases hmade : newBot s e q aid side (d i) with ⟨e₁, made⟩
      rw [hmade] at hnew
      cases made with
      | true => exact hnew.trans (ih (i + 1) e₁)
      | false => exact hnew

theorem seedArena_acts (b : BootDraw) (e : State) (arena : Arena) : Acts s (Seeding arena) e (seedArena s b e arena) := by
  cases arena with
  | two aid =>
      have hscan : Acts s (Seeding (.two aid)) e (botsFor e aid.text).2 := .quiet (.inl rfl) (botsFor_quiet e _)
      rw [seedArena]
      rcases hbots : botsFor e aid.text with ⟨bots, e₁⟩
      rw [hbots] at hscan
      dsimp only at hscan ⊢
      split
      · exact hscan.trans (seedBots_acts _ aid _ _ _ e₁)
      · exact hscan
  | many aid => exact populateN_acts (.inl rfl) _ aid (.inr rfl) _ _ _ e

end BullsUnicorns.Engine

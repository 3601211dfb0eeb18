import BullsUnicorns.Engine.Lemmas.Cash
import BullsUnicorns.Engine.Lemmas.Store

/-!
# What the host keeps

Its ledger is sound and candid in every run. The counter of an arena is one behind the round that it is in, and no
number is settled twice as long as every new process finds the counters that the last one left.
-/

namespace BullsUnicorns.Engine

open Battle

variable {s : Settings} {e e' e'' : State}

/-! ## The engine serves an event -/

/-- The state stays sound, and no account is closed. -/
def Holds (s : Settings) (e e' : State) : Prop :=
  Sound s e' ∧ ∀ id, (e.ledger.get id).isSome → (e'.ledger.get id).isSome

theorem Holds.refl (hs : Sound s e) : Holds s e e := ⟨hs, fun _ h => h⟩

theorem Holds.trans (h : Holds s e e') (h' : Holds s e' e'') : Holds s e e'' :=
  ⟨h'.1, fun id hid => h'.2 id (h.2 id hid)⟩

theorem Act.holds {k : Kind} (h : Act s k e e') (hs : Sound s e) : Holds s e e' :=
  ⟨h.sound hs, fun _ hid => (h.held hs).isSome hid⟩

theorem Acts.holds {K : Kind → Prop} (h : Acts s K e e') (hs : Sound s e) : Holds s e e' := by
  refine ⟨h.sound hs, fun id hid => ?_⟩
  exact (h.keep (P := fun e => (e.ledger.get id).isSome) hs (fun _ _ _ _ hs hact hid => (hact.held hs).isSome hid) hid).2

theorem tickArena_holds (q : Quotes) (aid : ArenaId) (now : ℚ) (draw : Draw) (d : ℕ → BotDraw) (hs : Sound s e) :
    Holds s e (tickArena s q aid now draw d e) := by
  rcases tickArena_cases q aid now draw d hs with h | ⟨r, hf, h⟩ | ⟨r, e₂, ⟨hphase, -⟩, hr, hacts, htwo, h⟩
  · rw [h]
    exact .refl hs
  · rw [h]
    exact (Act.fight hf).holds hs
  · rw [h]
    have hpaid := (Act.settle q hphase hr).holds hs
    have hnew := hacts.holds hpaid.1
    have hopen : Act s (.turn (.two aid)) e₂ (reopen s aid draw e₂) := .reopen draw (by rw [htwo]; rfl)
    exact (hpaid.trans hnew).trans (hopen.holds hnew.1)

theorem tickArenaN_holds (q : Quotes) (aid : NArena) (now : ℚ) (draw : Draw) (d : ℕ → BotDraw) (hs : Sound s e) :
    Holds s e (tickArenaN s q aid now draw d e) := by
  rcases tickArenaN_cases q aid now draw d hs with h | ⟨r, hf, h⟩ | ⟨r, e₂, ⟨hphase, -⟩, hr, hacts, hmany, h⟩
  · rw [h]
    exact .refl hs
  · rw [h]
    exact (Act.fightN hf).holds hs
  · rw [h]
    have hpaid := (Act.settleN q hphase hr).holds hs
    have hnew := hacts.holds hpaid.1
    have hopen : Act s (.turn (.many aid)) e₂ (reopenN s aid draw e₂) := .reopenN draw (by rw [hmany]; rfl)
    exact (hpaid.trans hnew).trans (hopen.holds hnew.1)

theorem serve_holds {event : Event} (hs : Sound s e) (hup : ∀ signal b, event ≠ .restart signal b) :
    Holds s e (State.serve s e event) := by
  cases event with
  | enter q u m =>
      have hjoin := (prepared_acts (s := s) q m e).holds hs
      rcases enterMessage_cases q u m hs with h | h | ⟨-, e₁, hact, hacts⟩
      · exact (congrArg (Holds s e) h).mpr (.refl hs)
      · exact (congrArg (Holds s e) h).mpr hjoin
      · have hplay := hact.holds hjoin.1
        exact (hjoin.trans hplay).trans (hacts.holds hplay.1)
  | botsEnter q aid pick d =>
      have hcap := (capPopulation_acts q aid hs).holds hs
      exact hcap.trans ((botsEnter_acts q aid pick d hs).holds hcap.1)
  | ensureMinimumEntries q aid d => exact (ensureMinimumEntries_acts q aid d hs).holds hs
  | matchPlayerStake q aid side stakeUsd u => exact (matchPlayerStake_acts q aid side stakeUsd u hs).holds hs
  | tick q aid now draw d => exact tickArena_holds q aid now draw d hs
  | enterN q m =>
      rcases enterNMessage_cases (s := s) q m e with hacts | ⟨e₁, hacts, hact⟩
      · exact hacts.holds hs
      · have hjoin := hacts.holds hs
        exact hjoin.trans (hact.holds hjoin.1)
  | botsEnterN q aid pick d => exact (botsEnterN_acts q aid pick d hs).holds hs
  | tickN q aid now draw d => exact tickArenaN_holds q aid now draw d hs
  | newBot q aid side d => exact (Act.newBot e q aid side d).holds hs
  | newBotN q aid d => exact (Act.newBotN e q aid d).holds hs
  | capPopulation q aid => exact (capPopulation_acts q aid hs).holds hs
  | levelBots q => exact (levelBots_acts (s := s) q hs).holds hs
  | restart signal b => exact absurd rfl (hup signal b)

/-! ## Rounds and their numbers -/

/-- A round is settled, and its arena is in the next. -/
structure Closed (arena : Arena) (e e' : State) : Prop where
  candid : Candid e.ledger → Candid e'.ledger
  counts : e'.roundsByArena = Function.update e.roundsByArena arena (e.roundsByArena arena + 1)
  rounds : e'.roundOf = Function.update e.roundOf arena (e.roundOf arena + 1)
  settled : ∃ ids, e'.settled = e.settled ++ [⟨arena, e.roundOf arena, ids⟩]

/-- A runner changes within its round. -/
theorem Passes.of_two {aid : ArenaId} {r : Runner Entry RoundResult} (h : r.state.round = (e.two aid).state.round) :
    Passes e { e with two := Function.update e.two aid r } := by
  refine ⟨fun hc => hc, rfl, (roundOf_two (e := e) (r := r) (by rfl) (by rfl)).trans ?_, rfl⟩
  rw [h]
  exact Function.update_eq_self (Arena.two aid) e.roundOf

theorem Passes.of_many {aid : NArena} {r : Runner EntryN ResultN} (h : r.state.round = (e.many aid).state.round) :
    Passes e { e with many := Function.update e.many aid r } := by
  refine ⟨fun hc => hc, rfl, (roundOf_many (e := e) (r := r) (by rfl) (by rfl)).trans ?_, rfl⟩
  rw [h]
  exact Function.update_eq_self (Arena.many aid) e.roundOf

/-- A tick stays in its round, or settles it and opens the next. -/
theorem tickArena_numbers (q : Quotes) (aid : ArenaId) (now : ℚ) (draw : Draw) (d : ℕ → BotDraw) (hs : Sound s e) :
    Passes e (tickArena s q aid now draw d e) ∨ Closed (.two aid) e (tickArena s q aid now draw d e) := by
  unfold tickArena
  extract_lets c
  rcases tick_turns s.platform s.round c (e.two aid) now draw with h | ⟨r', h, hf⟩ | ⟨r, h, -, -⟩ | ⟨-, hphase, hnone⟩
  · left
    rw [h]
    exact .of_two rfl
  · left
    rw [h]
    exact .of_two hf.round
  · right
    rw [h]
    dsimp -zeta only
    extract_lets e₂ lobby
    have h₁ : Passes e { e with two := Function.update e.two aid (settling (e.two aid)) } := .of_two rfl
    have h₂ : Counted (.two aid) e e₂ := h₁.counted (onSettle_counted s q aid r _ d _)
    clear_value e₂
    constructor
    case candid => exact h₂.candid
    case counts => exact h₂.counts
    case rounds =>
        refine (roundOf_two (e := e₂) (r := lobby) (by rfl) (by rfl)).trans ?_
        rw [h₂.rounds]
        rfl
    case settled => exact ⟨_, congrArg (· ++ _) h₂.settled⟩
  · obtain ⟨seed, multiplier, hresult⟩ := (hs.two aid).fought hphase
    rw [hnone] at hresult
    cases hresult

theorem tickArenaN_numbers (q : Quotes) (aid : NArena) (now : ℚ) (draw : Draw) (d : ℕ → BotDraw) (hs : Sound s e) :
    Passes e (tickArenaN s q aid now draw d e) ∨ Closed (.many aid) e (tickArenaN s q aid now draw d e) := by
  unfold tickArenaN
  extract_lets c
  rcases tick_turns s.platform s.round c (e.many aid) now draw with h | ⟨r', h, hf⟩ | ⟨r, h, -, -⟩ | ⟨-, hphase, hnone⟩
  · left
    rw [h]
    exact .of_many rfl
  · left
    rw [h]
    exact .of_many hf.round
  · right
    rw [h]
    dsimp -zeta only
    extract_lets e₂ lobby
    have h₁ : Passes e { e with many := Function.update e.many aid (settling (e.many aid)) } := .of_many rfl
    have h₂ : Counted (.many aid) e e₂ := h₁.counted (onSettleN_counted s q aid r _ d _)
    clear_value e₂
    constructor
    case candid => exact h₂.candid
    case counts => exact h₂.counts
    case rounds =>
        refine (roundOf_many (e := e₂) (r := lobby) (by rfl) (by rfl)).trans ?_
        rw [h₂.rounds]
        rfl
    case settled => exact ⟨_, congrArg (· ++ _) h₂.settled⟩
  · obtain ⟨seed, multiplier, hresult⟩ := (hs.many aid).fought hphase
    rw [hnone] at hresult
    cases hresult

theorem serve_numbers {event : Event} (hs : Sound s e) (hup : ∀ signal b, event ≠ .restart signal b) :
    Passes e (State.serve s e event) ∨ ∃ arena, Closed arena e (State.serve s e event) := by
  cases event with
  | enter q u m => exact .inl (.enterMessage s q u m e)
  | botsEnter q aid pick d => exact .inl (.botsEnter s q aid pick d e)
  | ensureMinimumEntries q aid d => exact .inl (.ensureMinimumEntries s q aid d e)
  | matchPlayerStake q aid side stakeUsd u => exact .inl (.matchPlayerStake s q aid side stakeUsd u e)
  | tick q aid now draw d => exact (tickArena_numbers q aid now draw d hs).imp_right fun h => ⟨_, h⟩
  | enterN q m => exact .inl (.enterNMessage s q m e)
  | botsEnterN q aid pick d => exact .inl (.botsEnterN s q aid pick d e)
  | tickN q aid now draw d => exact (tickArenaN_numbers q aid now draw d hs).imp_right fun h => ⟨_, h⟩
  | newBot q aid side d => exact .inl (.newBot s e q aid side d)
  | newBotN q aid d => exact .inl (.newBotN s e q aid d)
  | capPopulation q aid => exact .inl (.capPopulation s e q aid)
  | levelBots q => exact .inl (.levelBots s e q)
  | restart signal b => exact absurd rfl (hup signal b)

/-! ## Shutdown and start -/

theorem Passes.refundOpenRounds (s : Settings) (q : Quotes) (e : State) : Passes e (refundOpenRounds s q e) := by
  have hback : ∀ arena round e entry, Passes e (giveBack q arena round e entry) := by
    intro arena round e entry
    unfold giveBack
    extract_lets id e₁ units
    split
    · exact .refl e
    have hprice : Passes e e₁ := .freeze e arena round entry.2.1 q
    split
    · exact hprice.trans (.post e₁ _ _ _ _ _)
    · exact hprice
  exact .foldl (fun e => e) (fun e arena => .foldl (fun e => e) (hback arena _) _ e) _ e

theorem Passes.seedArena (s : Settings) (b : BootDraw) (e : State) (arena : Arena) : Passes e (seedArena s b e arena) := by
  have hseed : ∀ aid n i e, Passes e (seedBots s b.quotes aid (b.bots (.two aid)) i n e) := by
    intro aid n
    induction n with
    | zero => exact fun _ e => .refl e
    | succ n ih =>
        intro i e
        rw [seedBots]
        generalize (if i % 2 = 1 then Side.uwu else .bull) = side
        have hnew := Passes.newBot s e b.quotes aid side (b.bots (.two aid) i)
        rcases hmade : Engine.newBot s e b.quotes aid side (b.bots (.two aid) i) with ⟨e₁, made⟩
        rw [hmade] at hnew
        cases made with
        | true => exact hnew.trans (ih (i + 1) e₁)
        | false => exact hnew
  cases arena with
  | two aid =>
      have hscan := Passes.botsFor e aid.text
      rw [Engine.seedArena]
      rcases hbots : Engine.botsFor e aid.text with ⟨bots, e₁⟩
      rw [hbots] at hscan
      dsimp only at hscan ⊢
      split
      · exact hscan.trans (hseed aid _ 0 e₁)
      · exact hscan
  | many aid => exact .populateN s _ aid _ _ _ e

theorem loaded_candid {l : Ledger} (hk : Keyed l) (h : Candid l) : Candid (loaded s l) := by
  intro id b hb hbot
  obtain ⟨a, ha, -, rfl⟩ := (loaded_get hk).mp hb
  split at hbot
  · cases hbot
  · next hpool =>
      rw [if_neg hpool]
      have hclean := h id a ha (by simpa using hbot)
      unfold writeOff
      split
      · exact hclean
      extract_lets backed
      split
      · exact ⟨hclean.dep, hclean.depIn, hclean.wOut, hclean.refEarned, hclean.solIn, hclean.solOut, hclean.referred⟩
      · exact hclean

/-- A start passes on the records and counters that it finds, with every arena in its next round. -/
theorem start_numbers (h : Regular s e.ledger) (b : BootDraw) :
    (Candid e.ledger → Candid (start s (snapshot e) e b).ledger) ∧
      (start s (snapshot e) e b).roundsByArena = e.roundsByArena ∧
      (∀ arena, (start s (snapshot e) e b).roundOf arena = e.roundsByArena arena + 1) ∧
      (start s (snapshot e) e b).settled = [] := by
  have hpass : Passes (came s e b) (start s (snapshot e) e b) := by
    have hprune : Passes (came s e b) (pruneOrphans s (came s e b)) := .foldl (fun e => e) (.retireBot s) _ _
    exact hprune.trans (.foldl (fun e => e) (.seedArena s b) _ _)
  refine ⟨fun hc => hpass.candid (loaded_candid h.keyed hc), hpass.counts, fun arena => ?_, hpass.settled⟩
  rw [hpass.rounds]
  cases arena <;> rfl

end BullsUnicorns.Engine

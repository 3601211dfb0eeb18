import BullsUnicorns.Engine.Lemmas.Tally
import BullsUnicorns.Engine.Theorems.Thrift

/-!
# Two-team rounds balance

Within one process, a two-team round pays out in each token what was staked in it, less the fees, which are moved
in the same token. So all accounts together, with what is in play, hold what they held, as long as every entry is
on one of the two sides, a referrer is paid in the token of the stake, and no round loses its prices while it is open.
-/

namespace BullsUnicorns.Engine

open Battle

variable {s : Settings} {e e' e'' : State}

/-- A movement as it is. -/
def net : String → ℚ → ℚ := fun _ x => x

/-- Every owner at the same weight. -/
def even : String → ℚ := fun _ => 1

theorem weighs_net (aid : ArenaId) : Weighs net even (.two aid) := by
  intro id x moves _ hfee
  have hwhole := hfee.whole aid rfl
  change -x + (moves.map Prod.snd).sum + 1 * (x * (1 - FEE)) = 0
  rw [hwhole]
  ring

/-! ## What a settlement pays -/

theorem slotField_ne (aid : ArenaId) : slotField aid .bull ≠ slotField aid .uwu := by
  obtain ⟨pairing, eco⟩ := aid
  cases pairing <;> simp [slotField, slotTok, arenaTokens, PAIRINGS, FIELD]

/-- What is priced, or nothing. -/
def Payable (px : ℚ) (amounts : List ℚ) : Prop := 0 < px ∨ ∀ x ∈ amounts, x = 0

theorem Payable.tail {px : ℚ} {x : ℚ} {amounts : List ℚ} (h : Payable px (x :: amounts)) : Payable px amounts :=
  h.imp_right fun hz y hy => hz y (List.mem_cons_of_mem x hy)

theorem Payable.keep {px px' : ℚ} {amounts : List ℚ} (h : Payable px amounts) (hpx : 0 < px → px' = px) :
    Payable px' amounts ∧ amounts.sum / px' = amounts.sum / px := by
  rcases h with hpos | hz
  · rw [hpx hpos]
    exact ⟨.inl hpos, rfl⟩
  · have hsum : amounts.sum = 0 := List.sum_eq_zero hz
    refine ⟨.inr hz, ?_⟩
    rw [hsum, zero_div, zero_div]

theorem unitsAtRound_eq {arena : Arena} {f : Field} {x : ℚ} (hpx : KeepsPx e e')
    (hkept : (arena, e.roundOf arena) ∉ e'.forgotten) (h : 0 < e.roundPx (arena, e.roundOf arena, f) ∨ x = 0) :
    unitsAtRound e' arena (e.roundOf arena) f x = x / e.roundPx (arena, e.roundOf arena, f) := by
  rcases h with hpos | rfl
  · rw [unitsAtRound, hpx.px _ _ hkept hpos, if_pos hpos]
  · simp [unitsAtRound]

/-- A payout forgets what its two calls for a price forget. -/
theorem payFighter_forgotten (q : Quotes) (aid : ArenaId) (round : ℕ) {pay : String × Battle.Payout}
    (hget : (e.ledger.get (walletOf pay.1)).isSome) : (payFighter q aid round e pay).forgotten =
      ((e.freeze (.two aid) round (slotField aid .bull) q).freeze (.two aid) round
        (slotField aid .uwu) q).forgotten := by
  obtain ⟨a, ha⟩ := Option.isSome_iff_exists.mp hget
  unfold payFighter
  extract_lets id fA fB e₁ retA retB ret e₂ e₃
  have ha' : e.ledger.get id = some a := ha
  rw [ha']
  rfl

theorem tally_payFighter (q : Quotes) {aid : ArenaId} {round : ℕ} {pay : String × Battle.Payout} (f : Field)
    (hget : (e.ledger.get (walletOf pay.1)).isSome) (hround : e.roundOf (.two aid) = round)
    (hkept : (.two aid, round) ∉ (payFighter q aid round e pay).forgotten)
    (hbull : 0 < e.roundPx (.two aid, round, slotField aid .bull) ∨ pay.2.bull = 0)
    (huwu : 0 < e.roundPx (.two aid, round, slotField aid .uwu) ∨ pay.2.uwu = 0) :
    tally net (payFighter q aid round e pay) (.two aid) round f = tally net e (.two aid) round f +
      (if slotField aid .bull = f then pay.2.bull / e.roundPx (.two aid, round, slotField aid .bull) else 0) +
      if slotField aid .uwu = f then pay.2.uwu / e.roundPx (.two aid, round, slotField aid .uwu) else 0 := by
  rw [payFighter_forgotten q aid round hget] at hkept
  obtain ⟨a, ha⟩ := Option.isSome_iff_exists.mp hget
  subst hround
  unfold payFighter
  extract_lets id fA fB e₁ retA retB ret e₂ e₃
  have ha' : e.ledger.get id = some a := ha
  rw [ha']
  have hstill : Still e e₁ := (still_freeze e _ _ _ q).trans (still_freeze _ _ _ _ q)
  have hA : retA = pay.2.bull / e.roundPx (.two aid, e.roundOf (.two aid), fA) :=
    unitsAtRound_eq hstill.px hkept hbull
  have hB : retB = pay.2.uwu / e.roundPx (.two aid, e.roundOf (.two aid), fB) :=
    unitsAtRound_eq hstill.px hkept huwu
  have hpaid : tally net e₂ (.two aid) (e.roundOf (.two aid)) f = tally net e (.two aid) (e.roundOf (.two aid)) f +
      (if fA = f then retA else 0) + if fB = f then retB else 0 := by
    simp only [e₂, e₁, tally_post, tally_freeze, net]
    simp
  rw [← hA, ← hB]
  exact hpaid

/-- All the payouts of a round, each side in its own token. -/
theorem tally_payFighters (s : Settings) (q : Quotes) (aid : ArenaId) (round : ℕ) (f : Field)
    (pays : List (String × Battle.Payout)) (e : State) (hpos : ∀ pay ∈ pays, 0 ≤ pay.2.bull ∧ 0 ≤ pay.2.uwu)
    (hget : ∀ pay ∈ pays, (e.ledger.get (walletOf pay.1)).isSome) (hround : e.roundOf (.two aid) = round)
    (hkept : (.two aid, round) ∉ (pays.foldl (payFighter q aid round) e).forgotten)
    (hbull : Payable (e.roundPx (.two aid, round, slotField aid .bull)) (pays.map fun pay => pay.2.bull))
    (huwu : Payable (e.roundPx (.two aid, round, slotField aid .uwu)) (pays.map fun pay => pay.2.uwu)) :
    tally net (pays.foldl (payFighter q aid round) e) (.two aid) round f = tally net e (.two aid) round f +
      (if slotField aid .bull = f then
        (pays.map fun pay => pay.2.bull).sum / e.roundPx (.two aid, round, slotField aid .bull) else 0) +
      if slotField aid .uwu = f then
        (pays.map fun pay => pay.2.uwu).sum / e.roundPx (.two aid, round, slotField aid .uwu) else 0 := by
  induction pays generalizing e with
  | nil => simp
  | cons pay pays ih =>
      have hstill := still_payFighter e q aid round pay
      have hheld : Held nobody e (payFighter q aid round e pay) :=
        (Booked.payFighter (s := s) q aid round (hpos pay List.mem_cons_self)).toHeld
      have hrest := still_foldl (fun e pay => still_payFighter e q aid round pay) pays (payFighter q aid round e pay)
      have hfirst : (.two aid, round) ∉ (payFighter q aid round e pay).forgotten :=
        fun hmem => hkept (hrest.px.forgotten _ hmem)
      have hpx (g : Field) (h : 0 < e.roundPx (.two aid, round, g)) :
          (payFighter q aid round e pay).roundPx (.two aid, round, g) = e.roundPx (.two aid, round, g) := by
        subst hround
        exact hstill.px.px _ _ hfirst h
      obtain ⟨hbull', hA⟩ := hbull.tail.keep (hpx _)
      obtain ⟨huwu', hB⟩ := huwu.tail.keep (hpx _)
      rw [List.foldl_cons, ih _ (fun p hp => hpos p (List.mem_cons_of_mem pay hp))
          (fun p hp => hheld.isSome (hget p (List.mem_cons_of_mem pay hp)))
          ((congrFun hstill.roundOf _).trans hround) hkept hbull' huwu',
        tally_payFighter q f (hget pay List.mem_cons_self) hround hfirst
          (hbull.imp_right fun hz => hz _ List.mem_cons_self)
          (huwu.imp_right fun hz => hz _ List.mem_cons_self), hA, hB]
      simp only [List.map_cons, List.sum_cons, add_div]
      split <;> split <;> ring

/-- With entries of the two sides, each side is in play in its own token. -/
theorem inPlay_sides (s : Settings) (e : State) (aid : ArenaId) (f : Field)
    (hside : ∀ en ∈ (e.two aid).state.entries, en.side = .bull ∨ en.side = .uwu) :
    inPlay s even e (.two aid) f =
      (if slotField aid .bull = f then
        staked (e.two aid).state.entries .bull / e.roundPx (.two aid, e.roundOf (.two aid), slotField aid .bull)
        else 0) +
      if slotField aid .uwu = f then
        staked (e.two aid).state.entries .uwu / e.roundPx (.two aid, e.roundOf (.two aid), slotField aid .uwu)
        else 0 := by
  rw [inPlay, State.book, List.map_map]
  generalize e.roundOf (.two aid) = round
  generalize (e.two aid).state.entries = es at hside
  induction es with
  | nil => simp [staked]
  | cons en es ih =>
      rw [List.map_cons, List.sum_cons, ih fun en' hen => hside en' (List.mem_cons_of_mem en hen)]
      rcases hside en List.mem_cons_self with hen | hen
      · by_cases hf : slotField aid .bull = f
        · subst hf
          simp [hen, staked, even, (slotField_ne aid).symm]
          ring
        · simp [hen, staked, hf]
      · by_cases hf : slotField aid .uwu = f
        · subst hf
          simp [hen, staked, even, slotField_ne aid]
          ring
        · simp [hen, staked, hf]

/-- No two entries of the two sides have one id. -/
theorem entries_nodup (hs : Sound s e) (aid : ArenaId)
    (hside : ∀ en ∈ (e.two aid).state.entries, en.side = .bull ∨ en.side = .uwu) :
    ((e.two aid).state.entries.map Entry.id).Nodup := by
  have honce := (hs.two aid).once
  refine List.Nodup.map_on ?_ honce.of_map
  intro en hen en' hen' hid
  obtain ⟨owner, he, howner, -⟩ := (hs.two aid).listed en hen
  obtain ⟨owner', he', howner', -⟩ := (hs.two aid).listed en' hen'
  have heq : entryId owner en.side = entryId owner' en'.side := he.symm.trans (hid.trans he')
  obtain ⟨-, hkey⟩ := entryId_inj howner.clean howner'.clean heq
  have hsame : en.side = en'.side := by
    rcases hside en hen with h | h <;> rcases hside en' hen' with h' | h' <;> rw [h, h'] at hkey ⊢
    · exact absurd hkey (by decide)
    · exact absurd hkey (by decide)
  exact List.inj_on_of_nodup_map honce hen hen' (Prod.ext hid hsame)

/-- A side without entries pays nothing, and the token of the other is priced. -/
theorem payable_side (hs : Sound s e) {aid : ArenaId} (hkept : e.Remembers (.two aid)) {side : Side} {amounts : List ℚ}
    (hpos : ∀ x ∈ amounts, 0 ≤ x) (hsum : amounts.sum = staked (e.two aid).state.entries side) :
    Payable (e.roundPx (.two aid, e.roundOf (.two aid), slotField aid side)) amounts := by
  by_cases hsome : ∃ en ∈ (e.two aid).state.entries, en.side = side
  · obtain ⟨en, hen, rfl⟩ := hsome
    obtain ⟨owner, -, -, -, hpx⟩ := (hs.two aid).listed en hen
    exact .inl (hpx hkept)
  · have hnone : staked (e.two aid).state.entries side = 0 := by
      rw [staked, List.filter_eq_nil_iff.mpr fun en hen => by simpa using fun he => hsome ⟨en, hen, he⟩]
      rfl
    exact .inr fun x hx => List.all_zero_of_le_zero_le_of_sum_eq_zero hpos (hsum.trans hnone) hx

/-- A settlement pays out what is in play. -/
theorem tally_settleRound (hs : Sound s e) (q : Quotes) {aid : ArenaId} {r : RoundResult}
    (hphase : (e.two aid).state.phase = .battle) (hr : (e.two aid).state.result = some r)
    (hside : ∀ en ∈ (e.two aid).state.entries, en.side = .bull ∨ en.side = .uwu)
    (hkept : (.two aid, e.roundOf (.two aid)) ∉ (settleRound q aid r e).forgotten) (f : Field) :
    tally net (settleRound q aid r e) (.two aid) (e.roundOf (.two aid)) f =
      tally net e (.two aid) (e.roundOf (.two aid)) f + inPlay s even e (.two aid) f := by
  have hfit := hs.two aid
  have hwas : e.Remembers (.two aid) := fun hmem => hkept ((settleRound_px q aid r e).forgotten _ hmem)
  have hnonneg := settlement_nonneg hs hphase hr
  obtain ⟨seed, multiplier, hfight⟩ := hfit.fought hphase
  rw [hr, Option.some_inj] at hfight
  obtain ⟨hkeys, hpaid⟩ : r.settlement.entries.map Prod.fst = (e.two aid).state.entries.map Entry.id ∧
      Paid (e.two aid).state.entries r := by
    rw [hfight]
    exact fightRound_paid seed (entries_nodup hs aid hside) ⟨hside, hfit.stakes⟩ rfl
  have hpays : ∀ pay ∈ r.settlement.entries, 0 ≤ pay.2.bull ∧ 0 ≤ pay.2.uwu := fun pay hpay =>
    hnonneg pay.2 (List.mem_map_of_mem hpay)
  have hbull : Payable (e.roundPx (.two aid, e.roundOf (.two aid), slotField aid .bull))
      (r.settlement.entries.map fun pay => pay.2.bull) := by
    refine payable_side hs hwas (List.forall_mem_map.mpr fun pay hpay => (hpays pay hpay).1) ?_
    rw [← hpaid.bull, OrderedMap.values, List.map_map]
    rfl
  have huwu : Payable (e.roundPx (.two aid, e.roundOf (.two aid), slotField aid .uwu))
      (r.settlement.entries.map fun pay => pay.2.uwu) := by
    refine payable_side hs hwas (List.forall_mem_map.mpr fun pay hpay => (hpays pay hpay).2) ?_
    rw [← hpaid.uwu, OrderedMap.values, List.map_map]
    rfl
  have hget : ∀ pay ∈ r.settlement.entries, (e.ledger.get (walletOf pay.1)).isSome := by
    intro pay hpay
    have hid : pay.1 ∈ (e.two aid).state.entries.map Entry.id := hkeys ▸ List.mem_map_of_mem hpay
    obtain ⟨en, hen, he⟩ := List.mem_map.mp hid
    obtain ⟨owner, hid, howner, hacc, -⟩ := hfit.listed en hen
    rw [← he, show en.id = _ from hid, walletOf_entryId _ howner.clean]
    exact hacc
  have hpaying := tally_payFighters s q aid (e.roundOf (.two aid)) f r.settlement.entries
    { e with two := Function.update e.two aid (settling (e.two aid)) } hpays hget
    (congrFun (roundOf_kept (e := e) (r := settling (e.two aid)) rfl) _) hkept hbull huwu
  rw [inPlay_sides s e aid f hside, ← hpaid.bull, ← hpaid.uwu, OrderedMap.values, List.map_map,
    List.map_map, ← add_assoc]
  exact hpaying

/-! ## Every act -/

/-- The rounds of an arena that have lost no prices: the open one agrees with what is in play, and the ones that are
over have paid out what they took in. -/
structure Balanced (s : Settings) (e : State) (aid : ArenaId) : Prop where
  recorded : Recorded s net even e (.two aid)
  closed : ∀ round, Past e (.two aid) round → (.two aid, round) ∉ e.forgotten → ∀ f, tally net e (.two aid) round f = 0
  side : ∀ en ∈ (e.two aid).state.entries, en.side = .bull ∨ en.side = .uwu

section
variable {k : Kind} {aid : ArenaId}

/-- A round is over from its settlement on. -/
theorem Act.past {round : ℕ} (h : Act s k e e') (hpast : Past e' (.two aid) round) :
    Past e (.two aid) round ∨ ∃ q r, (e.two aid).state.phase = .battle ∧ (e.two aid).state.result = some r ∧
      e' = settleRound q aid r e ∧ round = e.roundOf (.two aid) := by
  have hsame : ∀ e' : State, e'.two aid = e.two aid → Past e' (.two aid) round → Past e (.two aid) round := by
    intro e' htwo hpast
    simpa [Past, State.roundOf, State.phaseOf, htwo] using hpast
  have hother : ∀ aid' r,
      ({ e with two := Function.update e.two aid' r }).two aid = if aid = aid' then r else e.two aid :=
    fun aid' r => Function.update_apply e.two aid' r aid
  by_cases hk : ∃ arena, k = .turn arena
  · obtain ⟨arena, rfl⟩ := hk
    cases h with
    | @fight e aid' r hf =>
        left
        by_cases haid : aid = aid'
        · subst haid
          rcases hpast with hlt | ⟨-, hsettle⟩
          · exact .inl (by simpa [State.roundOf, hf.round] using hlt)
          · simp [State.phaseOf, hf.phase] at hsettle
        · exact hsame _ ((hother aid' r).trans (if_neg haid)) hpast
    | fightN _ => exact .inl (hsame _ rfl hpast)
    | @settle e q aid' r hphase hr =>
        by_cases haid : aid = aid'
        · subst haid
          rcases hpast with hlt | ⟨heq, -⟩
          · exact .inl (.inl (by simpa [State.roundOf, settleRound_two, settling] using hlt))
          · exact .inr ⟨q, r, hphase, hr, rfl, by simpa [State.roundOf, settleRound_two, settling] using heq⟩
        · exact .inl (hsame _
            ((congrFun (settleRound_still q aid' r e).two aid).trans (Function.update_of_ne haid _ _)) hpast)
    | @settleN e q aid' r _ _ =>
        exact .inl (hsame _ (congrFun (settleRoundN_still s q aid' r e).two aid) hpast)
    | @reopen e aid' d hphase =>
        left
        by_cases haid : aid = aid'
        · subst haid
          rcases hpast with hlt | ⟨-, hsettle⟩
          · have hle : round ≤ e.roundOf (.two aid) := by
              simpa [State.roundOf, Engine.reopen, freshLobby, Nat.lt_succ_iff] using hlt
            rcases hle.lt_or_eq with hlt | heq
            · exact .inl hlt
            · exact .inr ⟨heq, hphase⟩
          · simp [State.phaseOf, Engine.reopen, freshLobby] at hsettle
        · exact hsame _ (Function.update_of_ne haid _ _) hpast
    | reopenN d _ => exact .inl (hsame _ rfl hpast)
  · left
    obtain ⟨hphase, hround⟩ := h.samePhase (fun arena he => hk ⟨arena, he⟩) (.two aid)
    simpa [Past, hphase, hround] using hpast

/-- The sides of the entries after a stake. -/
theorem sides_enterRound {e₁ : State} {aid' : ArenaId} {owner : String} {side : Side} {stake : ℚ}
    (htwo : e₁.two = e.two) (hside : ∀ en ∈ (e.two aid).state.entries, en.side = .bull ∨ en.side = .uwu)
    (hnew : aid' = aid → side = .bull ∨ side = .uwu) :
    ∀ en ∈ ((State.enterRound s e₁ aid' owner side stake).two aid).state.entries, en.side = .bull ∨ en.side = .uwu := by
  intro en hen
  by_cases haid : aid = aid'
  · subst haid
    simp only [State.enterRound, Function.update_self, enter, htwo] at hen
    split at hen
    · exact hside en hen
    · rcases mem_place hen with hen | ⟨-, hslot, -⟩
      · exact hside en hen
      · change en.side = side at hslot
        rw [hslot]
        exact hnew rfl
  · simp only [State.enterRound, Function.update_of_ne haid, htwo] at hen
    exact hside en hen

/-- Every act keeps the rounds of an arena balanced, when the entries of its players are in order. -/
theorem Act.balanced (h : Act s k e e') (hs : Sound s e)
    (hplayer : ∀ m, k = .player m → m.aid = aid → (m.side = .bull ∨ m.side = .uwu) ∧ InKind net e m)
    (hb : Balanced s e aid) : Balanced s e' aid where
  recorded := by
    refine h.recorded hs (weighs_net aid) (fun m hk harena => (hplayer m hk ?_).2) hb.recorded
    simpa using harena
  closed := by
    intro round hpast hkept f
    have hwas : (.two aid, round) ∉ e.forgotten := fun hmem => hkept ((h.turns hs).px.forgotten _ hmem)
    rcases h.past hpast with hpast' | ⟨q, r, hphase, hr, rfl, rfl⟩
    · rw [h.tally_past hpast']
      exact hb.closed round hpast' hwas f
    · rw [tally_settleRound hs q hphase hr hb.side hkept]
      exact hb.recorded.current hwas (by simp [State.phaseOf, hphase]) f
  side := by
    have hsame : ∀ e₂ : State, e₂.two = e.two →
        ∀ en ∈ (e₂.two aid).state.entries, en.side = .bull ∨ en.side = .uwu := by
      intro e₂ htwo
      rw [htwo]
      exact hb.side
    by_cases hk : k.Aside
    · exact hsame _ (h.still hk).two
    cases h with
    | @stakeBot e aid' id side tokens usd _ _ hside _ _ _ _ =>
        obtain ⟨e₁, hst, he⟩ := deployBot_still s e aid' id side tokens usd
        rw [he]
        exact sides_enterRound hst.two hb.side fun _ => hside
    | @stakeBotN e aid' id team tokens usd _ _ _ _ _ _ _ =>
        obtain ⟨e₁, hst, he⟩ := deployBotN_still s e aid' id team tokens usd
        rw [he]
        exact hsame _ hst.two
    | @stakePlayer e m stake px _ _ _ _ _ _ =>
        obtain ⟨e₁, hst, he⟩ := deployPlayer_still s e m stake px
        rw [he]
        exact sides_enterRound hst.two hb.side fun haid => (hplayer m rfl haid).1
    | @stakePlayerN e m stake usd _ _ _ _ _ _ =>
        obtain ⟨e₁, hst, he⟩ := deployPlayerN_still s e m stake usd
        rw [he]
        exact hsame _ hst.two
    | @fight e aid' r hf =>
        intro en hen
        by_cases haid : aid = aid'
        · subst haid
          simp only [Function.update_self, hf.entries] at hen
          exact hb.side en hen
        · simp only [Function.update_of_ne haid] at hen
          exact hb.side en hen
    | fightN _ => exact hsame _ rfl
    | @settle e q aid' r _ _ =>
        intro en hen
        rw [(settleRound_still q aid' r e).two] at hen
        by_cases haid : aid = aid'
        · subst haid
          simp only [Function.update_self, settling] at hen
          exact hb.side en hen
        · simp only [Function.update_of_ne haid] at hen
          exact hb.side en hen
    | @settleN e q aid' r _ _ => exact hsame _ (settleRoundN_still s q aid' r e).two
    | @reopen e aid' d _ =>
        intro en hen
        by_cases haid : aid = aid'
        · subst haid
          simp [Engine.reopen, freshLobby] at hen
        · simp only [Engine.reopen, Function.update_of_ne haid] at hen
          exact hb.side en hen
    | reopenN d _ => exact hsame _ rfl
    | _ => exact absurd trivial hk

end

/-! ## The record grows -/

/-- The process has put movements of its own on the record, and no others. -/
structure Grown (e e' : State) : Prop where
  boot : e'.boot = e.boot
  flows : ∃ new, e'.flows = e.flows ++ new ∧ ∀ flow ∈ new, flow.boot = e.boot

section
variable (e) (arena : Arena) (round : ℕ) (f : Field) (x : ℚ)

theorem Grown.of_eq (hboot : e'.boot = e.boot) (hflows : e'.flows = e.flows) : Grown e e' :=
  ⟨hboot, [], by simp [hflows], by simp⟩

theorem Grown.trans {e : State} (h : Grown e e') (h' : Grown e' e'') : Grown e e'' := by
  obtain ⟨new, hflows, hnew⟩ := h.flows
  obtain ⟨new', hflows', hnew'⟩ := h'.flows
  refine ⟨h'.boot.trans h.boot, new ++ new', by rw [hflows', hflows, List.append_assoc], fun flow hflow => ?_⟩
  rcases List.mem_append.mp hflow with hmem | hmem
  · exact hnew flow hmem
  · exact (hnew' flow hmem).trans h.boot

theorem Grown.post (id : String) : Grown e (e.post arena round id f x) := ⟨rfl, _, rfl, by simp⟩

theorem Grown.touch (id : String) (g : Account → Account) : Grown e (e.touch id g) := .of_eq e rfl rfl

theorem Grown.freeze (q : Quotes) : Grown e (e.freeze arena round f q) := .of_eq e rfl rfl

theorem Grown.bankFee : Grown e (e.bankFee arena round f x) := by
  unfold State.bankFee
  split
  · exact .of_eq e rfl rfl
  · exact (Grown.of_eq e rfl rfl : Grown e { e with ledger := treasuryAcct e.ledger }).trans (.post _ _ _ _ _ _)

theorem Grown.returnFee (s : Settings) : Grown e (e.returnFee s arena round f x) := by
  unfold State.returnFee
  split
  · exact .of_eq e rfl rfl
  split
  · exact .of_eq e rfl rfl
  · exact .post e _ _ _ _ _

theorem Grown.payReferrer (m : EnterMsg) (refBy : String) : Grown e (payReferrer e m round refBy x) :=
  ((Grown.of_eq e rfl rfl : Grown e { e with ledger := acct e.ledger refBy m.side }).trans (.touch _ _ _)).trans
    (.post _ _ _ _ _ _)

theorem Grown.payFighter (q : Quotes) (aid : ArenaId) (pay : String × Battle.Payout) :
    Grown e (payFighter q aid round e pay) := by
  unfold Engine.payFighter
  extract_lets id fA fB e₁ retA retB ret e₂ e₃
  split
  · exact .of_eq e rfl rfl
  · have h₁ : Grown e e₁ := (Grown.freeze e _ _ _ q).trans (.freeze _ _ _ _ q)
    have h₂ : Grown e₁ e₂ := (Grown.post e₁ _ _ _ _ _).trans (.post _ _ _ _ _ _)
    exact (h₁.trans h₂).trans (.of_eq _ rfl rfl)

theorem Grown.payFighterN (s : Settings) (q : Quotes) (aid : NArena) (pay : String × ℚ) :
    Grown e (payFighterN s q aid round e pay) := by
  unfold Engine.payFighterN
  extract_lets id g e₁ ret usd e₂
  split
  · exact .of_eq e rfl rfl
  · have h₂ : Grown e e₂ := ((Grown.freeze e _ _ _ q).trans (.post _ _ _ _ _ _)).trans (.touch _ _ _)
    exact h₂.trans (.of_eq _ rfl rfl)

theorem Grown.foldl {α : Type} {pay : State → α → State} (h : ∀ e x, Grown e (pay e x)) (l : List α) (e : State) :
    Grown e (l.foldl pay e) := by
  induction l generalizing e with
  | nil => exact .of_eq e rfl rfl
  | cons x l ih => exact (h e x).trans (ih _)

theorem Grown.deployPlayer (s : Settings) (m : EnterMsg) (stake px : ℚ) : Grown e (deployPlayer s e m stake px) := by
  unfold Engine.deployPlayer
  extract_lets g round refBy e₁ fee refCut e₂
  have h₁ : Grown e e₁ := (Grown.touch e _ _).trans (.post _ _ _ _ _ _)
  have h₂ : Grown e₁ e₂ := by
    unfold e₂
    split
    · exact .of_eq e₁ rfl rfl
    · exact .payReferrer e₁ _ _ m _
  exact ((h₁.trans h₂).trans (.bankFee _ _ _ _ _)).trans (.of_eq _ rfl rfl)

end

theorem Act.grown {k : Kind} (h : Act s k e e') : Grown e e' := by
  by_cases hk : k.Aside
  · obtain ⟨hflows, hboot⟩ := h.record_aside hk
    exact .of_eq e hboot hflows
  cases h with
  | stakeBot _ _ _ _ _ _ _ =>
      exact (((Grown.touch e _ _).trans (.post _ _ _ _ _ _)).trans (.bankFee _ _ _ _ _)).trans (.of_eq _ rfl rfl)
  | stakeBotN _ _ _ _ _ _ _ =>
      exact ((Grown.post e _ _ _ _ _).trans (.returnFee _ _ _ _ _ s)).trans (.of_eq _ rfl rfl)
  | stakePlayer _ _ _ _ _ _ => exact .deployPlayer e s _ _ _
  | stakePlayerN _ _ _ _ _ _ =>
      exact (((Grown.touch e _ _).trans (.post _ _ _ _ _ _)).trans (.bankFee _ _ _ _ _)).trans (.of_eq _ rfl rfl)
  | fight _ => exact .of_eq e rfl rfl
  | fightN _ => exact .of_eq e rfl rfl
  | @settle e q aid r _ _ =>
      have hturn : Grown e { e with two := Function.update e.two aid (settling (e.two aid)) } := .of_eq e rfl rfl
      exact hturn.trans (.foldl (fun e pay => .payFighter e _ q aid pay) r.settlement.entries _)
  | @settleN e q aid r _ _ =>
      have hturn : Grown e { e with many := Function.update e.many aid (settling (e.many aid)) } := .of_eq e rfl rfl
      exact hturn.trans (.foldl (fun e pay => .payFighterN e _ s q aid pay) r.settlement.entries _)
  | reopen d _ => exact .of_eq e rfl rfl
  | reopenN d _ => exact .of_eq e rfl rfl
  | _ => exact absurd trivial hk

/-! ## Every event -/

def twoArenas : List ArenaId :=
  [Pairing.au, .as', .us].flatMap fun pairing => [Mode.normal, .extraction].map fun eco => ⟨pairing, eco⟩

/-- What is in play of a field in all two-team arenas. -/
def stakesOpen (s : Settings) (e : State) (f : Field) : ℚ := (twoArenas.map fun aid => inPlay s even e (.two aid) f).sum

/-- What the rounds of many teams have moved. -/
def teamsMoved (flows : List Flow) (f : Field) : ℚ :=
  (flows.map fun flow => match flow.arena with
    | .two _ => 0
    | .many _ => if flow.field = f then flow.amount else 0).sum

def movedIn (arena : Arena) (flows : List Flow) (f : Field) : ℚ :=
  (flows.map fun flow => if flow.arena = arena ∧ flow.field = f then flow.amount else 0).sum

theorem moved_split (flows : List Flow) (f : Field) :
    moved everybody flows f = teamsMoved flows f + (twoArenas.map fun aid => movedIn (.two aid) flows f).sum := by
  induction flows with
  | nil => simp [moved, teamsMoved, movedIn]
  | cons flow flows ih =>
      have hone : (twoArenas.map fun aid => movedIn (.two aid) (flow :: flows) f).sum =
          (twoArenas.map fun aid => if flow.arena = .two aid ∧ flow.field = f then flow.amount else 0).sum +
            (twoArenas.map fun aid => movedIn (.two aid) flows f).sum := by
        rw [← List.sum_map_add]
        rfl
      have hmoved : moved everybody (flow :: flows) f =
          (if flow.field = f then flow.amount else 0) + moved everybody flows f := by
        simp [moved, everybody]
      rw [hone, hmoved, ih]
      obtain ⟨boot, arena, round, account, isBot, field, amount⟩ := flow
      cases arena with
      | two aid =>
          obtain ⟨pairing, eco⟩ := aid
          cases pairing <;> cases eco <;> simp [twoArenas, teamsMoved] <;> ring
      | many aid =>
          simp [teamsMoved]
          ring

/-- The rounds of an arena one by one. -/
theorem sum_tally (e : State) (arena : Arena) (f : Field) {n : ℕ} (hn : ∀ flow ∈ e.flows, flow.round < n) :
    ∑ round ∈ Finset.range n, tally net e arena round f =
      (e.flows.map fun flow =>
        if flow.boot = e.boot ∧ flow.arena = arena ∧ flow.field = f then flow.amount else 0).sum := by
  unfold tally
  generalize e.boot = boot
  generalize e.flows = flows at hn
  induction flows with
  | nil => simp
  | cons flow flows ih =>
      simp only [List.map_cons, List.sum_cons, Finset.sum_add_distrib]
      rw [ih fun flow' h => hn flow' (List.mem_cons_of_mem flow h)]
      congr 1
      have hround : flow.round ∈ Finset.range n := Finset.mem_range.mpr (hn flow List.mem_cons_self)
      rw [Finset.sum_eq_single_of_mem flow.round hround fun round _ hne => if_neg fun h => hne h.2.2.1.symm]
      simp [net]

/-- What the rounds of an arena have moved is what is in play there. -/
theorem movedIn_open {new before : List Flow} {aid : ArenaId} (hb : Balanced s e aid) (hr : Rested e)
    (hkept : ∀ round, (.two aid, round) ∉ e.forgotten) (hflows : e.flows = before ++ new)
    (hold : ∀ flow ∈ before, flow.boot ≠ e.boot) (hnew : ∀ flow ∈ new, flow.boot = e.boot) (f : Field) :
    movedIn (.two aid) new f = -inPlay s even e (.two aid) f := by
  obtain ⟨n, hround, hn⟩ : ∃ n, e.roundOf (.two aid) < n ∧ ∀ flow ∈ e.flows, flow.round < n := by
    refine ⟨e.roundOf (.two aid) + (e.flows.map Flow.round).sum + 1, by omega, fun flow hflow => ?_⟩
    have := List.le_sum_of_mem (List.mem_map_of_mem (f := Flow.round) hflow)
    omega
  have hsum := sum_tally e (.two aid) f hn
  -- only the open round has not paid out
  have hopen : ∑ round ∈ Finset.range n, tally net e (.two aid) round f =
      tally net e (.two aid) (e.roundOf (.two aid)) f := by
    refine Finset.sum_eq_single_of_mem _ (Finset.mem_range.mpr hround) fun round _ hne => ?_
    rcases lt_or_gt_of_ne hne with hlt | hgt
    · exact hb.closed round (.inl hlt) (hkept round) f
    · exact hb.recorded.ahead round hgt f
  have hcurrent := hb.recorded.current (hkept _) (hr _) f
  have hrecord : (e.flows.map fun flow => if flow.boot = e.boot ∧ flow.arena = .two aid ∧ flow.field = f then
      flow.amount else 0).sum = movedIn (.two aid) new f := by
    rw [hflows, List.map_append, List.sum_append, movedIn]
    have hzero : (before.map fun flow => if flow.boot = e.boot ∧ flow.arena = .two aid ∧ flow.field = f then
        flow.amount else 0).sum = 0 := by
      refine List.sum_eq_zero (List.forall_mem_map.mpr fun flow hflow => ?_)
      exact if_neg fun h => hold flow hflow h.1
    rw [hzero, zero_add]
    congr 1
    refine List.map_congr_left fun flow hflow => ?_
    simp [hnew flow hflow]
  linarith

/-- What holds of a process from its start `e₀` on. -/
structure InProcess (s : Settings) (e₀ e : State) : Prop where
  ahead : ∀ arena, Ahead arena e
  ready : PoolReady s.pool e.ledger
  books : ∀ f, total everybody e.ledger f - moved everybody e.flows f =
    total everybody e₀.ledger f - moved everybody e₀.flows f
  grown : Grown e₀ e
  balanced : ∀ aid, Balanced s e aid

/-- What a process keeps. As long as no round of two teams has lost its prices while it was open, the sum of all
accounts and of the stakes in play in those rounds follows the rounds of many teams alone. Nothing is overdrawn, and a
round that is over and never lost its prices has paid out what it took in. -/
structure Conserves (s : Settings) (e₀ e : State) : Prop where
  total : (∀ aid round, (Arena.two aid, round) ∉ e.forgotten) → ∀ f, total everybody e.ledger f + stakesOpen s e f =
    total everybody e₀.ledger f + (teamsMoved e.flows f - teamsMoved e₀.flows f)
  nonneg : e.ledger.Nonneg
  closed : ∀ aid round, round < e.roundOf (.two aid) → (.two aid, round) ∉ e.forgotten →
    ∀ f, tally net e (.two aid) round f = 0

theorem InProcess.conserves {e₀ : State} (hp : InProcess s e₀ e) (hs : Sound s e) (hr : Rested e)
    (hfresh : ∀ flow ∈ e₀.flows, flow.boot ≠ e₀.boot) : Conserves s e₀ e where
  total := by
    intro hkept f
    obtain ⟨new, hflows, hnew⟩ := hp.grown.flows
    have hmoved : (twoArenas.map fun aid => movedIn (.two aid) new f).sum = -stakesOpen s e f := by
      rw [stakesOpen, List.sum_neg, List.map_map]
      congr 1
      refine List.map_congr_left fun aid _ => ?_
      exact movedIn_open (hp.balanced aid) hr (hkept aid) hflows (fun flow h => hp.grown.boot ▸ hfresh flow h)
        (fun flow h => (hnew flow h).trans hp.grown.boot.symm) f
    have hbooks := hp.books f
    have hteams : teamsMoved e.flows f = teamsMoved e₀.flows f + teamsMoved new f := by
      rw [hflows, teamsMoved, List.map_append, List.sum_append]
      rfl
    rw [hflows, moved_append, moved_split new, hmoved] at hbooks
    rw [hteams]
    linarith
  nonneg := hs.nonneg
  closed := fun aid round hround hkept f => (hp.balanced aid).closed round (.inl hround) hkept f

theorem Opening.balanced {e₀ : State} (h₀ : Opening s e₀) (hfresh : ∀ flow ∈ e₀.flows, flow.boot ≠ e₀.boot)
    (aid : ArenaId) : Balanced s e₀ aid := by
  have hnone : ∀ round f, tally net e₀ (.two aid) round f = 0 := fun round f =>
    List.sum_eq_zero (List.forall_mem_map.mpr fun flow hflow => if_neg fun h => hfresh flow hflow h.1)
  refine ⟨⟨fun _ _ f => ?_, fun round _ f => hnone round f⟩, fun round _ _ f => hnone round f, fun en hen => ?_⟩
  · rw [hnone, zero_add, inPlay, State.book, h₀.two aid]
    rfl
  · rw [h₀.two aid] at hen
    cases hen

/-- The house wallet plays against itself: it puts up five tokens for the bulls. -/
def fiveForBulls : EnterMsg where
  wallet := "house"
  aid := ⟨.au, .normal⟩
  side := .bull
  stake := some 5
  ref := none
  key := ⟨by decide, by decide, by decide⟩

end BullsUnicorns.Engine

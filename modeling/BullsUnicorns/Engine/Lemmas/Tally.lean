import BullsUnicorns.Engine.Lemmas.Boot

/-!
# What the record says of a round

The movements that a round has on the record, each by a weight, and the tokens that its entries hold in play.
A stake adds to both at once; nothing but a stake and a settlement adds to either.
-/

namespace BullsUnicorns.Engine

open Battle

variable {s : Settings} {e e' e₁ : State} {v : String → ℚ → ℚ} {w : String → ℚ}

/-! ## The record -/

/-- What the record of this process says of a round in a field, each movement by its weight. -/
def tally (v : String → ℚ → ℚ) (e : State) (arena : Arena) (round : ℕ) (f : Field) : ℚ :=
  (e.flows.map fun flow => if flow.boot = e.boot ∧ flow.arena = arena ∧ flow.round = round ∧ flow.field = f then
    v flow.account flow.amount else 0).sum

theorem tally_of_eq (hf : e'.flows = e.flows) (hb : e'.boot = e.boot) : tally v e' = tally v e := by
  funext arena round f
  rw [tally, tally, hf, hb]

section
variable (v) (e : State) (a : Arena) (r : ℕ) (f : Field)

theorem tally_post (arena : Arena) (round : ℕ) (id : String) (g : Field) (x : ℚ) :
    tally v (e.post arena round id g x) a r f =
      tally v e a r f + if arena = a ∧ round = r ∧ g = f then v id x else 0 := by
  have hflows : (e.post arena round id g x).flows =
      e.flows ++ [⟨e.boot, arena, round, id, (e.account id).isBot, g, x⟩] := rfl
  rw [tally, hflows, List.map_append, List.sum_append]
  congr 1
  simp [State.post]

@[simp]
theorem tally_touch (id : String) (g : Account → Account) : tally v (e.touch id g) a r f = tally v e a r f := rfl

@[simp]
theorem tally_freeze (arena : Arena) (round : ℕ) (g : Field) (q : Quotes) :
    tally v (e.freeze arena round g q) a r f = tally v e a r f := rfl

@[simp]
theorem tally_enterRound (aid : ArenaId) (owner : String) (side : Side) (stake : ℚ) :
    tally v (State.enterRound s e aid owner side stake) a r f = tally v e a r f := rfl

@[simp]
theorem tally_enterRoundN (aid : NArena) (owner : String) (team stake : ℚ) :
    tally v (State.enterRoundN s e aid owner team stake) a r f = tally v e a r f := rfl

theorem tally_bankFee (arena : Arena) (round : ℕ) (g : Field) {x : ℚ} (h : 0 < x) :
    tally v (e.bankFee arena round g x) a r f =
      tally v e a r f + if arena = a ∧ round = r ∧ g = f then v TREASURY_ID x else 0 := by
  rw [State.bankFee, if_neg (not_le.mpr h), tally_post]
  rfl

theorem tally_payReferrer (m : EnterMsg) (round : ℕ) (refBy : String) (cut : ℚ) :
    tally v (payReferrer e m round refBy cut) a r f = tally v e a r f +
      if .two m.aid = a ∧ round = r ∧ (if m.side = .bull then Field.bull else .uwu) = f then v refBy cut else 0 := by
  rw [payReferrer, tally_post]
  rfl

end

/-- The fee of a bot of many teams is on the record when the pool can take it. -/
theorem tally_returnFee (s : Settings) (e : State) (arena : Arena) (round : ℕ) (g : Field) (x : ℚ) :
    ∃ moves : List (String × ℚ), (∀ move ∈ moves, 0 < move.2) ∧ ∀ v a r f,
      tally v (e.returnFee s arena round g x) a r f = tally v e a r f +
        if arena = a ∧ round = r ∧ g = f then (moves.map fun move => v move.1 move.2).sum else 0 := by
  unfold State.returnFee
  split
  · exact ⟨[], by simp, by simp⟩
  · next hx =>
      split
      · exact ⟨[], by simp, by simp⟩
      · next target _ => exact ⟨[(target, x)], by simpa using hx, by simp [tally_post]⟩

/-! ## Stakes and payouts on the record -/

section
variable (v) (a : Arena) (r : ℕ) (f : Field)

theorem tally_deployBot (aid : ArenaId) (id : String) (side : Side) {tokens : ℚ} (usd : ℚ) (h : 0 < tokens) :
    tally v (deployBot s e aid id side tokens usd) a r f = tally v e a r f +
      if .two aid = a ∧ e.roundOf (.two aid) = r ∧ slotField aid side = f then
        v id (-tokens) + v TREASURY_ID (tokens * FEE) else 0 := by
  rw [deployBot, tally_enterRound, tally_bankFee _ _ _ _ _ _ _ _ (mul_pos h FEE_pos), tally_post, tally_touch]
  split <;> ring

/-- The fee of a player whom nobody brought goes to the treasury. -/
theorem tally_deployPlayer (m : EnterMsg) {stake : ℚ} (px : ℚ) (h : 0 < stake)
    (href : refOf (e.account m.wallet) m = "") :
    tally v (deployPlayer s e m stake px) a r f = tally v e a r f +
      if .two m.aid = a ∧ e.roundOf (.two m.aid) = r ∧ slotField m.aid m.side = f then
        v m.wallet (-stake) + v TREASURY_ID (stake * FEE) else 0 := by
  unfold deployPlayer
  extract_lets g round refBy e₁ fee refCut e₂
  have hcut : refCut = 0 := if_pos href
  have he₂ : e₂ = e₁ := if_pos href
  rw [tally_enterRound, tally_bankFee _ _ _ _ _ _ _ _ (by rw [hcut, sub_zero]; exact mul_pos h FEE_pos), he₂, hcut,
    sub_zero, tally_post, tally_touch]
  split <;> ring

/-- Who brought the player has a tenth of the fee. -/
theorem tally_deployPlayer_brought (m : EnterMsg) {stake : ℚ} (px : ℚ) (h : 0 < stake)
    (href : refOf (e.account m.wallet) m ≠ "") :
    tally v (deployPlayer s e m stake px) a r f = tally v e a r f +
      (if .two m.aid = a ∧ e.roundOf (.two m.aid) = r ∧ slotField m.aid m.side = f then
        v m.wallet (-stake) + v TREASURY_ID (stake * FEE * (9 / 10)) else 0) +
      if .two m.aid = a ∧ e.roundOf (.two m.aid) = r ∧ (if m.side = .bull then Field.bull else .uwu) = f then
        v (refOf (e.account m.wallet) m) (stake * FEE * (1 / 10)) else 0 := by
  have hfee : 0 < stake * FEE := mul_pos h FEE_pos
  unfold deployPlayer
  extract_lets g round refBy e₁ fee refCut e₂
  have hcut : refCut = stake * FEE * (1 / 10) := if_neg href
  have he₂ : e₂ = payReferrer e₁ m round refBy refCut := if_neg href
  have hrest : fee - refCut = stake * FEE * (9 / 10) := by
    rw [hcut]
    ring
  rw [tally_enterRound, tally_bankFee _ _ _ _ _ _ _ _ (by rw [hrest]; positivity), he₂, tally_payReferrer, hrest, hcut,
    tally_post, tally_touch]
  split <;> ring

theorem tally_deployPlayerN (m : EnterNMsg) {stake : ℚ} (usd : ℚ) (h : 0 < stake) :
    tally v (deployPlayerN s e m stake usd) a r f = tally v e a r f +
      if .many m.aid = a ∧ e.roundOf (.many m.aid) = r ∧ m.aid.field m.slot = f then
        v m.wallet (-stake) + v TREASURY_ID (stake * FEE) else 0 := by
  rw [deployPlayerN, tally_enterRoundN, tally_bankFee _ _ _ _ _ _ _ _ (mul_pos h FEE_pos), tally_post, tally_touch]
  split <;> ring

end

theorem tally_deployBotN (s : Settings) (e : State) (aid : NArena) (id : String) (team tokens usd : ℚ) :
    ∃ moves : List (String × ℚ), (∀ move ∈ moves, 0 < move.2) ∧ ∀ v a r f,
      tally v (deployBotN s e aid id team tokens usd) a r f = tally v e a r f +
        if .many aid = a ∧ e.roundOf (.many aid) = r ∧ aid.field team = f then
          v id (-tokens) + (moves.map fun move => v move.1 move.2).sum else 0 := by
  obtain ⟨moves, hpos, hfee⟩ := tally_returnFee s (e.post (.many aid) (e.roundOf (.many aid)) id (aid.field team)
    (-tokens)) (.many aid) (e.roundOf (.many aid)) (aid.field team) (tokens * FEE)
  refine ⟨moves, hpos, fun v a r f => ?_⟩
  rw [deployBotN, tally_enterRoundN, tally_touch, hfee, tally_post]
  split <;> ring

/-! ## What is in play -/

section
variable {E R S : Type} [DecidableEq S] {c : RunnerClass E R S}

/-- A stake adds to any sum of stakes by its own weight. -/
theorem sum_place (g : String → S → ℚ) (id : String) (slot : S) (stake : ℚ) (es : List E) :
    ((place c id slot stake es).map fun en => g (c.id en) (c.slot en) * c.stake en).sum =
      (es.map fun en => g (c.id en) (c.slot en) * c.stake en).sum + g id slot * stake := by
  induction es with
  | nil =>
      obtain ⟨hid, hslot, hstake⟩ := parts_new (c := c) id slot stake
      simp [place, hid, hslot, hstake]
  | cons en es ih =>
      by_cases hen : c.id en = id ∧ c.slot en = slot
      · obtain ⟨hid, hslot, hstake⟩ := parts_new (c := c) id slot (c.stake en + stake)
        have hplace : place c id slot stake (en :: es) = c.parts.symm (id, slot, c.stake en + stake) :: es := if_pos hen
        rw [hplace, List.map_cons, List.map_cons, List.sum_cons, List.sum_cons, hid, hslot, hstake, hen.1, hen.2]
        ring
      · have hplace : place c id slot stake (en :: es) = en :: place c id slot stake es := if_neg hen
        rw [hplace, List.map_cons, List.map_cons, List.sum_cons, List.sum_cons, ih, add_assoc]

end

/-- The tokens of a field that the entries of an arena hold, by the weights of their owners. -/
def inPlay (s : Settings) (w : String → ℚ) (e : State) (arena : Arena) (f : Field) : ℚ :=
  ((State.book s e arena).map fun entry =>
    (if entry.2.1 = f then w (walletOf entry.1) / e.roundPx (arena, e.roundOf arena, f) else 0) * entry.2.2).sum

/-- The price of an open entry is frozen, unless it was forgotten. -/
theorem book_priced (hs : Sound s e) {arena : Arena} (hkept : e.Remembers arena) {entry : String × Field × ℚ}
    (h : entry ∈ State.book s e arena) : 0 < e.roundPx (arena, e.roundOf arena, entry.2.1) := by
  cases arena with
  | two aid =>
      obtain ⟨en, hen, rfl⟩ := List.mem_map.mp h
      obtain ⟨owner, -, -, -, hpx⟩ := (hs.two aid).listed en hen
      exact hpx hkept
  | many aid =>
      obtain ⟨en, hen, rfl⟩ := List.mem_map.mp h
      obtain ⟨owner, hid, howner, -, hpx⟩ := (hs.many aid).listed en hen
      have hteam : teamOfEntry s en.id = en.team := by
        rw [show en.id = entryIdN s owner en.team from hid, teamOfEntry_entryIdN s _ howner.clean]
      dsimp only
      rw [hteam]
      exact hpx hkept

/-- The same entries at the same prices. -/
theorem inPlay_keep (hs : Sound s e) {arena : Arena} (hbook : State.book s e' arena = State.book s e arena)
    (hround : e'.roundOf arena = e.roundOf arena) (hpx : KeepsPx e e') (hkept : e'.Remembers arena) (f : Field) :
    inPlay s w e' arena f = inPlay s w e arena f := by
  have hwas := hpx.remembers hround hkept
  rw [State.Remembers, hround] at hkept
  unfold inPlay
  rw [hbook, hround]
  congr 1
  refine List.map_congr_left fun entry hentry => ?_
  split
  · next hf =>
      have hpos := book_priced hs hwas hentry
      rw [hf] at hpos
      rw [hpx.px _ _ hkept hpos]
  · rfl

theorem inPlay_still (hs : Sound s e) (h : Still e e') {arena : Arena} (hkept : e'.Remembers arena) (f : Field) :
    inPlay s w e' arena f = inPlay s w e arena f :=
  inPlay_keep hs (congrFun h.book arena) (congrFun h.roundOf arena) h.px hkept f

/-- An entry forgets nothing. -/
theorem remembers_enterRound {aid : ArenaId} {owner : String} {side : Side} {stake : ℚ} {a : Arena}
    (h : (State.enterRound s e₁ aid owner side stake).Remembers a) : e₁.Remembers a := by
  rwa [State.Remembers, (enterRound_samePhase s e₁ aid owner side stake a).2] at h

theorem remembers_enterRoundN {aid : NArena} {owner : String} {team stake : ℚ} {a : Arena}
    (h : (State.enterRoundN s e₁ aid owner team stake).Remembers a) : e₁.Remembers a := by
  rwa [State.Remembers, (enterRoundN_samePhase s e₁ aid owner team stake a).2] at h

section
variable (hs : Sound s e) (hstill : Still e e₁)
include hs hstill

theorem inPlay_enterRound {aid : ArenaId} {owner : String} {side : Side} (stake : ℚ) (hclean : '|' ∉ owner.toList)
    (hlobby : (e.two aid).state.phase = .lobby)
    (hpx : e.Remembers (.two aid) → 0 < e.roundPx (.two aid, e.roundOf (.two aid), slotField aid side)) {a : Arena}
    (hkept : e₁.Remembers a) (f : Field) :
    inPlay s w (State.enterRound s e₁ aid owner side stake) a f = inPlay s w e a f +
      if .two aid = a ∧ slotField aid side = f then w owner / e.roundPx (a, e.roundOf a, f) * stake else 0 := by
  have hround := (enterRound_samePhase s e₁ aid owner side stake a).2.trans (congrFun hstill.roundOf a)
  by_cases ha : Arena.two aid = a
  · subst ha
    have hentries : ((State.enterRound s e₁ aid owner side stake).two aid).state.entries =
        place (RoundRunner s.platform s.round aid.eco) (entryId owner side) side stake (e.two aid).state.entries := by
      simp [State.enterRound, enter, hstill.two, hlobby]
    -- the entries as they were, at the prices as they are now
    have hsame : inPlay s w e₁ (.two aid) f = inPlay s w e (.two aid) f := inPlay_still hs hstill hkept f
    rw [← hsame]
    have hsum := sum_place (c := RoundRunner s.platform s.round aid.eco) (fun id side =>
      if slotField aid side = f then w (walletOf id) / e₁.roundPx (.two aid, e.roundOf (.two aid), f) else 0)
      (entryId owner side) side stake (e.two aid).state.entries
    have hnow : inPlay s w (State.enterRound s e₁ aid owner side stake) (.two aid) f = inPlay s w e₁ (.two aid) f +
        (if slotField aid side = f then
          w (walletOf (entryId owner side)) / e₁.roundPx (.two aid, e.roundOf (.two aid), f) else 0) * stake := by
      simp only [inPlay, State.book, hentries, hround, hstill.two, hstill.roundOf, List.map_map]
      exact hsum
    rw [hnow, walletOf_entryId side hclean]
    by_cases hf : slotField aid side = f
    · subst hf
      have hpos := hpx (hstill.remembers hkept)
      rw [State.Remembers, hstill.roundOf] at hkept
      simp [hstill.px.px _ _ hkept hpos]
    · simp [hf]
  · have hbook : State.book s (State.enterRound s e₁ aid owner side stake) a = State.book s e₁ a := by
      cases a with
      | two aid' =>
          have haid : aid' ≠ aid := fun he => ha (he ▸ rfl)
          simp [State.book, State.enterRound, haid]
      | many aid' => rfl
    rw [if_neg fun h => ha h.1, add_zero, ← inPlay_still hs hstill hkept, inPlay, inPlay, hbook, hround, hstill.roundOf]
    rfl

theorem inPlay_enterRoundN {aid : NArena} {owner : String} {team : ℚ} (stake : ℚ) (hclean : '|' ∉ owner.toList)
    (hlobby : (e.many aid).state.phase = .lobby)
    (hpx : e.Remembers (.many aid) → 0 < e.roundPx (.many aid, e.roundOf (.many aid), aid.field team)) {a : Arena}
    (hkept : e₁.Remembers a) (f : Field) :
    inPlay s w (State.enterRoundN s e₁ aid owner team stake) a f = inPlay s w e a f +
      if .many aid = a ∧ aid.field team = f then w owner / e.roundPx (a, e.roundOf a, f) * stake else 0 := by
  have hround := (enterRoundN_samePhase s e₁ aid owner team stake a).2.trans (congrFun hstill.roundOf a)
  by_cases ha : Arena.many aid = a
  · subst ha
    have hentries : ((State.enterRoundN s e₁ aid owner team stake).many aid).state.entries =
        place (RoundRunnerN s.platform s.round aid.eco aid.teams) (entryIdN s owner team) team stake
          (e.many aid).state.entries := by
      simp [State.enterRoundN, enter, hstill.many, hlobby]
    have hsame : inPlay s w e₁ (.many aid) f = inPlay s w e (.many aid) f := inPlay_still hs hstill hkept f
    rw [← hsame]
    have hsum := sum_place (c := RoundRunnerN s.platform s.round aid.eco aid.teams) (fun id _ =>
      if aid.field (teamOfEntry s id) = f then
        w (walletOf id) / e₁.roundPx (.many aid, e.roundOf (.many aid), f) else 0)
      (entryIdN s owner team) team stake (e.many aid).state.entries
    have hnow : inPlay s w (State.enterRoundN s e₁ aid owner team stake) (.many aid) f = inPlay s w e₁ (.many aid) f +
        (if aid.field (teamOfEntry s (entryIdN s owner team)) = f then
          w (walletOf (entryIdN s owner team)) / e₁.roundPx (.many aid, e.roundOf (.many aid), f) else 0) * stake := by
      simp only [inPlay, State.book, hentries, hround, hstill.many, hstill.roundOf, List.map_map]
      exact hsum
    rw [hnow, walletOf_entryIdN s team hclean, teamOfEntry_entryIdN s team hclean]
    by_cases hf : aid.field team = f
    · subst hf
      have hpos := hpx (hstill.remembers hkept)
      rw [State.Remembers, hstill.roundOf] at hkept
      simp [hstill.px.px _ _ hkept hpos]
    · simp [hf]
  · have hbook : State.book s (State.enterRoundN s e₁ aid owner team stake) a = State.book s e₁ a := by
      cases a with
      | two aid' => rfl
      | many aid' =>
          have haid : aid' ≠ aid := fun he => ha (he ▸ rfl)
          simp [State.book, State.enterRoundN, haid]
    rw [if_neg fun h => ha h.1, add_zero, ← inPlay_still hs hstill hkept, inPlay, inPlay, hbook, hround, hstill.roundOf]
    rfl

end

/-! ## What a settlement puts on the record -/

section
variable (v) (a : Arena) (r : ℕ) (f : Field)

theorem tally_payFighter_other (q : Quotes) {aid : ArenaId} {round : ℕ} (pay : String × Battle.Payout)
    (h : ¬(.two aid = a ∧ round = r)) : tally v (payFighter q aid round e pay) a r f = tally v e a r f := by
  unfold payFighter
  extract_lets id fA fB e₁ retA retB ret e₂ e₃
  split
  · rfl
  · have hpaid : tally v e₂ a r f = tally v e a r f := by
      simp only [e₂, e₁, tally_post, tally_freeze]
      rw [if_neg fun hk => h ⟨hk.1, hk.2.1⟩, if_neg fun hk => h ⟨hk.1, hk.2.1⟩, add_zero, add_zero]
    exact hpaid

theorem tally_payFighterN_other (q : Quotes) {aid : NArena} {round : ℕ} (pay : String × ℚ)
    (h : ¬(.many aid = a ∧ round = r)) : tally v (payFighterN s q aid round e pay) a r f = tally v e a r f := by
  unfold payFighterN
  extract_lets id g e₁ ret usd e₂
  split
  · rfl
  · have hpaid : tally v e₂ a r f = tally v e a r f := by
      simp only [e₂, e₁, tally_touch, tally_post, tally_freeze]
      rw [if_neg fun hk => h ⟨hk.1, hk.2.1⟩, add_zero]
    exact hpaid

theorem tally_foldl {α : Type} {pay : State → α → State} {l : List α}
    (h : ∀ e, ∀ x ∈ l, tally v (pay e x) a r f = tally v e a r f) (e : State) :
    tally v (l.foldl pay e) a r f = tally v e a r f := by
  induction l generalizing e with
  | nil => rfl
  | cons x l ih =>
      rw [List.foldl_cons, ih (fun e y hy => h e y (List.mem_cons_of_mem x hy)), h e x List.mem_cons_self]

end

/-! ## Acts -/

/-- The fee of a stake: shares of it, and in an arena of two teams the whole of it. -/
structure FeeOf (arena : Arena) (x : ℚ) (moves : List (String × ℚ)) : Prop where
  pos : ∀ move ∈ moves, 0 < move.2
  whole : ∀ aid, arena = .two aid → (moves.map Prod.snd).sum = x * FEE

/-- By these weights a stake of an arena takes from the record what it brings into play. -/
def Weighs (v : String → ℚ → ℚ) (w : String → ℚ) (arena : Arena) : Prop :=
  ∀ id x moves, 0 < x → FeeOf arena x moves →
    v id (-x) + (moves.map fun move => v move.1 move.2).sum + w id * (x * (1 - FEE)) = 0

/-- The share of the referrer is in the token of the stake, or no credit counts. -/
def InKind (v : String → ℚ → ℚ) (e : State) (m : EnterMsg) : Prop :=
  refOf (e.account m.wallet) m = "" ∨ (if m.side = .bull then Field.bull else .uwu) = slotField m.aid m.side ∨
    ∀ id x, 0 < x → v id x = 0

/-- The record of the round of an arena agrees with what is in play, unless its prices were forgotten, and the rounds
to come are not on it. -/
structure Recorded (s : Settings) (v : String → ℚ → ℚ) (w : String → ℚ) (e : State) (arena : Arena) : Prop where
  current : e.Remembers arena → e.phaseOf arena ≠ .settle →
    ∀ f, tally v e arena (e.roundOf arena) f + inPlay s w e arena f = 0
  ahead : ∀ round, e.roundOf arena < round → ∀ f, tally v e arena round f = 0

section
variable {k : Kind} {arena : Arena}

theorem makeBot_flows (s : Settings) (e : State) (q : Quotes) (a : Account) (f : Field) (want spread : ℚ) :
    (makeBot s e q a f want spread).1.flows = e.flows := by
  obtain ⟨l, got, -, he | ⟨-, he⟩⟩ := makeBot_cases s e q a f want spread
  · rw [he]
  · rw [he]

theorem Act.record_aside (h : Act s k e e') (hk : k.Aside) : e'.flows = e.flows ∧ e'.boot = e.boot := by
  refine ⟨?_, (h.still hk).boot⟩
  cases h with
  | quiet h => exact h.flows
  | touch e id hg => rfl
  | join e side _ => rfl
  | topUp f amount _ =>
      unfold Engine.topUp
      rcases drawBank s.pool e.ledger f amount 1 with ⟨l, drawn⟩
      dsimp only
      split <;> rfl
  | skim q f _ _ _ _ =>
      unfold levelField
      extract_lets px usd skimTok
      split
      · rfl
      split <;> rfl
  | newBot e q aid side d => exact makeBot_flows s { e with seq := e.seq + 1 } q _ _ _ _
  | newBotN e q aid d => exact makeBot_flows s { e with seq := e.seq + 1 } q _ _ _ _
  | retire _ _ _ => rfl
  | _ => exact hk.elim

/-- What leaves the round of an arena and its record alone. -/
theorem Recorded.keep (h : Recorded s v w e arena) (hphase : e'.phaseOf arena = e.phaseOf arena)
    (hround : e'.roundOf arena = e.roundOf arena) (hpx : KeepsPx e e')
    (htally : ∀ r f, tally v e' arena r f = tally v e arena r f)
    (hplay : e'.Remembers arena → ∀ f, inPlay s w e' arena f = inPlay s w e arena f) : Recorded s v w e' arena where
  current := by
    intro hkept hopen f
    rw [hround, htally, hplay hkept]
    exact h.current (hpx.remembers hround hkept) (hphase ▸ hopen) f
  ahead := by
    intro r hr f
    rw [htally]
    exact h.ahead r (hround ▸ hr) f

/-- A stake of this arena or of another. -/
theorem Recorded.stake {a : Arena} {g : Field} {x usd : ℚ} (owner : String) (moves : List (String × ℚ))
    (h : Recorded s v w e arena) (hw : Weighs v w arena) (hsame : SamePhase e e') (hpx : KeepsPx e e') (hx : 0 < x)
    (husd : 0 < usd) (hprice : e.Remembers a → usd = x * e.roundPx (a, e.roundOf a, g))
    (hfee : FeeOf a x moves) (htally : ∀ r f, tally v e' arena r f = tally v e arena r f +
      if a = arena ∧ e.roundOf a = r ∧ g = f then v owner (-x) + (moves.map fun move => v move.1 move.2).sum else 0)
    (hplay : e'.Remembers arena → ∀ f, inPlay s w e' arena f = inPlay s w e arena f +
      if a = arena ∧ g = f then w owner / e.roundPx (arena, e.roundOf arena, f) * (usd * (1 - FEE)) else 0) :
    Recorded s v w e' arena where
  current := by
    intro hkept hopen f
    have hwas := hpx.remembers (hsame arena).2 hkept
    have hnow := h.current hwas ((hsame arena).1 ▸ hopen) f
    rw [(hsame arena).2, htally, hplay hkept]
    by_cases hf : a = arena ∧ g = f
    · obtain ⟨rfl, rfl⟩ := hf
      have hin := hw owner x moves hx hfee
      have hpos : 0 < e.roundPx (a, e.roundOf a, g) := pos_of_mul_pos_right (hprice hwas ▸ husd) hx.le
      have hvalue : w owner / e.roundPx (a, e.roundOf a, g) * (usd * (1 - FEE)) = w owner * (x * (1 - FEE)) := by
        rw [hprice hwas]
        field_simp
      rw [if_pos ⟨rfl, rfl, rfl⟩, if_pos ⟨rfl, rfl⟩, hvalue]
      linarith
    · rw [if_neg fun hk => hf ⟨hk.1, hk.2.2⟩, if_neg hf]
      linarith
  ahead := by
    intro r hr f
    rw [(hsame arena).2] at hr
    rw [htally, if_neg, add_zero]
    · exact h.ahead r hr f
    · rintro ⟨rfl, rfl, -⟩
      exact lt_irrefl _ hr

/-- A runner of another arena changes. -/
theorem book_two {aid : ArenaId} {r : Runner Entry RoundResult} (htwo : e'.two = Function.update e.two aid r)
    (hmany : e'.many = e.many) (h : arena ≠ .two aid) : State.book s e' arena = State.book s e arena := by
  cases arena with
  | two aid' =>
      have haid : aid' ≠ aid := fun he => h (he ▸ rfl)
      simp [State.book, htwo, haid]
  | many aid' => simp [State.book, hmany]

theorem book_many {aid : NArena} {r : Runner EntryN ResultN} (htwo : e'.two = e.two)
    (hmany : e'.many = Function.update e.many aid r) (h : arena ≠ .many aid) :
    State.book s e' arena = State.book s e arena := by
  cases arena with
  | two aid' => simp [State.book, htwo]
  | many aid' =>
      have haid : aid' ≠ aid := fun he => h (he ▸ rfl)
      simp [State.book, hmany, haid]

/-- A turn of one runner, which keeps the round and the entries as long as it does not begin to settle. -/
theorem Recorded.turned {a : Arena} (h : Recorded s v w e arena) (hround : e'.roundOf = e.roundOf)
    (hpx : KeepsPx e e') (hother : arena ≠ a → e'.phaseOf arena = e.phaseOf arena ∧
      (e'.Remembers arena → ∀ f, inPlay s w e' arena f = inPlay s w e arena f))
    (hself : arena = a → e'.phaseOf arena ≠ .settle → e.phaseOf arena ≠ .settle ∧
      (e'.Remembers arena → ∀ f, inPlay s w e' arena f = inPlay s w e arena f))
    (htally : ∀ r f, ¬(arena = a ∧ r = e.roundOf a ∧ e'.phaseOf a = .settle) →
      tally v e' arena r f = tally v e arena r f) :
    Recorded s v w e' arena where
  current := by
    intro hkept hopen f
    have hwas := hpx.remembers (congrFun hround arena) hkept
    rw [hround]
    by_cases ha : arena = a
    · obtain ⟨hphase, hplay⟩ := hself ha hopen
      rw [hplay hkept, htally _ _ (fun hk => hopen (ha ▸ hk.2.2))]
      exact h.current hwas hphase f
    · obtain ⟨hphase, hplay⟩ := hother ha
      rw [hplay hkept, htally _ _ (fun hk => ha hk.1)]
      exact h.current hwas (hphase ▸ hopen) f
  ahead := by
    intro r hr f
    rw [hround] at hr
    rw [htally _ _ (fun hk => by rw [← hk.1] at hk; exact absurd hk.2.1 hr.ne')]
    exact h.ahead r hr f

theorem feeOf_treasury (a : Arena) {x : ℚ} (h : 0 < x) : FeeOf a x [(TREASURY_ID, x * FEE)] := by
  refine ⟨?_, by simp⟩
  simpa using mul_pos h FEE_pos

/-- Every act keeps the record of an arena and its entries together, when the shares of referrers are in kind. -/
theorem Act.recorded (h : Act s k e e') (hs : Sound s e) (hw : Weighs v w arena)
    (hkind : ∀ m, k = .player m → .two m.aid = arena → InKind v e m) (hrec : Recorded s v w e arena) : Recorded s v w e' arena := by
  have hsame := h.samePhase
  have hpx := (h.turns hs).px
  have haside : k.Aside → Recorded s v w e' arena := by
    intro hk
    have hstill := h.still hk
    obtain ⟨hflows, hboot⟩ := h.record_aside hk
    refine hrec.keep (hstill.samePhase arena).1 (hstill.samePhase arena).2 hpx (fun r f => ?_) fun hkept f => ?_
    · rw [tally_of_eq hflows hboot]
    · exact inPlay_still hs hstill hkept f
  cases h with
  | quiet h => exact haside trivial
  | touch e id hg => exact haside trivial
  | join e side _ => exact haside trivial
  | topUp f amount _ => exact haside trivial
  | skim q f _ _ _ _ => exact haside trivial
  | newBot e q aid side d => exact haside trivial
  | newBotN e q aid d => exact haside trivial
  | retire _ _ _ => exact haside trivial
  | @stakeBot e aid id side tokens usd halive hlobby _ husd h0 _ hprice =>
      obtain ⟨e₁, hstill, he⟩ := deployBot_still s e aid id side tokens usd
      refine Recorded.stake id _ hrec hw (hsame (by simp)) hpx h0 husd hprice (feeOf_treasury (.two aid) h0)
        (fun r f => ?_) fun hkept f => ?_
      · rw [tally_deployBot v arena r f aid id side _ h0]
        simp
      · rw [he] at hkept
        rw [he]
        exact inPlay_enterRound hs hstill _ (halive.owner hs).clean hlobby
          (fun hwas => pos_of_mul_pos_right (hprice hwas ▸ husd) h0.le) (remembers_enterRound hkept) f
  | @stakeBotN e aid id team tokens usd halive _ hlobby husd h0 _ hprice =>
      obtain ⟨e₁, hstill, he⟩ := deployBotN_still s e aid id team tokens usd
      obtain ⟨moves, hpos, htally⟩ := tally_deployBotN s e aid id team tokens usd
      refine Recorded.stake id moves hrec hw (hsame (by simp)) hpx h0 husd hprice
        ⟨hpos, fun _ ha => by cases ha⟩ (fun r f => htally v arena r f) fun hkept f => ?_
      rw [he] at hkept
      rw [he]
      exact inPlay_enterRoundN hs hstill _ (halive.owner hs).clean hlobby
        (fun hwas => pos_of_mul_pos_right (hprice hwas ▸ husd) h0.le) (remembers_enterRoundN hkept) f
  | @stakePlayer e m stake px _ hlobby hpos h0 _ hprice =>
      obtain ⟨e₁, hstill, he⟩ := deployPlayer_still s e m stake px
      have husd : 0 < stake * px := mul_pos h0 hpos
      have hplay : (deployPlayer s e m stake px).Remembers arena →
          ∀ f, inPlay s w (deployPlayer s e m stake px) arena f = inPlay s w e arena f +
            if .two m.aid = arena ∧ slotField m.aid m.side = f then
              w m.wallet / e.roundPx (arena, e.roundOf arena, f) * (stake * px * (1 - FEE)) else 0 := by
        intro hkept f
        rw [he] at hkept
        rw [he]
        exact inPlay_enterRound hs hstill _ (Owner.clean (.inl m.key : Owner (.two m.aid) m.wallet)) hlobby
          (fun _ => hprice ▸ hpos) (remembers_enterRound hkept) f
      by_cases href : refOf (e.account m.wallet) m = ""
      · refine Recorded.stake m.wallet _ hrec hw (hsame (by simp)) hpx h0 husd (fun _ => by rw [hprice])
          (feeOf_treasury (.two m.aid) h0) (fun r f => ?_) hplay
        rw [tally_deployPlayer v arena r f m _ h0 href]
        simp
      · have hfee : 0 < stake * FEE := mul_pos h0 FEE_pos
        refine Recorded.stake m.wallet
          [(TREASURY_ID, stake * FEE * (9 / 10)), (refOf (e.account m.wallet) m, stake * FEE * (1 / 10))] hrec hw
          (hsame (by simp)) hpx h0 husd (fun _ => by rw [hprice]) ⟨?_, fun _ _ => ?_⟩ (fun r f => ?_) hplay
        · intro move hmove
          simp only [List.mem_cons, List.not_mem_nil, or_false] at hmove
          rcases hmove with rfl | rfl <;> dsimp only <;> positivity
        · simp only [List.map_cons, List.map_nil, List.sum_cons, List.sum_nil]
          ring
        · rw [tally_deployPlayer_brought v arena r f m _ h0 href]
          have hcut : (if .two m.aid = arena ∧ e.roundOf (.two m.aid) = r ∧
              (if m.side = .bull then Field.bull else .uwu) = f then
                v (refOf (e.account m.wallet) m) (stake * FEE * (1 / 10)) else 0) =
              if .two m.aid = arena ∧ e.roundOf (.two m.aid) = r ∧ slotField m.aid m.side = f then
                v (refOf (e.account m.wallet) m) (stake * FEE * (1 / 10)) else 0 := by
            by_cases harena : .two m.aid = arena
            · rcases hkind m rfl harena with hnone | hcoin | hzero
              · exact absurd hnone href
              · rw [hcoin]
              · rw [hzero _ _ (by positivity), ite_self, ite_self]
            · rw [if_neg fun hk => harena hk.1, if_neg fun hk => harena hk.1]
          rw [hcut]
          simp only [List.map_cons, List.map_nil, List.sum_cons, List.sum_nil, add_zero]
          split <;> ring
  | @stakePlayerN e m stake usd _ hlobby husd h0 _ hprice =>
      obtain ⟨e₁, hstill, he⟩ := deployPlayerN_still s e m stake usd
      refine Recorded.stake m.wallet _ hrec hw (hsame (by simp)) hpx h0 husd (fun _ => hprice)
        (feeOf_treasury (.many m.aid) h0) (fun r f => ?_) fun hkept f => ?_
      · rw [tally_deployPlayerN v arena r f m _ h0]
        simp
      · rw [he] at hkept
        rw [he]
        exact inPlay_enterRoundN hs hstill _ (Owner.clean (.inl m.key : Owner (.many m.aid) m.wallet)) hlobby
          (fun _ => pos_of_mul_pos_right (hprice ▸ husd) h0.le) (remembers_enterRoundN hkept) f
  | @fight e aid r hf =>
      have hround := roundOf_kept (e := e) hf.round
      refine hrec.turned hround hpx (a := .two aid) (fun ha => ?_) (fun ha _ => ?_) fun _ _ _ => rfl
      · exact ⟨Eq.trans (phaseOf_two (e := e) (by rfl) (by rfl) arena) (if_neg ha),
          inPlay_keep hs (book_two (by rfl) (by rfl) ha) (congrFun hround arena) hpx⟩
      · subst ha
        refine ⟨by simp [State.phaseOf, hf.lobby], inPlay_keep hs ?_ (congrFun hround _) hpx⟩
        simp [State.book, hf.entries]
  | @fightN e aid r hf =>
      have hround := roundOf_keptN (e := e) hf.round
      refine hrec.turned hround hpx (a := .many aid) (fun ha => ?_) (fun ha _ => ?_) fun _ _ _ => rfl
      · exact ⟨Eq.trans (phaseOf_many (e := e) (by rfl) (by rfl) arena) (if_neg ha),
          inPlay_keep hs (book_many (by rfl) (by rfl) ha) (congrFun hround arena) hpx⟩
      · subst ha
        refine ⟨by simp [State.phaseOf, hf.lobby], inPlay_keep hs ?_ (congrFun hround _) hpx⟩
        simp [State.book, hf.entries]
  | @settle e q aid r hphase hr =>
      have hstill := settleRound_still q aid r e
      have hround : (settleRound q aid r e).roundOf = e.roundOf := hstill.roundOf.trans (roundOf_kept (e := e) rfl)
      have hself : (settleRound q aid r e).phaseOf (.two aid) = .settle := by
        simp [State.phaseOf, settleRound_two, settling]
      refine hrec.turned hround hpx (a := .two aid) (fun ha => ?_) (fun ha hopen => ?_) fun r' f hother => ?_
      · exact ⟨(phaseOf_two (e := e) hstill.two hstill.many arena).trans (if_neg ha),
          inPlay_keep hs (book_two (e := e) hstill.two hstill.many ha) (congrFun hround arena) hpx⟩
      · exact absurd (ha ▸ hself) hopen
      · refine tally_foldl v arena r' f (fun e' pay _ => tally_payFighter_other v arena r' f q pay fun hk => ?_) _
        exact hother ⟨hk.1.symm, hk.2.symm, hself⟩
  | @settleN e q aid r hphase hr =>
      have hstill := settleRoundN_still s q aid r e
      have hround : (settleRoundN s q aid r e).roundOf = e.roundOf := hstill.roundOf.trans (roundOf_keptN (e := e) rfl)
      have hself : (settleRoundN s q aid r e).phaseOf (.many aid) = .settle := by
        simp [State.phaseOf, settleRoundN_many, settling]
      refine hrec.turned hround hpx (a := .many aid) (fun ha => ?_) (fun ha hopen => ?_) fun r' f hother => ?_
      · exact ⟨(phaseOf_many (e := e) hstill.two hstill.many arena).trans (if_neg ha),
          inPlay_keep hs (book_many (e := e) hstill.two hstill.many ha) (congrFun hround arena) hpx⟩
      · exact absurd (ha ▸ hself) hopen
      · refine tally_foldl v arena r' f (fun e' pay _ => tally_payFighterN_other v arena r' f q pay fun hk => ?_) _
        exact hother ⟨hk.1.symm, hk.2.symm, hself⟩
  | @reopen e aid d hphase =>
      by_cases ha : arena = .two aid
      · subst ha
        have hnext : (Engine.reopen s aid d e).roundOf (.two aid) = e.roundOf (.two aid) + 1 := by
          simp [State.roundOf, Engine.reopen, freshLobby]
        refine ⟨fun _ _ f => ?_, fun r' hr f => hrec.ahead r' (by omega) f⟩
        have hempty : inPlay s w (Engine.reopen s aid d e) (.two aid) f = 0 := by
          simp [inPlay, State.book, Engine.reopen, freshLobby]
        rw [hempty, hnext, add_zero]
        exact hrec.ahead _ (Nat.lt_succ_self _) f
      · have hround : (Engine.reopen s aid d e).roundOf arena = e.roundOf arena := by
          cases arena with
          | two aid' =>
              have haid : aid' ≠ aid := fun he => ha (he ▸ rfl)
              simp [State.roundOf, Engine.reopen, haid]
          | many aid' => rfl
        exact hrec.keep (Eq.trans (phaseOf_two (e := e) (by rfl) (by rfl) arena) (if_neg ha)) hround hpx
          (fun _ _ => rfl) (inPlay_keep hs (book_two (by rfl) (by rfl) ha) hround hpx)
  | @reopenN e aid d hphase =>
      by_cases ha : arena = .many aid
      · subst ha
        have hnext : (Engine.reopenN s aid d e).roundOf (.many aid) = e.roundOf (.many aid) + 1 := by
          simp [State.roundOf, Engine.reopenN, freshLobby]
        refine ⟨fun _ _ f => ?_, fun r' hr f => hrec.ahead r' (by omega) f⟩
        have hempty : inPlay s w (Engine.reopenN s aid d e) (.many aid) f = 0 := by
          simp [inPlay, State.book, Engine.reopenN, freshLobby]
        rw [hempty, hnext, add_zero]
        exact hrec.ahead _ (Nat.lt_succ_self _) f
      · have hround : (Engine.reopenN s aid d e).roundOf arena = e.roundOf arena := by
          cases arena with
          | two aid' => rfl
          | many aid' =>
              have haid : aid' ≠ aid := fun he => ha (he ▸ rfl)
              simp [State.roundOf, Engine.reopenN, haid]
        exact hrec.keep (Eq.trans (phaseOf_many (e := e) (by rfl) (by rfl) arena) (if_neg ha)) hround hpx
          (fun _ _ => rfl) (inPlay_keep hs (book_many (by rfl) (by rfl) ha) hround hpx)

/-! ## Rounds that are over -/

/-- A round of the arena that is settled, or being settled. -/
def Past (e : State) (arena : Arena) (round : ℕ) : Prop :=
  round < e.roundOf arena ∨ round = e.roundOf arena ∧ e.phaseOf arena = .settle

theorem Past.apart {a : Arena} {r : ℕ} (h : Past e arena r) (hphase : e.phaseOf a ≠ .settle) :
    ¬(a = arena ∧ e.roundOf a = r) := by
  rintro ⟨rfl, rfl⟩
  rcases h with h | ⟨-, hsettle⟩
  · exact lt_irrefl _ h
  · exact hphase hsettle

/-- Nothing is added to the record of a round that is over. -/
theorem Act.tally_past (h : Act s k e e') {r : ℕ} (hpast : Past e arena r) (v : String → ℚ → ℚ) (f : Field) :
    tally v e' arena r f = tally v e arena r f := by
  have haside : k.Aside → tally v e' arena r f = tally v e arena r f := by
    intro hk
    obtain ⟨hflows, hboot⟩ := h.record_aside hk
    rw [tally_of_eq hflows hboot]
  have hlobby : ∀ a, e.phaseOf a = .lobby → ¬(a = arena ∧ e.roundOf a = r) := fun a ha => hpast.apart (by simp [ha])
  cases h with
  | quiet h => exact haside trivial
  | touch e id hg => exact haside trivial
  | join e side _ => exact haside trivial
  | topUp f' amount _ => exact haside trivial
  | skim q f' _ _ _ _ => exact haside trivial
  | newBot e q aid side d => exact haside trivial
  | newBotN e q aid d => exact haside trivial
  | retire _ _ _ => exact haside trivial
  | @stakeBot e aid _ _ _ _ _ hphase _ _ h0 _ _ =>
      rw [tally_deployBot v arena r f _ _ _ _ h0, if_neg fun hk => hlobby (.two aid) hphase ⟨hk.1, hk.2.1⟩, add_zero]
  | @stakeBotN e aid _ _ _ _ _ _ hphase _ h0 _ _ =>
      obtain ⟨moves, -, htally⟩ := tally_deployBotN s e _ _ _ _ _
      rw [htally, if_neg fun hk => hlobby (.many aid) hphase ⟨hk.1, hk.2.1⟩, add_zero]
  | @stakePlayer e m stake px _ hphase _ h0 _ _ =>
      have hnot := hlobby (.two m.aid) hphase
      by_cases href : refOf (e.account m.wallet) m = ""
      · rw [tally_deployPlayer v arena r f m _ h0 href, if_neg fun hk => hnot ⟨hk.1, hk.2.1⟩, add_zero]
      · rw [tally_deployPlayer_brought v arena r f m _ h0 href, if_neg fun hk => hnot ⟨hk.1, hk.2.1⟩,
          if_neg fun hk => hnot ⟨hk.1, hk.2.1⟩, add_zero, add_zero]
  | @stakePlayerN e m _ _ _ hphase _ h0 _ _ =>
      rw [tally_deployPlayerN v arena r f _ _ h0, if_neg fun hk => hlobby (.many m.aid) hphase ⟨hk.1, hk.2.1⟩, add_zero]
  | fight _ => rfl
  | fightN _ => rfl
  | @settle e q aid result hphase _ =>
      refine tally_foldl v arena r f (fun e' pay _ => tally_payFighter_other v arena r f q pay fun hk => ?_) _
      exact hpast.apart (a := .two aid) (by simp [State.phaseOf, hphase]) hk
  | @settleN e q aid result hphase _ =>
      refine tally_foldl v arena r f (fun e' pay _ => tally_payFighterN_other v arena r f q pay fun hk => ?_) _
      exact hpast.apart (a := .many aid) (by simp [State.phaseOf, hphase]) hk
  | reopen d _ => rfl
  | reopenN d _ => rfl

end

end BullsUnicorns.Engine

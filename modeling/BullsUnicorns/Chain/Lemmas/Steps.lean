import BullsUnicorns.Chain.Instructions
import BullsUnicorns.Chain.Lemmas.Fight

/-!
# What an accepted call does

`Effect` lists, once, everything a call that succeeds has checked and written. Every invariant of a
round is a case analysis on it.
-/

namespace BullsUnicorns.Chain

open Word Replay

/-! ## Catching up -/

/-- The round after `k` more steps of its fight. -/
def RoundState.advanced (sha256 : List UInt8 → Bytes32) (r : RoundState) (k : ℕ) : RoundState :=
  { r with
    fighters := iterFrom (exchange sha256 r.seed r.fighterCount) r.tickCount k r.fighters
    tickCount := r.tickCount + k }

/-- How many steps a call with this limit runs at `now`. -/
def RoundState.backlog (r : RoundState) (now : ℤ) (limit : ℕ) : ℕ :=
  if r.fighterCount < 2 then 0
  else min (canonicalCursor r.fightStartedAt r.fighterCount now - r.tickCount) limit

theorem canonicalCursor_lt (start now : ℤ) (n : ℕ) : canonicalCursor start n now < 2 ^ 64 := by
  unfold canonicalCursor satMul maxVal
  omega

section
variable {sha256 : List UInt8 → Bytes32} {r r' : RoundState}

@[simp]
theorem advanced_zero : r.advanced sha256 0 = r := rfl

theorem catchUp_eq (now : ℤ) (limit : ℕ) :
    catchUp sha256 r now limit = (r.advanced sha256 (r.backlog now limit), r.backlog now limit) := by
  have hlt := canonicalCursor_lt r.fightStartedAt now r.fighterCount
  unfold catchUp RoundState.backlog
  by_cases hn : r.fighterCount < 2
  · simp only [if_pos hn, advanced_zero]
  · simp only [if_neg hn]
    split
    · rename_i h
      rw [Nat.sub_eq_zero_of_le h, Nat.zero_min, advanced_zero]
    · rw [advanceFight_eq_iterFrom (by omega) (by omega)]
      rfl

theorem isCaughtUp_iff {now : ℤ} :
    isCaughtUp r now = true ↔
      canonicalCursor r.fightStartedAt r.fighterCount now ≤ r.tickCount := by
  simp [isCaughtUp]

/-! ## The writes of the handlers -/

def Fighter.toppedUp (f : Fighter) (x : ℕ) : Fighter := { f with stake := f.stake + x, hp := f.hp + x }

def Fighter.extracted (f : Fighter) (kept : ℕ) : Fighter :=
  { f with banked := f.banked + kept, hp := 0, dead := 1 }

def Fighter.entrant (who : Pubkey) (side : UInt8) (net : ℕ) : Fighter := ⟨who, net, net, 0, side, 0⟩

structure EntryOk (r : RoundState) (now : ℤ) (side : UInt8) (stake : UInt64) : Prop where
  lobby : r.phase = .lobby
  side : side = 0 ∨ side = 1
  stake : 0 < stake
  room : r.fighterCount < maxFighters
  isOpen : now < r.lobbyClosesAt

/-- A draw before its time is the authority's, or a full lobby's. -/
def DrawOk (r : RoundState) (now : ℤ) (arena : Arena) (authority : Option Pubkey) : Prop :=
  authority = some arena.authority ∨ r.lobbyClosesAt ≤ now ∨ maxFighters ≤ r.fighterCount

structure FightOk (r : RoundState) : Prop where
  fight : r.phase = .fight
  enough : 2 ≤ r.fighterCount

variable (sha256) in
inductive Effect (r : RoundState) : RoundCall → RoundState → Option Event → Prop
  | topUp {now arena who side stake net fee} {i : Fin maxFighters} (ok : EntryOk r now side stake)
      (split : splitEntry stake.toNat arena.feeBps = (net, fee)) (live : i < r.fighterCount)
      (seat : r.fighters[i].seat = (who, side)) (pot : r.pot + net < 2 ^ 64)
      (fees : r.feesCollected + fee < 2 ^ 64) :
      Effect r (.ix now arena (.enter who side stake))
        { r with
          fighters := r.fighters.set i (r.fighters[i].toppedUp net)
          pot := r.pot + net
          feesCollected := r.feesCollected + fee }
        (some (.entered r.roundNo who side stake.toNat fee))
  | join {now arena who side stake net fee} (ok : EntryOk r now side stake)
      (split : splitEntry stake.toNat arena.feeBps = (net, fee))
      (fresh : Prefix.All (fun f => f.seat ≠ (who, side)) r.fighters r.fighterCount)
      (pot : r.pot + net < 2 ^ 64) (fees : r.feesCollected + fee < 2 ^ 64) :
      Effect r (.ix now arena (.enter who side stake))
        { r with
          fighters := r.fighters.set r.fighterCount (.entrant who side net) ok.room
          fighterCount := r.fighterCount + 1
          pot := r.pot + net
          feesCollected := r.feesCollected + fee }
        (some (.entered r.roundNo who side stake.toNat fee))
  | draw {now arena authority} (lobby : r.phase = .lobby) (permitted : DrawOk r now arena authority)
      (enough : 2 ≤ r.fighterCount) :
      Effect r (.ix now arena (.closeLobbyAndDraw authority)) { r with phase := .drawing } none
  | seed {now arena randomness} (drawing : r.phase = .drawing) :
      Effect r (.ix now arena (.callbackSeed randomness))
        { r with
          seed := randomness
          seedCommit := hashv sha256 [randomness.toList]
          phase := .fight
          fightStartedAt := now }
        (some (.seedRevealed r.roundNo randomness))
  | tick {now arena steps k} (ok : FightOk r) (ran : k = r.backlog now (min steps.toNat maxStepsPerCall)) :
      Effect r (.ix now arena (.tick steps)) (r.advanced sha256 k)
        (some (.ticked r.roundNo (r.tickCount + k) k))
  | grind {now arena k} (ok : FightOk r) (ran : k = r.backlog now maxStepsPerCall)
      (standing : fightIsOver (r.advanced sha256 k).fighters r.fighterCount = false)
      (behind : r.tickCount + k < canonicalCursor r.fightStartedAt r.fighterCount now) :
      Effect r (.ix now arena .resolve) (r.advanced sha256 k)
        (some (.ticked r.roundNo (r.tickCount + k) k))
  | settle {now arena k} (ok : FightOk r) (ran : k = r.backlog now maxStepsPerCall)
      (ended : fightIsOver (r.advanced sha256 k).fighters r.fighterCount = true ∨
        fightTimeoutSeconds ≤ elapsed r.fightStartedAt now ∧
          canonicalCursor r.fightStartedAt r.fighterCount now ≤ r.tickCount + k) :
      Effect r (.ix now arena .resolve)
        { r.advanced sha256 k with
          winner := settleSides (r.advanced sha256 k).fighters r.fighterCount
          phase := .settled }
        (some (.roundSettled r.roundNo
          (settleSides (r.advanced sha256 k).fighters r.fighterCount) r.pot))
  | extract {now arena who k kept penalty} {i : Fin maxFighters} (phase : r.phase = .fight)
      (ran : k = r.backlog now maxStepsPerCall)
      (upToDate : canonicalCursor r.fightStartedAt r.fighterCount now ≤ r.tickCount + k)
      (found : Prefix.find (fun f => f.wallet == who && f.dead == 0 && decide (f.hp > 0))
        (r.advanced sha256 k).fighters r.fighterCount = some i)
      (split : splitExtraction (r.advanced sha256 k).fighters[i].hp r.fighterCount (r.tickCount + k) =
        (kept, penalty))
      (banked : (r.advanced sha256 k).fighters[i].banked + kept < 2 ^ 64)
      (penalties : r.penaltiesCollected + penalty < 2 ^ 64) :
      Effect r (.ix now arena (.extract who))
        { r.advanced sha256 k with
          fighters := (r.advanced sha256 k).fighters.set i
            ((r.advanced sha256 k).fighters[i].extracted kept)
          penaltiesCollected := r.penaltiesCollected + penalty }
        (some (.extracted r.roundNo who (r.advanced sha256 k).fighters[i].hp penalty
          (r.tickCount + k)))
  | abandon {now arena} (lobby : r.phase = .lobby) (late : r.lobbyClosesAt ≤ now)
      (few : r.fighterCount < 2) (free : r.feesCollected = 0) :
      Effect r (.ix now arena .abandonRound) { r with phase := .abandoned }
        (some (.roundAbandoned r.roundNo r.fighterCount))
  | refund {now arena} (lobby : r.phase = .lobby) (late : r.lobbyClosesAt ≤ now)
      (one : r.fighterCount = 1) (pot : r.pot + r.feesCollected < 2 ^ 64) :
      Effect r (.ix now arena .abandonRound)
        { r with
          fighters := r.fighters.set 0 (r.fighters[0].toppedUp r.feesCollected)
          pot := r.pot + r.feesCollected
          feesCollected := 0
          phase := .abandoned }
        (some (.roundAbandoned r.roundNo r.fighterCount))
  | close {now arena} (settled : r.phase = .settled) : Effect r (.ix now arena .closeRound) r none
  | sweep {t} (terminal : r.phase.terminal) (unswept : r.isSwept = false) (conserves : r.conserves = true)
      (fees : t.feesAccrued + r.feesCollected < 2 ^ 64)
      (penalties : t.penaltiesAccrued + r.penaltiesCollected < 2 ^ 64)
      (rounds : t.roundsSwept + 1 < 2 ^ 64) :
      Effect r (.sweep t) { r with houseSwept := 1 }
        (some (.houseSwept r.roundNo r.feesCollected r.penaltiesCollected
          (t.feesAccrued + r.feesCollected) (t.penaltiesAccrued + r.penaltiesCollected)))

/-! ## Reading the handlers -/

theorem authorityCloseRequested_eq_ok {supplied : Option Pubkey} {key : Pubkey} {b : Bool} :
    authorityCloseRequested supplied key = .ok b ↔
      supplied = none ∧ b = false ∨ supplied = some key ∧ b = true := by
  cases supplied with
  | none => simp [authorityCloseRequested, eq_comm]
  | some k =>
      simp only [authorityCloseRequested]
      split <;> simp_all [eq_comm]

theorem seatEntry_cases {who side net} (h : seatEntry r who side net = .ok r') :
    (∃ i : Fin maxFighters, ∃ _ : (i : ℕ) < maxFighters, i < r.fighterCount ∧
      r.fighters[i].seat = (who, side) ∧
      r' = { r with fighters := r.fighters.set i (r.fighters[i].toppedUp net) }) ∨
    (∃ hr : r.fighterCount < maxFighters,
      Prefix.All (fun f => f.seat ≠ (who, side)) r.fighters r.fighterCount ∧
      r' = { r with
        fighters := r.fighters.set r.fighterCount (.entrant who side net)
        fighterCount := r.fighterCount + 1 }) := by
  unfold seatEntry at h
  split at h
  · rename_i i hi
    simp only [bind_eq_ok, okOr_eq_ok, checkedAdd_eq_some] at h
    obtain ⟨_, ⟨-, rfl⟩, _, ⟨-, rfl⟩, h⟩ := h
    obtain ⟨hlt, hp, -⟩ := Prefix.find_eq_some hi
    refine Or.inl ⟨i, i.isLt, hlt, ?_, (Except.ok.inj h).symm⟩
    simpa [Fighter.seat] using hp
  · rename_i hnone
    split at h
    · rename_i hr
      refine Or.inr ⟨hr, ?_, (Except.ok.inj h).symm⟩
      refine (Prefix.find_eq_none (Nat.le_of_lt hr) hnone).imp fun f hp => ?_
      simpa [Fighter.seat] using hp
    · cases h

theorem enter_effect {arena : Arena} {now who side stake e}
    (h : enter r arena now who side stake = .ok (r', e)) :
    Effect sha256 r (.ix now arena (.enter who side stake)) r' e := by
  simp only [enter, creditEntry, bind_eq_ok, require_eq_ok, okOr_eq_ok, checkedAdd_eq_some] at h
  obtain ⟨_, hl, _, hs, _, hst, _, hr, _, ho, _, ⟨r₁, hseat, _, ⟨hpot, rfl⟩, _, ⟨hfees, rfl⟩, h₁⟩, h⟩ := h
  have ok : EntryOk r now side stake := ⟨hl, hs, hst, hr, by simpa [lobbyIsOpen] using ho⟩
  cases h₁
  cases h
  rcases seatEntry_cases hseat with ⟨i, _, hi, hw, rfl⟩ | ⟨_, hf, rfl⟩
  · exact .topUp ok rfl hi hw hpot hfees
  · exact .join ok rfl hf hpot hfees

theorem closeLobbyAndDraw_effect {arena : Arena} {now authority e}
    (h : closeLobbyAndDraw r arena now authority = .ok (r', e)) :
    Effect sha256 r (.ix now arena (.closeLobbyAndDraw authority)) r' e := by
  simp only [closeLobbyAndDraw, bind_eq_ok, require_eq_ok, authorityCloseRequested_eq_ok] at h
  obtain ⟨b, hb, _, hl, _, hp, _, hn, h⟩ := h
  cases h
  refine .draw hl ?_ (by simpa [enoughToFight] using hn)
  rcases hb with ⟨-, rfl⟩ | ⟨ha, -⟩
  · simp only [drawIsPermitted, lobbyMayClose, lobbyIsOpen, Bool.false_or, Bool.or_eq_true,
      Bool.not_eq_true', decide_eq_false_iff_not, decide_eq_true_eq, Int.not_lt] at hp
    exact Or.inr hp
  · exact Or.inl ha

theorem callbackSeed_effect {arena : Arena} {now randomness e}
    (h : callbackSeed sha256 r now randomness = .ok (r', e)) :
    Effect sha256 r (.ix now arena (.callbackSeed randomness)) r' e := by
  simp only [callbackSeed, bind_eq_ok, require_eq_ok] at h
  obtain ⟨_, hd, h⟩ := h
  cases h
  exact .seed hd

theorem tick_effect {arena : Arena} {now steps e} (h : tick sha256 r now steps = .ok (r', e)) :
    Effect sha256 r (.ix now arena (.tick steps)) r' e := by
  simp only [tick, bind_eq_ok, require_eq_ok, catchUp_eq] at h
  obtain ⟨_, _, _, hf, _, hn, h⟩ := h
  cases h
  exact .tick ⟨hf, hn⟩ rfl

theorem resolve_effect {arena : Arena} {now e} (h : resolve sha256 r now = .ok (r', e)) :
    Effect sha256 r (.ix now arena .resolve) r' e := by
  simp only [resolve, bind_eq_ok, require_eq_ok, catchUp_eq] at h
  obtain ⟨_, hf, _, hn, h⟩ := h
  split at h
  · rename_i hgo
    cases h
    refine .grind ⟨hf, hn⟩ rfl hgo.1 ?_
    have hb := hgo.2
    rw [← Bool.not_eq_true, isCaughtUp_iff] at hb
    exact Nat.lt_of_not_le hb
  · rename_i hgo
    simp only [bind_eq_ok, require_eq_ok] at h
    obtain ⟨_, hend, h⟩ := h
    cases h
    refine .settle ⟨hf, hn⟩ rfl ?_
    rcases hend with hover | hbell
    · exact Or.inl hover
    · by_cases hover : fightIsOver (r.advanced sha256 (r.backlog now maxStepsPerCall)).fighters
          r.fighterCount = true
      · exact Or.inl hover
      · have hup : isCaughtUp (r.advanced sha256 (r.backlog now maxStepsPerCall)) now = true := by
          by_contra hb
          exact hgo ⟨Bool.eq_false_of_not_eq_true hover, Bool.eq_false_of_not_eq_true hb⟩
        exact Or.inr ⟨hbell, isCaughtUp_iff.mp hup⟩

theorem extract_effect {arena : Arena} {now who e} (h : extract sha256 r now who = .ok (r', e)) :
    Effect sha256 r (.ix now arena (.extract who)) r' e := by
  simp only [extract, bind_eq_ok, require_eq_ok, catchUp_eq, okOr_eq_ok, checkedAdd_eq_some,
    isCaughtUp_iff] at h
  obtain ⟨_, hf, _, hup, i, hi, _, ⟨hb, rfl⟩, _, ⟨hp, rfl⟩, h⟩ := h
  cases h
  exact .extract hf rfl hup hi rfl hb hp

variable (sha256) in
theorem abandonRound_effect (arena : Arena) {now e} (h : abandonRound r now = .ok (r', e)) :
    Effect sha256 r (.ix now arena .abandonRound) r' e := by
  simp only [abandonRound, refundAbandonedEntry, bind_eq_ok, require_eq_ok] at h
  obtain ⟨_, hl, _, hdead, ⟨r₁, _⟩, ⟨_, hfew, h₁⟩, h⟩ := h
  have hlate : r.lobbyClosesAt ≤ now := by
    simp only [lobbyIsDead, lobbyIsOpen, Bool.and_eq_true, Bool.not_eq_true', decide_eq_false_iff_not,
      Int.not_lt] at hdead
    exact hdead.1
  have hfew' : r.fighterCount < 2 := by simpa [enoughToFight] using hfew
  cases h
  split at h₁
  · rename_i hfree
    cases h₁
    exact .abandon hl hlate hfew' hfree
  · simp only [bind_eq_ok, require_eq_ok, okOr_eq_ok, checkedAdd_eq_some] at h₁
    obtain ⟨_, hone, _, ⟨_, rfl⟩, _, ⟨_, rfl⟩, _, ⟨hpot, rfl⟩, h₁⟩ := h₁
    cases h₁
    exact .refund hl hlate hone hpot

theorem sweepRound_effect {t : Treasury} {e} (h : sweepRound r t = .ok (r', e)) :
    Effect sha256 r (.sweep t) r' e := by
  simp only [sweepRound, applySweep, bind_eq_ok, require_eq_ok, okOr_eq_ok, checkedAdd_eq_some] at h
  obtain ⟨_, ⟨_, ht, _, hs, _, hc, _, ⟨hfees, rfl⟩, _, ⟨hpen, rfl⟩, _, ⟨hrounds, rfl⟩, h₁⟩, h⟩ := h
  cases h₁
  cases h
  exact .sweep ht hs hc hfees hpen hrounds

/-- A call that is accepted has one of the listed effects. -/
theorem step_effect {c : RoundCall} {e} (h : (roundMachine sha256).step r c = .ok (r', e)) :
    Effect sha256 r c r' e := by
  cases c with
  | sweep t => exact sweepRound_effect h
  | ix now arena i =>
      cases i with
      | enter who side stake => exact enter_effect h
      | closeLobbyAndDraw authority => exact closeLobbyAndDraw_effect h
      | callbackSeed randomness => exact callbackSeed_effect h
      | tick steps => exact tick_effect h
      | extract who => exact extract_effect h
      | resolve => exact resolve_effect h
      | abandonRound => exact abandonRound_effect sha256 arena h
      | closeRound =>
          have h' : closeRound r = .ok (r', e) := h
          simp only [closeRound, bind_eq_ok, require_eq_ok] at h'
          obtain ⟨_, hset, h'⟩ := h'
          cases h'
          exact .close hset

end

end BullsUnicorns.Chain

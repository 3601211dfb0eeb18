import BullsUnicorns.Chain.Lemmas.Layout
import BullsUnicorns.Chain.Lemmas.World

/-!
# Every reader of a round account reads the same round

The program, the browser and the script with its table, on any bytes; and on the accounts of any run, whose numbers
all fit their fields.
-/

namespace BullsUnicorns.Chain

open Word Replay

/-- The program and the browser read the same round off any bytes. A round is read off the accounts that begin with its
own bytes, and the script reads it there, whatever the discriminator, unless a range does not hold. -/
theorem round_readers_agree :
    (∀ data, decodeRound data = loadRound data) ∧
    (∀ data r, loadRound data = some r ↔ ∃ rest, data = r.account ++ rest) ∧
    ∀ data v, readRound (some data) = .ok v ↔
      ∃ head, ∃ r : RoundBuffer, head.length = 8 ∧ data = head ++ r.bytes ∧ r.Aligned ∧ v = r.reading := by
  refine ⟨decodeRound_eq_loadRound, fun _ _ => loadRound_eq_some, fun data v => ?_⟩
  rw [readRound_eq_ok]
  constructor
  · rintro ⟨hlen, haligned, hv⟩
    have hlen : data.length = 3248 := hlen
    have hdrop : (data.drop 8).length = 3240 := by rw [List.length_drop]; omega
    have hbytes := RoundBuffer.bytes_view hdrop.ge
    rw [List.drop_eq_nil_of_le hdrop.le, List.append_nil] at hbytes
    refine ⟨data.take 8, _, List.length_take_of_le (by omega), ?_, haligned, hv⟩
    rw [hbytes, List.take_append_drop]
  · rintro ⟨head, r, hhead, rfl, haligned, rfl⟩
    have hview := r.view_bytes []
    rw [List.append_nil] at hview
    have hlen : (head ++ r.bytes).length = 3248 := by rw [List.length_append, hhead, r.length_bytes]
    rw [← hhead, List.drop_left, hview]
    exact ⟨hlen, haligned, rfl⟩

/-! ## The numbers of a round fit their fields -/

/-- A reading of the clock, or a time reckoned from one. -/
def IsI64 (t : ℤ) : Prop := -2 ^ 63 ≤ t ∧ t < 2 ^ 63

/-- What else a field holds, beside what the money totals bound. -/
structure Fits (r : RoundState) : Prop where
  cursor : r.tickCount < 2 ^ 64
  swept : r.houseSwept = 0 ∨ r.houseSwept = 1
  idle : ∀ i, (hi : i < maxFighters) → r.fighterCount ≤ i → r.fighters[i] = .blank
  opened : IsI64 r.lobbyOpenedAt
  closes : IsI64 r.lobbyClosesAt
  started : IsI64 r.fightStartedAt

theorem openedRound_fits {now : ℤ} (h : IsI64 now) (roundNo : ℕ) (seedCommit : Bytes32) (lobbySeconds : UInt32) :
    Fits (openedRound now roundNo seedCommit lobbySeconds) where
  cursor := by norm_num [openedRound]
  swept := Or.inl rfl
  idle i hi _ := Vector.getElem_replicate hi
  opened := h
  closes := by
    simp only [IsI64, openedRound, lobbyWindow, satAddSigned, clampSigned]
    omega
  started := by norm_num [openedRound, IsI64]

section
variable {sha256 : List UInt8 → Bytes32} {r r' : RoundState}

/-- A slot past the count takes no part in a fight. -/
theorem iterFrom_idle {seed : Bytes32} {n : ℕ} (hn : 2 ≤ n) (cursor steps : ℕ) (fs : Vector Fighter maxFighters) {i : ℕ}
    (hi : i < maxFighters) (hidle : n ≤ i) : (iterFrom (exchange sha256 seed n) cursor steps fs)[i] = fs[i] := by
  refine iterFrom_invariant (P := fun gs : Vector Fighter maxFighters => gs[i] = fs[i])
    (fun j gs h => ?_) cursor steps rfl
  rcases exchange_cases sha256 seed hn j gs with he | ⟨a, d, dmg, ha, hd, -, -, -, -, he⟩
  · rw [he, h]
  · rw [he, Vector.getElem_set_ne _ _ (by omega), Vector.getElem_set_ne _ _ (by omega), h]

theorem Fits.advanced (h : Fits r) (hn : 2 ≤ r.fighterCount) (now : ℤ) (limit : ℕ) :
    Fits (r.advanced sha256 (r.backlog now limit)) where
  cursor := by
    have hcursor := h.cursor
    have hlt := canonicalCursor_lt r.fightStartedAt now r.fighterCount
    simp only [RoundState.advanced, RoundState.backlog]
    split <;> omega
  swept := h.swept
  idle i hi hidle := (iterFrom_idle hn _ _ _ hi hidle).trans (h.idle i hi hidle)
  opened := h.opened
  closes := h.closes
  started := h.started

/-- A write to a live slot leaves those past the count. -/
theorem Fits.set (h : Fits r) {j : ℕ} (hj : j < maxFighters) (f : Fighter) (hlive : j < r.fighterCount) (i : ℕ)
    (hi : i < maxFighters) (hidle : r.fighterCount ≤ i) : (r.fighters.set j f hj)[i] = .blank := by
  rw [Vector.getElem_set_ne _ _ (by omega)]
  exact h.idle i hi hidle

theorem fits_step {c : RoundCall} {e} (hi : Inv r) (h : Fits r) (hnow : ∀ now arena i, c = .ix now arena i → IsI64 now)
    (he : Effect sha256 r c r' e) : Fits r' := by
  cases he with
  | @topUp now arena who side stake net fee i ok split live seat pot fees =>
      exact { h with idle := h.set i.isLt _ live }
  | @join now arena who side stake net fee ok split fresh pot fees =>
      refine { h with idle := fun i hi hidle => ?_ }
      have hidle : r.fighterCount + 1 ≤ i := hidle
      rw [Vector.getElem_set_ne _ _ (by omega)]
      exact h.idle i hi (by omega)
  | draw lobby permitted enough => exact { h with }
  | @seed now arena randomness drawing => exact { h with started := hnow now arena _ rfl }
  | @tick now arena steps k ok ran =>
      subst ran
      exact h.advanced ok.enough now _
  | @grind now arena k ok ran standing behind =>
      subst ran
      exact h.advanced ok.enough now _
  | @settle now arena k ok ran ended =>
      subst ran
      exact { h.advanced ok.enough now _ with }
  | @extract now arena who k kept penalty i phase ran upToDate found split banked penalties =>
      subst ran
      have ha : Fits (r.advanced sha256 (r.backlog now maxStepsPerCall)) := h.advanced (hi.fightOk phase).enough now _
      exact { ha with idle := ha.set i.isLt _ (Prefix.find_eq_some found).1 }
  | abandon lobby late few free => exact { h with }
  | refund lobby late one pot => exact { h with idle := h.set (by decide) _ (by omega) }
  | close settled => exact h
  | sweep terminal unswept conserves fees penalties rounds => exact { h with swept := Or.inr rfl }

variable {w w' : World} {c : Call} {e : Option Event}

theorem accounts_fit_step (hw : Housed sha256 w) (hfits : ∀ n a, w.rounds n = some a → Fits a.round)
    (hnow : IsI64 c.now) (h : Change sha256 w c w' e) : ∀ n a, w'.rounds n = some a → Fits a.round := by
  cases h with
  | initTreasury auth fresh => exact hfits
  | setFeeBps auth => exact hfits
  | @openRound now signer seedCommit lobbySeconds roundNo auth fresh next =>
      intro m b hb
      rcases setRound_eq_some hb with ⟨-, he⟩ | ⟨-, ho⟩
      · cases he
        exact openedRound_fits hnow _ _ _
      · exact hfits m b ho
  | @delegateRound now signer a roundNo auth found owned =>
      intro m b hb
      rcases setRound_eq_some hb with ⟨-, he⟩ | ⟨-, ho⟩
      · cases he
        exact hfits _ a found
      · exact hfits m b ho
  | @onRound now a i r e roundNo found step =>
      intro m b hb
      rcases setRound_eq_some hb with ⟨-, he⟩ | ⟨-, ho⟩
      · cases he
        refine fits_step (hw.produced _ a found).inv (hfits _ a found) ?_ (step_effect step)
        intro now' arena i' hc
        cases hc
        exact hnow
      · exact hfits m b ho
  | @sweep now a t roundNo found owned books terminal unswept step =>
      intro m b hb
      rcases setRound_eq_some hb with ⟨-, he⟩ | ⟨-, ho⟩
      · cases he
        exact { hfits _ a found with swept := Or.inr rfl }
      · exact hfits m b ho
  | @close now signer a roundNo auth found owned terminal swept old =>
      intro m b hb
      rcases setRound_eq_some hb with ⟨-, he⟩ | ⟨-, ho⟩
      · cases he
      · exact hfits m b ho

theorem accounts_fit_run (hw : Housed sha256 w) (hfits : ∀ n a, w.rounds n = some a → Fits a.round) (calls : List Call)
    (hclock : ∀ c ∈ calls, IsI64 c.now) :
    ∀ n a, ((program sha256).run w calls).rounds n = some a → Fits a.round := by
  induction calls generalizing w with
  | nil => exact hfits
  | cons c calls ih =>
      rw [Machine.run_cons]
      have hlater : ∀ c' ∈ calls, IsI64 c'.now := fun c' hc => hclock c' (List.mem_cons_of_mem c hc)
      cases hs : (program sha256).step w c with
      | error err =>
          rw [Machine.attempt_error hs]
          exact ih hw hfits hlater
      | ok x =>
          rw [Machine.attempt_ok hs]
          have hchange := step_change hs
          exact ih (housed_step hw hchange) (accounts_fit_step hw hfits (hclock c List.mem_cons_self) hchange) hlater

end

/-! ## What a run of the program publishes -/

theorem Phase.phaseOf_byte (p : Phase) : phaseOf p.byte = some p := by
  cases p <;> rfl

theorem Fighter.buffer_fighter {f : Fighter} (hs : f.stake < 2 ^ 64) (hh : f.hp < 2 ^ 64) (hb : f.banked < 2 ^ 64) :
    f.buffer.fighter = f := by
  simp only [buffer, FighterBuffer.fighter, UInt64.toNat_ofNat', Nat.mod_eq_of_lt hs, Nat.mod_eq_of_lt hh,
    Nat.mod_eq_of_lt hb]

/-- Nothing of a round is cut. -/
theorem RoundState.buffer_round {r : RoundState} (hi : Inv r) (hf : Fits r) (hno : r.roundNo < 2 ^ 64) (arena : Pubkey)
    (bump : UInt8) : (r.buffer arena bump).round r.phase = r := by
  have hring := hi.balanced.ring
  have hstakes := hi.balanced.stakes
  have hpot := hi.balanced.pot_lt
  have hcount := hi.lineup.count_le
  have hslots : (r.fighters.map Fighter.buffer).map FighterBuffer.fighter = r.fighters := by
    rw [Vector.map_map]
    ext1 i hi
    rw [Vector.getElem_map]
    rcases Nat.lt_or_ge i r.fighterCount with hlive | hidle
    · have hholds := Prefix.le_sum (f := Fighter.holds) (v := r.fighters) hcount hlive
      have hstake := Prefix.le_sum (f := Fighter.stake) (v := r.fighters) hcount hlive
      simp only [Fighter.holds] at hholds
      simp only [RoundState.held, RoundState.staked] at hring hstakes
      exact Fighter.buffer_fighter (by omega) (by omega) (by omega)
    · rw [hf.idle i hi hidle]
      rfl
  have hcount16 : r.fighterCount < 2 ^ 16 := Nat.lt_of_le_of_lt hcount (by norm_num [maxFighters])
  simp only [RoundBuffer.round, buffer, hslots, UInt64.toNat_ofNat', UInt16.toNat_ofNat', Nat.mod_eq_of_lt hno,
    Nat.mod_eq_of_lt hf.cursor, Nat.mod_eq_of_lt hpot, Nat.mod_eq_of_lt hi.balanced.fees_lt,
    Nat.mod_eq_of_lt hcount16, Nat.mod_eq_of_lt (show r.penaltiesCollected < 2 ^ 64 by omega),
    Int64.toInt_ofInt_of_le hf.opened.1 hf.opened.2, Int64.toInt_ofInt_of_le hf.closes.1 hf.closes.2,
    Int64.toInt_ofInt_of_le hf.started.1 hf.started.2]

/-- In every run of the program whose clock is an `i64`, the account of a round holds the round uncut, its slots past
the count are blank, all three readers have it, and no range by which the script tells a wrong offset refuses it. -/
theorem published_rounds_are_read (sha256 : List UInt8 → Bytes32) (authority : Pubkey) (feeBps : FeeBps)
    (calls : List Call) (hclock : ∀ c ∈ calls, IsI64 c.now) (n : ℕ) (a : RoundAccount)
    (found : ((program sha256).run (World.initial authority feeBps) calls).rounds n = some a) (arena : Pubkey)
    (bump : UInt8) :
    let r := a.round.buffer arena bump
    phaseOf r.phase = some a.round.phase ∧ r.round a.round.phase = a.round ∧ loadRound r.account = some r ∧
      decodeRound r.account = some r ∧ readRound (some r.account) = .ok r.reading ∧
      ∀ i, (hi : i < maxFighters) → a.round.fighterCount ≤ i → a.round.fighters[i] = .blank := by
  intro r
  have hw : Housed sha256 ((program sha256).run (World.initial authority feeBps) calls) :=
    Machine.run_invariant (fun _ _ _ _ hs h => housed_step hs (step_change h)) (housed_initial authority feeBps) calls
  have hfits : Fits a.round :=
    accounts_fit_run (housed_initial authority feeBps) (fun n a ha => by simp [World.initial] at ha) calls hclock
      n a found
  have hinv := (hw.produced n a found).inv
  have hno : a.round.roundNo < 2 ^ 64 := by
    have hcounter := hw.counter
    have hle := (hw.opened n a found).2
    have heq := hw.numbered n a found
    omega
  have hload : loadRound r.account = some r := loadRound_eq_some.mpr ⟨[], (List.append_nil _).symm⟩
  have hround := RoundState.buffer_round hinv hfits hno arena bump
  have haligned : r.Aligned := by
    refine ⟨hfits.swept, ⟨rfl, rfl⟩, ?_⟩
    have hcount : (r.round a.round.phase).fighterCount = a.round.fighterCount := by rw [hround]
    exact hcount.trans_le hinv.lineup.count_le
  have hview := r.view_bytes []
  rw [List.append_nil] at hview
  have hread : readRound (some r.account) = .ok r.reading := by
    have hdrop : r.account.drop 8 = r.bytes := rfl
    have hlen : r.account.length = ROUND_SIZE := by
      rw [RoundBuffer.account, List.length_append, r.length_bytes]
      rfl
    rw [readRound_eq_ok, hdrop, hview]
    exact ⟨hlen, haligned, rfl⟩
  exact ⟨a.round.phase.phaseOf_byte, hround, hload, (decodeRound_eq_loadRound _).trans hload, hread,
    hfits.idle⟩

theorem published_rounds_are_read_of_a_lobby :
    ∃ a, ((program fun _ => zeroBytes).run (World.initial zeroBytes ⟨100, by decide⟩)
        [⟨1700000000, .openRound zeroBytes 1 zeroBytes 20⟩,
          ⟨1700000005, .onRound 1 (.enter zeroBytes 1 2000)⟩]).rounds 1 = some a ∧
      readRound (some (a.round.buffer zeroBytes 255).account) = .ok (a.round.buffer zeroBytes 255).reading :=
  ⟨_, rfl, (published_rounds_are_read (fun _ => zeroBytes) zeroBytes ⟨100, by decide⟩
    [⟨1700000000, .openRound zeroBytes 1 zeroBytes 20⟩, ⟨1700000005, .onRound 1 (.enter zeroBytes 1 2000)⟩]
    (by simp [IsI64]) 1 _ rfl zeroBytes 255).2.2.2.2.1⟩

end BullsUnicorns.Chain

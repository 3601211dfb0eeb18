import BullsUnicorns.Chain.Lemmas.Frozen
import BullsUnicorns.Chain.Program

/-!
# What an accepted instruction does to the accounts

`Change` lists the writes of every instruction of the program once. The rounds behind the accounts are
runs of the round machine, so everything known of those holds of them.
-/

namespace BullsUnicorns.Chain

open Word

@[simp]
theorem arenaError_eq_ok {α : Type} {x : Except ArenaError α} {a : α} :
    arenaError x = .ok a ↔ x = .ok a := by
  cases x <;> simp [arenaError, Except.mapError]

theorem checkClosePermitted_eq_ok {r : RoundState} {counter : ℕ} {u : Unit} :
    checkClosePermitted r counter = .ok u ↔
      r.phase.terminal ∧ r.isSwept = true ∧ r.roundNo + minRetainedRounds < 2 ^ 64 ∧
        r.roundNo + minRetainedRounds ≤ counter := by
  simp only [checkClosePermitted, bind_eq_ok, require_eq_ok, exists_and_left, exists_const]
  by_cases h : r.roundNo + minRetainedRounds < 2 ^ 64
  · simp only [checkedAdd_of_lt h, Option.any_some, decide_eq_true_eq]
    tauto
  · simp only [checkedAdd_eq_none.mpr (Nat.le_of_not_lt h), Option.any_none, Bool.false_eq_true]
    tauto

theorem applySweep_eq_ok {r : RoundState} {t : Treasury} {x} :
    applySweep r t = .ok x ↔
      r.phase.terminal ∧ r.isSwept = false ∧ r.conserves = true ∧
        t.feesAccrued + r.feesCollected < 2 ^ 64 ∧
        t.penaltiesAccrued + r.penaltiesCollected < 2 ^ 64 ∧ t.roundsSwept + 1 < 2 ^ 64 ∧
        x = ({ r with houseSwept := 1 },
          ⟨t.feesAccrued + r.feesCollected, t.penaltiesAccrued + r.penaltiesCollected,
            t.roundsSwept + 1⟩, r.feesCollected, r.penaltiesCollected) := by
  simp only [applySweep, bind_eq_ok, require_eq_ok, okOr_eq_ok, checkedAdd_eq_some]
  constructor
  · rintro ⟨_, ht, _, hs, _, hc, _, ⟨hf, rfl⟩, _, ⟨hp, rfl⟩, _, ⟨hr, rfl⟩, h⟩
    exact ⟨ht, hs, hc, hf, hp, hr, (Except.ok.inj h).symm⟩
  · rintro ⟨ht, hs, hc, hf, hp, hr, rfl⟩
    exact ⟨(), ht, (), hs, (), hc, _, ⟨hf, rfl⟩, _, ⟨hp, rfl⟩, _, ⟨hr, rfl⟩, rfl⟩

section
variable (sha256 : List UInt8 → Bytes32)

/-- The instructions that succeed, and their writes. -/
inductive Change (w : World) : Call → World → Option Event → Prop
  | initTreasury {now signer} (auth : signer = w.arena.authority) (fresh : w.treasury = none) :
      Change w ⟨now, .initTreasury signer⟩ { w with treasury := some ⟨0, 0, 0⟩ } none
  | setFeeBps {now signer arg} {fee : FeeBps} (auth : signer = w.arena.authority) :
      Change w ⟨now, .setFeeBps signer arg⟩ { w with arena := { w.arena with feeBps := fee } }
        (some (.feeBpsChanged w.arena.feeBps fee))
  | openRound {now signer seedCommit lobbySeconds} {roundNo : UInt64}
      (auth : signer = w.arena.authority) (fresh : w.rounds roundNo.toNat = none)
      (next : roundNo.toNat = w.arena.roundCounter + 1) :
      Change w ⟨now, .openRound signer roundNo seedCommit lobbySeconds⟩
        { w.setRound roundNo.toNat
            (some ⟨openedRound now roundNo.toNat seedCommit lobbySeconds, false⟩) with
          arena := { w.arena with roundCounter := roundNo.toNat } }
        (some (.roundOpened roundNo.toNat seedCommit (lobbyWindow now lobbySeconds).1
          (lobbyWindow now lobbySeconds).2))
  | delegateRound {now signer a} {roundNo : UInt64} (auth : signer = w.arena.authority)
      (found : w.rounds roundNo.toNat = some a) (owned : a.delegated = false) :
      Change w ⟨now, .delegateRound signer roundNo⟩
        (w.setRound roundNo.toNat (some { a with delegated := true })) none
  | onRound {now a i r e} {roundNo : UInt64} (found : w.rounds roundNo.toNat = some a)
      (step : (roundMachine sha256).step a.round (.ix now w.arena i) = .ok (r, e)) :
      Change w ⟨now, .onRound roundNo i⟩
        (w.setRound roundNo.toNat (some ⟨r, a.delegated && !i.undelegates⟩)) e
  | sweep {now a t} {roundNo : UInt64} (found : w.rounds roundNo.toNat = some a)
      (owned : a.delegated = false) (books : w.treasury = some t)
      (terminal : a.round.phase.terminal) (unswept : a.round.isSwept = false)
      (step : (roundMachine sha256).step a.round (.sweep t) =
        .ok ({ a.round with houseSwept := 1 },
          some (.houseSwept a.round.roundNo a.round.feesCollected a.round.penaltiesCollected
            (t.feesAccrued + a.round.feesCollected)
            (t.penaltiesAccrued + a.round.penaltiesCollected)))) :
      Change w ⟨now, .sweepHouseTake roundNo⟩
        { w.setRound roundNo.toNat (some { a with round := { a.round with houseSwept := 1 } }) with
          treasury := some ⟨t.feesAccrued + a.round.feesCollected,
            t.penaltiesAccrued + a.round.penaltiesCollected, t.roundsSwept + 1⟩ }
        (some (.houseSwept a.round.roundNo a.round.feesCollected a.round.penaltiesCollected
          (t.feesAccrued + a.round.feesCollected) (t.penaltiesAccrued + a.round.penaltiesCollected)))
  | close {now signer a} {roundNo : UInt64} (auth : signer = w.arena.authority)
      (found : w.rounds roundNo.toNat = some a) (owned : a.delegated = false)
      (terminal : a.round.phase.terminal) (swept : a.round.isSwept = true)
      (old : a.round.roundNo + minRetainedRounds ≤ w.arena.roundCounter) :
      Change w ⟨now, .closeRoundAccount signer roundNo⟩ (w.setRound roundNo.toNat none)
        (some (.roundAccountClosed a.round.roundNo))

end

section
variable {sha256 : List UInt8 → Bytes32} {w w' : World} {c : Call} {e : Option Event}

theorem ownedAccount_eq_ok {n : ℕ} {a : RoundAccount} :
    w.ownedAccount n = .ok a ↔ w.rounds n = some a ∧ a.delegated = false := by
  simp only [World.ownedAccount, World.account, bind_eq_ok, okOr_eq_ok, require_eq_ok]
  constructor
  · rintro ⟨_, hf, _, ho, h⟩
    cases h
    exact ⟨hf, ho⟩
  · rintro ⟨hf, ho⟩
    exact ⟨a, hf, (), ho, rfl⟩

theorem step_change (h : (program sha256).step w c = .ok (w', e)) : Change sha256 w c w' e := by
  obtain ⟨now, ix⟩ := c
  cases ix with
  | initTreasury signer =>
      have h' : initTreasury w signer = .ok (w', e) := h
      simp only [initTreasury, World.hasOneAuthority, bind_eq_ok, require_eq_ok] at h'
      obtain ⟨_, ha, _, hf, h'⟩ := h'
      cases h'
      exact .initTreasury ha hf
  | setFeeBps signer arg =>
      have h' : setFeeBps w signer arg = .ok (w', e) := h
      simp only [setFeeBps, World.hasOneAuthority, bind_eq_ok, require_eq_ok] at h'
      obtain ⟨_, ha, _, -, h'⟩ := h'
      cases h'
      exact .setFeeBps ha
  | openRound signer roundNo seedCommit lobbySeconds =>
      have h' : openRound w now signer roundNo seedCommit lobbySeconds = .ok (w', e) := h
      simp only [openRound, World.hasOneAuthority, bind_eq_ok, require_eq_ok,
        Option.isNone_iff_eq_none] at h'
      obtain ⟨_, ha, _, hf, _, hn, h'⟩ := h'
      cases h'
      exact .openRound ha hf hn
  | delegateRound signer roundNo =>
      have h' : delegateRound w signer roundNo = .ok (w', e) := h
      simp only [delegateRound, World.hasOneAuthority, bind_eq_ok, require_eq_ok,
        ownedAccount_eq_ok] at h'
      obtain ⟨_, ha, a, ⟨hf, ho⟩, h'⟩ := h'
      cases h'
      exact .delegateRound ha hf ho
  | onRound roundNo i =>
      have h' : onRound sha256 w now roundNo i = .ok (w', e) := h
      simp only [onRound, World.account, bind_eq_ok, okOr_eq_ok, arenaError_eq_ok] at h'
      obtain ⟨a, hf, ⟨r, e'⟩, hs, h'⟩ := h'
      cases h'
      exact .onRound hf hs
  | sweepHouseTake roundNo =>
      have h' : sweepHouseTake w roundNo = .ok (w', e) := h
      simp only [sweepHouseTake, bind_eq_ok, ownedAccount_eq_ok, okOr_eq_ok, arenaError_eq_ok] at h'
      obtain ⟨a, ⟨hf, ho⟩, t, ht, x, hs, h'⟩ := h'
      have hstep : (roundMachine sha256).step a.round (.sweep t) =
          .ok (x.1, some (.houseSwept x.1.roundNo x.2.2.1 x.2.2.2 x.2.1.feesAccrued
            x.2.1.penaltiesAccrued)) := by
        show sweepRound a.round t = _
        rw [sweepRound, hs]
        rfl
      obtain ⟨hterm, hun, -, -, -, -, rfl⟩ := applySweep_eq_ok.mp hs
      cases h'
      exact .sweep hf ho ht hterm hun hstep
  | closeRoundAccount signer roundNo =>
      have h' : closeRoundAccount w signer roundNo = .ok (w', e) := h
      simp only [closeRoundAccount, World.hasOneAuthority, bind_eq_ok, require_eq_ok,
        ownedAccount_eq_ok, arenaError_eq_ok, checkClosePermitted_eq_ok] at h'
      obtain ⟨_, ha, a, ⟨hf, ho⟩, _, ⟨ht, hs, -, hold⟩, h'⟩ := h'
      cases h'
      exact .close ha hf ho ht hs hold

/-! ## The accounts hold rounds of the round machine -/

/-- A round that `open_round` and calls on it can have produced. -/
def Produced (sha256 : List UInt8 → Bytes32) (r : RoundState) : Prop :=
  ∃ opened seedCommit lobbySeconds calls,
    (roundMachine sha256).run (openedRound opened r.roundNo seedCommit lobbySeconds) calls = r

theorem Produced.inv {r : RoundState} (h : Produced sha256 r) : Inv r := by
  obtain ⟨opened, seedCommit, lobbySeconds, calls, he⟩ := h
  rw [← he]
  exact inv_reachable opened r.roundNo seedCommit lobbySeconds calls

theorem Produced.step {r r' : RoundState} {c : RoundCall} {e} (h : Produced sha256 r)
    (hs : (roundMachine sha256).step r c = .ok (r', e)) : Produced sha256 r' := by
  obtain ⟨opened, seedCommit, lobbySeconds, calls, he⟩ := h
  have hno := (identity_step (step_effect hs)).1
  refine ⟨opened, seedCommit, lobbySeconds, calls ++ [c], ?_⟩
  rw [hno, Machine.run_append, he, Machine.run_cons, Machine.run_nil, Machine.attempt_ok hs]

/-- Accounts exist for opened numbers only, each holding its own round. -/
structure Housed (sha256 : List UInt8 → Bytes32) (w : World) : Prop where
  produced : ∀ n a, w.rounds n = some a → Produced sha256 a.round
  numbered : ∀ n a, w.rounds n = some a → a.round.roundNo = n
  opened : ∀ n a, w.rounds n = some a → 1 ≤ n ∧ n ≤ w.arena.roundCounter
  counter : w.arena.roundCounter < 2 ^ 64

@[simp]
theorem setRound_self (w : World) (n : ℕ) (a : Option RoundAccount) : (w.setRound n a).rounds n = a := by
  simp [World.setRound]

theorem setRound_ne (w : World) {m n : ℕ} (h : m ≠ n) (a : Option RoundAccount) :
    (w.setRound n a).rounds m = w.rounds m := by
  simp [World.setRound, h]

theorem setRound_eq_some {w : World} {m n : ℕ} {x : Option RoundAccount} {a : RoundAccount}
    (h : (w.setRound n x).rounds m = some a) : m = n ∧ x = some a ∨ m ≠ n ∧ w.rounds m = some a := by
  by_cases hm : m = n
  · subst hm
    exact Or.inl ⟨rfl, by simpa using h⟩
  · exact Or.inr ⟨hm, by rwa [setRound_ne w hm] at h⟩

theorem Housed.write (hw : Housed sha256 w) {n : ℕ} {a a' : RoundAccount} (hf : w.rounds n = some a)
    (hp : Produced sha256 a'.round) (hn : a'.round.roundNo = a.round.roundNo) :
    Housed sha256 (w.setRound n (some a')) where
  produced m b hb := by
    rcases setRound_eq_some hb with ⟨-, he⟩ | ⟨-, ho⟩
    · cases he; exact hp
    · exact hw.produced m b ho
  numbered m b hb := by
    rcases setRound_eq_some hb with ⟨rfl, he⟩ | ⟨-, ho⟩
    · cases he; exact hn.trans (hw.numbered m a hf)
    · exact hw.numbered m b ho
  opened m b hb := by
    rcases setRound_eq_some hb with ⟨rfl, he⟩ | ⟨-, ho⟩
    · exact hw.opened m a hf
    · exact hw.opened m b ho
  counter := hw.counter

theorem housed_step (hw : Housed sha256 w) (h : Change sha256 w c w' e) : Housed sha256 w' := by
  cases h with
  | initTreasury auth fresh => exact ⟨hw.produced, hw.numbered, hw.opened, hw.counter⟩
  | setFeeBps auth => exact ⟨hw.produced, hw.numbered, hw.opened, hw.counter⟩
  | @openRound now signer seedCommit lobbySeconds roundNo auth fresh next =>
      refine ⟨fun m b hb => ?_, fun m b hb => ?_, fun m b hb => ?_, roundNo.toNat_lt⟩
      · rcases setRound_eq_some hb with ⟨-, he⟩ | ⟨-, ho⟩
        · cases he
          exact ⟨now, seedCommit, lobbySeconds, [], rfl⟩
        · exact hw.produced m b ho
      · rcases setRound_eq_some hb with ⟨rfl, he⟩ | ⟨-, ho⟩
        · cases he; rfl
        · exact hw.numbered m b ho
      · rcases setRound_eq_some hb with ⟨rfl, -⟩ | ⟨-, ho⟩
        · exact ⟨by omega, Nat.le_refl _⟩
        · have hm := hw.opened m b ho
          exact ⟨hm.1, by simp only; omega⟩
  | @delegateRound now signer a roundNo auth found owned =>
      exact hw.write found (hw.produced _ a found) rfl
  | @onRound now a i r e roundNo found step =>
      exact hw.write found ((hw.produced _ a found).step step) (identity_step (step_effect step)).1
  | @sweep now a t roundNo found owned books terminal unswept step =>
      have hp : Produced sha256 { a.round with houseSwept := 1 } := (hw.produced _ a found).step step
      have h' : Housed sha256
          (w.setRound roundNo.toNat (some { a with round := { a.round with houseSwept := 1 } })) :=
        hw.write found hp rfl
      exact ⟨h'.produced, h'.numbered, h'.opened, h'.counter⟩
  | @close now signer a roundNo auth found owned terminal swept old =>
      refine ⟨fun m b hb => ?_, fun m b hb => ?_, fun m b hb => ?_, hw.counter⟩
      all_goals
        rcases setRound_eq_some hb with ⟨-, he⟩ | ⟨-, ho⟩
        · cases he
      · exact hw.produced m b ho
      · exact hw.numbered m b ho
      · exact hw.opened m b ho

theorem housed_initial (authority : Pubkey) (feeBps : FeeBps) :
    Housed sha256 (World.initial authority feeBps) :=
  ⟨fun n a ha => by simp [World.initial] at ha, fun n a ha => by simp [World.initial] at ha,
    fun n a ha => by simp [World.initial] at ha, by simp [World.initial]⟩

theorem initArena_eq_ok {authority : Pubkey} {arg : UInt16} {w₀ : World} :
    initArena authority arg = .ok w₀ ↔
      ∃ h : arg.toNat ≤ maxFeeBps, w₀ = World.initial authority ⟨arg.toNat, h⟩ := by
  unfold initArena feeBpsOf
  split
  · rename_i hle
    constructor
    · intro h
      exact ⟨hle, (Except.ok.inj h).symm⟩
    · rintro ⟨_, rfl⟩
      rfl
  · rename_i hgt
    constructor
    · intro h
      cases h
    · rintro ⟨hle, _⟩
      exact absurd hle hgt

/-- Whatever happens after `init_arena`, every account holds its own round, and one the program can
have produced. -/
theorem housed_run {authority : Pubkey} {arg : UInt16} {w₀ : World}
    (h : initArena authority arg = .ok w₀) (calls : List Call) :
    Housed sha256 ((program sha256).run w₀ calls) := by
  obtain ⟨hle, rfl⟩ := initArena_eq_ok.mp h
  exact Machine.run_invariant (fun _ _ _ _ hs h => housed_step hs (step_change h))
    (housed_initial authority _) calls

end

end BullsUnicorns.Chain

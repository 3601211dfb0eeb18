import BullsUnicorns.Identity.MemoryStore
import BullsUnicorns.Identity.Register

/-!
# The in-memory store refines the register
-/

namespace BullsUnicorns.Identity

def memoryRegister : RegisterStore MemoryLinkStore where
  empty := MemoryLinkStore.empty
  rows s := s.rows.values
  links := memoryLinkStore
  writer := memoryLinkWriter

/-- The identities that the transcribed checks admit for a wallet. -/
def memoryStorable (wallet : String) (identity : XIdentity) : Bool :=
  xIdRe identity.xId && handleRe identity.handle && walletRe wallet &&
    decide (utf16Length identity.displayName ≤ 100) && avatarUrlOk identity.avatarUrl

/-- The checks come before the wallet is looked at, and no picture is refused. -/
def memoryPolicy : Register.Policy where
  takes _ := true
  link taken wallet identity :=
    if memoryStorable wallet identity then (if taken then .outcome .walletTaken else .outcome .linked)
    else .refused
  picture _ _ := true
  taken_refused := by
    intro w identity
    by_cases h : memoryStorable w identity = true <;> simp [h]

def MemoryLinkStore.register (s : MemoryLinkStore) : Register where
  row := s.rows.get
  takenDown x := x ∈ s.suppressedXIds

namespace MemoryRefinement

variable {s : MemoryLinkStore}

theorem assert_ok {w : String} {identity : XIdentity} (h : memoryStorable w identity = true) :
    MemoryLinkStore.assertRowIsStorable w identity = .ok () := by
  have hnone : firstViolated (MemoryLinkStore.rowChecks w identity) = none := by
    rw [firstViolated_eq_none]
    simpa [MemoryLinkStore.rowChecks, memoryStorable, and_assoc] using h
  rw [MemoryLinkStore.assertRowIsStorable, hnone]

theorem assert_refused {w : String} {identity : XIdentity} (h : memoryStorable w identity ≠ true) :
    ∃ e, MemoryLinkStore.assertRowIsStorable w identity = .error e := by
  cases hc : firstViolated (MemoryLinkStore.rowChecks w identity) with
  | some message => exact ⟨⟨message⟩, by rw [MemoryLinkStore.assertRowIsStorable, hc]⟩
  | none =>
      rw [firstViolated_eq_none] at hc
      exact absurd (by simpa [MemoryLinkStore.rowChecks, memoryStorable, and_assoc] using hc) h

theorem taken_iff (h : s.register.Sound) (w x : String) :
    (s.rows.values.any fun r => r.wallet == w && r.xId != x) = true ↔ s.register.Taken w x := by
  simp only [List.any_eq_true, Bool.and_eq_true, beq_iff_eq, bne_iff_ne, Register.Taken, Register.Wears,
    OrderedMap.mem_values]
  constructor
  · rintro ⟨r, ⟨x', hr⟩, hw, hx⟩
    refine ⟨x', ?_, r, hr, hw⟩
    rwa [h.keyed x' r hr] at hx
  · rintro ⟨x', hx, r, hr, hw⟩
    refine ⟨r, ⟨x', hr⟩, hw, ?_⟩
    rwa [h.keyed x' r hr]

theorem set_view (x : String) (r : RegisterRow) :
    (s.rows.set x r).get = Function.update s.register.row x (some r) := by
  funext y
  rw [OrderedMap.get_set]
  by_cases hy : y = x
  · subst hy
    rw [if_pos rfl, Function.update_self]
  · rw [if_neg hy, Function.update_of_ne hy]
    rfl

theorem link_step (w : String) (identity : XIdentity) (t : ℤ) (h : s.register.Sound) :
    answerOf .outcome (MemoryLinkStore.link w identity t s).1 =
        (s.register.act memoryPolicy (.link w identity t)).1 ∧
      (MemoryLinkStore.link w identity t s).2.register =
        (s.register.act memoryPolicy (.link w identity t)).2 := by
  unfold MemoryLinkStore.link
  by_cases hs : memoryStorable w identity = true
  · simp only [assert_ok hs]
    by_cases htaken : s.register.Taken w identity.xId
    · rw [if_pos ((taken_iff h w identity.xId).mpr htaken)]
      simp [Register.act, Register.answered, Register.taken_eq_true.mpr htaken, memoryPolicy, hs, answerOf]
    · rw [if_neg fun ht => htaken ((taken_iff h w identity.xId).mp ht)]
      simp only [Register.act, Register.answered, Register.taken_eq_false.mpr htaken, memoryPolicy, hs, if_true,
        Bool.false_eq_true, if_false]
      have hlink := Register.link_row_eq (R := s.register) w identity t
        (b := decide (identity.xId ∈ s.suppressedXIds)) decide_eq_true_iff
      cases hrow : s.rows.get identity.xId with
      | none =>
          have hnone : s.register.row identity.xId = none := hrow
          rw [hnone] at hlink
          exact ⟨rfl, Register.ext ((set_view _ _).trans hlink.symm) rfl⟩
      | some r =>
          have hsome : s.register.row identity.xId = some r := hrow
          rw [hsome] at hlink
          refine ⟨rfl, Register.ext ((set_view _ _).trans (Eq.trans ?_ hlink.symm)) rfl⟩
          simp [Register.linkedRow]
  · obtain ⟨e, he⟩ := assert_refused hs
    simp [he, Register.act, Register.answered, memoryPolicy, hs, answerOf]

/-- The first entry of a wallet is its only one. -/
theorem find_wallet {w : String} :
    (∀ e, s.rows.entries.find? (fun e => e.2.wallet == w) = some e → s.register.row e.1 = some e.2 ∧ e.2.wallet = w) ∧
      (s.rows.entries.find? (fun e => e.2.wallet == w) = none → ∀ x, ¬ s.register.Wears x w) := by
  constructor
  · intro e he
    exact ⟨OrderedMap.get_eq_some.mpr (List.mem_of_find?_eq_some he), by simpa using List.find?_some he⟩
  · rintro hnone x ⟨r, hr, hw⟩
    have := List.find?_eq_none.mp hnone (x, r) (OrderedMap.get_eq_some.mp hr)
    simp [hw] at this

theorem unlink_step (w : String) (h : s.register.Sound) :
    answerOf .removed (MemoryLinkStore.unlink w s).1 = (s.register.act memoryPolicy (.unlink w)).1 ∧
      (MemoryLinkStore.unlink w s).2.register = (s.register.act memoryPolicy (.unlink w)).2 := by
  obtain ⟨hsome, hnone⟩ := find_wallet (s := s) (w := w)
  unfold MemoryLinkStore.unlink
  simp only [Register.act]
  cases hfind : s.rows.entries.find? (fun e => e.2.wallet == w) with
  | none =>
      have hw : s.register.wearer w = none := by
        rw [Option.eq_none_iff_forall_ne_some]
        intro x hx
        exact hnone hfind x ((Register.wearer_eq_some h).mp hx)
      refine ⟨by simp [answerOf, hw], Register.ext (funext fun x => ?_) rfl⟩
      simp only [Register.unlink]
      cases hx : s.register.row x with
      | none => rfl
      | some r =>
          have hne : r.wallet ≠ w := fun he => hnone hfind x ⟨r, hx, he⟩
          simp [Option.filter, hne]
  | some e =>
      obtain ⟨hrow, hwallet⟩ := hsome e hfind
      have hw : s.register.wearer w = some e.1 := (Register.wearer_eq_some h).mpr ⟨e.2, hrow, hwallet⟩
      refine ⟨by simp [answerOf, hw], Register.ext (funext fun x => ?_) rfl⟩
      simp only [MemoryLinkStore.register, Register.unlink]
      rw [OrderedMap.get_delete]
      by_cases hx : x = e.1
      · subst hx
        have hrow : s.rows.get e.1 = some e.2 := hrow
        simp [hrow, Option.filter, hwallet]
      · rw [if_neg hx]
        cases hr : s.rows.get x with
        | none => rfl
        | some r =>
            have hne : r.wallet ≠ w := fun he => hx (h.wallets w x e.1 ⟨r, hr, he⟩ ⟨e.2, hrow, hwallet⟩)
            simp [Option.filter, hne]

theorem setSuppressed_step (x : String) (b : Bool) :
    answerOf .found (MemoryLinkStore.setSuppressed x b s).1 =
        (s.register.act memoryPolicy (.setSuppressed x b)).1 ∧
      (MemoryLinkStore.setSuppressed x b s).2.register =
        (s.register.act memoryPolicy (.setSuppressed x b)).2 := by
  unfold MemoryLinkStore.setSuppressed
  simp only [Register.act]
  cases hrow : s.rows.get x with
  | none =>
      have hnone : s.register.row x = none := hrow
      have hkeep : Function.update s.register.row x none = s.register.row := by
        rw [← hnone, Function.update_eq_self]
      cases b with
      | true =>
          simp only [if_true, hrow, hnone]
          refine ⟨rfl, Register.ext (by simp [Register.setSuppressed, hnone, hkeep]) (funext fun y => ?_)⟩
          by_cases hy : y = x
          · subst hy
            simp [Register.setSuppressed, hnone]
          · simp [Register.setSuppressed, hy]
      | false =>
          simp only [Bool.false_eq_true, if_false, hrow, hnone]
          refine ⟨rfl, Register.ext ?_ (funext fun y => ?_)⟩
          · simp only [Register.setSuppressed, hnone, Option.map_none, hkeep]
            rfl
          · by_cases hy : y = x
            · subst hy
              simp [MemoryLinkStore.register, Register.setSuppressed]
            · simp [MemoryLinkStore.register, Register.setSuppressed, hy]
  | some r =>
      have hsome : s.register.row x = some r := hrow
      cases b with
      | true =>
          simp only [if_true, hrow, hsome, true_and]
          refine ⟨rfl, ?_⟩
          split
          · rename_i hnew
            refine Register.ext ((set_view _ _).trans ?_) (funext fun y => ?_)
            · simp only [Register.setSuppressed, hsome, Option.map_some]
              rfl
            · by_cases hy : y = x
              · subst hy
                simp [MemoryLinkStore.register, Register.setSuppressed, hrow]
              · simp [MemoryLinkStore.register, Register.setSuppressed, hy]
          · rename_i hold
            refine Register.ext ((set_view _ _).trans ?_) (funext fun y => ?_)
            · simp only [Register.setSuppressed, hsome, Option.map_some]
            · by_cases hy : y = x
              · subst hy
                simpa [MemoryLinkStore.register, Register.setSuppressed, hrow] using hold
              · simp [MemoryLinkStore.register, Register.setSuppressed, hy]
      | false =>
          simp only [Bool.false_eq_true, if_false, hrow, hsome, false_and]
          refine ⟨rfl, Register.ext ?_ (funext fun y => ?_)⟩
          · refine (set_view _ _).trans ?_
            simp only [Register.setSuppressed, hsome, Option.map_some]
          · by_cases hy : y = x
            · subst hy
              simp [MemoryLinkStore.register, Register.setSuppressed]
            · simp [MemoryLinkStore.register, Register.setSuppressed, hy]

theorem putAvatar_step (x hash : String) (bytes : List UInt8) (atSec : ℤ) :
    answerOf .found (MemoryLinkStore.putAvatar x hash bytes atSec s).1 =
        (s.register.act memoryPolicy (.putAvatar x hash bytes atSec)).1 ∧
      (MemoryLinkStore.putAvatar x hash bytes atSec s).2.register =
        (s.register.act memoryPolicy (.putAvatar x hash bytes atSec)).2 := by
  unfold MemoryLinkStore.putAvatar
  simp only [Register.act, memoryPolicy]
  cases hrow : s.rows.get x with
  | none =>
      have hnone : s.register.row x = none := hrow
      rw [if_pos hnone]
      exact ⟨rfl, rfl⟩
  | some r =>
      have hsome : s.register.row x = some r := hrow
      rw [if_neg (by simp [hsome]), if_pos trivial]
      refine ⟨rfl, Register.ext ((set_view _ _).trans ?_) rfl⟩
      simp only [Register.putAvatar, hsome, Option.map_some]
      rfl

end MemoryRefinement

/-- Every statement of the in-memory store answers and acts as the register does. -/
def memoryRefinement : Refinement memoryRegister memoryPolicy where
  view := MemoryLinkStore.register
  empty := Register.ext rfl (funext fun x => propext (by
    simp [memoryRegister, MemoryLinkStore.empty, MemoryLinkStore.register, Register.empty]))
  step s a h := by
    rw [Register.step_taken rfl]
    cases a with
    | link w identity t => exact MemoryRefinement.link_step w identity t h
    | unlink w => exact MemoryRefinement.unlink_step w h
    | setSuppressed x b => exact MemoryRefinement.setSuppressed_step x b
    | putAvatar x hash bytes atSec => exact MemoryRefinement.putAvatar_step x hash bytes atSec
  rows s h := by
    refine ⟨?_, fun r => OrderedMap.mem_values⟩
    have hkeys : s.rows.values.map RegisterRow.xId = s.rows.entries.map Prod.fst := by
      rw [OrderedMap.values, List.map_map]
      exact List.map_congr_left fun e he => h.keyed e.1 e.2 (OrderedMap.get_eq_some.mpr he)
    exact hkeys ▸ s.rows.keyed
  findByWallets s wallets _ := rfl
  findAvatar s x hash _ := by
    simp only [memoryRegister, memoryLinkStore, MemoryLinkStore.findAvatar, MemoryLinkStore.register]
    cases s.rows.get x with
    | none => rfl
    | some r =>
        by_cases hs : r.suppressed = true
        · simp [Option.filter, hs]
        · by_cases hh : r.avatarHash = some hash
          · cases hb : r.avatarBytes with
            | none => simp [Option.filter, hs, hh, hb]
            | some bytes => simp [Option.filter, hs, hh, hb]
          · simp [Option.filter, hs, hh]
  findForIngest s x _ := rfl

end BullsUnicorns.Identity

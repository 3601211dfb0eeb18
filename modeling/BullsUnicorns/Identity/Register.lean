import BullsUnicorns.Lib.Machine
import BullsUnicorns.Identity.WriteStore

/-!
# The register: what a link store is for

An abstract register is a partial function from X ids to rows, beside the durable record of the ids an
operator took down. A store refines it when every statement answers and acts as the register does,
up to the identities and pictures that the store's own checks refuse.
-/

namespace BullsUnicorns.Identity

/-- The statements that change the register. -/
inductive RegisterAct where
  | link (wallet : String) (identity : XIdentity) (linkedAtSec : ℤ)
  | unlink (wallet : String)
  | setSuppressed (xId : String) (suppressed : Bool)
  | putAvatar (xId avatarHash : String) (bytes : List UInt8) (atSec : ℤ)
deriving DecidableEq, Repr

/-- The texts among a statement's parameters. -/
def RegisterAct.texts : RegisterAct → List String
  | .link wallet identity _ =>
      [identity.xId, wallet, identity.handle, identity.displayName] ++ identity.avatarUrl.toList
  | .unlink wallet => [wallet]
  | .setSuppressed xId _ => [xId]
  | .putAvatar xId avatarHash _ _ => [avatarHash, xId]

def RegisterAct.times : RegisterAct → List ℤ
  | .link _ _ linkedAtSec => [linkedAtSec]
  | .unlink _ => []
  | .setSuppressed _ _ => []
  | .putAvatar _ _ _ atSec => [atSec]

inductive Answer where
  | outcome (o : LinkWriteOutcome)
  | removed (xId : Option String)
  | found (b : Bool)
  | refused
deriving DecidableEq, Repr

def answerOf {α : Type} (f : α → Answer) : Except StoreError α → Answer
  | .ok a => f a
  | .error _ => .refused

/-! ## A store of the register -/

structure RegisterStore (σ : Type) where
  empty : σ
  rows : σ → List RegisterRow
  links : LinkStore σ
  writer : LinkWriter σ

variable {σ : Type}

def RegisterStore.perform (S : RegisterStore σ) (s : σ) : RegisterAct → Answer × σ
  | .link wallet identity linkedAtSec =>
      (answerOf .outcome (S.writer.link wallet identity linkedAtSec s).1,
        (S.writer.link wallet identity linkedAtSec s).2)
  | .unlink wallet => (answerOf .removed (S.writer.unlink wallet s).1, (S.writer.unlink wallet s).2)
  | .setSuppressed xId b =>
      (answerOf .found (S.links.setSuppressed xId b s).1, (S.links.setSuppressed xId b s).2)
  | .putAvatar xId hash bytes atSec =>
      (answerOf .found (S.links.putAvatar xId hash bytes atSec s).1,
        (S.links.putAvatar xId hash bytes atSec s).2)

/-! ## The abstract register -/

@[ext]
structure Register where
  row : String → Option RegisterRow
  takenDown : String → Prop

namespace Register

/-- What a store decides: which parameters it takes, how a link into a wallet that is taken or free ends,
and which pictures are written. -/
structure Policy where
  takes : RegisterAct → Bool
  link : Bool → String → XIdentity → Answer
  picture : String → List UInt8 → Bool
  taken_refused : ∀ w identity, link true w identity ≠ .outcome .linked

def empty : Register := ⟨fun _ => none, fun _ => False⟩

def Wears (R : Register) (x w : String) : Prop := ∃ r, R.row x = some r ∧ r.wallet = w

/-- This wallet already wears a different X account. -/
def Taken (R : Register) (w x : String) : Prop := ∃ x', x' ≠ x ∧ R.Wears x' w

def freshRow (w : String) (identity : XIdentity) (linkedAt : ℤ) (suppressed : Bool) : RegisterRow :=
  ⟨identity.xId, w, identity.handle, identity.displayName, identity.avatarUrl, none, none, none, linkedAt,
    suppressed⟩

/-- A row that a link finds: moved to the wallet, its picture kept unless the account has none now. -/
def linkedRow (w : String) (identity : XIdentity) (linkedAt : ℤ) (r : RegisterRow) : RegisterRow :=
  { r with
    wallet := w
    handle := identity.handle
    displayName := identity.displayName
    avatarUrl := identity.avatarUrl
    avatarHash := if identity.avatarUrl = none then none else r.avatarHash
    avatarBytes := if identity.avatarUrl = none then none else r.avatarBytes
    avatarAt := if identity.avatarUrl = none then none else r.avatarAt
    linkedAt := if r.wallet = w then r.linkedAt else linkedAt }

def withPicture (hash : String) (bytes : List UInt8) (atSec : ℤ) (r : RegisterRow) : RegisterRow :=
  { r with avatarHash := some hash, avatarBytes := some bytes, avatarAt := some atSec }

open Classical in
noncomputable def link (R : Register) (w : String) (identity : XIdentity) (linkedAt : ℤ) : Register :=
  { R with row := Function.update R.row identity.xId (some
      ((R.row identity.xId).elim (freshRow w identity linkedAt (decide (R.takenDown identity.xId)))
        (linkedRow w identity linkedAt))) }

def unlink (R : Register) (w : String) : Register :=
  { R with row := fun x => (R.row x).filter fun r => r.wallet ≠ w }

def setSuppressed (R : Register) (x : String) (b : Bool) : Register where
  row := Function.update R.row x ((R.row x).map fun r => { r with suppressed := b })
  takenDown := Function.update R.takenDown x (b = true ∧ ((R.row x).isSome ∨ R.takenDown x))

def putAvatar (R : Register) (x hash : String) (bytes : List UInt8) (atSec : ℤ) : Register :=
  { R with row := Function.update R.row x ((R.row x).map (withPicture hash bytes atSec)) }

open Classical in
/-- The account that a wallet wears. -/
noncomputable def wearer (R : Register) (w : String) : Option String :=
  if h : ∃ x, R.Wears x w then some h.choose else none

open Classical in
noncomputable def taken (R : Register) (w x : String) : Bool := decide (R.Taken w x)

/-- A link with its answer: only an accepted one is made. -/
noncomputable def answered (R : Register) (a : Answer) (w : String) (identity : XIdentity) (linkedAt : ℤ) :
    Answer × Register :=
  (a, if a = .outcome .linked then R.link w identity linkedAt else R)

open Classical in
/-- What an act does whose parameters the store takes. -/
noncomputable def act (p : Policy) (R : Register) : RegisterAct → Answer × Register
  | .link w identity linkedAt => R.answered (p.link (R.taken w identity.xId) w identity) w identity linkedAt
  | .unlink w => (.removed (R.wearer w), R.unlink w)
  | .setSuppressed x b => (.found (R.row x).isSome, R.setSuppressed x b)
  | .putAvatar x hash bytes atSec =>
      if R.row x = none then (.found false, R)
      else if p.picture hash bytes then (.found true, R.putAvatar x hash bytes atSec)
      else (.refused, R)

noncomputable def step (p : Policy) (R : Register) (a : RegisterAct) : Answer × Register :=
  if p.takes a then R.act p a else (.refused, R)

theorem step_taken {p : Policy} {R : Register} {a : RegisterAct} (h : p.takes a = true) :
    R.step p a = R.act p a := if_pos h

/-- What a store does not take changes nothing. -/
theorem step_untaken {p : Policy} {R : Register} {a : RegisterAct} (h : p.takes a = false) :
    R.step p a = (.refused, R) := if_neg (by simp [h])

/-- What holds of a register in every run. -/
structure Sound (R : Register) : Prop where
  keyed : ∀ x r, R.row x = some r → r.xId = x
  wallets : ∀ w x x', R.Wears x w → R.Wears x' w → x = x'
  whole : ∀ x r, R.row x = some r →
    (r.avatarHash.isSome = r.avatarBytes.isSome) ∧ r.avatarBytes.isSome = r.avatarAt.isSome
  /-- A row's flag is the durable record. -/
  flag : ∀ x r, R.row x = some r → (r.suppressed = true ↔ R.takenDown x)

@[simp]
theorem taken_eq_true {R : Register} {w x : String} : R.taken w x = true ↔ R.Taken w x := by
  simp [taken]

theorem taken_eq_false {R : Register} {w x : String} : R.taken w x = false ↔ ¬ R.Taken w x := by
  simp [taken]

/-- A link is made, of a wallet that no other account wears, or changes nothing. -/
theorem step_link (p : Policy) (R : Register) (w : String) (identity : XIdentity) (t : ℤ) :
    ((R.step p (.link w identity t)).1 = .outcome .linked ∧ ¬ R.Taken w identity.xId ∧
        (R.step p (.link w identity t)).2 = R.link w identity t) ∨
      ((R.step p (.link w identity t)).1 ≠ .outcome .linked ∧ (R.step p (.link w identity t)).2 = R) := by
  cases htakes : p.takes (.link w identity t) with
  | false =>
      rw [step_untaken htakes]
      exact .inr ⟨by simp, rfl⟩
  | true =>
      rw [step_taken htakes]
      by_cases hlinked : p.link (R.taken w identity.xId) w identity = .outcome .linked
      · refine .inl ⟨hlinked, fun htaken => ?_, if_pos hlinked⟩
        rw [taken_eq_true.mpr htaken] at hlinked
        exact p.taken_refused w identity hlinked
      · exact .inr ⟨hlinked, if_neg hlinked⟩

theorem empty_sound : empty.Sound := by
  constructor <;> simp [empty, Wears]

/-! ## Every statement keeps a sound register sound -/

variable {R : Register}

/-- The fresh row takes any flag that reads the durable record. -/
theorem link_row_eq (w : String) (identity : XIdentity) (t : ℤ) {b : Bool}
    (hb : b = true ↔ R.takenDown identity.xId) :
    (R.link w identity t).row = Function.update R.row identity.xId (some
      ((R.row identity.xId).elim (freshRow w identity t b) (linkedRow w identity t))) := by
  have hflag : b = @decide (R.takenDown identity.xId) (Classical.propDecidable _) := by
    rw [Bool.eq_iff_iff, hb, @decide_eq_true_iff _ (Classical.propDecidable _)]
  rw [hflag]
  rfl

theorem row_link (w : String) (identity : XIdentity) (t : ℤ) (x : String) {r : RegisterRow}
    (h : (R.link w identity t).row x = some r) :
    (x = identity.xId ∧ r.wallet = w ∧ r.avatarUrl = identity.avatarUrl ∧
      ((R.row x = none ∧ r.xId = x ∧ r.avatarHash = none ∧ r.avatarBytes = none ∧ r.avatarAt = none ∧
          (r.suppressed = true ↔ R.takenDown x)) ∨
        ∃ r', R.row x = some r' ∧ r = linkedRow w identity t r')) ∨
    (x ≠ identity.xId ∧ R.row x = some r) := by
  by_cases hx : x = identity.xId
  · subst hx
    refine Or.inl ⟨rfl, ?_⟩
    simp only [link, Function.update_self, Option.some.injEq] at h
    cases hr : R.row identity.xId with
    | none =>
        simp only [hr, Option.elim_none] at h
        subst h
        exact ⟨rfl, rfl, Or.inl ⟨rfl, rfl, rfl, rfl, rfl, by simp [freshRow]⟩⟩
    | some r' =>
        simp only [hr, Option.elim_some] at h
        subst h
        exact ⟨rfl, rfl, Or.inr ⟨r', rfl, rfl⟩⟩
  · exact Or.inr ⟨hx, by simpa [link, Function.update_of_ne hx] using h⟩

theorem link_sound {w : String} {identity : XIdentity} (t : ℤ) (h : R.Sound) (hfree : ¬ R.Taken w identity.xId) :
    (R.link w identity t).Sound := by
  have hworn : ∀ x, (R.link w identity t).Wears x w → x = identity.xId := by
    intro x ⟨r, hr, hw⟩
    rcases row_link w identity t x hr with ⟨hx, -⟩ | ⟨hx, hr⟩
    · exact hx
    · exact absurd ⟨x, hx, r, hr, hw⟩ hfree
  refine ⟨?_, ?_, ?_, ?_⟩
  · intro x r hr
    rcases row_link w identity t x hr with ⟨-, -, -, ⟨-, hx, -⟩ | ⟨r', hr', rfl⟩⟩ | ⟨-, hr⟩
    · exact hx
    · exact h.keyed x r' hr'
    · exact h.keyed x r hr
  · intro w' x x' hx hx'
    by_cases hw : w' = w
    · subst hw
      rw [hworn x hx, hworn x' hx']
    · -- another wallet is worn as before
      have hbefore : ∀ y, (R.link w identity t).Wears y w' → R.Wears y w' := by
        intro y ⟨r, hr, hrw⟩
        rcases row_link w identity t y hr with ⟨-, hrw', -⟩ | ⟨-, hr⟩
        · exact absurd (hrw.symm.trans hrw') hw
        · exact ⟨r, hr, hrw⟩
      exact h.wallets w' x x' (hbefore x hx) (hbefore x' hx')
  · intro x r hr
    rcases row_link w identity t x hr with ⟨-, -, -, ⟨-, -, h1, h2, h3, -⟩ | ⟨r', hr', rfl⟩⟩ | ⟨-, hr⟩
    · simp [h1, h2, h3]
    · have := h.whole x r' hr'
      by_cases hu : identity.avatarUrl = none
      · simp [linkedRow, hu]
      · simpa [linkedRow, hu] using this
    · exact h.whole x r hr
  · intro x r hr
    rcases row_link w identity t x hr with ⟨-, -, -, ⟨-, -, -, -, -, hf⟩ | ⟨r', hr', rfl⟩⟩ | ⟨-, hr⟩
    · exact hf
    · exact h.flag x r' hr'
    · exact h.flag x r hr

theorem row_unlink {w x : String} {r : RegisterRow} :
    (R.unlink w).row x = some r ↔ R.row x = some r ∧ r.wallet ≠ w := by
  simp [unlink, Option.filter_eq_some_iff]

theorem unlink_sound (w : String) (h : R.Sound) : (R.unlink w).Sound where
  keyed x r hr := h.keyed x r (row_unlink.mp hr).1
  wallets w' x x' := fun ⟨r, hr, hw⟩ ⟨r', hr', hw'⟩ =>
    h.wallets w' x x' ⟨r, (row_unlink.mp hr).1, hw⟩ ⟨r', (row_unlink.mp hr').1, hw'⟩
  whole x r hr := h.whole x r (row_unlink.mp hr).1
  flag x r hr := h.flag x r (row_unlink.mp hr).1

/-- An update of one row, where there is one. -/
theorem row_update {f : RegisterRow → RegisterRow} {x y : String} {r : RegisterRow} :
    Function.update R.row x ((R.row x).map f) y = some r ↔
      ∃ r', R.row y = some r' ∧ r = if y = x then f r' else r' := by
  by_cases hy : y = x
  · subst hy
    simp [eq_comm]
  · simp [hy]

theorem wallets_update {f : RegisterRow → RegisterRow} (hf : ∀ r, (f r).wallet = r.wallet) {R' : Register}
    {x : String} (hR : R'.row = Function.update R.row x ((R.row x).map f)) (h : R.Sound) (w y y' : String)
    (hy : R'.Wears y w) (hy' : R'.Wears y' w) : y = y' := by
  have hbefore : ∀ z, R'.Wears z w → R.Wears z w := by
    intro z ⟨r, hr, hw⟩
    rw [hR] at hr
    obtain ⟨r', hr', rfl⟩ := row_update.mp hr
    refine ⟨r', hr', ?_⟩
    split at hw
    · rwa [hf] at hw
    · exact hw
  exact h.wallets w y y' (hbefore y hy) (hbefore y' hy')

theorem setSuppressed_sound (x : String) (b : Bool) (h : R.Sound) : (R.setSuppressed x b).Sound := by
  refine ⟨?_, wallets_update (f := fun r => { r with suppressed := b }) (fun _ => rfl) rfl h, ?_, ?_⟩
  · intro y r hr
    obtain ⟨r', hr', rfl⟩ := row_update.mp hr
    have hk := h.keyed y r' hr'
    split
    · exact hk
    · exact hk
  · intro y r hr
    obtain ⟨r', hr', rfl⟩ := row_update.mp hr
    have hw := h.whole y r' hr'
    split
    · exact hw
    · exact hw
  · intro y r hr
    obtain ⟨r', hr', rfl⟩ := row_update.mp hr
    by_cases hy : y = x
    · subst hy
      simp [setSuppressed, hr']
    · simpa [setSuppressed, hy, Function.update_of_ne hy] using h.flag y r' hr'

theorem putAvatar_sound (x hash : String) (bytes : List UInt8) (atSec : ℤ) (h : R.Sound) :
    (R.putAvatar x hash bytes atSec).Sound := by
  refine ⟨?_, wallets_update (f := withPicture hash bytes atSec) (fun _ => rfl) rfl h, ?_, ?_⟩
  · intro y r hr
    obtain ⟨r', hr', rfl⟩ := row_update.mp hr
    have hk := h.keyed y r' hr'
    split
    · exact hk
    · exact hk
  · intro y r hr
    obtain ⟨r', hr', rfl⟩ := row_update.mp hr
    split
    · simp [withPicture]
    · exact h.whole y r' hr'
  · intro y r hr
    obtain ⟨r', hr', rfl⟩ := row_update.mp hr
    have hf := h.flag y r' hr'
    split
    · exact hf
    · exact hf

theorem act_sound (p : Policy) (h : R.Sound) (a : RegisterAct) : (R.act p a).2.Sound := by
  cases a with
  | link w identity t =>
      simp only [act, answered]
      split
      · rename_i hl
        refine link_sound t h fun ht => ?_
        exact p.taken_refused w identity (by simpa [taken_eq_true.mpr ht] using hl)
      · exact h
  | unlink w => exact unlink_sound w h
  | setSuppressed x b => exact setSuppressed_sound x b h
  | putAvatar x hash bytes atSec =>
      simp only [act]
      split
      · exact h
      · split
        · exact putAvatar_sound x hash bytes atSec h
        · exact h

theorem step_sound (p : Policy) (h : R.Sound) (a : RegisterAct) : (R.step p a).2.Sound := by
  cases ht : p.takes a with
  | true => exact step_taken ht ▸ act_sound p h a
  | false => exact step_untaken ht ▸ h

/-! ## What one statement does to the rows -/

/-- A row after a statement is the one an accepted link left, or was there before with the same
picture URL, date and, unless the statement brought a picture, the same bytes. -/
theorem row_after {p : Policy} {a : RegisterAct} {x : String} {r : RegisterRow}
    (hr : (R.step p a).2.row x = some r) :
    (∃ w identity t, a = .link w identity t ∧ (R.step p a).1 = .outcome .linked ∧ x = identity.xId ∧
      r.avatarUrl = identity.avatarUrl ∧ (identity.avatarUrl = none → r.avatarBytes = none) ∧
      ∀ r', R.row x = some r' → r = linkedRow w identity t r') ∨
    ((∀ w identity t, a = .link w identity t → (R.step p a).1 = .outcome .linked → x ≠ identity.xId) ∧
      ∃ r', R.row x = some r' ∧ r.avatarUrl = r'.avatarUrl ∧ r.linkedAt = r'.linkedAt ∧
        (r.avatarBytes = r'.avatarBytes ∨
          ∃ hash bytes t, a = .putAvatar x hash bytes t ∧ p.picture hash bytes = true)) := by
  by_cases hrefused : p.takes a = false
  · rw [step_untaken hrefused] at hr ⊢
    exact .inr ⟨fun _ _ _ _ h => by simp at h, r, hr, rfl, rfl, .inl rfl⟩
  rw [step_taken (by simpa using hrefused)] at hr ⊢
  cases a with
  | link w identity t =>
      simp only [act, answered] at hr ⊢
      split at hr
      · rename_i hl
        rcases row_link w identity t x hr with ⟨hx, -, hu, hnew | ⟨r', hr', hmoved⟩⟩ | ⟨hx, hr⟩
        · refine Or.inl ⟨w, identity, t, rfl, hl, hx, hu, fun _ => hnew.2.2.2.1, ?_⟩
          intro r' hr'
          rw [hnew.1] at hr'
          cases hr'
        · refine Or.inl ⟨w, identity, t, rfl, hl, hx, hu, fun hnone => ?_, ?_⟩
          · rw [hmoved]
            simp [linkedRow, hnone]
          · intro r'' hr''
            rw [hr'] at hr''
            cases hr''
            exact hmoved
        · refine Or.inr ⟨?_, r, hr, rfl, rfl, Or.inl rfl⟩
          intro w' identity' t' he _
          cases he
          exact hx
      · rename_i hl
        refine Or.inr ⟨?_, r, hr, rfl, rfl, Or.inl rfl⟩
        intro w' identity' t' he hl'
        cases he
        exact absurd hl' hl
  | unlink w =>
      exact Or.inr ⟨by simp, r, (row_unlink.mp hr).1, rfl, rfl, Or.inl rfl⟩
  | setSuppressed y b =>
      obtain ⟨r', hr', rfl⟩ := row_update.mp hr
      refine Or.inr ⟨by simp, r', hr', ?_⟩
      split
      · exact ⟨rfl, rfl, Or.inl rfl⟩
      · exact ⟨rfl, rfl, Or.inl rfl⟩
  | putAvatar y hash bytes t =>
      simp only [act] at hr
      split at hr
      · exact Or.inr ⟨by simp, r, hr, rfl, rfl, Or.inl rfl⟩
      · split at hr
        · rename_i hp
          obtain ⟨r', hr', rfl⟩ := row_update.mp hr
          refine Or.inr ⟨by simp, r', hr', ?_⟩
          split
          · rename_i hx
            exact ⟨rfl, rfl, Or.inr ⟨hash, bytes, t, by rw [hx], hp⟩⟩
          · exact ⟨rfl, rfl, Or.inl rfl⟩
        · exact Or.inr ⟨by simp, r, hr, rfl, rfl, Or.inl rfl⟩

/-- Only a restore takes an id off the durable record. -/
theorem takenDown_after {p : Policy} {a : RegisterAct} {x : String} (h : R.takenDown x)
    (ha : a ≠ .setSuppressed x false) : (R.step p a).2.takenDown x := by
  by_cases hrefused : p.takes a = false
  · rwa [step_untaken hrefused]
  rw [step_taken (by simpa using hrefused)]
  cases a with
  | link w identity t =>
      simp only [act, answered]
      split
      · exact h
      · exact h
  | unlink w => exact h
  | setSuppressed y b =>
      by_cases hx : x = y
      · subst hx
        cases b with
        | true => simp [act, setSuppressed, h]
        | false => exact absurd rfl ha
      · simp only [act, setSuppressed, Function.update_of_ne hx]
        exact h
  | putAvatar y hash bytes t =>
      simp only [act]
      split
      · exact h
      · split
        · exact h
        · exact h

/-- In a sound register the wearer is the account whose row has the wallet. -/
theorem wearer_eq_some (h : R.Sound) {w x : String} : R.wearer w = some x ↔ R.Wears x w := by
  unfold wearer
  by_cases hw : ∃ x, R.Wears x w
  · rw [dif_pos hw, Option.some.injEq]
    exact ⟨fun he => he ▸ hw.choose_spec, fun hx => h.wallets w _ _ hw.choose_spec hx⟩
  · rw [dif_neg hw]
    exact ⟨fun he => by simp at he, fun hx => absurd ⟨x, hx⟩ hw⟩

end Register

/-! ## Refinement -/

/-- A store that answers and acts as the register does. -/
structure Refinement (S : RegisterStore σ) (p : Register.Policy) where
  view : σ → Register
  empty : view S.empty = Register.empty
  step : ∀ s a, (view s).Sound →
    (S.perform s a).1 = ((view s).step p a).1 ∧ view (S.perform s a).2 = ((view s).step p a).2
  rows : ∀ s, (view s).Sound →
    ((S.rows s).map RegisterRow.xId).Nodup ∧ ∀ r, r ∈ S.rows s ↔ ∃ x, (view s).row x = some r
  findByWallets : ∀ s wallets, (view s).Sound →
    S.links.findByWallets wallets s =
      ((S.rows s).filter fun r => decide (r.wallet ∈ wallets) && !r.suppressed).map RegisterRow.linkRow
  findAvatar : ∀ s x hash, (view s).Sound → S.links.findAvatar x hash s =
    (((view s).row x).filter fun r => decide (r.avatarHash = some hash) && !r.suppressed).bind
      RegisterRow.avatarBytes
  findForIngest : ∀ s x, (view s).Sound →
    S.links.findForIngest x s = ((view s).row x).map RegisterRow.ingestTarget

end BullsUnicorns.Identity

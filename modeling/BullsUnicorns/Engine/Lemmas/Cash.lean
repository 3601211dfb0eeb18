import BullsUnicorns.Engine.Host
import BullsUnicorns.Engine.Lemmas.Boot
import BullsUnicorns.Engine.Lemmas.Convert
import BullsUnicorns.Engine.Lemmas.Passes

/-!
# Deposits, withdrawals and converts

They open accounts of players, move balances and write the money record, and leave everything else of an account
as it was.
-/

namespace BullsUnicorns.Engine

open Battle

/-- The accounts go on as they are but for money, and whoever is new is a player. -/
structure Joined (l l' : Ledger) : Prop where
  nonneg : l.Nonneg → l'.Nonneg
  candid : Candid l → Candid l'
  old : ∀ id a, l.get id = some a →
    ∃ a', l'.get id = some a' ∧ a'.id = a.id ∧ a'.isBot = a.isBot ∧ a'.retired = a.retired
  new : ∀ id a', l.get id = none → l'.get id = some a' → a'.id = id ∧ a'.isBot = false ∧ a'.retired = false

section
variable {l l' l'' : Ledger} {id wallet : String} {f : Field} {x : ℚ} {g : Account → Account}

theorem Joined.refl (l : Ledger) : Joined l l where
  nonneg := fun h => h
  candid := fun h => h
  old := fun id a ha => ⟨a, ha, rfl, rfl, rfl⟩
  new := fun id a hnone ha => by
    rw [hnone] at ha
    cases ha

theorem Joined.trans (h : Joined l l') (h' : Joined l' l'') : Joined l l'' where
  nonneg := fun hl => h'.nonneg (h.nonneg hl)
  candid := fun hl => h'.candid (h.candid hl)
  old := by
    intro id a ha
    obtain ⟨a', ha', hid, hbot, hret⟩ := h.old id a ha
    obtain ⟨a'', ha'', hid', hbot', hret'⟩ := h'.old id a' ha'
    exact ⟨a'', ha'', hid'.trans hid, hbot'.trans hbot, hret'.trans hret⟩
  new := by
    intro id a'' hnone ha''
    cases hmid : l'.get id with
    | none => exact h'.new id a'' hmid ha''
    | some a' =>
        obtain ⟨hid, hbot, hret⟩ := h.new id a' hnone hmid
        obtain ⟨b, hb, hid', hbot', hret'⟩ := h'.old id a' hmid
        rw [ha''] at hb
        cases hb
        exact ⟨hid'.trans hid, hbot'.trans hbot, hret'.trans hret⟩

theorem Joined.of_same (h : l.Same l') (hn : l.Nonneg → l'.Nonneg) : Joined l l' where
  nonneg := hn
  candid := fun hl => hl.of_same h
  old := by
    intro id a ha
    obtain ⟨a', ha', hsk⟩ := h.get ha
    obtain ⟨hc, hbot, hret⟩ := Account.Continues.of_skeleton hsk
    exact ⟨a', ha', hc.id, hbot, hret⟩
  new := by
    intro id a' hnone ha'
    have hsome := h.isSome id
    rw [ha', hnone] at hsome
    cases hsome

theorem Joined.acct (l : Ledger) (wallet : String) (side : Side) : Joined l (acct l wallet side) := by
  cases hget : l.get wallet with
  | some a =>
      have hsame : Engine.acct l wallet side = l := by simp [Engine.acct, hget]
      rw [hsame]
      exact .refl l
  | none =>
      have hnew : Engine.acct l wallet side = l.set wallet (Account.fresh wallet side false) := by
        simp [Engine.acct, hget]
      rw [hnew]
      constructor
      case nonneg =>
          intro hl id f
          unfold Ledger.bal
          rw [OrderedMap.get_set]
          split
          · exact le_refl 0
          · exact hl id f
      case candid => exact fun hl => hl.set (fun _ => .fresh wallet side false) wallet
      case old =>
          intro id a ha
          refine ⟨a, ?_, rfl, rfl, rfl⟩
          rw [OrderedMap.get_set, if_neg]
          · exact ha
          · rintro rfl
            rw [hget] at ha
            cases ha
      case new =>
          intro id a hnone ha
          rw [OrderedMap.get_set] at ha
          split at ha
          · next hid =>
              cases ha
              exact ⟨hid.symm, rfl, rfl⟩
          · rw [hnone] at ha
            cases ha

/-- A change of the account of one player. -/
theorem Joined.modify (hg : Tidy g) (hsame : ∀ a, (g a).id = a.id ∧ (g a).retired = a.retired)
    (hbal : ∀ a, l.get id = some a → ∀ f, 0 ≤ a.bal f → 0 ≤ (g a).bal f) : Joined l (l.modify id g) where
  nonneg := by
    intro hl k f
    unfold Ledger.bal
    rw [Ledger.get_modify]
    split
    · cases hget : l.get id with
      | none => exact le_refl 0
      | some a => exact hbal a hget f (Ledger.bal_of_get hget ▸ hl id f)
    · exact hl k f
  candid := fun hl => hl.modify hg id
  old := by
    intro k a ha
    rw [Ledger.get_modify]
    split
    · next hk =>
        rw [← hk, ha]
        exact ⟨g a, rfl, (hsame a).1, (hg a).1, (hsame a).2⟩
    · exact ⟨a, ha, rfl, rfl, rfl⟩
  new := by
    intro k a' hnone ha'
    rw [Ledger.get_modify] at ha'
    split at ha'
    · next hk =>
        rw [← hk, hnone] at ha'
        cases ha'
    · rw [hnone] at ha'
      cases ha'

theorem Joined.add (hx : 0 ≤ l.bal id f + x) : Joined l (l.add id f x) := by
  refine .of_same .add fun hl => ?_
  cases hget : l.get id with
  | none =>
      have hsame : l.add id f x = l := by simp [Ledger.add, Ledger.modify, hget]
      rwa [hsame]
  | some a => exact hl.add (by simp [hget]) hx

/-! ## The handlers -/

theorem Joined.depositSol (wallet : String) (sol px : ℚ) (l : Ledger) : Joined l (depositSol wallet sol px l) := by
  unfold Engine.depositSol
  split
  · exact .refl l
  · next hpx =>
      split
      · exact .refl l
      · next hsol =>
          extract_lets units
          have hunits : 0 < units := mul_pos (not_le.mp hsol) (not_le.mp hpx)
          refine (Joined.acct l wallet .bull).trans (.modify (fun a => ⟨rfl, fun _ h => ?_⟩) (fun _ => ⟨rfl, rfl⟩) ?_)
          · have hin : 0 < a.depIn + units := add_pos_of_nonneg_of_pos h.depIn hunits
            exact ⟨h.dep, hin.le, h.wOut, h.refEarned, fun _ => hin, h.solOut, h.referred⟩
          · intro a _ f ha
            change 0 ≤ (a.add .sol units).bal f
            rw [Account.bal_add]
            split
            · exact add_nonneg ha hunits.le
            · rwa [add_zero]

theorem Joined.deposit (wallet : String) (side : Side) (credited : ℚ) (l : Ledger) :
    Joined l (deposit wallet side credited l) := by
  unfold Engine.deposit
  split
  · exact .refl l
  · next hcredited =>
      have hpos := not_le.mp hcredited
      refine (Joined.acct l wallet side).trans (.modify (fun a => ⟨rfl, fun _ h => ?_⟩) (fun _ => ⟨rfl, rfl⟩) ?_)
      · have hin : 0 < a.depIn + credited := add_pos_of_nonneg_of_pos h.depIn hpos
        exact ⟨h.dep, hin.le, h.wOut, h.refEarned, fun _ => hin, h.solOut, h.referred⟩
      · intro a _ f ha
        change 0 ≤ (a.add (sideField side) credited).bal f
        rw [Account.bal_add]
        split
        · exact add_nonneg ha hpos.le
        · rwa [add_zero]

/-- What a withdrawal takes is there, and what it asks the chain for is positive. -/
theorem Joined.withdrawSol (isFrozen : Bool) (wallet : String) (units : Option ℚ) (px : ℚ) (l : Ledger) :
    Joined l (withdrawSol isFrozen wallet units px l).1 ∧ ∀ p ∈ (withdrawSol isFrozen wallet units px l).2, 0 < p.units := by
  unfold Engine.withdrawSol
  split
  · exact ⟨.refl l, fun p hp => by cases hp⟩
  extract_lets l₁ units₁
  have hjoin : Joined l l₁ := .acct l wallet .bull
  split
  · exact ⟨hjoin, fun p hp => by cases hp⟩
  · next hmin =>
      have hle : units₁ ≤ l₁.bal wallet .sol := min_le_right _ _
      refine ⟨hjoin.trans (.add (by linarith)), fun p hp => ?_⟩
      cases hp
      exact MIN_ENTRY_pos.trans_le (not_lt.mp hmin)

theorem Joined.withdraw (isFrozen : Bool) (wallet : String) (side : Side) (amount : Option ℚ) (l : Ledger) :
    Joined l (withdraw isFrozen wallet side amount l).1 ∧ ∀ p ∈ (withdraw isFrozen wallet side amount l).2, 0 < p.units := by
  unfold Engine.withdraw
  split
  · exact ⟨.refl l, fun p hp => by cases hp⟩
  extract_lets l₁ amt
  have hjoin : Joined l l₁ := .acct l wallet side
  split
  · exact ⟨hjoin, fun p hp => by cases hp⟩
  · next hmin =>
      have hle : amt ≤ l₁.bal wallet (sideField side) := min_le_right _ _
      refine ⟨hjoin.trans (.add (by linarith)), fun p hp => ?_⟩
      cases hp
      exact lt_of_lt_of_le (by norm_num) (not_lt.mp hmin)

theorem Joined.sent {p : Payout} (hp : 0 < p.units) (l : Ledger) : Joined l (p.sent l) := by
  refine .modify (fun a => ⟨rfl, fun _ h => ?_⟩) (fun _ => ⟨rfl, rfl⟩) fun a _ f ha => ha
  have hout : 0 < a.wOut + p.units := add_pos_of_nonneg_of_pos h.wOut hp
  exact ⟨h.dep, h.depIn, hout.le, h.refEarned, h.solIn, fun _ => hout, h.referred⟩

theorem Joined.failed {p : Payout} (hp : 0 < p.units) (hl : l.Nonneg) : Joined l (p.failed l) :=
  .add (add_nonneg (hl _ _) hp.le)

end

/-! ## Converts -/

section
variable {env : ConvertEnv} {d d' : Desk}

/-- A message debits what is there, and what it gives is taken from the pool. -/
theorem Joined.convert (hl : d.ledger.Nonneg) (m : ConvertMsg) (r : ConvertReadings)
    (hl' : (d.convert env m r).ledger.Nonneg) : Joined d.ledger (d.convert env m r).ledger := by
  unfold Desk.convert at hl' ⊢
  split
  · exact .refl _
  split
  · exact .refl _
  next hfrozen hfree =>
  rw [if_neg hfrozen, if_neg hfree] at hl'
  have hopened : Joined d.ledger (d.opened m).ledger := .acct d.ledger m.wallet _
  dsimp only at hl' ⊢
  split
  · exact hopened
  · next from' to' amt hasks =>
      rw [hasks] at hl'
      dsimp only at hl'
      obtain ⟨-, hamt, hle⟩ := asks_some hasks
      have hpool : ∀ id ∈ env.pool, (fun _ => True) id := fun _ _ => trivial
      obtain ⟨d₁, job, hbegun, heq⟩ := begins_begun r to' hpool
        (Ledger.nonnegOf_all.mpr (hopened.nonneg hl)) (opened_isSome m d) hamt hle
      rw [heq] at hl' ⊢
      refine hopened.trans (.of_same ?_ fun _ => hl')
      cases hbegun with
      | otc _ _ hanswer => exact (Ledger.Same.add.trans hanswer.same).trans .add
      | unpriced => exact Ledger.Same.add.trans .add
      | waits _ _ _ _ => exact .add

/-- Converts move balances, and open the account of whoever asks. -/
theorem Joined.desk {event : ConvertEvent} (hk : Kept env (fun _ => True) d) (h : Steps env d event d')
    (hown : ∀ o, event ≠ .elsewhere o) : Joined d.ledger d'.ledger := by
  have hnonneg := Ledger.nonnegOf_all.mp (hk.step h fun o he => absurd he (hown o)).nonneg
  cases h with
  | convert m r => exact .convert (Ledger.nonnegOf_all.mp hk.nonneg) m r hnonneg
  | @balanceRead i job x _ _ =>
      unfold Desk.balanceRead at hnonneg ⊢
      split
      · next hshort =>
          rw [if_pos hshort] at hnonneg
          exact .of_same .add fun _ => hnonneg
      · exact .refl _
  | @quoted i job quote built _ _ _ =>
      unfold Desk.quoted at hnonneg ⊢
      split
      · next hnone =>
          rw [if_pos hnone] at hnonneg
          exact .of_same .add fun _ => hnonneg
      · next hsome =>
          rw [if_neg hsome] at hnonneg
          cases quote with
          | none => exact .of_same .add fun _ => hnonneg
          | some q =>
              dsimp only at hnonneg ⊢
              split
              · next hfar =>
                  rw [if_pos hfar] at hnonneg
                  exact .of_same .add fun _ => hnonneg
              · exact .refl _
  | lands _ _ _ => exact .refl _
  | dies _ _ => exact .refl _
  | confirmed _ _ _ => exact .of_same .add fun _ => hnonneg
  | threw _ _ _ => exact .of_same .add fun _ => hnonneg
  | elsewhere o => exact absurd rfl (hown o)

/-- The ledger moves on beside the converts. -/
theorem Kept.relocate (h : Kept env (fun _ => True) d) {l : Ledger} (hl : l.Nonneg)
    (hstays : ∀ id, (d.ledger.get id).isSome → (l.get id).isSome) :
    Kept env (fun _ => True) { d with ledger := l } where
  pool := h.pool
  nonneg := Ledger.nonnegOf_all.mpr hl
  accounts := fun job hjob => hstays _ (h.accounts job hjob)
  book := h.book
  mark := h.mark
  alone := h.alone
  cool := h.cool

end

/-! ## A sound state -/

theorem Joined.stays {l l' : Ledger} (h : Joined l l') (id : String) (hid : (l.get id).isSome) : (l'.get id).isSome := by
  obtain ⟨a, ha⟩ := Option.isSome_iff_exists.mp hid
  obtain ⟨a', ha', -⟩ := h.old id a ha
  simp [ha']

theorem Joined.sound {s : Settings} {e : State} {l : Ledger} (h : Joined e.ledger l) (hs : Sound s e) :
    Sound s { e with ledger := l } := by
  have hback : ∀ id a', l.get id = some a' → (∃ a, e.ledger.get id = some a ∧ a'.id = a.id ∧ a'.isBot = a.isBot ∧
      a'.retired = a.retired) ∨ (a'.id = id ∧ a'.isBot = false ∧ a'.retired = false) := by
    intro id a' ha'
    cases hget : e.ledger.get id with
    | none => exact .inr (h.new id a' hget ha')
    | some a =>
        obtain ⟨b, hb, hsame⟩ := h.old id a hget
        rw [ha'] at hb
        cases hb
        exact .inl ⟨a, rfl, hsame⟩
  constructor
  case nonneg => exact h.nonneg hs.nonneg
  case keyed =>
      intro id a' ha'
      rcases hback id a' ha' with ⟨a, ha, hid, -, -⟩ | ⟨hid, -, -⟩
      · exact hid.trans (hs.keyed id a ha)
      · exact hid
  case bots =>
      intro id a' ha' hbot
      rcases hback id a' ha' with ⟨a, ha, -, hsame, -⟩ | ⟨-, hplayer, -⟩
      · exact hs.bots id a ha (hsame.symm.trans hbot)
      · rw [hplayer] at hbot
        cases hbot
  case retired =>
      intro id a' ha' hret
      rcases hback id a' ha' with ⟨a, ha, -, -, hsame⟩ | ⟨-, -, hnew⟩
      · exact hs.retired id a ha (hsame.symm.trans hret)
      · rw [hnew] at hret
        cases hret
  case two =>
      intro aid
      refine (Turned.same (e.two aid)).fit (hs.two aid) ?_ fun _ _ h => h
      rintro - id side ⟨owner, hid, howner, hget, hpx⟩
      exact ⟨owner, hid, howner, h.stays owner hget, hpx⟩
  case many =>
      intro aid
      refine (Turned.same (e.many aid)).fit (hs.many aid) ?_ fun _ _ h => h
      rintro - id team ⟨owner, hid, howner, hget, hpx⟩
      exact ⟨owner, hid, howner, h.stays owner hget, hpx⟩

end BullsUnicorns.Engine

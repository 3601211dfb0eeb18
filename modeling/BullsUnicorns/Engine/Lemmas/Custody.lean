import BullsUnicorns.Engine.Custody
import BullsUnicorns.Engine.Lemmas.HostRuns
import BullsUnicorns.Engine.Lemmas.Thrift

/-!
# What a step of the custody does

Every step is one of a few turns, and the host goes on by one of its own events or stays. What a deposit and a
withdrawal do to all accounts together is what they are for.
-/

namespace BullsUnicorns.Engine

open Battle

/-! ## All accounts together -/

section
variable {l : Ledger} {id : String} {f g : Field} {x : ℚ}

theorem total_acct (l : Ledger) (wallet : String) (side : Side) (f : Field) :
    total everybody (acct l wallet side) f = total everybody l f := by
  unfold acct
  cases h : l.get wallet with
  | some a => rfl
  | none =>
      rw [total_set_new everybody h]
      simp [Account.fresh, everybody]

/-- One account gets an amount of a field, or gives it. -/
structure Gains (u : Account → Account) (f : Field) (x : ℚ) : Prop where
  isBot : ∀ a, (u a).isBot = a.isBot
  bal : ∀ a g, (u a).bal g = a.bal g + if g = f then x else 0

theorem Gains.total {u : Account → Account} (hu : Gains u f x) (hget : (l.get id).isSome) (g : Field) :
    total everybody (l.modify id u) g = total everybody l g + if f = g then x else 0 := by
  obtain ⟨a, ha⟩ := Option.isSome_iff_exists.mp hget
  rw [total_modify everybody ha (hu.isBot a), hu.bal, add_sub_cancel_left]
  simp [everybody, eq_comm]

theorem Gains.modify {u : Account → Account} (hu : Gains u f x) (hget : (l.get id).isSome) (k : String) (g : Field) :
    (l.modify id u).bal k g = l.bal k g + if k = id ∧ g = f then x else 0 := by
  obtain ⟨a, ha⟩ := Option.isSome_iff_exists.mp hget
  by_cases hk : k = id
  · subst hk
    rw [Ledger.bal, Ledger.get_modify, if_pos rfl, ha, Option.map_some, Option.map_some, Option.getD_some, hu.bal,
      Ledger.bal_of_get ha]
    simp
  · rw [Ledger.bal, Ledger.get_modify, if_neg hk]
    simp [Ledger.bal, hk]

theorem Gains.add (f : Field) (x : ℚ) : Gains (fun a => a.add f x) f x := ⟨fun _ => rfl, fun _ _ => Account.bal_add⟩

end

namespace Custody

variable {env : CustodyEnv} {c c' : Custody} {moves : List Move}

/-! ## Deposits -/

theorem bank_eq (v : Verification) {delta : ℚ} (hpx : 0 < v.asset.price) (hdelta : 0 < delta) (l : Ledger) :
    ∃ side u, Gains u v.asset.field (delta * v.asset.price) ∧
      bank v delta l = (acct l v.wallet side).modify v.wallet u := by
  obtain ⟨wallet, sig, asset⟩ := v
  cases asset with
  | sol px =>
      refine ⟨.bull, fun a => { a.add .sol (delta * px) with
        depIn := a.depIn + delta * px, depInSol := a.depInSol + delta * px }, ⟨fun _ => rfl, fun _ _ => Account.bal_add⟩, ?_⟩
      exact (if_neg (not_le.mpr hpx)).trans (if_neg (not_le.mpr hdelta))
  | token side =>
      refine ⟨side, fun a => { a.add (sideField side) delta with depIn := a.depIn + delta },
        ⟨fun _ => rfl, fun _ _ => ?_⟩, if_neg (not_le.mpr hdelta)⟩
      change (Account.add _ _ _).bal _ = _
      rw [Account.bal_add]
      simp [Asset.field, Asset.price]

theorem total_bank (v : Verification) {delta : ℚ} (hpx : 0 < v.asset.price) (hdelta : 0 < delta) (l : Ledger) (f : Field) :
    total everybody (bank v delta l) f =
      total everybody l f + if v.asset.field = f then delta * v.asset.price else 0 := by
  obtain ⟨side, u, hu, hbank⟩ := bank_eq v hpx hdelta l
  rw [hbank, hu.total (acct_isSome l v.wallet side), total_acct]

theorem bank_stays (v : Verification) (delta : ℚ) (l : Ledger) (id : String) (hid : (l.get id).isSome) :
    ((bank v delta l).get id).isSome := by
  unfold bank
  split
  · exact (Joined.depositSol v.wallet delta _ l).stays id hid
  · exact (Joined.deposit v.wallet _ delta l).stays id hid

/-! ## Withdrawals -/

/-- What a payment takes of a field. -/
def share (p : Payout) (f : Field) : ℚ := if p.field = f then p.units else 0

/-- What is to be paid has been taken from an account that is there. -/
structure Drawn (l : Ledger) (r : Ledger × Option Payout) : Prop where
  total : ∀ f, total everybody r.1 f = total everybody l f - (r.2.toList.map (share · f)).sum
  pos : ∀ p ∈ r.2, 0 < p.units
  known : ∀ p ∈ r.2, (r.1.get p.wallet).isSome
  stays : ∀ id, (l.get id).isSome → (r.1.get id).isSome

theorem Drawn.refused {l l' : Ledger} (h : ∀ f, Engine.total everybody l' f = Engine.total everybody l f)
    (hj : Joined l l') : Drawn l (l', none) where
  stays := hj.stays
  total := fun f => by simp [h f]
  pos := fun p hp => by cases hp
  known := fun p hp => by cases hp

theorem Drawn.taken (l : Ledger) (wallet : String) (side : Side) (f : Field) {x : ℚ} (hx : 0 < x) :
    Drawn l ((acct l wallet side).add wallet f (-x), some ⟨wallet, f, x⟩) where
  total := by
    intro g
    change Engine.total everybody ((acct l wallet side).modify wallet fun a => a.add f (-x)) g = _
    rw [(Gains.add f (-x)).total (acct_isSome l wallet side), total_acct]
    by_cases hf : f = g <;> simp [share, hf, sub_eq_add_neg]
  pos := fun p hp => by
    cases hp
    exact hx
  known := fun p hp => by
    cases hp
    exact Ledger.add_stays _ _ _ _ _ (acct_isSome l wallet side)
  stays := fun id hid => Ledger.add_stays _ _ _ _ _ ((Joined.acct l wallet side).stays id hid)

/-- A payment that is confirmed moves no balance. -/
theorem total_sent (p : Payout) (l : Ledger) (f : Field) : Engine.total everybody (p.sent l) f = Engine.total everybody l f := by
  have hu : Gains (fun a => { a with wOut := a.wOut + p.units, wOutSol :=
      if p.field = .sol then a.wOutSol + p.units else a.wOutSol }) f 0 := ⟨fun _ => rfl, fun _ _ => by simp⟩
  cases h : l.get p.wallet with
  | none => simp [Payout.sent, Ledger.modify, h]
  | some a => exact (hu.total (by simp [h]) f).trans (by simp)

theorem total_failed {p : Payout} {l : Ledger} (hget : (l.get p.wallet).isSome) (f : Field) :
    Engine.total everybody (p.failed l) f = Engine.total everybody l f + share p f :=
  (Gains.add p.field p.units).total hget f

/-! ## Turns -/

/-- What one step can do, and whether it is true to the chain. -/
inductive Turn (env : CustodyEnv) (c : Custody) : Bool → Custody → List Move → Prop
  | idle : Turn env c true c []
  | host {event : HostEvent} {h : Host} (hinner : edge event = false)
      (hstep : Host.step env.host c.host event = .ok (h, ())) :
      Turn env c true { c with host := h } [.other (change c.ledger h.engine.ledger)]
  | confirmed {sig : String} {tx : ParsedTx} (hnew : c.chain.get sig = none) :
      Turn env c true { c with chain := c.chain.set sig tx } [.rose sig tx]
  | asks {v : Verification} (hseen : v.sig ∉ c.seenSigs) (hfree : v.sig ∉ c.inFlightSigs) (hpx : 0 < v.asset.price) :
      Turn env c true { c with inFlightSigs := c.inFlightSigs ++ [v.sig], verifying := c.verifying ++ [v] } []
  | ends {i : ℕ} {v : Verification} (hv : c.verifying[i]? = some v) : Turn env c true (c.release i v) []
  | credits {i : ℕ} {v : Verification} {tx : ParsedTx} (hv : c.verifying[i]? = some v)
      (htx : c.chain.get v.sig = some tx) (hrise : 0 < rise env v.asset.field tx) :
      Turn env c true { { c with seenSigs := c.seenSigs ++ [v.sig] }.release i v with
          host := c.host.setLedger (bank v (rise env v.asset.field tx) c.ledger) }
        [.credit ⟨c.boot, v.sig, v.wallet, v.asset.field, rise env v.asset.field tx * v.asset.price⟩]
  | draws {r : Ledger × Option Payout} (hr : Drawn c.ledger r)
      (hstep : ∃ event, Host.step env.host c.host event = .ok (c.host.withdrawal r, ())) :
      Turn env c true (c.withdrawal r).1 (c.withdrawal r).2
  | lands {i : ℕ} {p : Payout} {sig : String} {tx : ParsedTx} (hi : c.waiting? i = some (p, false))
      (hnew : c.chain.get sig = none) (hpays : pays env p tx) :
      Turn env c true { c with chain := c.chain.set sig tx, landed := c.landed.set i true } [.paid p]
  | landsLate {i : ℕ} {p : Payout} {back : Bool} {sig : String} {tx : ParsedTx} (hi : c.loose[i]? = some (p, back))
      (hnew : c.chain.get sig = none) (hpays : pays env p tx) :
      Turn env c false { c with chain := c.chain.set sig tx, loose := c.loose.eraseIdx i } [.paid p]
  | returned {i : ℕ} {p : Payout} {landed : Bool} (hi : c.waiting? i = some (p, landed))
      (hlanded : p.field = .sol ∨ landed) : Turn env c true (c.settled i p landed false) []
  | threw {i : ℕ} {p : Payout} {landed : Bool} (hi : c.waiting? i = some (p, landed)) :
      Turn env c (!landed) (c.settled i p landed true) [.refund p]
  | restart (signal : Option Quotes) (b : BootDraw) :
      Turn env c false (c.restart env signal b) [.other (change c.ledger (c.restart env signal b).ledger)]

/-- The host goes on by one of its own events, or stays. -/
theorem Turn.host_step {fair : Bool} (ht : Turn env c fair c' moves) :
    c'.host = c.host ∨ ∃ event, Host.step env.host c.host event = .ok (c'.host, ()) := by
  cases ht with
  | host hinner hstep => exact .inr ⟨_, hstep⟩
  | @credits i v tx hv htx hrise =>
      obtain ⟨wallet, sig, asset⟩ := v
      cases asset with
      | sol px => exact .inr ⟨.depositSol wallet (rise env .sol tx) px, rfl⟩
      | token side => exact .inr ⟨.deposit wallet side (rise env (sideField side) tx), rfl⟩
  | draws hr hstep => exact .inr hstep
  | @returned i p landed hi hlanded => exact .inr ⟨.payoutSent i, rfl⟩
  | @threw i p landed hi => exact .inr ⟨.payoutFailed i, rfl⟩
  | restart signal b => exact .inr ⟨.restart signal b, rfl⟩
  | _ => exact .inl rfl

theorem Turn.ordered {fair : Bool} (ht : Turn env c fair c' moves) (ho : Ordered env.host c.host) :
    Ordered env.host c'.host := by
  rcases ht.host_step with hsame | ⟨event, hstep⟩
  · rw [hsame]
    exact ho
  · exact ho.step hstep

/-- No event of the host but a restart closes an account. -/
theorem inner_stays {event : HostEvent} {h : Host} (ho : Ordered env.host c.host) (hinner : edge event = false)
    (hstep : Host.step env.host c.host event = .ok (h, ())) (id : String) (hid : (c.ledger.get id).isSome) :
    (h.engine.ledger.get id).isSome := by
  cases event with
  | serve event =>
      obtain ⟨hup, rfl⟩ := serve_accepted hstep
      exact (serve_holds ho.sound hup).2 id hid
  | join wallet side =>
      cases hstep
      exact (Joined.acct c.ledger wallet side).stays id hid
  | convert event =>
      obtain ⟨hown, d, hsteps, rfl⟩ := convert_accepted hstep
      exact (Joined.desk ho.desk hsteps hown).stays id hid
  | persist =>
      cases hstep
      exact hid
  | timer throws =>
      cases hstep
      unfold Host.timer
      split
      · rw [(write_same _ throws).1]
        exact hid
      · exact hid
  | flush throws =>
      cases hstep
      rw [Host.flush, (write_same _ throws).1]
      exact hid
  | _ => cases hinner

/-- It waits for no payment of its own. -/
theorem inner_payouts {event : HostEvent} {h : Host} (hinner : edge event = false)
    (hstep : Host.step env.host c.host event = .ok (h, ())) : h.payouts = c.host.payouts := by
  cases event with
  | serve event =>
      obtain ⟨-, rfl⟩ := serve_accepted hstep
      rfl
  | convert event =>
      obtain ⟨-, d, -, rfl⟩ := convert_accepted hstep
      rfl
  | timer throws =>
      cases hstep
      unfold Host.timer
      split
      · rw [(write_same _ throws).2.2.1]
      · rfl
  | flush throws =>
      cases hstep
      rw [Host.flush, (write_same _ throws).2.2.1]
  | join wallet side =>
      cases hstep
      rfl
  | persist =>
      cases hstep
      rfl
  | _ => cases hinner

end Custody

end BullsUnicorns.Engine

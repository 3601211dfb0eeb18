import BullsUnicorns.Engine.Lemmas.Custody
import BullsUnicorns.Engine.Theorems.Restart
import BullsUnicorns.Lib.OrderedMap

/-!
# Deposits and withdrawals

Within a process a signature is credited once, whoever names it and however often, for exactly what its transaction
brought the vault; a read that fails leaves no trace. As long as no payment lands that was given back, the vault
covers the accounts together with what is still to be paid.
-/

namespace BullsUnicorns.Engine

open Battle

namespace Custody

variable {env : CustodyEnv} {c c' : Custody} {h moves : List Move}

/-! ## Signatures -/

/-- The credits that a log tells of, in order. -/
def creditsOf (h : List Move) : List Credit :=
  h.filterMap fun move =>
    match move with
    | .credit c => some c
    | _ => none

@[simp]
theorem creditsOf_append (h h' : List Move) : creditsOf (h ++ h') = creditsOf h ++ creditsOf h' := List.filterMap_append

/-- The chain bears a credit out: its transaction brought the vault this much, at a price; a token has the price one. -/
def BorneOut (env : CustodyEnv) (chain : OrderedMap String ParsedTx) (credit : Credit) : Prop :=
  ∃ tx, chain.get credit.sig = some tx ∧ 0 < rise env credit.field tx ∧
    ∃ px, 0 < px ∧ (credit.field ≠ .sol → px = 1) ∧ credit.units = rise env credit.field tx * px

theorem BorneOut.grows {chain : OrderedMap String ParsedTx} {credit : Credit} {sig : String} {tx : ParsedTx}
    (hb : BorneOut env chain credit) (hnew : chain.get sig = none) : BorneOut env (chain.set sig tx) credit := by
  obtain ⟨tx', hget, hrise⟩ := hb
  refine ⟨tx', ?_, hrise⟩
  have hne : credit.sig ≠ sig := by
    rintro heq
    rw [heq, hnew] at hget
    cases hget
  rw [OrderedMap.get_set, if_neg hne, hget]

/-- What is reserved and what has been credited. -/
structure Signatures (env : CustodyEnv) (h : List Move) (c : Custody) : Prop where
  /-- A reservation is that of a message that waits. -/
  held : c.inFlightSigs = c.verifying.map (·.sig)
  once : (c.seenSigs ++ c.inFlightSigs).Nodup
  priced : ∀ v ∈ c.verifying, 0 < v.asset.price
  seen : c.seenSigs = ((creditsOf h).filter (·.boot = c.boot)).map (·.sig)
  past : ∀ credit ∈ creditsOf h, credit.boot ≤ c.boot
  distinct : ((creditsOf h).map fun credit => (credit.boot, credit.sig)).Nodup
  borne : ∀ credit ∈ creditsOf h, BorneOut env c.chain credit

theorem Signatures.first (b : BootDraw) (vault : Field → ℚ) : Signatures env [] (first env b vault) where
  held := rfl
  once := List.nodup_nil
  priced := fun _ hv => (List.not_mem_nil hv).elim
  seen := rfl
  past := fun _ hc => (List.not_mem_nil hc).elim
  distinct := List.nodup_nil
  borne := fun _ hc => (List.not_mem_nil hc).elim

/-- A turn that credits nothing, and leaves the signatures and the process alone. -/
theorem Signatures.same (hs : Signatures env h c) (hcredits : creditsOf moves = [])
    (hflight : c'.inFlightSigs = c.inFlightSigs) (hverifying : c'.verifying = c.verifying)
    (hseen : c'.seenSigs = c.seenSigs) (hboot : c'.boot = c.boot)
    (hchain : ∀ credit, BorneOut env c.chain credit → BorneOut env c'.chain credit) :
    Signatures env (h ++ moves) c' := by
  have hlog : creditsOf (h ++ moves) = creditsOf h := by rw [creditsOf_append, hcredits, List.append_nil]
  constructor
  case held => rw [hflight, hverifying, hs.held]
  case once =>
      rw [hflight, hseen]
      exact hs.once
  case priced =>
      rw [hverifying]
      exact hs.priced
  case seen => rw [hlog, hseen, hboot, hs.seen]
  case past =>
      rw [hlog, hboot]
      exact hs.past
  case distinct =>
      rw [hlog]
      exact hs.distinct
  case borne =>
      rw [hlog]
      exact fun credit hc => hchain credit (hs.borne credit hc)

theorem filter_ne_of_nodup {α : Type*} [DecidableEq α] {l : List α} (hl : l.Nodup) {i : ℕ} {a : α} (hi : l[i]? = some a) :
    l.filter (· ≠ a) = l.eraseIdx i := by
  obtain ⟨hlt, rfl⟩ := List.getElem?_eq_some_iff.mp hi
  rw [← hl.erase_getElem i hlt, hl.erase_eq_filter]
  exact List.filter_congr fun x _ => by simp [bne, beq_eq_decide]

/-- What a verification leaves when it ends: the others and their reservations. -/
theorem Signatures.released (hs : Signatures env h c) {i : ℕ} {v : Verification} (hv : c.verifying[i]? = some v) :
    (c.release i v).inFlightSigs = (c.release i v).verifying.map (·.sig) := by
  have hnodup : (c.verifying.map (·.sig)).Nodup := by
    rw [← hs.held]
    exact (List.nodup_append.mp hs.once).2.1
  have hi : (c.verifying.map (·.sig))[i]? = some v.sig := by simp [hv]
  change c.inFlightSigs.filter (· ≠ v.sig) = (c.verifying.eraseIdx i).map (·.sig)
  rw [hs.held, filter_ne_of_nodup hnodup hi, List.eraseIdx_map]

theorem Signatures.ends (hs : Signatures env h c) {i : ℕ} {v : Verification} (hv : c.verifying[i]? = some v) :
    Signatures env (h ++ []) (c.release i v) where
  held := hs.released hv
  once := hs.once.sublist (List.Sublist.append_left List.filter_sublist c.seenSigs)
  priced := fun v' hv' => hs.priced v' (List.mem_of_mem_eraseIdx hv')
  seen := by
    rw [List.append_nil]
    exact hs.seen
  past := by
    rw [List.append_nil]
    exact hs.past
  distinct := by
    rw [List.append_nil]
    exact hs.distinct
  borne := by
    rw [List.append_nil]
    exact hs.borne

theorem Signatures.asks (hs : Signatures env h c) {v : Verification} (hseen : v.sig ∉ c.seenSigs)
    (hfree : v.sig ∉ c.inFlightSigs) (hpx : 0 < v.asset.price) :
    Signatures env (h ++ []) { c with inFlightSigs := c.inFlightSigs ++ [v.sig], verifying := c.verifying ++ [v] } where
  held := by
    change c.inFlightSigs ++ [v.sig] = (c.verifying ++ [v]).map (·.sig)
    rw [hs.held, List.map_append, List.map_singleton]
  once := by
    change (c.seenSigs ++ (c.inFlightSigs ++ [v.sig])).Nodup
    rw [← List.append_assoc]
    refine List.nodup_append.mpr ⟨hs.once, List.nodup_singleton _, fun x hx y hy heq => ?_⟩
    obtain rfl := List.mem_singleton.mp hy
    subst heq
    exact (List.mem_append.mp hx).elim hseen hfree
  priced := by
    intro v' hv'
    rcases List.mem_append.mp hv' with hv' | hv'
    · exact hs.priced v' hv'
    · rw [List.mem_singleton.mp hv']
      exact hpx
  seen := by
    rw [List.append_nil]
    exact hs.seen
  past := by
    rw [List.append_nil]
    exact hs.past
  distinct := by
    rw [List.append_nil]
    exact hs.distinct
  borne := by
    rw [List.append_nil]
    exact hs.borne

theorem Asset.price_of_token {asset : Asset} (h : asset.field ≠ .sol) : asset.price = 1 := by
  cases asset with
  | sol px => exact absurd rfl h
  | token side => rfl

theorem Signatures.credits (hs : Signatures env h c) {i : ℕ} {v : Verification} {tx : ParsedTx} {host : Host}
    (hv : c.verifying[i]? = some v) (htx : c.chain.get v.sig = some tx) (hrise : 0 < rise env v.asset.field tx) :
    Signatures env
      (h ++ [.credit ⟨c.boot, v.sig, v.wallet, v.asset.field, rise env v.asset.field tx * v.asset.price⟩])
      { { c with seenSigs := c.seenSigs ++ [v.sig] }.release i v with host := host } := by
  have hmem : v ∈ c.verifying := List.mem_of_getElem? hv
  have hflight : v.sig ∈ c.inFlightSigs := by
    rw [hs.held]
    exact List.mem_map_of_mem hmem
  have hunseen : v.sig ∉ c.seenSigs := fun hseen =>
    (List.nodup_append.mp hs.once).2.2 v.sig hseen v.sig hflight rfl
  constructor
  case held => exact hs.released hv
  case once =>
      change ((c.seenSigs ++ [v.sig]) ++ c.inFlightSigs.filter (· ≠ v.sig)).Nodup
      have hrest : (c.seenSigs ++ c.inFlightSigs.filter (· ≠ v.sig)).Nodup :=
        hs.once.sublist (List.Sublist.append_left List.filter_sublist c.seenSigs)
      rw [List.append_assoc, List.singleton_append]
      refine List.nodup_middle.mpr (List.nodup_cons.mpr ⟨?_, hrest⟩)
      rw [List.mem_append]
      rintro (hseen | hrest)
      · exact hunseen hseen
      · simpa using (List.mem_filter.mp hrest).2
  case priced => exact fun v' hv' => hs.priced v' (List.mem_of_mem_eraseIdx hv')
  case seen =>
      change c.seenSigs ++ [v.sig] = ((creditsOf (h ++ _)).filter (·.boot = c.boot)).map (·.sig)
      rw [creditsOf_append, List.filter_append, List.map_append, ← hs.seen]
      simp [creditsOf]
  case past =>
      rw [creditsOf_append]
      intro credit hc
      rcases List.mem_append.mp hc with hc | hc
      · exact hs.past credit hc
      · rw [List.mem_singleton.mp hc]
        exact le_refl c.boot
  case distinct =>
      rw [creditsOf_append, List.map_append]
      refine List.nodup_append.mpr ⟨hs.distinct, List.nodup_singleton _, fun x hx y hy heq => ?_⟩
      obtain ⟨credit, hc, rfl⟩ := List.mem_map.mp hx
      obtain rfl := List.mem_singleton.mp hy
      have hboot : credit.boot = c.boot := (Prod.mk.inj heq).1
      have hsig : credit.sig = v.sig := (Prod.mk.inj heq).2
      apply hunseen
      rw [hs.seen, ← hsig]
      exact List.mem_map_of_mem (List.mem_filter.mpr ⟨hc, decide_eq_true hboot⟩)
  case borne =>
      rw [creditsOf_append]
      intro credit hc
      rcases List.mem_append.mp hc with hc | hc
      · exact hs.borne credit hc
      · rw [List.mem_singleton.mp hc]
        exact ⟨tx, htx, hrise, v.asset.price, hs.priced v hmem, Asset.price_of_token, rfl⟩

/-- A new process has credited nothing yet. -/
theorem Signatures.restart (hs : Signatures env h c) (signal : Option Quotes) (b : BootDraw) {change : Field → ℚ} :
    Signatures env (h ++ [.other change]) (c.restart env signal b) := by
  have hlog : creditsOf (h ++ [.other change]) = creditsOf h := by simp [creditsOf]
  constructor
  case held => rfl
  case once => exact List.nodup_nil
  case priced => exact fun _ hv => (List.not_mem_nil hv).elim
  case seen =>
      rw [hlog]
      have hnone : (creditsOf h).filter (·.boot = (c.restart env signal b).boot) = [] := by
        refine List.filter_eq_nil_iff.mpr fun credit hc => ?_
        have hle := hs.past credit hc
        have hboot : (c.restart env signal b).boot = c.boot + 1 := rfl
        simp only [decide_eq_true_eq]
        omega
      rw [hnone]
      rfl
  case past =>
      rw [hlog]
      exact fun credit hc => (hs.past credit hc).trans (Nat.le_succ _)
  case distinct =>
      rw [hlog]
      exact hs.distinct
  case borne =>
      rw [hlog]
      exact hs.borne

theorem Signatures.turn {fair : Bool} (hs : Signatures env h c) (ht : Turn env c fair c' moves) : Signatures env (h ++ moves) c' := by
  cases ht with
  | idle => exact hs.same rfl rfl rfl rfl rfl fun _ hb => hb
  | host hinner hstep => exact hs.same rfl rfl rfl rfl rfl fun _ hb => hb
  | confirmed hnew => exact hs.same rfl rfl rfl rfl rfl fun _ hb => hb.grows hnew
  | asks hseen hfree hpx => exact hs.asks hseen hfree hpx
  | ends hv => exact hs.ends hv
  | credits hv htx hrise => exact hs.credits hv htx hrise
  | @draws r hr hstep =>
      refine hs.same ?_ rfl rfl rfl rfl fun _ hb => hb
      obtain ⟨l, p⟩ := r
      cases p <;> rfl
  | lands hi hnew hpays => exact hs.same rfl rfl rfl rfl rfl fun _ hb => hb.grows hnew
  | landsLate hi hnew hpays => exact hs.same rfl rfl rfl rfl rfl fun _ hb => hb.grows hnew
  | returned hi hlanded => exact hs.same rfl rfl rfl rfl rfl fun _ hb => hb
  | threw hi => exact hs.same rfl rfl rfl rfl rfl fun _ hb => hb
  | restart signal b => exact hs.restart signal b

/-! ## Runs -/

def sumOf (g : Move → ℚ) (h : List Move) : ℚ := (h.map g).sum

@[simp]
theorem sumOf_append (g : Move → ℚ) (h h' : List Move) : sumOf g (h ++ h') = sumOf g h + sumOf g h' := by
  simp [sumOf]

@[simp]
theorem sumOf_singleton (g : Move → ℚ) (move : Move) : sumOf g [move] = g move := by simp [sumOf]

@[simp]
theorem sumOf_nil (g : Move → ℚ) : sumOf g [] = 0 := rfl

def credited (f : Field) : Move → ℚ
  | .credit c => if c.field = f then c.units else 0
  | _ => 0

def debited (f : Field) : Move → ℚ
  | .debit p => share p f
  | _ => 0

def givenBack (f : Field) : Move → ℚ
  | .refund p => share p f
  | _ => 0

/-- What has been paid, by what was debited for it. -/
def paid (f : Field) : Move → ℚ
  | .paid p => share p f
  | _ => 0

/-- The same in whole base units. -/
def sent (f : Field) : Move → ℚ
  | .paid p => if p.field = f then toWhole (toBase p.units) else 0
  | _ => 0

def payments (f : Field) : Move → ℚ
  | .paid p => if p.field = f then 1 else 0
  | _ => 0

/-- What transactions that are no payments brought the vault, and what they took out of it. -/
def gained (env : CustodyEnv) (f : Field) : Move → ℚ
  | .rose _ tx => max 0 (rise env f tx)
  | _ => 0

def taken (env : CustodyEnv) (f : Field) : Move → ℚ
  | .rose _ tx => max 0 (-rise env f tx)
  | _ => 0

def others (f : Field) : Move → ℚ
  | .other change => change f
  | _ => 0

/-- What the vault holds of a field, by what it held at first. -/
def holdings (env : CustodyEnv) (vault : Field → ℚ) (c : Custody) (f : Field) : ℚ :=
  vault f + c.chain.sum fun _ => rise env f

/-- What has been debited and is still to be paid. -/
def owed (c : Custody) (f : Field) : ℚ :=
  (List.zipWith (fun p landed => if landed then 0 else share p f) c.host.payouts c.landed).sum

/-! ### Payments in base units -/

theorem toWhole_toBase_nonneg {x : ℚ} (hx : 0 < x) : 0 ≤ toWhole (toBase x) := by
  have hunit : (0 : ℚ) < UNIT := by norm_num [UNIT]
  have hbase : 0 ≤ toBase x := Int.floor_nonneg.mpr (by positivity)
  exact div_nonneg (by exact_mod_cast hbase) hunit.le

theorem rise_of_pays {p : Payout} {tx : ParsedTx} (h : pays env p tx) {f : Field} (hf : f ≠ .sol) :
    rise env f tx = if f = p.field then -toWhole (toBase p.units) else 0 := by
  have hall := List.all_eq_true.mp h
  refine of_decide_eq_true (hall f ?_)
  cases f with
  | sol => exact absurd rfl hf
  | _ => simp

section
variable {α β : Type*} (g : α → β → ℚ) {l : List α} {m : List β} {i : ℕ} {a : α} {b : β}

theorem sum_zipWith_erase (ha : l[i]? = some a) (hb : m[i]? = some b) :
    (List.zipWith g l m).sum = g a b + (List.zipWith g (l.eraseIdx i) (m.eraseIdx i)).sum := by
  induction l generalizing m i with
  | nil => simp at ha
  | cons x l ih =>
      cases m with
      | nil => simp at hb
      | cons y m =>
          cases i with
          | zero =>
              obtain rfl : x = a := by simpa using ha
              obtain rfl : y = b := by simpa using hb
              simp
          | succ i =>
              simp only [List.zipWith_cons_cons, List.sum_cons, List.eraseIdx_cons_succ]
              rw [ih (by simpa using ha) (by simpa using hb)]
              ring

theorem sum_zipWith_set (ha : l[i]? = some a) (hb : m[i]? = some b) (b' : β) :
    (List.zipWith g l (m.set i b')).sum = (List.zipWith g l m).sum - g a b + g a b' := by
  induction l generalizing m i with
  | nil => simp at ha
  | cons x l ih =>
      cases m with
      | nil => simp at hb
      | cons y m =>
          cases i with
          | zero =>
              obtain rfl : x = a := by simpa using ha
              obtain rfl : y = b := by simpa using hb
              simp only [List.set_cons_zero, List.zipWith_cons_cons, List.sum_cons]
              ring
          | succ i =>
              simp only [List.set_cons_succ, List.zipWith_cons_cons, List.sum_cons]
              rw [ih (by simpa using ha) (by simpa using hb)]
              ring

end

/-! ## Cover -/

theorem waiting_some {i : ℕ} {p : Payout} {landed : Bool} (hi : c.waiting? i = some (p, landed)) :
    c.host.payouts[i]? = some p ∧ c.landed[i]? = some landed := by
  unfold waiting? at hi
  split at hi
  · next p' landed' hp hl =>
      cases hi
      exact ⟨hp, hl⟩
  · cases hi

/-- Where every amount of a run that is true to the chain is. -/
structure Covered (env : CustodyEnv) (b : BootDraw) (vault : Field → ℚ) (h : List Move) (c : Custody) : Prop where
  ordered : Ordered env.host c.host
  lengths : c.landed.length = c.host.payouts.length
  known : ∀ p ∈ c.host.payouts, (c.ledger.get p.wallet).isSome
  boots : ∀ credit ∈ creditsOf h, credit.boot = c.boot
  ledger : ∀ f, total everybody c.ledger f = total everybody (first env b vault).ledger f + sumOf (credited f) h -
    sumOf (debited f) h + sumOf (givenBack f) h + sumOf (others f) h
  chain : ∀ f, f ≠ .sol → (c.chain.sum fun _ => rise env f) =
    sumOf (gained env f) h - sumOf (taken env f) h - sumOf (sent f) h
  rises : ∀ f, f ≠ .sol → (c.chain.sum fun _ tx => max 0 (rise env f tx)) = sumOf (gained env f) h
  owed : ∀ f, f ≠ .sol → c.owed f = sumOf (debited f) h - sumOf (givenBack f) h - sumOf (paid f) h

section
variable {b : BootDraw} {vault : Field → ℚ}

theorem Covered.first : Covered env b vault [] (first env b vault) where
  ordered := .first b vault
  lengths := rfl
  known := fun _ hp => (List.not_mem_nil hp).elim
  boots := fun _ hc => (List.not_mem_nil hc).elim
  ledger := fun f => by simp
  chain := fun f _ => by simp [Custody.first]
  rises := fun f _ => by simp [Custody.first]
  owed := fun f _ => by simp [Custody.owed, Custody.first]

/-- A turn that moves nothing. -/
theorem Covered.quiet (hc : Covered env b vault h c) (hhost : c'.host = c.host) (hchain : c'.chain = c.chain)
    (hlanded : c'.landed = c.landed) (hboot : c'.boot = c.boot) : Covered env b vault (h ++ []) c' := by
  have hledger : c'.ledger = c.ledger := congrArg (fun h => h.engine.ledger) hhost
  rw [List.append_nil]
  constructor
  case ordered =>
      rw [hhost]
      exact hc.ordered
  case lengths => rw [hlanded, hhost, hc.lengths]
  case known =>
      rw [hhost, hledger]
      exact hc.known
  case boots =>
      rw [hboot]
      exact hc.boots
  case ledger =>
      rw [hledger]
      exact hc.ledger
  case chain =>
      rw [hchain]
      exact hc.chain
  case rises =>
      rw [hchain]
      exact hc.rises
  case owed =>
      intro f hf
      rw [← hc.owed f hf, Custody.owed, Custody.owed, hhost, hlanded]

/-- The rest of the engine goes on. -/
theorem Covered.host (hc : Covered env b vault h c) {event : HostEvent} {host : Host} (hinner : edge event = false)
    (hstep : Host.step env.host c.host event = .ok (host, ())) :
    Covered env b vault (h ++ [.other (change c.ledger host.engine.ledger)]) { c with host := host } := by
  have hpayouts := inner_payouts hinner hstep
  constructor
  case ordered => exact hc.ordered.step hstep
  case lengths =>
      change c.landed.length = host.payouts.length
      rw [hpayouts, hc.lengths]
  case known =>
      intro p hp
      have hp : p ∈ c.host.payouts := hpayouts ▸ hp
      exact inner_stays hc.ordered hinner hstep _ (hc.known p hp)
  case boots => simpa [creditsOf] using hc.boots
  case ledger =>
      intro f
      change total everybody host.engine.ledger f = _
      have hbefore := hc.ledger f
      simp only [sumOf_append, sumOf_singleton, credited, debited, givenBack, others, change]
      linarith
  case chain => exact fun f hf => (hc.chain f hf).trans (by simp [gained, taken, sent])
  case rises => exact fun f hf => (hc.rises f hf).trans (by simp [gained])
  case owed =>
      intro f hf
      have hbefore := hc.owed f hf
      simp only [sumOf_append, sumOf_singleton, debited, givenBack, paid, add_zero]
      rw [← hbefore, Custody.owed, Custody.owed]
      change (List.zipWith _ host.payouts c.landed).sum = _
      rw [hpayouts]

/-- Somebody's transaction lands. -/
theorem Covered.confirmed (hc : Covered env b vault h c) {sig : String} {tx : ParsedTx} (hnew : c.chain.get sig = none) :
    Covered env b vault (h ++ [.rose sig tx]) { c with chain := c.chain.set sig tx } where
  ordered := hc.ordered
  lengths := hc.lengths
  known := hc.known
  boots := by simpa [creditsOf] using hc.boots
  ledger := fun f => (hc.ledger f).trans (by simp [credited, debited, givenBack, others])
  chain := by
    intro f hf
    have hbefore := hc.chain f hf
    change ((c.chain.set sig tx).sum fun _ => rise env f) = _
    rw [OrderedMap.sum_set_new hnew, hbefore]
    simp only [sumOf_append, sumOf_singleton, gained, taken, sent]
    have hsplit : rise env f tx = max 0 (rise env f tx) - max 0 (-rise env f tx) := by
      rcases le_total 0 (rise env f tx) with hle | hle
      · rw [max_eq_right hle, max_eq_left (by linarith)]
        ring
      · rw [max_eq_left hle, max_eq_right (by linarith)]
        ring
    linarith
  rises := by
    intro f hf
    change ((c.chain.set sig tx).sum fun _ tx => max 0 (rise env f tx)) = _
    rw [OrderedMap.sum_set_new hnew, hc.rises f hf]
    simp [gained]
  owed := fun f hf => (hc.owed f hf).trans (by simp [debited, givenBack, paid])

theorem Covered.credits (hc : Covered env b vault h c) {i : ℕ} {v : Verification} {delta : ℚ}
    (hpx : 0 < v.asset.price) (hdelta : 0 < delta) (ho : Ordered env.host (c.host.setLedger (bank v delta c.ledger))) :
    Covered env b vault (h ++ [.credit ⟨c.boot, v.sig, v.wallet, v.asset.field, delta * v.asset.price⟩])
      { { c with seenSigs := c.seenSigs ++ [v.sig] }.release i v with
        host := c.host.setLedger (bank v delta c.ledger) } where
  ordered := ho
  lengths := hc.lengths
  known := fun p hp => bank_stays v delta c.ledger _ (hc.known p hp)
  boots := by
    rw [creditsOf_append]
    intro credit hcredit
    rcases List.mem_append.mp hcredit with hcredit | hcredit
    · exact hc.boots credit hcredit
    · rw [List.mem_singleton.mp hcredit]
      rfl
  ledger := by
    intro f
    change total everybody (bank v delta c.ledger) f = _
    rw [total_bank v hpx hdelta, hc.ledger f]
    simp only [sumOf_append, sumOf_singleton, credited, debited, givenBack, others]
    ring
  chain := fun f hf => (hc.chain f hf).trans (by simp [gained, taken, sent])
  rises := fun f hf => (hc.rises f hf).trans (by simp [gained])
  owed := fun f hf => (hc.owed f hf).trans (by simp [debited, givenBack, paid])

theorem Covered.draws (hc : Covered env b vault h c) {r : Ledger × Option Payout} (hr : Drawn c.ledger r)
    (ho : Ordered env.host (c.host.withdrawal r)) :
    Covered env b vault (h ++ (c.withdrawal r).2) (c.withdrawal r).1 := by
  obtain ⟨l, p⟩ := r
  constructor
  case ordered => exact ho
  case lengths =>
      change (c.landed ++ p.toList.map fun _ => false).length = (c.host.payouts ++ p.toList).length
      rw [List.length_append, List.length_append, List.length_map, hc.lengths]
  case known =>
      intro p' hp'
      rcases List.mem_append.mp hp' with hp' | hp'
      · exact hr.stays _ (hc.known p' hp')
      · exact hr.known p' (Option.mem_toList.mp hp')
  case boots => cases p <;> simpa [creditsOf, withdrawal] using hc.boots
  case ledger =>
      intro f
      change total everybody l f = _
      rw [hr.total f, hc.ledger f]
      cases p with
      | none => simp [withdrawal]
      | some p =>
          simp only [withdrawal, Option.toList_some, List.map_cons, List.map_nil, List.sum_singleton, sumOf_append,
            sumOf_singleton, credited, debited, givenBack, others]
          ring
  case chain => exact fun f hf => (hc.chain f hf).trans (by cases p <;> simp [withdrawal, gained, taken, sent])
  case rises => exact fun f hf => (hc.rises f hf).trans (by cases p <;> simp [withdrawal, gained])
  case owed =>
      intro f hf
      have hbefore := hc.owed f hf
      change (List.zipWith _ (c.host.payouts ++ p.toList) (c.landed ++ p.toList.map fun _ => false)).sum = _
      rw [List.zipWith_append hc.lengths.symm, List.sum_append]
      rw [Custody.owed] at hbefore
      rw [hbefore]
      cases p with
      | none => simp [withdrawal]
      | some p =>
          simp [withdrawal, debited, givenBack, paid]
          ring

theorem Covered.lands (hc : Covered env b vault h c) {i : ℕ} {p : Payout} {sig : String} {tx : ParsedTx}
    (hi : c.waiting? i = some (p, false)) (hnew : c.chain.get sig = none) (hpays : pays env p tx) :
    Covered env b vault (h ++ [.paid p]) { c with chain := c.chain.set sig tx, landed := c.landed.set i true } := by
  obtain ⟨hp, hl⟩ := waiting_some hi
  have hunits := hc.ordered.payouts p (List.mem_of_getElem? hp)
  constructor
  case ordered => exact hc.ordered
  case lengths =>
      change (c.landed.set i true).length = c.host.payouts.length
      rw [List.length_set, hc.lengths]
  case known => exact hc.known
  case boots => simpa [creditsOf] using hc.boots
  case ledger => exact fun f => (hc.ledger f).trans (by simp [credited, debited, givenBack, others])
  case chain =>
      intro f hf
      change ((c.chain.set sig tx).sum fun _ => rise env f) = _
      rw [OrderedMap.sum_set_new hnew, hc.chain f hf, rise_of_pays hpays hf]
      simp only [sumOf_append, sumOf_singleton, gained, taken, sent, @eq_comm _ p.field]
      split <;> ring
  case rises =>
      intro f hf
      change ((c.chain.set sig tx).sum fun _ tx => max 0 (rise env f tx)) = _
      have hnone : max 0 (rise env f tx) = 0 := by
        rw [rise_of_pays hpays hf]
        have := toWhole_toBase_nonneg hunits
        split
        · exact max_eq_left (by linarith)
        · exact max_self 0
      rw [OrderedMap.sum_set_new hnew, hc.rises f hf, hnone]
      simp [gained]
  case owed =>
      intro f hf
      have hbefore := hc.owed f hf
      rw [Custody.owed] at hbefore
      change (List.zipWith _ c.host.payouts (c.landed.set i true)).sum = _
      rw [sum_zipWith_set _ hp hl, hbefore]
      simp [debited, givenBack, paid]
      ring

/-- The wait for a payment ends, after which the ledger is `l`. -/
theorem Covered.settled (hc : Covered env b vault h c) {i : ℕ} {p : Payout} {landed back : Bool} {l : Ledger}
    (hi : c.waiting? i = some (p, landed)) (ho : Ordered env.host (c.settled i p landed back).host)
    (hledger : (c.settled i p landed back).ledger = l) (hj : Joined c.ledger l) (hcredits : creditsOf moves = [])
    (htotal : ∀ f, total everybody l f = total everybody c.ledger f + sumOf (credited f) moves - sumOf (debited f) moves +
      sumOf (givenBack f) moves + sumOf (others f) moves)
    (hchain : ∀ f, sumOf (gained env f) moves = 0 ∧ sumOf (taken env f) moves = 0 ∧ sumOf (sent f) moves = 0)
    (howed : ∀ f, f ≠ .sol → sumOf (debited f) moves - sumOf (givenBack f) moves - sumOf (paid f) moves =
      -if landed then 0 else share p f) :
    Covered env b vault (h ++ moves) (c.settled i p landed back) := by
  obtain ⟨hp, hl⟩ := waiting_some hi
  have hpayouts : (c.settled i p landed back).host.payouts = c.host.payouts.eraseIdx i := by
    simp only [Custody.settled, Host.payout, hp]
  constructor
  case ordered => exact ho
  case lengths =>
      rw [hpayouts]
      change (c.landed.eraseIdx i).length = _
      rw [List.length_eraseIdx, List.length_eraseIdx, hc.lengths]
  case known =>
      rw [hpayouts, hledger]
      exact fun p' hp' => hj.stays _ (hc.known p' (List.mem_of_mem_eraseIdx hp'))
  case boots =>
      rw [creditsOf_append, hcredits, List.append_nil]
      exact hc.boots
  case ledger =>
      intro f
      rw [hledger, htotal f, hc.ledger f]
      simp only [sumOf_append]
      ring
  case chain =>
      intro f hf
      refine (hc.chain f hf).trans ?_
      obtain ⟨hgained, htaken, hsent⟩ := hchain f
      simp only [sumOf_append, hgained, htaken, hsent, add_zero]
  case rises =>
      intro f hf
      refine (hc.rises f hf).trans ?_
      rw [sumOf_append, (hchain f).1, add_zero]
  case owed =>
      intro f hf
      have hbefore := hc.owed f hf
      have hrest := howed f hf
      rw [Custody.owed, sum_zipWith_erase _ hp hl] at hbefore
      rw [Custody.owed, hpayouts]
      change (List.zipWith _ (c.host.payouts.eraseIdx i) (c.landed.eraseIdx i)).sum = _
      simp only [sumOf_append]
      linarith

theorem Covered.returned (hc : Covered env b vault h c) {i : ℕ} {p : Payout} {landed : Bool}
    (hi : c.waiting? i = some (p, landed)) (hlanded : p.field = .sol ∨ landed)
    (ho : Ordered env.host (c.settled i p landed false).host) :
    Covered env b vault (h ++ []) (c.settled i p landed false) := by
  have hp := (waiting_some hi).1
  have hunits := hc.ordered.payouts p (List.mem_of_getElem? hp)
  refine hc.settled hi ho (l := p.sent c.ledger) ?_ (.sent hunits _) rfl (fun f => ?_) (fun f => ?_) fun f hf => ?_
  · simp only [Custody.ledger, Custody.settled, Host.payout, hp]
    rfl
  · simp [total_sent]
  · simp
  · rcases hlanded with hsol | hlanded
    · have hnone : share p f = 0 := if_neg fun (hp : p.field = f) => hf (hp.symm.trans hsol)
      simp [hnone]
    · simp [hlanded]

theorem Covered.threw (hc : Covered env b vault h c) {i : ℕ} {p : Payout} (hi : c.waiting? i = some (p, false))
    (ho : Ordered env.host (c.settled i p false true).host) :
    Covered env b vault (h ++ [.refund p]) (c.settled i p false true) := by
  have hp := (waiting_some hi).1
  have hmem := List.mem_of_getElem? hp
  have hunits := hc.ordered.payouts p hmem
  refine hc.settled hi ho (l := p.failed c.ledger) ?_ (.failed hunits hc.ordered.sound.nonneg) rfl (fun f => ?_)
    (fun f => ?_) fun f hf => ?_
  · simp only [Custody.ledger, Custody.settled, Host.payout, hp]
    rfl
  · simp [total_failed (hc.known p hmem), credited, debited, givenBack, others]
  · simp [gained, taken, sent]
  · simp [debited, givenBack, paid]

theorem Covered.turn (hc : Covered env b vault h c) (hs : Signatures env h c) (ht : Turn env c true c' moves) :
    Covered env b vault (h ++ moves) c' := by
  have ho := ht.ordered hc.ordered
  generalize hfair : true = fair at ht
  cases ht with
  | idle => exact hc.quiet rfl rfl rfl rfl
  | host hinner hstep => exact hc.host hinner hstep
  | confirmed hnew => exact hc.confirmed hnew
  | asks hseen hfree hpx => exact hc.quiet rfl rfl rfl rfl
  | ends hv => exact hc.quiet rfl rfl rfl rfl
  | credits hv htx hrise => exact hc.credits (hs.priced _ (List.mem_of_getElem? hv)) hrise ho
  | draws hr hstep => exact hc.draws hr ho
  | lands hi hnew hpays => exact hc.lands hi hnew hpays
  | landsLate hi hnew hpays => cases hfair
  | returned hi hlanded => exact hc.returned hi hlanded ho
  | @threw i p landed hi =>
      cases landed with
      | false => exact hc.threw hi ho
      | true => cases hfair
  | restart signal b => cases hfair

end

end Custody

end BullsUnicorns.Engine

import BullsUnicorns.Engine.Lemmas.Convert

/-!
# What a convert does to the claims on the vault

A convert that is refunded must never land, and one that is credited must have filled what is credited; then the
ledger never claims more of the vault than before.
-/

namespace BullsUnicorns.Engine

variable {env : ConvertEnv} {p : String → Prop} {d d' : Desk} {job job' : Job} {i : ℕ} {f : Field}

/-! ## Claims that do not grow -/

/-- A refund of what will not land, a credit of what was filled, an answer of the house that is exact. -/
structure JobFine (env : ConvertEnv) (job : Job) : Prop where
  refunded : job.stage = .refunded → job.tx.isLive = false
  converted : job.stage = .converted → ∀ q fill, job.tx = .landed q fill → q.outAmount * (1 - CONVERT_FEE) ≤ (fill : ℚ)
  otc : ∀ out, job.stage = .otc out → ∀ f, job.gap f = 0 ∧
    job.pooled f = (if f = job.to' then -out else 0) + (if f = job.from' then job.amt else 0) ∧
    (job.wallet ∉ env.pool → job.moved f = (if f = job.to' then out else 0) - if f = job.from' then job.amt else 0)

def Fine (env : ConvertEnv) (d : Desk) : Prop := ∀ job ∈ d.jobs, JobFine env job

/-- What a step must not do: answer from a pool that holds just short of the amount, credit more than was filled,
refund what can land. -/
def Safe (env : ConvertEnv) (d : Desk) : ConvertEvent → Prop
  | .convert m r => r.isFrozen = false → d.inFlightConvert m.wallet = false →
    ∀ from' to' amt, Desk.asks env m r (d.opened m) = some (from', to', amt) →
      let l := (d.opened m).ledger.add m.wallet from' (-amt)
      let out := Desk.otcUnits env r amt from' to'
      Desk.offers env r l m.wallet amt from' to' → out ≤ poolBalance env.pool l to' + 1 / 10 ^ 9 →
        Whole l to' (poolAccounts env.pool l) out
  | .confirmed i => ∀ job, d.jobs[i]? = some job → job.stage = .swapping → ∀ q fill, job.tx = .landed q fill →
    q.outAmount * (1 - CONVERT_FEE) ≤ (fill : ℚ)
  | .threw i => ∀ job, d.jobs[i]? = some job → job.stage = .swapping → job.tx.isLive = false
  | _ => True

theorem Fine.set (h : Fine env d) (hjobs : d'.jobs = d.jobs.set i job) (hfine : JobFine env job) : Fine env d' := by
  intro x hx
  rw [hjobs] at hx
  rcases List.mem_or_eq_of_mem_set hx with hx | hx
  · exact h x hx
  · rw [hx]
    exact hfine

/-- A handler that is not at an exit has nothing to answer for. -/
theorem JobFine.waiting (h : job.stage.isOpen = true) : JobFine env job := by
  constructor
  case refunded =>
      intro heq
      rw [heq] at h
      cases h
  case converted =>
      intro heq
      rw [heq] at h
      cases h
  case otc =>
      intro out heq
      rw [heq] at h
      cases h

theorem Fine.refund (h : Fine env d) (hdead : job.tx.isLive = false) : Fine env (d.refund i job) := by
  refine h.set rfl ⟨fun _ => hdead, fun heq => ?_, fun out heq => ?_⟩
  · cases heq
  · cases heq

theorem Fine.snoc (h : Fine env d) (hfine : JobFine env job) (d₁ : Desk) :
    Fine env { d₁ with jobs := d.jobs ++ [job] } := by
  intro x hx
  rcases List.mem_append.mp hx with hx | hx
  · exact h x hx
  · rw [List.mem_singleton.mp hx]
    exact hfine

section
variable {r : ConvertReadings} {wallet : String} {amt : ℚ} {from' to' : Field}

/-- An answer of the house that leaves nothing over. -/
theorem answer_fine {l : Ledger} {out left back : ℚ} (hacc : (d.ledger.get wallet).isSome)
    (h : Answer env (d.ledger.add wallet from' (-amt)) l amt out left back from' to') (hleft : left = 0) :
    JobFine env (d.record (d.setWallet (l.add wallet to' out) wallet (some r.now) false)
      (answeredJob env r d l wallet amt out from' to')) := by
  constructor
  case refunded =>
      intro heq
      cases heq
  case converted =>
      intro heq
      cases heq
  case otc =>
      intro out' heq f
      have hout : out = out' := by
        change Stage.otc out = Stage.otc out' at heq
        injection heq
      subst hout
      obtain ⟨hgap, hmoved⟩ := answer_record (d.setWallet (l.add wallet to' out) wallet (some r.now) false)
        (answeredJob env r d l wallet amt out from' to') hacc h rfl rfl f
      refine ⟨?_, ?_, fun hpool => (hmoved hpool).trans (zero_add _)⟩
      · rw [hgap, hleft, h.back hleft, sub_self, ite_self, ite_self]
        norm_num
        rfl
      · have htotal := h.total (w := fun id _ => decide (id ∈ env.pool)) (fun id hid _ => by simpa using hid) f
        change total _ l f - _ = _
        rw [htotal, hleft, h.back hleft]
        change _ = (if f = to' then -out else 0) + if f = from' then amt else 0
        rw [sub_zero]
        ring

end

/-- A message is answered exactly where the pool does not hold just short of the amount. -/
theorem Fine.convert (h : Fine env d) (hkept : Kept env p d) {m : ConvertMsg} {r : ConvertReadings}
    (hsafe : Safe env d (.convert m r)) : Fine env (d.convert env m r) := by
  unfold Desk.convert
  split
  · exact h
  next hfrozen =>
  split
  · exact h
  next hfree =>
  dsimp only
  split
  · exact h
  · next from' to' amt hasks =>
      obtain ⟨hsides, hamt, hle⟩ := asks_some hasks
      have hacc := opened_isSome m d
      obtain ⟨d₁, job, hbegun, heq⟩ := begins_begun r to' hkept.pool (hkept.opened m).nonneg hacc hamt hle
      rw [heq]
      refine Fine.snoc (d := d.opened m) h ?_ d₁
      cases hbegun with
      | otc hoffers hout hanswer =>
          have hwhole := hsafe (by simpa using hfrozen) (by simpa using hfree) from' to' amt hasks hoffers
            (hout ▸ hanswer.had)
          exact answer_fine hacc hanswer (hanswer.whole.mpr (hout ▸ hwhole))
      | unpriced =>
          refine ⟨fun _ => rfl, fun heq => ?_, fun out heq => ?_⟩
          · cases heq
          · cases heq
      | waits stage hopen _ _ => exact JobFine.waiting hopen

theorem Fine.step {e : ConvertEvent} (h : Fine env d) (hkept : Kept env p d) (hsafe : Safe env d e)
    (hstep : Steps env d e d') : Fine env d' := by
  cases hstep with
  | convert m r => exact h.convert hkept hsafe
  | balanceRead x hi hstage =>
      rename_i i job
      have hbooks := (hkept.book _ (List.mem_of_getElem? hi)).books
      rw [Job.Books, hstage] at hbooks
      unfold Desk.balanceRead
      split
      · exact h.refund (by rw [hbooks.1]; rfl)
      · exact h.set rfl (.waiting rfl)
  | quoted quote built hi hstage htx =>
      rename_i i job
      have hdead : job.tx.isLive = false := by rw [htx]; rfl
      unfold Desk.quoted
      split
      · exact h.refund hdead
      split
      · exact h.refund hdead
      split
      · exact h.refund hdead
      · exact h.set rfl (.waiting (by dsimp only; rw [hstage]; rfl))
  | lands hi htx hfill =>
      rename_i i job q fill
      refine h.set rfl ?_
      have hbooks := (hkept.book _ (List.mem_of_getElem? hi)).books
      have hfine := h _ (List.mem_of_getElem? hi)
      refine ⟨fun heq => ?_, fun heq => ?_, fun out heq => ?_⟩
      · have hdead := hfine.refunded heq
        rw [htx] at hdead
        cases hdead
      · change job.stage = .converted at heq
        rw [Job.Books, heq] at hbooks
        obtain ⟨q', fill', hlanded, -⟩ := hbooks
        cases htx.symm.trans hlanded
      · change job.stage = .otc out at heq
        rw [Job.Books, heq] at hbooks
        cases htx.symm.trans hbooks
  | dies hi htx =>
      rename_i i job q
      refine h.set rfl ?_
      have hbooks := (hkept.book _ (List.mem_of_getElem? hi)).books
      refine ⟨fun _ => rfl, fun heq => ?_, fun out heq => ?_⟩
      · change job.stage = .converted at heq
        rw [Job.Books, heq] at hbooks
        obtain ⟨q', fill', hlanded, -⟩ := hbooks
        cases htx.symm.trans hlanded
      · change job.stage = .otc out at heq
        rw [Job.Books, heq] at hbooks
        cases htx.symm.trans hbooks
  | confirmed hi hstage htx =>
      rename_i i job q fill
      refine h.set rfl ⟨fun heq => ?_, fun _ q' fill' htx' => ?_, fun out heq => ?_⟩
      · cases heq
      · exact hsafe job hi hstage q' fill' htx'
      · cases heq
  | threw hi hstage htx => exact h.refund (hsafe _ hi hstage)
  | elsewhere o => exact h

/-! ## What the player and the vault can rely on -/

/-- Every step leaves the wallets solvent. -/
theorem Kept.next {e : ConvertEvent} (h : Kept env IsWallet d) (hstep : Steps env d e d') : Kept env IsWallet d' :=
  h.step hstep fun o _ => o.solvent _ h.nonneg

/-! ## What a step that is not safe does -/

theorem Fine.boot (ledger : Ledger) (vault : Field → ℚ) : Fine env (Desk.boot ledger vault) :=
  fun job hjob => by cases hjob

theorem run_kept {ledger : Ledger} (hl : ledger.Solvent) (vault : Field → ℚ) (events : List ConvertEvent)
    (hsafe : (convertDesk env).Each (Safe env) (Desk.boot ledger vault) events) :
    Kept env IsWallet ((convertDesk env).run (Desk.boot ledger vault) events) ∧
      Fine env ((convertDesk env).run (Desk.boot ledger vault) events) :=
  Machine.run_history_when (H := fun _ d => Kept env IsWallet d ∧ Fine env d)
    (fun _ _ _ _ _ hsafe h hstep => ⟨h.1.next (step_steps hstep), h.2.step h.1 hsafe (step_steps hstep)⟩)
    (h := []) ⟨Kept.boot env.pool_wallets hl vault, Fine.boot ledger vault⟩ events hsafe

def swapsOnly : ConvertEnv where
  pool := []
  OTC_ENABLED := false
  OTC_FEE_TOKEN := 1 / 100
  OTC_FEE_SOL := 3 / 1000
  OTC_MAX_FRACTION := 1 / 4
  CONVERT_COOLDOWN_MS := 65000
  SOL_FEE_RESERVE := 1 / 50
  mints := true
  decimals := 6
  MAX_PRICE_IMPACT := 1 / 20
  slippage := 1 / 200
  slippage_nonneg := by norm_num
  pool_nodup := List.nodup_nil
  pool_wallets := fun _ h => by cases h

/-- The player converts all of it, and Jupiter quotes 9.95 of the other token. -/
def asked : List ConvertEvent :=
  [.convert ⟨"player", some .uwu, some .bull, none⟩ ⟨false, 100000, fun _ => 1, 100, 100, fun _ => 0⟩,
    .quoted 0 (some ⟨9950000, 0⟩) true]

end BullsUnicorns.Engine

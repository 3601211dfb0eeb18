import BullsUnicorns.Engine.Lemmas.Otc

/-!
# The books of a convert

What the record of a convert says follows from where its handler is and what the chain did, in every run. A
wallet has at most one handler that waits, and its mark says so.
-/

namespace BullsUnicorns.Engine

variable {env : ConvertEnv} {p : String → Prop} {d d' : Desk} {job job' : Job} {i : ℕ} {f : Field}

/-! ## The record of a convert -/

/-- What the player has given up and not been given back. -/
def Job.debt (job : Job) (f : Field) : ℚ := if f = job.from' then job.amt else 0

/-- What the swap has paid out of the vault beyond what it paid in, in ledger units. -/
def Job.swapped (env : ConvertEnv) (job : Job) (f : Field) : ℚ :=
  match job.tx with
  | .landed _ fill => job.unit f * ((if f = job.from' then (job.raw env : ℚ) / 10 ^ decOf env job.from' else 0) -
      if f = job.to' then (fill : ℚ) / 10 ^ decOf env job.to' else 0)
  | _ => 0

/-- What is credited for a confirmed swap. -/
def Job.credited (env : ConvertEnv) (job : Job) (q : Quote) : ℚ :=
  Desk.outAmount env job q * job.unit job.to' * (1 - CONVERT_FEE)

/-- What the record says, from where the handler is. -/
def Job.Books (env : ConvertEnv) (job : Job) : Prop :=
  match job.stage with
  | .reading => job.tx = .none ∧ ∀ f, job.moved f = -job.debt f ∧ job.gap f = -job.debt f
  | .swapping => ∀ f, job.moved f = -job.debt f ∧ job.gap f = -job.debt f + job.swapped env f
  | .otc _ => job.tx = .none
  | .converted => ∃ q fill, job.tx = .landed q fill ∧
      ∀ f, job.gap f = -job.debt f + job.swapped env f + if f = job.to' then job.credited env q else 0
  | .refunded => ∀ f, job.moved f = 0 ∧ job.gap f = job.swapped env f

/-- The chain has, or had, a transaction that can land. -/
def Tx.isLive : Tx → Bool
  | .sent _ => true
  | .landed _ _ => true
  | _ => false

structure JobBook (env : ConvertEnv) (job : Job) : Prop where
  sides : job.from' ≠ job.to'
  amt : 0 < job.amt
  priced : job.stage.isOpen ∨ job.tx.isLive → job.from' = .sol ∨ job.to' = .sol → 0 < job.solPx
  raw : job.tx.isLive → 0 < job.raw env
  books : job.Books env

theorem Job.unit_pos (hpriced : job.from' = .sol ∨ job.to' = .sol → 0 < job.solPx) (hf : f = job.from' ∨ f = job.to') :
    0 < job.unit f := by
  unfold Job.unit
  split
  · next hsol =>
      apply hpriced
      rcases hf with hf | hf
      · exact .inl (hf ▸ hsol)
      · exact .inr (hf ▸ hsol)
  · exact one_pos

theorem Job.swapped_unlanded (htx : ∀ q fill, job.tx ≠ .landed q fill) (f : Field) : job.swapped env f = 0 := by
  unfold Job.swapped
  split
  · next q fill heq => exact absurd heq (htx q fill)
  · rfl

/-- What a step writes into a record when it only adds to the player's account. -/
theorem record_add (d' : Desk) (job : Job) {g : Field} {x : ℚ} (hl : d'.ledger = d.ledger.add job.wallet g x)
    (hv : d'.vault = d.vault) (hacc : (d.ledger.get job.wallet).isSome) (f : Field) :
    (Desk.record d d' job).moved f = job.moved f + (if f = g then x else 0) ∧
      (Desk.record d d' job).gap f = job.gap f + if f = g then x else 0 := by
  obtain ⟨a, ha⟩ := Option.isSome_iff_exists.mp hacc
  constructor
  · change job.moved f + (d'.ledger.bal job.wallet f - d.ledger.bal job.wallet f) = _
    rw [hl, Ledger.bal_add hacc]
    simp
  · change job.gap f + (Desk.claim job d' f - Desk.claim job d f) = _
    rw [Desk.claim, Desk.claim, hv, hl, total_add everybody ha]
    simp [everybody]

/-! ## Every run -/

/-- How a step leaves the mark and the cooldown of the convert that it serves. -/
inductive Served (d d' : Desk) (job job' : Job) : Prop
  | goes : job'.stage.isOpen = job.stage.isOpen → (job'.stage = .refunded → job.stage = .refunded) →
      d'.inFlightConvert = d.inFlightConvert → d'.lastConvertAt = d.lastConvertAt → Served d d' job job'
  | ends : job.stage.isOpen = true → job'.stage.isOpen = false →
      d'.inFlightConvert = Function.update d.inFlightConvert job.wallet false →
      (∀ wallet, wallet ≠ job.wallet → d'.lastConvertAt wallet = d.lastConvertAt wallet) →
      (job'.stage = .refunded → d'.lastConvertAt job.wallet = none) → Served d d' job job'

/-- What holds of the converts in every run, with the accounts of `p` never below zero. -/
structure Kept (env : ConvertEnv) (p : String → Prop) (d : Desk) : Prop where
  pool : ∀ id ∈ env.pool, p id
  nonneg : d.ledger.NonnegOf p
  accounts : ∀ job ∈ d.jobs, (d.ledger.get job.wallet).isSome
  book : ∀ job ∈ d.jobs, JobBook env job
  mark : ∀ wallet, d.inFlightConvert wallet = true ↔ ∃ job ∈ d.jobs, job.wallet = wallet ∧ job.stage.isOpen = true
  alone : ∀ (i j : ℕ) (job job' : Job), d.jobs[i]? = some job → d.jobs[j]? = some job' → i < j →
    job.wallet = job'.wallet → job.stage.isOpen = false
  cool : ∀ (i : ℕ) (job : Job), d.jobs[i]? = some job → job.stage = .refunded →
    (∀ (j : ℕ) (job' : Job), d.jobs[j]? = some job' → i < j → job'.wallet ≠ job.wallet) →
    d.lastConvertAt job.wallet = none

/-- A step of one convert. -/
theorem Kept.set (h : Kept env p d) (job' : Job) (hi : d.jobs[i]? = some job) (hwallet : job'.wallet = job.wallet)
    (hbook : JobBook env job') (hjobs : d'.jobs = d.jobs.set i job') (hnonneg : d'.ledger.NonnegOf p)
    (hstays : ∀ id, (d.ledger.get id).isSome → (d'.ledger.get id).isSome) (hserved : Served d d' job job') :
    Kept env p d' := by
  have hmem : job ∈ d.jobs := List.mem_of_getElem? hi
  have hlt : i < d.jobs.length := (List.getElem?_eq_some_iff.mp hi).1
  have hself : d'.jobs[i]? = some job' := by rw [hjobs, List.getElem?_set_self hlt]
  have hother (j : ℕ) (hj : j ≠ i) : d'.jobs[j]? = d.jobs[j]? := by rw [hjobs, List.getElem?_set_ne hj.symm]
  -- what is there now was there before, but for the convert that is served
  have hcases (j : ℕ) (x : Job) (hx : d'.jobs[j]? = some x) : (j = i ∧ x = job') ∨ (j ≠ i ∧ d.jobs[j]? = some x) := by
    by_cases hj : j = i
    · subst hj
      exact .inl ⟨rfl, Option.some.inj (hx.symm.trans hself)⟩
    · exact .inr ⟨hj, (hother j hj).symm.trans hx⟩
  have hopen : job'.stage.isOpen = true → job.stage.isOpen = true := by
    cases hserved with
    | goes hsame _ _ _ => exact fun hx => hsame ▸ hx
    | ends hx _ _ _ _ => exact fun _ => hx
  constructor
  case pool => exact h.pool
  case nonneg => exact hnonneg
  case accounts =>
      intro x hx
      obtain ⟨j, hj⟩ := List.mem_iff_getElem?.mp hx
      apply hstays
      rcases hcases j x hj with ⟨rfl, rfl⟩ | ⟨-, hold⟩
      · rw [hwallet]
        exact h.accounts job hmem
      · exact h.accounts x (List.mem_of_getElem? hold)
  case book =>
      intro x hx
      obtain ⟨j, hj⟩ := List.mem_iff_getElem?.mp hx
      rcases hcases j x hj with ⟨rfl, rfl⟩ | ⟨-, hold⟩
      · exact hbook
      · exact h.book x (List.mem_of_getElem? hold)
  case mark =>
      intro wallet
      cases hserved with
      | goes hsame _ hmark _ =>
          rw [hmark, h.mark]
          constructor
          · rintro ⟨x, hx, hw, hxopen⟩
            obtain ⟨j, hj⟩ := List.mem_iff_getElem?.mp hx
            by_cases hji : j = i
            · subst hji
              cases hi.symm.trans hj
              exact ⟨job', List.mem_of_getElem? hself, hwallet.trans hw, hsame.trans hxopen⟩
            · exact ⟨x, List.mem_of_getElem? ((hother j hji).trans hj), hw, hxopen⟩
          · rintro ⟨x, hx, hw, hxopen⟩
            obtain ⟨j, hj⟩ := List.mem_iff_getElem?.mp hx
            rcases hcases j x hj with ⟨rfl, rfl⟩ | ⟨-, hold⟩
            · exact ⟨job, hmem, hwallet.symm.trans hw, hsame.symm.trans hxopen⟩
            · exact ⟨x, List.mem_of_getElem? hold, hw, hxopen⟩
      | ends hjob hclosed hmark _ _ =>
          rw [hmark]
          by_cases hw : wallet = job.wallet
          · subst hw
            rw [Function.update_self]
            refine iff_of_false Bool.false_ne_true ?_
            rintro ⟨x, hx, hw, hxopen⟩
            obtain ⟨j, hj⟩ := List.mem_iff_getElem?.mp hx
            rcases hcases j x hj with ⟨rfl, rfl⟩ | ⟨hji, hold⟩
            · rw [hclosed] at hxopen
              cases hxopen
            rcases lt_or_gt_of_ne hji with hlt' | hlt'
            · rw [h.alone _ _ _ _ hold hi hlt' hw] at hxopen
              cases hxopen
            · rw [h.alone _ _ _ _ hi hold hlt' hw.symm] at hjob
              cases hjob
          · rw [Function.update_of_ne hw, h.mark]
            constructor
            · rintro ⟨x, hx, hxw, hxopen⟩
              obtain ⟨j, hj⟩ := List.mem_iff_getElem?.mp hx
              have hji : j ≠ i := by
                rintro rfl
                cases hi.symm.trans hj
                exact hw hxw.symm
              exact ⟨x, List.mem_of_getElem? ((hother j hji).trans hj), hxw, hxopen⟩
            · rintro ⟨x, hx, hxw, hxopen⟩
              obtain ⟨j, hj⟩ := List.mem_iff_getElem?.mp hx
              rcases hcases j x hj with ⟨rfl, rfl⟩ | ⟨-, hold⟩
              · exact absurd (hwallet.symm.trans hxw).symm hw
              · exact ⟨x, List.mem_of_getElem? hold, hxw, hxopen⟩
  case alone =>
      intro j k x y hx hy hlt' hsame
      rcases hcases j x hx with ⟨rfl, rfl⟩ | ⟨hj, hxold⟩
      · rcases hcases k y hy with ⟨rfl, -⟩ | ⟨-, hyold⟩
        · exact absurd hlt' (lt_irrefl _)
        · have hclosed := h.alone _ _ _ _ hi hyold hlt' (hwallet ▸ hsame)
          by_contra hx
          rw [hopen (by simpa using hx)] at hclosed
          cases hclosed
      · rcases hcases k y hy with ⟨rfl, rfl⟩ | ⟨-, hyold⟩
        · exact h.alone _ _ _ _ hxold hi hlt' (hsame.trans hwallet)
        · exact h.alone _ _ _ _ hxold hyold hlt' hsame
  case cool =>
      intro j x hx hrefunded hlast
      -- a later convert of the same wallet then is one now
      have hlater (w : String) (hw : ∀ k y, d'.jobs[k]? = some y → j < k → y.wallet ≠ w) (k : ℕ) (y : Job)
          (hy : d.jobs[k]? = some y) (hk : j < k) : y.wallet ≠ w := by
        by_cases hki : k = i
        · subst hki
          cases hi.symm.trans hy
          exact hwallet ▸ hw k job' hself hk
        · exact hw k y ((hother k hki).trans hy) hk
      cases hserved with
      | goes _ hrefund _ hcool =>
          rw [hcool]
          rcases hcases j x hx with ⟨rfl, rfl⟩ | ⟨-, hold⟩
          · rw [hwallet]
            exact h.cool j job hi (hrefund hrefunded) (hlater _ (hwallet ▸ hlast))
          · exact h.cool j x hold hrefunded (hlater _ hlast)
      | ends hjob _ _ hcool hnone =>
          rcases hcases j x hx with ⟨rfl, rfl⟩ | ⟨hji, hold⟩
          · rw [hwallet]
            exact hnone hrefunded
          · by_cases hw : x.wallet = job.wallet
            · rcases lt_or_gt_of_ne hji with hlt' | hlt'
              · exact absurd (hwallet.trans hw.symm) (hlast i job' hself hlt')
              · rw [h.alone _ _ _ _ hi hold hlt' hw.symm] at hjob
                cases hjob
            · rw [hcool _ hw]
              exact h.cool j x hold hrefunded (hlater _ hlast)

/-- A new convert, of a wallet that is not marked. -/
theorem Kept.snoc (h : Kept env p d) (hfree : d.inFlightConvert job.wallet = false) (hbook : JobBook env job)
    (hjobs : d'.jobs = d.jobs ++ [job]) (hnonneg : d'.ledger.NonnegOf p)
    (hstays : ∀ id, (d.ledger.get id).isSome → (d'.ledger.get id).isSome) (hacc : (d'.ledger.get job.wallet).isSome)
    (hmark : d'.inFlightConvert = Function.update d.inFlightConvert job.wallet job.stage.isOpen)
    (hcool : ∀ wallet, wallet ≠ job.wallet → d'.lastConvertAt wallet = d.lastConvertAt wallet)
    (hnone : job.stage = .refunded → d'.lastConvertAt job.wallet = none) : Kept env p d' := by
  have hself : d'.jobs[d.jobs.length]? = some job := by rw [hjobs, List.getElem?_concat_length]
  have hold (j : ℕ) (x : Job) (hx : d.jobs[j]? = some x) : d'.jobs[j]? = some x := by
    rw [hjobs, List.getElem?_append_left (List.getElem?_eq_some_iff.mp hx).1, hx]
  have hcases (j : ℕ) (x : Job) (hx : d'.jobs[j]? = some x) :
      (j = d.jobs.length ∧ x = job) ∨ (j < d.jobs.length ∧ d.jobs[j]? = some x) := by
    rcases lt_trichotomy j d.jobs.length with hlt | heq | hgt
    · rw [hjobs, List.getElem?_append_left hlt] at hx
      exact .inr ⟨hlt, hx⟩
    · subst heq
      exact .inl ⟨rfl, Option.some.inj (hx.symm.trans hself)⟩
    · have hlt := (List.getElem?_eq_some_iff.mp hx).1
      rw [hjobs, List.length_append, List.length_singleton] at hlt
      exact absurd hlt (by omega)
  -- the wallet has nothing open
  have hclosed (x : Job) (hx : x ∈ d.jobs) (hw : x.wallet = job.wallet) : x.stage.isOpen = false := by
    by_contra hopen
    have hmarked := (h.mark job.wallet).mpr ⟨x, hx, hw, by simpa using hopen⟩
    rw [hfree] at hmarked
    cases hmarked
  constructor
  case pool => exact h.pool
  case nonneg => exact hnonneg
  case accounts =>
      rw [hjobs]
      intro x hx
      rcases List.mem_append.mp hx with hx | hx
      · exact hstays _ (h.accounts x hx)
      · cases List.mem_singleton.mp hx
        exact hacc
  case book =>
      rw [hjobs]
      intro x hx
      rcases List.mem_append.mp hx with hx | hx
      · exact h.book x hx
      · cases List.mem_singleton.mp hx
        exact hbook
  case mark =>
      intro wallet
      rw [hmark, hjobs]
      by_cases hw : wallet = job.wallet
      · subst hw
        rw [Function.update_self]
        constructor
        · intro hopen
          exact ⟨job, List.mem_append_right _ (List.mem_singleton_self _), rfl, hopen⟩
        · rintro ⟨x, hx, hxw, hopen⟩
          rcases List.mem_append.mp hx with hx | hx
          · rw [hclosed x hx hxw] at hopen
            cases hopen
          · cases List.mem_singleton.mp hx
            exact hopen
      · rw [Function.update_of_ne hw, h.mark]
        constructor
        · rintro ⟨x, hx, hxw, hopen⟩
          exact ⟨x, List.mem_append_left _ hx, hxw, hopen⟩
        · rintro ⟨x, hx, hxw, hopen⟩
          rcases List.mem_append.mp hx with hx | hx
          · exact ⟨x, hx, hxw, hopen⟩
          · cases List.mem_singleton.mp hx
            exact absurd hxw.symm hw
  case alone =>
      intro j k x y hx hy hlt hsame
      rcases hcases k y hy with ⟨rfl, rfl⟩ | ⟨hk, hyold⟩
      · rcases hcases j x hx with ⟨rfl, -⟩ | ⟨-, hxold⟩
        · exact absurd hlt (lt_irrefl _)
        · exact hclosed x (List.mem_of_getElem? hxold) hsame
      · rcases hcases j x hx with ⟨rfl, -⟩ | ⟨-, hxold⟩
        · exact absurd hk (not_lt.mpr hlt.le)
        · exact h.alone _ _ _ _ hxold hyold hlt hsame
  case cool =>
      intro j x hx hrefunded hlast
      rcases hcases j x hx with ⟨rfl, rfl⟩ | ⟨hj, hxold⟩
      · exact hnone hrefunded
      · have hw : x.wallet ≠ job.wallet := fun hw => hlast _ _ hself hj hw.symm
        rw [hcool _ hw]
        exact h.cool j x hxold hrefunded fun k y hy hk => hlast k y (hold k y hy) hk

/-! ## The steps -/

theorem Ledger.NonnegOf.add {l : Ledger} {id : String} {x : ℚ} (hl : l.NonnegOf p) (hacc : (l.get id).isSome)
    (h0 : p id → 0 ≤ l.bal id f + x) : (l.add id f x).NonnegOf p := by
  intro k hk g
  rw [Ledger.bal_add hacc]
  split
  · next h =>
      rw [h.1] at hk
      rw [h.1, h.2]
      exact h0 hk
  · simpa using hl k hk g

theorem Ledger.Nonneg.add {l : Ledger} {id : String} {x : ℚ} (hl : l.Nonneg) (hacc : (l.get id).isSome)
    (h0 : 0 ≤ l.bal id f + x) : (l.add id f x).Nonneg :=
  Ledger.nonnegOf_all.mp ((Ledger.nonnegOf_all.mpr hl).add hacc fun _ => h0)

theorem Ledger.add_stays (l : Ledger) (id : String) (f : Field) (x : ℚ) (k : String) (hk : (l.get k).isSome) :
    ((l.add id f x).get k).isSome := (Ledger.Same.add.isSome k).trans hk

/-- The books of a convert that waits. -/
theorem JobBook.waiting (h : JobBook env job) (hopen : job.stage.isOpen = true) :
    ∀ f, job.moved f = -job.debt f ∧ job.gap f = -job.debt f + job.swapped env f := by
  have hbooks := h.books
  unfold Job.Books at hbooks
  cases hstage : job.stage with
  | reading =>
      rw [hstage] at hbooks
      intro f
      rw [Job.swapped_unlanded (by simp [hbooks.1]), add_zero]
      exact hbooks.2 f
  | swapping =>
      rw [hstage] at hbooks
      exact hbooks
  | otc out =>
      rw [hstage] at hopen
      cases hopen
  | converted =>
      rw [hstage] at hopen
      cases hopen
  | refunded =>
      rw [hstage] at hopen
      cases hopen

/-- The exit that puts the amount back puts it all back. -/
theorem JobBook.refund (h : JobBook env job) (hopen : job.stage.isOpen = true) (hacc : (d.ledger.get job.wallet).isSome)
    (hl : d'.ledger = d.ledger.add job.wallet job.from' job.amt) (hv : d'.vault = d.vault) :
    JobBook env (Desk.record d d' { job with stage := .refunded }) where
  sides := h.sides
  amt := h.amt
  priced := fun hlive => h.priced (.inl hopen)
  raw := h.raw
  books := by
    intro f
    obtain ⟨hmoved, hgap⟩ := record_add d' { job with stage := .refunded } hl hv hacc f
    obtain ⟨hmoved', hgap'⟩ := h.waiting hopen f
    rw [hmoved, hgap]
    change job.moved f + job.debt f = 0 ∧ job.gap f + job.debt f = job.swapped env f
    rw [hmoved', hgap']
    constructor
    · ring
    · ring

theorem Kept.refund (h : Kept env p d) (hi : d.jobs[i]? = some job) (hopen : job.stage.isOpen = true) :
    Kept env p (d.refund i job) := by
  have hmem := List.mem_of_getElem? hi
  have hacc := h.accounts job hmem
  let d₁ := d.setWallet (d.ledger.add job.wallet job.from' job.amt) job.wallet none false
  refine h.set (d.record d₁ { job with stage := .refunded }) hi rfl
    ((h.book job hmem).refund hopen hacc rfl rfl) rfl ?_ ?_ ?_
  · exact h.nonneg.add hacc fun hp => add_nonneg (h.nonneg _ hp _) (h.book job hmem).amt.le
  · exact Ledger.add_stays _ _ _ _
  · refine .ends hopen rfl rfl (fun wallet hw => Function.update_of_ne hw _ _) fun _ => ?_
    exact Function.update_self _ _ _

theorem Kept.balanceRead (h : Kept env p d) (hi : d.jobs[i]? = some job) (hstage : job.stage = .reading) (x : ℚ) :
    Kept env p (d.balanceRead env i job x) := by
  have hmem := List.mem_of_getElem? hi
  have hbook := h.book job hmem
  unfold Desk.balanceRead
  split
  · exact h.refund hi (by rw [hstage]; rfl)
  · refine h.set { job with stage := .swapping } hi rfl ?_ rfl h.nonneg (fun _ hid => hid) ?_
    · refine ⟨hbook.sides, hbook.amt, fun _ => hbook.priced (.inl (by rw [hstage]; rfl)), hbook.raw, ?_⟩
      exact hbook.waiting (by rw [hstage]; rfl)
    · exact .goes (by rw [hstage]; rfl) (fun heq => by cases heq) rfl rfl

theorem Kept.quoted (h : Kept env p d) (hi : d.jobs[i]? = some job) (hstage : job.stage = .swapping)
    (htx : job.tx = .none) (quote : Option Quote) (built : Bool) : Kept env p (d.quoted env i job quote built) := by
  have hmem := List.mem_of_getElem? hi
  have hbook := h.book job hmem
  have hopen : job.stage.isOpen = true := by rw [hstage]; rfl
  unfold Desk.quoted
  split
  · exact h.refund hi hopen
  next hraw =>
  push Not at hraw
  split
  · exact h.refund hi hopen
  split
  · exact h.refund hi hopen
  next q _ =>
  refine h.set { job with tx := .sent q } hi rfl ?_ rfl h.nonneg (fun _ hid => hid) ?_
  · refine ⟨hbook.sides, hbook.amt, fun _ => hbook.priced (.inl hopen), fun _ => hraw.2, ?_⟩
    simp only [Job.Books, hstage]
    intro f
    obtain ⟨hmoved, hgap⟩ := hbook.waiting hopen f
    rw [Job.swapped_unlanded (by simp [htx])] at hgap
    rw [Job.swapped_unlanded (by simp)]
    exact ⟨hmoved, hgap⟩
  · exact .goes rfl (fun heq => heq) rfl rfl

/-- The chain has taken the swap. -/
theorem Kept.lands (h : Kept env p d) (hi : d.jobs[i]? = some job) {q : Quote} (htx : job.tx = .sent q) (fill : ℕ) :
    Kept env p (d.lands env i job q fill) := by
  have hmem := List.mem_of_getElem? hi
  have hbook := h.book job hmem
  have hlive : job.tx.isLive = true := by rw [htx]; rfl
  let job₁ : Job := { job with tx := .landed q fill }
  let vault := fun f =>
    d.vault f - (if f = job.from' then (job.raw env : ℚ) / 10 ^ decOf env job.from' else 0) +
      if f = job.to' then (fill : ℚ) / 10 ^ decOf env job.to' else 0
  -- what it paid is written down
  have hmoved (f : Field) : (d.record { d with vault } job₁).moved f = job.moved f := by
    change job.moved f + (d.ledger.bal job.wallet f - d.ledger.bal job.wallet f) = _
    ring
  have hgap (f : Field) : (d.record { d with vault } job₁).gap f = job.gap f + job₁.swapped env f := by
    have hswapped : job₁.swapped env f =
        job.unit f * ((if f = job.from' then (job.raw env : ℚ) / 10 ^ decOf env job.from' else 0) -
          if f = job.to' then (fill : ℚ) / 10 ^ decOf env job.to' else 0) := rfl
    change job.gap f + (total everybody d.ledger f - job.unit f * vault f -
      (total everybody d.ledger f - job.unit f * d.vault f)) = _
    rw [hswapped]
    ring
  have hold (f : Field) : job.swapped env f = 0 := Job.swapped_unlanded (by simp [htx]) f
  refine h.set (d.record { d with vault } job₁) hi rfl ?_ rfl h.nonneg (fun _ hid => hid)
    (.goes rfl (fun heq => heq) rfl rfl)
  refine ⟨hbook.sides, hbook.amt, fun _ => hbook.priced (.inr hlive), fun _ => hbook.raw hlive, ?_⟩
  have hbooks := hbook.books
  unfold Job.Books at hbooks ⊢
  change match job.stage with | .reading => _ | .swapping => _ | .otc _ => _ | .converted => _ | .refunded => _
  cases hstage : job.stage with
  | reading =>
      rw [hstage, htx] at hbooks
      cases hbooks.1
  | swapping =>
      rw [hstage] at hbooks
      intro f
      obtain ⟨h1, h2⟩ := hbooks f
      rw [hold, add_zero] at h2
      rw [hmoved, hgap, h2]
      exact ⟨h1, rfl⟩
  | otc out =>
      rw [hstage, htx] at hbooks
      cases hbooks
  | converted =>
      rw [hstage, htx] at hbooks
      obtain ⟨q', fill', heq, -⟩ := hbooks
      cases heq
  | refunded =>
      rw [hstage] at hbooks
      intro f
      obtain ⟨h1, h2⟩ := hbooks f
      rw [hold] at h2
      rw [hmoved, hgap, h2, zero_add]
      exact ⟨h1, rfl⟩

/-- The swap will not land. -/
theorem Kept.dies (h : Kept env p d) (hi : d.jobs[i]? = some job) {q : Quote} (htx : job.tx = .sent q) :
    Kept env p { d with jobs := d.jobs.set i { job with tx := .dead } } := by
  have hmem := List.mem_of_getElem? hi
  have hbook := h.book job hmem
  have hlive : job.tx.isLive = true := by rw [htx]; rfl
  have hold (f : Field) : job.swapped env f = 0 := Job.swapped_unlanded (by simp [htx]) f
  have hnew (f : Field) : Job.swapped env { job with tx := .dead } f = 0 := Job.swapped_unlanded (by simp) f
  refine h.set { job with tx := .dead } hi rfl ?_ rfl h.nonneg (fun _ hid => hid)
    (.goes rfl (fun heq => heq) rfl rfl)
  refine ⟨hbook.sides, hbook.amt, fun _ => hbook.priced (.inr hlive), (fun hlive => by cases hlive), ?_⟩
  have hbooks := hbook.books
  unfold Job.Books at hbooks ⊢
  dsimp only
  cases hstage : job.stage with
  | reading =>
      rw [hstage, htx] at hbooks
      cases hbooks.1
  | swapping =>
      rw [hstage] at hbooks
      intro f
      obtain ⟨h1, h2⟩ := hbooks f
      rw [hold] at h2
      rw [← hstage, hnew]
      exact ⟨h1, h2⟩
  | otc out =>
      rw [hstage, htx] at hbooks
      cases hbooks
  | converted =>
      rw [hstage, htx] at hbooks
      obtain ⟨q', fill', heq, -⟩ := hbooks
      cases heq
  | refunded =>
      rw [hstage] at hbooks
      intro f
      obtain ⟨h1, h2⟩ := hbooks f
      rw [hold] at h2
      rw [← hstage, hnew]
      exact ⟨h1, h2⟩

theorem Job.unit_nonneg (hpriced : job.from' = .sol ∨ job.to' = .sol → 0 < job.solPx) :
    0 ≤ job.unit job.to' := (Job.unit_pos hpriced (.inr rfl)).le

theorem outAmount_nonneg (env : ConvertEnv) (job : Job) (q : Quote) : 0 ≤ Desk.outAmount env job q := by
  unfold Desk.outAmount
  positivity

theorem credited_eq (hpriced : job.from' = .sol ∨ job.to' = .sol → 0 < job.solPx) (q : Quote) :
    max 0 (Desk.outAmount env job q * job.unit job.to' - Desk.outAmount env job q * job.unit job.to' * CONVERT_FEE) =
      job.credited env q := by
  have hout := mul_nonneg (outAmount_nonneg env job q) (Job.unit_nonneg hpriced)
  have hfee : (0 : ℚ) ≤ 1 - CONVERT_FEE := by norm_num [CONVERT_FEE]
  rw [Job.credited, ← mul_one_sub]
  exact max_eq_right (mul_nonneg hout hfee)

/-- What is credited is what was promised. -/
theorem Kept.credit (h : Kept env p d) (hi : d.jobs[i]? = some job) (hstage : job.stage = .swapping) {q : Quote}
    {fill : ℕ} (htx : job.tx = .landed q fill) : Kept env p (d.credit env i job q) := by
  have hmem := List.mem_of_getElem? hi
  have hbook := h.book job hmem
  have hacc := h.accounts job hmem
  have hopen : job.stage.isOpen = true := by rw [hstage]; rfl
  have hpriced := hbook.priced (.inl hopen)
  let outUnits := Desk.outAmount env job q * job.unit job.to'
  let x := max 0 (outUnits - outUnits * CONVERT_FEE)
  let d₁ := d.setWallet (d.ledger.add job.wallet job.to' x) job.wallet (d.lastConvertAt job.wallet) false
  refine h.set (d.record d₁ { job with stage := .converted }) hi rfl ?_ rfl ?_ ?_ ?_
  · refine ⟨hbook.sides, hbook.amt, fun _ => hpriced, hbook.raw, q, fill, htx, fun f => ?_⟩
    obtain ⟨-, hgap⟩ := record_add d₁ { job with stage := .converted } (d := d) rfl rfl hacc f
    obtain ⟨-, hgap'⟩ := hbook.waiting hopen f
    rw [hgap]
    change job.gap f + _ = _
    have hx : x = job.credited env q := credited_eq hpriced q
    rw [hgap', hx]
    rfl
  · exact h.nonneg.add hacc fun hp => add_nonneg (h.nonneg _ hp _) (le_max_left _ _)
  · exact Ledger.add_stays _ _ _ _
  · exact .ends hopen rfl rfl (fun wallet hw => Function.update_of_ne hw _ _) (fun heq => by cases heq)

theorem Kept.elsewhere (h : Kept env p d) (o : Elsewhere) (hbears : (o.ledger d.ledger).NonnegOf p) :
    Kept env p { d with ledger := o.ledger d.ledger, vault := o.vault d.vault } where
  pool := h.pool
  nonneg := hbears
  accounts := fun job hjob => o.stays _ _ (h.accounts job hjob)
  book := h.book
  mark := h.mark
  alone := h.alone
  cool := h.cool

/-! ## The house as the counterparty -/

/-- What an answer of the house does: an amount from its pool, but for what is left over, and the player's amount
into its pool. -/
structure Answer (env : ConvertEnv) (l l' : Ledger) (amt out left back : ℚ) (from' to' : Field) : Prop where
  pos : 0 < out
  had : out ≤ poolBalance env.pool l to' + 1 / 10 ^ 9
  left_nonneg : 0 ≤ left
  moves : ∃ l₁, Shift env.pool to' (-(out - left)) l l₁ ∧ Shift env.pool from' back l₁ l'
  whole : left = 0 ↔ Whole l to' (poolAccounts env.pool l) out
  back : left = 0 → back = amt

theorem otc_none {r : ConvertReadings} {l : Ledger} {wallet : String} {amt : ℚ} {from' to' : Field}
    (hp : ∀ id ∈ env.pool, p id) (hl : l.NonnegOf p)
    (h : (Desk.otc env r l wallet amt from' to').2 = none) : Desk.otc env r l wallet amt from' to' = (l, none) := by
  unfold Desk.otc at h ⊢
  dsimp only at h ⊢
  split
  · next hoffers =>
      rw [if_pos hoffers] at h
      cases hgiven : (takeExact env.pool l to' (Desk.otcUnits env r amt from' to')).2 with
      | true =>
          rcases htake : takeExact env.pool l to' (Desk.otcUnits env r amt from' to') with ⟨l₁, b⟩
          rw [htake] at h hgiven
          dsimp only at hgiven
          subst hgiven
          cases h
      | false => rw [takeExact_refused (fun id hid => hl id (hp id hid) _) env.pool_nodup hgiven]
  · rfl

theorem otc_some {r : ConvertReadings} {l : Ledger} {wallet : String} {amt out : ℚ} {from' to' : Field}
    (hp : ∀ id ∈ env.pool, p id) (hl : l.NonnegOf p)
    (hamt : 0 ≤ amt) (h : (Desk.otc env r l wallet amt from' to').2 = some out) :
    Desk.offers env r l wallet amt from' to' = true ∧ out = Desk.otcUnits env r amt from' to' ∧
      ∃ left back, Answer env l (Desk.otc env r l wallet amt from' to').1 amt out left back from' to' := by
  unfold Desk.otc at h ⊢
  dsimp only at h ⊢
  split
  case isFalse hoffers =>
      rw [if_neg hoffers] at h
      cases h
  next hoffers =>
  rw [if_pos hoffers] at h
  cases hgiven : (takeExact env.pool l to' (Desk.otcUnits env r amt from' to')).2 with
  | false =>
      rw [takeExact_refused (fun id hid => hl id (hp id hid) _) env.pool_nodup hgiven] at h
      cases h
  | true =>
      obtain ⟨hpos, hhad, htaken⟩ := takeExact_given hgiven
      rcases htake : takeExact env.pool l to' (Desk.otcUnits env r amt from' to') with ⟨l₁, b⟩
      rw [htake] at h hgiven htaken
      dsimp only at hgiven htaken
      subst hgiven
      cases h
      refine ⟨hoffers, rfl, ?_⟩
      dsimp only
      have hids : ∀ id ∈ poolAccounts env.pool l, id ∈ env.pool ∧ (l.get id).isSome :=
        fun id hid => mem_poolAccounts.mp hid
      obtain ⟨hshift, hleft⟩ := takeInOrder_shift to' hids (Desk.otcUnits env r amt from' to') hpos.le
      have hwhole := (takeInOrder_left (fun id hid => hl id (hp id (hids id hid).1) _) (env.pool_nodup.filter _)
        (fun id hid => (hids id hid).2) hpos.le hhad).2
      rw [← htaken] at hshift
      obtain ⟨back, hback, hready⟩ := returnBank_shift env.pool from' hamt l₁
      refine ⟨_, back, hpos, hhad, hleft, ⟨l₁, hshift, hback⟩, hwhole, fun hzero => ?_⟩
      apply hready
      refine PoolReady.of_same ?_ hshift.same
      rw [← poolAccounts_ne_nil]
      -- without a pool wallet all of it would be left over
      intro hnil
      rw [hnil, takeInOrder] at hzero
      exact hpos.ne' hzero

theorem Answer.nonneg {l l' : Ledger} {amt out left back : ℚ} {from' to' : Field}
    (h : Answer env l l' amt out left back from' to') (hp : ∀ id ∈ env.pool, p id) (hl : l.NonnegOf p) :
    l'.NonnegOf p := by
  obtain ⟨l₁, h1, h2⟩ := h.moves
  exact h2.bears p hp (h1.bears p hp hl)

theorem Answer.same {l l' : Ledger} {amt out left back : ℚ} {from' to' : Field}
    (h : Answer env l l' amt out left back from' to') : l.Same l' := by
  obtain ⟨l₁, h1, h2⟩ := h.moves
  exact h1.same.trans h2.same

/-- What an answer moves in any part of the ledger that holds the pool. -/
theorem Answer.total {l l' : Ledger} {amt out left back : ℚ} {from' to' : Field}
    (h : Answer env l l' amt out left back from' to') {w : Part} (hw : ∀ id ∈ env.pool, ∀ b, w id b = true)
    (f : Field) : total w l' f = total w l f + (if f = to' then -(out - left) else 0) + if f = from' then back else 0 := by
  obtain ⟨l₁, h1, h2⟩ := h.moves
  rw [h2.total w hw, h1.total w hw]

/-! ## A message -/

theorem largestOther_ne (bal : Field → ℚ) (to' : Field) : largestOther bal to' ≠ to' := by
  have hmem : ∀ f ∈ (CFIELDS.filter fun f => f ≠ to').mergeSort fun x y => bal y ≤ bal x, f ≠ to' := by
    intro f hf
    simpa using (List.mem_filter.mp (List.mem_mergeSort.mp hf)).2
  have hlength : ((CFIELDS.filter fun f => f ≠ to').mergeSort fun x y => bal y ≤ bal x).length = 2 := by
    rw [List.length_mergeSort]
    cases to' <;> rfl
  unfold largestOther
  generalize ((CFIELDS.filter fun f => f ≠ to').mergeSort fun x y => bal y ≤ bal x) = fields at hmem hlength
  cases fields with
  | nil => cases hlength
  | cons f fields => exact hmem f List.mem_cons_self

theorem fromOf_ne (m : ConvertMsg) (bal : Field → ℚ) (to' : Field) : Desk.fromOf m bal to' ≠ to' := by
  unfold Desk.fromOf
  split
  · split
    · exact largestOther_ne bal to'
    · next hne => exact hne
  · exact largestOther_ne bal to'

theorem asks_some {m : ConvertMsg} {r : ConvertReadings} {from' to' : Field} {amt : ℚ}
    (h : Desk.asks env m r d = some (from', to', amt)) : from' ≠ to' ∧ 0 < amt ∧ amt ≤ d.ledger.bal m.wallet from' := by
  simp only [Desk.asks] at h
  split at h
  case isTrue => cases h
  next hamt =>
  split at h
  case isTrue => cases h
  cases h
  exact ⟨fromOf_ne _ _ _, lt_of_lt_of_le (by norm_num) (not_lt.mp hamt), min_le_right _ _⟩

theorem opened_isSome (m : ConvertMsg) (d : Desk) : ((d.opened m).ledger.get m.wallet).isSome := by
  unfold Desk.opened acct
  dsimp only
  split
  · next a ha => simp [ha]
  · simp [OrderedMap.get_set]

/-- A new account holds nothing. -/
theorem opened_bal (m : ConvertMsg) (d : Desk) (id : String) (f : Field) :
    (d.opened m).ledger.bal id f = d.ledger.bal id f := by
  unfold Desk.opened acct
  dsimp only
  split
  · rfl
  · next hnone =>
      rw [Ledger.bal, Ledger.bal, OrderedMap.get_set]
      split
      · next hid =>
          rw [hid, hnone]
          rfl
      · rfl

theorem opened_stays (m : ConvertMsg) (d : Desk) (id : String) (h : (d.ledger.get id).isSome) :
    ((d.opened m).ledger.get id).isSome := by
  unfold Desk.opened acct
  dsimp only
  split
  · exact h
  · rw [OrderedMap.get_set]
    split
    · rfl
    · exact h

theorem Kept.opened (h : Kept env p d) (m : ConvertMsg) : Kept env p (d.opened m) where
  pool := h.pool
  nonneg := fun id hp f => (h.nonneg id hp f).trans_eq (opened_bal m d id f).symm
  accounts := fun job hjob => opened_stays m d _ (h.accounts job hjob)
  book := h.book
  mark := h.mark
  alone := h.alone
  cool := h.cool

section
variable {r : ConvertReadings} {wallet : String} {amt : ℚ} {from' to' : Field}

/-- The record of a message that has passed its checks. -/
def newJob (r : ConvertReadings) (wallet : String) (amt : ℚ) (from' to' : Field) : Job :=
  ⟨wallet, from', to', amt, r.solPx, .swapping, .none, fun _ => 0, fun _ => 0, fun _ => 0⟩

/-- The record of a message that the house has answered. -/
def answeredJob (env : ConvertEnv) (r : ConvertReadings) (d : Desk) (l : Ledger) (wallet : String) (amt out : ℚ)
    (from' to' : Field) : Job :=
  { newJob r wallet amt from' to' with
    stage := .otc out
    pooled := fun f => total (fun id _ => decide (id ∈ env.pool)) l f -
      total (fun id _ => decide (id ∈ env.pool)) (d.ledger.add wallet from' (-amt)) f }

/-- Where the handler of a message that has passed its checks stops first. -/
inductive Begun (env : ConvertEnv) (r : ConvertReadings) (d : Desk) (wallet : String) (amt : ℚ) (from' to' : Field) :
    Desk → Job → Prop
  | otc {l : Ledger} {out left back : ℚ} : Desk.offers env r (d.ledger.add wallet from' (-amt)) wallet amt from' to' →
      out = Desk.otcUnits env r amt from' to' →
      Answer env (d.ledger.add wallet from' (-amt)) l amt out left back from' to' →
      Begun env r d wallet amt from' to' (d.setWallet (l.add wallet to' out) wallet (some r.now) false)
        (answeredJob env r d l wallet amt out from' to')
  | unpriced : Begun env r d wallet amt from' to'
      (d.setWallet ((d.ledger.add wallet from' (-amt)).add wallet from' amt) wallet none false)
      { newJob r wallet amt from' to' with stage := .refunded }
  | waits (stage : Stage) : stage.isOpen = true → (stage = .reading ∨ stage = .swapping) →
      (from' = .sol ∨ to' = .sol → 0 < r.solPx) →
      Begun env r d wallet amt from' to' (d.setWallet (d.ledger.add wallet from' (-amt)) wallet (some r.now) true)
        { newJob r wallet amt from' to' with stage := stage }

theorem begins_otc {out : ℚ}
    (hotc : (Desk.otc env r (d.ledger.add wallet from' (-amt)) wallet amt from' to').2 = some out) :
    let l := (Desk.otc env r (d.ledger.add wallet from' (-amt)) wallet amt from' to').1
    let d' := d.setWallet (l.add wallet to' out) wallet (some r.now) false
    d.begins env r wallet amt from' to' =
      { d' with jobs := d.jobs ++ [d.record d' (answeredJob env r d l wallet amt out from' to')] } := by
  have heq : Desk.otc env r (d.ledger.add wallet from' (-amt)) wallet amt from' to' =
      ((Desk.otc env r (d.ledger.add wallet from' (-amt)) wallet amt from' to').1, some out) := Prod.ext rfl hotc
  unfold Desk.begins
  dsimp only
  rw [heq]
  rfl

theorem begins_begun (r : ConvertReadings) (to' : Field) (hp : ∀ id ∈ env.pool, p id) (hl : d.ledger.NonnegOf p)
    (hacc : (d.ledger.get wallet).isSome) (hamt : 0 < amt) (hle : amt ≤ d.ledger.bal wallet from') :
    ∃ d' job, Begun env r d wallet amt from' to' d' job ∧
      d.begins env r wallet amt from' to' = { d' with jobs := d.jobs ++ [d.record d' job] } := by
  have hdebited : (d.ledger.add wallet from' (-amt)).NonnegOf p := hl.add hacc fun _ => by linarith
  cases hotc : (Desk.otc env r (d.ledger.add wallet from' (-amt)) wallet amt from' to').2 with
  | some out =>
      obtain ⟨hoffers, hout, left, back, hanswer⟩ := otc_some hp hdebited hamt.le hotc
      exact ⟨_, _, .otc hoffers hout hanswer, begins_otc hotc⟩
  | none =>
      unfold Desk.begins
      dsimp only
      rw [otc_none hp hdebited hotc]
      dsimp only
      split
      · exact ⟨_, _, .unpriced, rfl⟩
      next hpriced =>
      have hpos (h : from' = .sol ∨ to' = .sol) : 0 < r.solPx := not_le.mp fun h' => hpriced ⟨h, h'⟩
      by_cases hsol : from' = .sol
      · rw [if_pos hsol]
        exact ⟨_, _, .waits .reading rfl (.inl rfl) hpos, rfl⟩
      · rw [if_neg hsol]
        exact ⟨_, _, .waits .swapping rfl (.inr rfl) hpos, rfl⟩

/-- What the record says when the house has answered. -/
theorem answer_record (d' : Desk) (job : Job) {l : Ledger} {out left back : ℚ} (hacc : (d.ledger.get job.wallet).isSome)
    (h : Answer env (d.ledger.add job.wallet from' (-amt)) l amt out left back from' to')
    (hl : d'.ledger = l.add job.wallet to' out) (hv : d'.vault = d.vault) (f : Field) :
    (d.record d' job).gap f = job.gap f + ((if f = to' then left else 0) + if f = from' then back - amt else 0) ∧
      (job.wallet ∉ env.pool → (d.record d' job).moved f =
        job.moved f + ((if f = to' then out else 0) - if f = from' then amt else 0)) := by
  obtain ⟨a, ha⟩ := Option.isSome_iff_exists.mp hacc
  have haccDebited := Ledger.add_stays d.ledger job.wallet from' (-amt) job.wallet hacc
  have hacc' : (l.get job.wallet).isSome := (h.same.isSome _).trans haccDebited
  obtain ⟨a', ha'⟩ := Option.isSome_iff_exists.mp hacc'
  constructor
  · change job.gap f + (Desk.claim job d' f - Desk.claim job d f) = _
    rw [Desk.claim, Desk.claim, hv, hl, total_add everybody ha',
      h.total (w := everybody) (fun _ _ _ => rfl), total_add everybody ha]
    simp only [everybody, true_and]
    split
    · split
      · ring
      · ring
    · split
      · ring
      · ring
  · intro hpool
    obtain ⟨l₁, h1, h2⟩ := h.moves
    change job.moved f + (d'.ledger.bal job.wallet f - d.ledger.bal job.wallet f) = _
    rw [hl, Ledger.bal_add hacc', h2.others _ _ (.inl hpool), h1.others _ _ (.inl hpool), Ledger.bal_add hacc]
    simp only [true_and]
    split
    · split
      · ring
      · ring
    · split
      · ring
      · ring

/-- A new convert is in the books. -/
theorem Kept.begun (h : Kept env p d) (hfree : d.inFlightConvert wallet = false) (hacc : (d.ledger.get wallet).isSome)
    (hsides : from' ≠ to') (hamt : 0 < amt) (hle : amt ≤ d.ledger.bal wallet from') {d₁ : Desk} {job : Job}
    (hbegun : Begun env r d wallet amt from' to' d₁ job) :
    Kept env p { d₁ with jobs := d.jobs ++ [d.record d₁ job] } := by
  have hdebited : (d.ledger.add wallet from' (-amt)).NonnegOf p := h.nonneg.add hacc fun _ => by linarith
  have haccDebited := Ledger.add_stays d.ledger wallet from' (-amt) wallet hacc
  cases hbegun with
  | otc hoffers hout hanswer =>
      rename_i l out left back
      have hacc' : (l.get wallet).isSome := (hanswer.same.isSome _).trans haccDebited
      refine h.snoc hfree ?_ rfl ?_ ?_ ?_ rfl (fun w hw => Function.update_of_ne hw _ _) (fun heq => by cases heq)
      · refine ⟨hsides, hamt, fun hlive => ?_, (fun hlive => by cases hlive), rfl⟩
        rcases hlive with hlive | hlive
        · cases hlive
        · cases hlive
      · have hanswered := hanswer.nonneg h.pool hdebited
        exact hanswered.add hacc' fun hp => add_nonneg (hanswered _ hp _) hanswer.pos.le
      · intro id hid
        exact Ledger.add_stays _ _ _ _ _ ((hanswer.same.isSome _).trans (Ledger.add_stays _ _ _ _ _ hid))
      · exact Ledger.add_stays _ _ _ _ _ hacc'
  | unpriced =>
      have hback (id : String) (f : Field) :
          ((d.ledger.add wallet from' (-amt)).add wallet from' amt).bal id f = d.ledger.bal id f := by
        rw [Ledger.bal_add haccDebited, Ledger.bal_add hacc]
        split
        · ring
        · ring
      refine h.snoc hfree ?_ rfl ?_ ?_ ?_ rfl (fun w hw => Function.update_of_ne hw _ _)
        (fun _ => Function.update_self _ _ _)
      · refine ⟨hsides, hamt, fun hlive => ?_, (fun hlive => by cases hlive), fun f => ⟨?_, ?_⟩⟩
        · rcases hlive with hlive | hlive
          · cases hlive
          · cases hlive
        · change 0 + (((d.ledger.add wallet from' (-amt)).add wallet from' amt).bal wallet f -
            d.ledger.bal wallet f) = 0
          rw [hback]
          ring
        · have htotal : total everybody ((d.ledger.add wallet from' (-amt)).add wallet from' amt) f =
              total everybody d.ledger f := by
            obtain ⟨a, ha⟩ := Option.isSome_iff_exists.mp hacc
            obtain ⟨a', ha'⟩ := Option.isSome_iff_exists.mp haccDebited
            rw [total_add everybody ha', total_add everybody ha]
            simp only [everybody, true_and]
            split
            · ring
            · ring
          refine Eq.trans ?_ (Job.swapped_unlanded (fun q fill heq => by cases heq) f).symm
          change 0 + (total everybody ((d.ledger.add wallet from' (-amt)).add wallet from' amt) f -
            (newJob r wallet amt from' to').unit f * d.vault f -
            (total everybody d.ledger f - (newJob r wallet amt from' to').unit f * d.vault f)) = 0
          rw [htotal]
          ring
      · exact fun id hp f => (h.nonneg id hp f).trans_eq (hback id f).symm
      · intro id hid
        exact Ledger.add_stays _ _ _ _ _ (Ledger.add_stays _ _ _ _ _ hid)
      · exact Ledger.add_stays _ _ _ _ _ haccDebited
  | waits stage hopen hstage hpriced =>
      refine h.snoc hfree ?_ rfl hdebited (Ledger.add_stays _ _ _ _) haccDebited ?_
        (fun w hw => Function.update_of_ne hw _ _) (fun heq => ?_)
      · refine ⟨hsides, hamt, fun _ => hpriced, (fun hlive => by cases hlive), ?_⟩
        let job : Job := { newJob r wallet amt from' to' with stage := stage }
        have hbooks (f : Field) := record_add (d := d)
          (d.setWallet (d.ledger.add wallet from' (-amt)) wallet (some r.now) true) job rfl rfl hacc f
        have hdebt (f : Field) : (if f = from' then -amt else 0 : ℚ) = -job.debt f := by
          change _ = -(if f = from' then amt else 0)
          split
          · rfl
          · exact neg_zero.symm
        have hmoved (f : Field) := (hbooks f).1.trans ((zero_add _).trans (hdebt f))
        have hgap (f : Field) := (hbooks f).2.trans ((zero_add _).trans (hdebt f))
        rcases hstage with rfl | rfl
        · exact ⟨rfl, fun f => ⟨hmoved f, hgap f⟩⟩
        · intro f
          rw [Job.swapped_unlanded (fun q fill heq => by cases heq), add_zero]
          exact ⟨hmoved f, hgap f⟩
      · change _ = Function.update d.inFlightConvert wallet stage.isOpen
        rw [hopen]
        rfl
      · change stage = .refunded at heq
        rw [heq] at hopen
        cases hopen

end

theorem Kept.convert (h : Kept env p d) (m : ConvertMsg) (r : ConvertReadings) : Kept env p (d.convert env m r) := by
  unfold Desk.convert
  split
  · exact h
  split
  · exact h
  next hfree =>
  dsimp only
  split
  · exact h.opened m
  · next from' to' amt hasks =>
      obtain ⟨hsides, hamt, hle⟩ := asks_some hasks
      have hopened := h.opened m
      have hunmarked : d.inFlightConvert m.wallet = false := by simpa using hfree
      obtain ⟨d₁, job, hbegun, heq⟩ := begins_begun r to' hopened.pool hopened.nonneg (opened_isSome m d)
        hamt hle
      rw [heq]
      exact hopened.begun hunmarked (opened_isSome m d) hsides hamt hle hbegun

theorem resume_ok {g : Job → Option Desk} {o : Unit} (h : d.resume i g = .ok (d', o)) :
    ∃ job, d.jobs[i]? = some job ∧ g job = some d' := by
  unfold Desk.resume at h
  split at h
  · next d₁ hbind =>
      cases h
      exact Option.bind_eq_some_iff.mp hbind
  · cases h

/-- What an accepted event is about, and where the convert is that it serves. -/
inductive Steps (env : ConvertEnv) (d : Desk) : ConvertEvent → Desk → Prop
  | convert (m : ConvertMsg) (r : ConvertReadings) : Steps env d (.convert m r) (d.convert env m r)
  | balanceRead {i : ℕ} {job : Job} (x : ℚ) : d.jobs[i]? = some job → job.stage = .reading →
      Steps env d (.balanceRead i x) (d.balanceRead env i job x)
  | quoted {i : ℕ} {job : Job} (quote : Option Quote) (built : Bool) : d.jobs[i]? = some job → job.stage = .swapping →
      job.tx = .none → Steps env d (.quoted i quote built) (d.quoted env i job quote built)
  | lands {i : ℕ} {job : Job} {q : Quote} {fill : ℕ} : d.jobs[i]? = some job → job.tx = .sent q →
      q.outAmount * (1 - env.slippage) ≤ (fill : ℚ) → Steps env d (.lands i fill) (d.lands env i job q fill)
  | dies {i : ℕ} {job : Job} {q : Quote} : d.jobs[i]? = some job → job.tx = .sent q →
      Steps env d (.dies i) { d with jobs := d.jobs.set i { job with tx := .dead } }
  | confirmed {i : ℕ} {job : Job} {q : Quote} {fill : ℕ} : d.jobs[i]? = some job → job.stage = .swapping →
      job.tx = .landed q fill → Steps env d (.confirmed i) (d.credit env i job q)
  | threw {i : ℕ} {job : Job} : d.jobs[i]? = some job → job.stage = .swapping → job.tx ≠ .none →
      Steps env d (.threw i) (d.refund i job)
  | elsewhere (o : Elsewhere) :
      Steps env d (.elsewhere o) { d with ledger := o.ledger d.ledger, vault := o.vault d.vault }

theorem step_steps {e : ConvertEvent} {o : Unit} (h : (convertDesk env).step d e = .ok (d', o)) : Steps env d e d' := by
  cases e with
  | convert m r =>
      cases h
      exact .convert m r
  | balanceRead i x =>
      obtain ⟨job, hi, hg⟩ := resume_ok h
      split at hg
      · next hstage =>
          cases hg
          exact .balanceRead x hi hstage
      · cases hg
  | quoted i quote built =>
      obtain ⟨job, hi, hg⟩ := resume_ok h
      split at hg
      · next hstage htx =>
          cases hg
          exact .quoted quote built hi hstage htx
      · cases hg
  | lands i fill =>
      obtain ⟨job, hi, hg⟩ := resume_ok h
      split at hg
      · next q htx =>
          split at hg
          · next hfill =>
              cases hg
              exact .lands hi htx hfill
          · cases hg
      · cases hg
  | dies i =>
      obtain ⟨job, hi, hg⟩ := resume_ok h
      split at hg
      · next q htx =>
          cases hg
          exact .dies hi htx
      · cases hg
  | confirmed i =>
      obtain ⟨job, hi, hg⟩ := resume_ok h
      split at hg
      · next q fill hstage htx =>
          cases hg
          exact .confirmed hi hstage htx
      · cases hg
  | threw i =>
      obtain ⟨job, hi, hg⟩ := resume_ok h
      split at hg
      · cases hg
      · next hstage htx =>
          cases hg
          exact .threw hi hstage htx
      · cases hg
  | elsewhere o =>
      cases h
      exact .elsewhere o

theorem Kept.step {e : ConvertEvent} (h : Kept env p d) (hstep : Steps env d e d')
    (hbears : ∀ o, e = .elsewhere o → (o.ledger d.ledger).NonnegOf p) : Kept env p d' := by
  cases hstep with
  | convert m r => exact h.convert m r
  | balanceRead x hi hstage => exact h.balanceRead hi hstage x
  | quoted quote built hi hstage htx => exact h.quoted hi hstage htx quote built
  | lands hi htx _ => exact h.lands hi htx _
  | dies hi htx => exact h.dies hi htx
  | confirmed hi hstage htx => exact h.credit hi hstage htx
  | threw hi hstage htx => exact h.refund hi (by rw [hstage]; rfl)
  | elsewhere o => exact h.elsewhere o (hbears o rfl)

theorem Kept.boot {ledger : Ledger} (hp : ∀ id ∈ env.pool, p id) (hl : ledger.NonnegOf p) (vault : Field → ℚ) :
    Kept env p (Desk.boot ledger vault) where
  pool := hp
  nonneg := hl
  accounts := fun job hjob => by cases hjob
  book := fun job hjob => by cases hjob
  mark := fun wallet => iff_of_false Bool.false_ne_true fun ⟨job, hjob, _⟩ => by cases hjob
  alone := fun i j job job' hi => by simp [Desk.boot] at hi
  cool := fun i job hi => by simp [Desk.boot] at hi

end BullsUnicorns.Engine

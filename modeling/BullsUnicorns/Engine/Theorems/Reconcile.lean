import BullsUnicorns.Engine.Reconcile

/-!
# What the freeze follows

A cycle whose reads all succeed leaves the flag at what the books say. Over a run the flag is the verdict of
the cycle that was started last, as long as no read fails and no cycle is overtaken by a later one.
-/

namespace BullsUnicorns.Engine

variable {env : ReconcileEnv} {s s' : Recon} {c : Cycle} {out : ReconOut}

/-! ## The books of a cycle -/

def Cycle.Clean (c : Cycle) : Prop := ∀ r ∈ c.reads, ∃ n, r = .ok n

instance (c : Cycle) : Decidable c.Clean :=
  decidable_of_iff (c.reads.all (·.isOk) = true) (by
    rw [List.all_eq_true]
    refine forall₂_congr fun r _ => ?_
    cases r with
    | ok n => simp [Except.isOk, Except.toBool]
    | error e => simp [Except.isOk, Except.toBool])

/-- What is owed of an asset, in units of the holding; nothing when it cannot be priced. -/
def Cycle.owed (c : Cycle) : Field → Option ℚ
  | .sol => (priced c.px).map (c.L.solUsd / ·)
  | .bull => some c.L.bull
  | .uwu => some c.L.uwu

/-- What the vault held of an asset, by a read that succeeded. -/
def Cycle.held (env : ReconcileEnv) (c : Cycle) : Field → Option ℚ
  | .sol => c.reads[0]?.bind fun r => r.toOption.map fun n => (n : ℚ) / 10 ^ 9
  | .bull =>
    if env.chainReady then c.reads[1]?.bind fun r => r.toOption.map fun n => (n : ℚ) / 10 ^ env.DECIMALS else none
  | .uwu =>
    if env.chainReady then c.reads[2]?.bind fun r => r.toOption.map fun n => (n : ℚ) / 10 ^ env.DECIMALS else none

/-- For some asset that can be priced more is owed than is held, beyond the tolerance. -/
def Breach (env : ReconcileEnv) (c : Cycle) : Prop :=
  ∃ asset owed held, c.owed asset = some owed ∧ c.held env asset = some held ∧ EPS < owed - held

theorem evaluateRow_ok {asset : Field} {liability holdings : ℚ} {unit : String} :
    (evaluateRow ⟨asset, liability, holdings, false, unit⟩).ok = false ↔ EPS < liability - holdings := by
  have hpos : (0 : ℚ) < EPS := by norm_num [EPS]
  simp only [evaluateRow, Bool.false_eq_true, if_false, decide_eq_false_iff_not, not_le, lt_max_iff]
  constructor
  · rintro (h | h)
    · exact absurd h (not_lt.mpr hpos.le)
    · exact h
  · exact .inr

/-- SOL is short when it can be priced and is owed beyond what is held. -/
theorem solRow_ok {held : ℚ} (hheld : 0 ≤ held) :
    (evaluateRow (solRow c held)).ok = false ↔ ∃ owed, c.owed .sol = some owed ∧ EPS < owed - held := by
  unfold solRow Cycle.owed
  cases hpx : priced c.px with
  | none =>
      have hno : -held ≤ EPS := by
        have hpos : (0 : ℚ) < EPS := by norm_num [EPS]
        linarith
      by_cases hsol : 0 < c.L.solUsd
      · simp [hsol, evaluateRow]
      · simp only [if_neg hsol, evaluateRow_ok, Option.map_none]
        simp [hno]
  | some p =>
      rw [evaluateRow_ok]
      simp

theorem evaluate_ok {rows : List Row} {now : ℚ} :
    (evaluate rows now).ok = false ↔ ∃ r ∈ rows, (evaluateRow r).ok = false := by
  simp [evaluate]

/-- A breach, asset by asset. -/
theorem breach_iff : Breach env c ↔
    (∃ owed held, c.owed .sol = some owed ∧ c.held env .sol = some held ∧ EPS < owed - held) ∨
      (∃ held, c.held env .bull = some held ∧ EPS < c.L.bull - held) ∨
        ∃ held, c.held env .uwu = some held ∧ EPS < c.L.uwu - held := by
  constructor
  · rintro ⟨asset, owed, held, howed, hheld, hlt⟩
    cases asset with
    | sol => exact .inl ⟨owed, held, howed, hheld, hlt⟩
    | bull =>
        obtain rfl := Option.some.inj howed
        exact .inr (.inl ⟨held, hheld, hlt⟩)
    | uwu =>
        obtain rfl := Option.some.inj howed
        exact .inr (.inr ⟨held, hheld, hlt⟩)
  · rintro (⟨owed, held, howed, hheld, hlt⟩ | ⟨held, hheld, hlt⟩ | ⟨held, hheld, hlt⟩)
    · exact ⟨.sol, owed, held, howed, hheld, hlt⟩
    · exact ⟨.bull, _, held, rfl, hheld, hlt⟩
    · exact ⟨.uwu, _, held, rfl, hheld, hlt⟩

/-- With its reads done the report of a cycle is bad exactly for a breach. -/
theorem rows_verdict (hclean : c.Clean) {rows : List Row} {now : ℚ} (h : c.rows env = some (.ok rows)) :
    (evaluate rows now).ok = false ↔ Breach env c := by
  rw [evaluate_ok, breach_iff]
  unfold Cycle.Clean at hclean
  unfold Cycle.rows at h
  unfold Cycle.held
  cases hreads : c.reads with
  | nil => simp [hreads] at h
  | cons sol tokens =>
      rw [hreads] at hclean h
      obtain ⟨lamports, rfl⟩ := hclean sol List.mem_cons_self
      have hsol : (0 : ℚ) ≤ (lamports : ℚ) / 10 ^ 9 := by positivity
      cases hready : env.chainReady with
      | false =>
          obtain rfl : [solRow c (lamports / 10 ^ 9)] = rows := by simpa [hready, solBalance] using h
          simp [solRow_ok hsol, Except.toOption]
      | true =>
          cases tokens with
          | nil => simp [hready, solBalance] at h
          | cons bull rest =>
              obtain ⟨b, rfl⟩ := hclean bull (by simp)
              cases rest with
              | nil => simp [hready, solBalance, vaultTokenBalance] at h
              | cons uwu rest =>
                  obtain ⟨u, rfl⟩ := hclean uwu (by simp)
                  simp only [hready, solBalance, vaultTokenBalance, Bool.not_true, Bool.false_eq_true, if_false,
                    Option.some.injEq, Except.ok.injEq] at h
                  subst h
                  simp [solRow_ok hsol, evaluateRow_ok, Except.toOption]

/-- The helpers catch what the node throws: no cycle is ever skipped. -/
theorem rows_ne_error {e : String} : c.rows env ≠ some (.error e) := by
  have hsol : ∀ r, ∃ v, solBalance r = .ok v := by
    intro r
    cases r <;> exact ⟨_, rfl⟩
  have htoken : ∀ r, ∃ v, vaultTokenBalance env r = .ok v := by
    intro r
    cases r <;> exact ⟨_, rfl⟩
  unfold Cycle.rows
  cases c.reads with
  | nil => simp
  | cons sol tokens =>
      obtain ⟨v, hv⟩ := hsol sol
      simp only [hv]
      split
      · simp
      cases tokens with
      | nil => simp
      | cons bull rest =>
          obtain ⟨b, hb⟩ := htoken bull
          simp only [hb]
          cases rest with
          | nil => simp
          | cons uwu rest =>
              obtain ⟨u, hu⟩ := htoken uwu
              simp [hu]

/-! ## One step -/

theorem conclude_frozen (henforce : env.enforce = true) (s : Recon) (rows : List Row) (now : ℚ) :
    (s.conclude env rows now).1.frozen = !(evaluate rows now).ok := by
  unfold Recon.conclude
  simp only [henforce, Bool.not_true, Bool.and_false, Bool.false_eq_true, if_false]
  cases hok : (evaluate rows now).ok <;> cases hfrozen : s.frozen <;> simp

theorem conclude_started (s : Recon) (rows : List Row) (now : ℚ) : (s.conclude env rows now).1.started = s.started := by
  unfold Recon.conclude
  dsimp only
  split
  · split <;> rfl
  split
  · rfl
  split <;> rfl

/-- A read that leaves its cycle waiting, or ends it with a verdict. -/
theorem settle_cases (henforce : env.enforce = true) (s : Recon) (id : ℕ) (c : Cycle) (now : ℚ) :
    (c.rows env = none ∧ (s.settle env id c now).1 = { s with cycles := s.cycles.set id c } ∧
        (s.settle env id c now).2.finished = none) ∨
      ((c.rows env).isSome ∧ (s.settle env id c now).1.cycles = s.cycles.delete id ∧
        (s.settle env id c now).1.started = s.started ∧ (s.settle env id c now).2.finished = some (id, c) ∧
        (c.Clean → ((s.settle env id c now).1.frozen = true ↔ Breach env c))) := by
  unfold Recon.settle
  cases hrows : c.rows env with
  | none => exact .inl ⟨rfl, rfl, rfl⟩
  | some r =>
      cases r with
      | error e => exact absurd hrows rows_ne_error
      | ok rows =>
          refine .inr ⟨rfl, rfl, conclude_started s rows now, rfl, fun hclean => ?_⟩
          have hfrozen := conclude_frozen henforce s rows now
          dsimp only
          rw [hfrozen, Bool.not_eq_true']
          exact rows_verdict hclean hrows

/-! ## Runs -/

/-- The cycles that ended with every read done, in the order of their end. -/
def cleanEnds (log : List (ReconAct × ReconOut)) : List (ℕ × Cycle) :=
  log.filterMap fun e => e.2.finished.filter fun d => d.2.Clean

/-- The flag is the verdict of the latest started of the cycles that ended with every read done. -/
def FollowsBooks (env : ReconcileEnv) (log : List (ReconAct × ReconOut)) (s : Recon) : Prop :=
  (cleanEnds log = [] → s.frozen = false) ∧
    ∀ d ∈ cleanEnds log, (∀ d' ∈ cleanEnds log, d'.1 ≤ d.1) → (s.frozen = true ↔ Breach env d.2)

/-- No read fails, and a cycle that ends was not overtaken: those started after it still wait. -/
def InOrder (env : ReconcileEnv) (s : Recon) : ReconAct → Prop
  | .start _ _ => True
  | .settle id rpc _ => (∃ n, rpc = .ok n) ∧
      ∀ c, s.cycles.get id = some c → (Cycle.rows env { c with reads := c.reads ++ [rpc] }).isSome →
        ∀ j, id < j → j < s.started → (s.cycles.get j).isSome

instance (env : ReconcileEnv) (s : Recon) : (act : ReconAct) → Decidable (InOrder env s act)
  | .start _ _ => isTrue trivial
  | .settle id rpc _ =>
      decidable_of_iff (rpc.isOk ∧ ∀ c ∈ (s.cycles.get id).toList,
        (Cycle.rows env { c with reads := c.reads ++ [rpc] }).isSome →
          ∀ j ∈ List.range s.started, id < j → (s.cycles.get j).isSome) (by
        have hswap (p : ℕ → Prop) : (∀ j < s.started, id < j → p j) ↔ ∀ j, id < j → j < s.started → p j :=
          ⟨fun h j hid hj => h j hj hid, fun h j hj hid => h j hid hj⟩
        cases rpc with
        | ok n => simp [InOrder, Except.isOk, Except.toBool, hswap]
        | error e => simp [InOrder, Except.isOk, Except.toBool])

/-- What runs in order keep. -/
structure Followed (env : ReconcileEnv) (log : List (ReconAct × ReconOut)) (s : Recon) : Prop where
  follows : FollowsBooks env log s
  ended : ∀ d ∈ cleanEnds log, d.1 < s.started ∧ s.cycles.get d.1 = none
  waiting : ∀ id c, s.cycles.get id = some c → id < s.started ∧ c.Clean

theorem Followed.boot : Followed env [] Recon.boot where
  follows := ⟨fun _ => rfl, fun d hd => by cases hd⟩
  ended d hd := by cases hd
  waiting id c h := by cases h

theorem cleanEnds_snoc (log : List (ReconAct × ReconOut)) (e : ReconAct × ReconOut) :
    cleanEnds (log ++ [e]) = cleanEnds log ++ (e.2.finished.filter fun d => d.2.Clean).toList :=
  Machine.filterMap_snoc _ log e

/-- An act that ends no cycle. -/
theorem Followed.keep {log : List (ReconAct × ReconOut)} (h : Followed env log s) {e : ReconAct × ReconOut}
    (he : e.2.finished = none) (hfrozen : s'.frozen = s.frozen) (hstarted : s.started ≤ s'.started)
    (hended : ∀ d ∈ cleanEnds log, s'.cycles.get d.1 = none)
    (hwaiting : ∀ id c, s'.cycles.get id = some c → id < s'.started ∧ c.Clean) : Followed env (log ++ [e]) s' := by
  have hends : cleanEnds (log ++ [e]) = cleanEnds log := by
    rw [cleanEnds_snoc, he]
    exact List.append_nil _
  constructor
  case follows =>
      rw [FollowsBooks, hends, hfrozen]
      exact h.follows
  case ended =>
      rw [hends]
      exact fun d hd => ⟨lt_of_lt_of_le (h.ended d hd).1 hstarted, hended d hd⟩
  case waiting => exact hwaiting

theorem Followed.start {log : List (ReconAct × ReconOut)} (h : Followed env log s) (L : Liabilities) (px : Option ℚ)
    (e : ReconAct × ReconOut) (he : e.2.finished = none) :
    Followed env (log ++ [e]) { s with cycles := s.cycles.set s.started ⟨L, px, []⟩, started := s.started + 1 } := by
  refine h.keep he rfl (Nat.le_succ _) (fun d hd => ?_) (fun id c hget => ?_)
  · rw [OrderedMap.get_set, if_neg (h.ended d hd).1.ne]
    exact (h.ended d hd).2
  · dsimp only at hget
    rw [OrderedMap.get_set] at hget
    split at hget
    · next hid =>
        obtain rfl := Option.some.inj hget
        exact ⟨hid ▸ Nat.lt_succ_self _, fun r hr => by cases hr⟩
    · exact ⟨(h.waiting id c hget).1.trans (Nat.lt_succ_self _), (h.waiting id c hget).2⟩

theorem Cycle.Clean.read (hc : c.Clean) {rpc : Rpc} (hr : ∃ n, rpc = .ok n) :
    Cycle.Clean { c with reads := c.reads ++ [rpc] } := by
  intro r hmem
  rcases List.mem_append.mp hmem with hold | hnew
  · exact hc r hold
  · rw [List.mem_singleton.mp hnew]
    exact hr

theorem Followed.settle (henforce : env.enforce = true) {log : List (ReconAct × ReconOut)} (h : Followed env log s)
    {id : ℕ} {rpc : Rpc} (now : ℚ) (hget : s.cycles.get id = some c) (hord : InOrder env s (.settle id rpc now)) :
    Followed env (log ++ [(.settle id rpc now, (s.settle env id { c with reads := c.reads ++ [rpc] } now).2)])
      (s.settle env id { c with reads := c.reads ++ [rpc] } now).1 := by
  have hclean : Cycle.Clean { c with reads := c.reads ++ [rpc] } := (h.waiting id c hget).2.read hord.1
  rcases settle_cases henforce s id { c with reads := c.reads ++ [rpc] } now with
    ⟨-, hstate, hfinished⟩ | ⟨hrows, hcycles, hstarted, hfinished, hverdict⟩
  · rw [hstate]
    refine h.keep hfinished rfl (le_refl _) (fun d hd => ?_) (fun j c' hj => ?_)
    · have hne : d.1 ≠ id := fun heq => by
        rw [← heq, (h.ended d hd).2] at hget
        cases hget
      rw [OrderedMap.get_set, if_neg hne]
      exact (h.ended d hd).2
    · rw [OrderedMap.get_set] at hj
      split at hj
      · next heq =>
          obtain rfl := Option.some.inj hj
          exact ⟨heq ▸ (h.waiting id c hget).1, hclean⟩
      · exact h.waiting j c' hj
  · have hends : cleanEnds (log ++ [(.settle id rpc now, (s.settle env id { c with reads := c.reads ++ [rpc] } now).2)]) =
        cleanEnds log ++ [(id, { c with reads := c.reads ++ [rpc] })] := by
      rw [cleanEnds_snoc, hfinished, Option.filter_some_pos (by simpa using hclean)]
      rfl
    -- what had ended was started before this cycle
    have holder : ∀ d ∈ cleanEnds log, d.1 < id := by
      intro d hd
      obtain ⟨hlt, hnone⟩ := h.ended d hd
      rcases lt_trichotomy d.1 id with hid | hid | hid
      · exact hid
      · rw [hid, hget] at hnone
        cases hnone
      · have hsome := hord.2 c hget hrows d.1 hid hlt
        rw [hnone] at hsome
        cases hsome
    constructor
    case follows =>
        refine ⟨fun hnil => ?_, fun d hd hmax => ?_⟩
        · rw [hends] at hnil
          simp at hnil
        · rw [hends] at hd hmax
          rcases List.mem_append.mp hd with hold | hnew
          · exact absurd (hmax _ (List.mem_append_right _ List.mem_cons_self)) (not_le.mpr (holder d hold))
          · rw [List.mem_singleton.mp hnew]
            exact hverdict hclean
    case ended =>
        rw [hends, hcycles, hstarted]
        intro d hd
        rw [OrderedMap.get_delete]
        rcases List.mem_append.mp hd with hold | hnew
        · rw [if_neg (holder d hold).ne]
          exact h.ended d hold
        · rw [List.mem_singleton.mp hnew, if_pos rfl]
          exact ⟨(h.waiting id c hget).1, rfl⟩
    case waiting =>
        intro j c' hj
        rw [hcycles, OrderedMap.get_delete] at hj
        rw [hstarted]
        split at hj
        · cases hj
        · exact h.waiting j c' hj

theorem followed_step (henforce : env.enforce = true) {log : List (ReconAct × ReconOut)} (act : ReconAct)
    (hord : InOrder env s act) (h : Followed env log s) (hstep : (reconcile env).step s act = .ok (s', out)) :
    Followed env (log ++ [(act, out)]) s' := by
  cases act with
  | start L px =>
      obtain ⟨rfl, rfl⟩ := Prod.mk.inj (Except.ok.inj hstep)
      exact h.start L px _ rfl
  | settle id rpc now =>
      cases hget : s.cycles.get id with
      | none =>
          rw [reconcile] at hstep
          simp [hget] at hstep
      | some c =>
          have hs : s.settle env id { c with reads := c.reads ++ [rpc] } now = (s', out) := by
            simpa [reconcile, hget] using hstep
          have hnext := h.settle henforce now hget hord
          rw [hs] at hnext
          exact hnext

/-- Every cycle whose reads all succeed leaves the flag at its verdict; and over a run in order the flag is
the verdict of the cycle started last. -/
theorem freeze_follows_books (henforce : env.enforce = true) (acts : List ReconAct) :
    (∀ act s' out d, (reconcile env).step ((reconcile env).run .boot acts) act = .ok (s', out) →
        out.finished = some d → d.2.Clean → (s'.frozen = true ↔ Breach env d.2)) ∧
      ((reconcile env).Each (InOrder env) .boot acts →
        FollowsBooks env ((reconcile env).accepted .boot acts) ((reconcile env).run .boot acts)) := by
  refine ⟨fun act s' out d hstep hfinished hclean => ?_, fun hord => ?_⟩
  · generalize (reconcile env).run .boot acts = s at hstep
    cases act with
    | start L px =>
        obtain ⟨rfl, rfl⟩ := Prod.mk.inj (Except.ok.inj hstep)
        cases hfinished
    | settle id rpc now =>
        cases hget : s.cycles.get id with
        | none =>
            rw [reconcile] at hstep
            simp [hget] at hstep
        | some c =>
            have hs : s.settle env id { c with reads := c.reads ++ [rpc] } now = (s', out) := by
              simpa [reconcile, hget] using hstep
            rcases settle_cases henforce s id { c with reads := c.reads ++ [rpc] } now with
              ⟨-, -, hnone⟩ | ⟨-, -, -, hsome, hverdict⟩
            · rw [hs, hfinished] at hnone
              cases hnone
            · rw [hs, hfinished] at hsome
              obtain rfl := Option.some.inj hsome
              rw [hs] at hverdict
              exact hverdict hclean
  · have hrun := Machine.run_history_when (P := InOrder env) (H := Followed env)
      (fun log s act s' out hP h hstep => followed_step henforce act hP h hstep) Followed.boot acts hord
    exact hrun.follows

def liveEnv : ReconcileEnv := ⟨true, true, 6⟩

/-- One SOL is owed, at a hundred dollars. -/
def oneSolOwed : ReconAct := .start ⟨0, 0, 100⟩ (some 100)

/-- The node answers for SOL, and that there are no tokens. -/
def nodeAnswers (id lamports : ℕ) : List ReconAct := [.settle id (.ok lamports) 0, .settle id (.ok 0) 0, .settle id (.ok 0) 0]

/-- A second cycle starts when the SOL is no longer owed, and both find half of it. -/
def twoCycles : List ReconAct :=
  oneSolOwed :: .start ⟨0, 0, 0⟩ (some 100) :: (nodeAnswers 0 500000000 ++ nodeAnswers 1 500000000)

theorem twoCycles_inOrder : (reconcile liveEnv).Each (InOrder liveEnv) .boot twoCycles := by decide +kernel

/-- The first freezes the book, and the second thaws it. -/
theorem freeze_follows_books_witness :
    ((reconcile liveEnv).run .boot (twoCycles.take 5)).frozen = true ∧
      ((reconcile liveEnv).run .boot twoCycles).frozen = false ∧
      FollowsBooks liveEnv ((reconcile liveEnv).accepted .boot twoCycles) ((reconcile liveEnv).run .boot twoCycles) :=
  ⟨by decide +kernel, by decide +kernel, (freeze_follows_books rfl twoCycles).2 twoCycles_inOrder⟩

/-- A node that does not answer freezes a book that owes something; and a cycle that ends after a later one
has the last word, here by reading the vault after a payout that its liabilities do not know of. -/
theorem freeze_follows_a_failed_read_and_a_stale_cycle :
    (¬ FollowsBooks liveEnv
        ((reconcile liveEnv).accepted .boot [oneSolOwed, .settle 0 (.error "429") 0, .settle 0 (.ok 0) 0, .settle 0 (.ok 0) 0])
        ((reconcile liveEnv).run .boot [oneSolOwed, .settle 0 (.error "429") 0, .settle 0 (.ok 0) 0, .settle 0 (.ok 0) 0])) ∧
      ¬ FollowsBooks liveEnv
        ((reconcile liveEnv).accepted .boot
          (oneSolOwed :: .start ⟨0, 0, 0⟩ (some 100) :: (nodeAnswers 1 500000000 ++ nodeAnswers 0 500000000)))
        ((reconcile liveEnv).run .boot
          (oneSolOwed :: .start ⟨0, 0, 0⟩ (some 100) :: (nodeAnswers 1 500000000 ++ nodeAnswers 0 500000000))) := by
  constructor
  · intro h
    have hfalse := h.1 (List.eq_nil_of_length_eq_zero (by decide +kernel))
    revert hfalse
    decide +kernel
  · intro h
    have hends : cleanEnds ((reconcile liveEnv).accepted .boot
        (oneSolOwed :: .start ⟨0, 0, 0⟩ (some 100) :: (nodeAnswers 1 500000000 ++ nodeAnswers 0 500000000))) =
          [(1, ⟨⟨0, 0, 0⟩, some 100, [.ok 500000000, .ok 0, .ok 0]⟩),
            (0, ⟨⟨0, 0, 100⟩, some 100, [.ok 500000000, .ok 0, .ok 0]⟩)] := rfl
    have hlast := h.2
    rw [hends] at hlast
    have hbreach := (hlast _ List.mem_cons_self (by simp)).mp (by decide +kernel)
    rw [breach_iff] at hbreach
    simp [Cycle.owed, Cycle.held, priced, liveEnv, Except.toOption, EPS] at hbreach
    norm_num at hbreach

end BullsUnicorns.Engine

import BullsUnicorns.Repeat.Lemmas.Books

/-!
# Unattended deposits stay inside their bounds

What holds of every page, and of every deposit that fires from it. That no deposit follows another into
its round needs a condition on the reports.
-/

namespace BullsUnicorns.Repeat

/-- The deposits that one run has sent into one round. -/
def Page.sentInto (s : Page) (run : ℕ) (r : ℤ) : List Send :=
  s.sends.filter fun snd => snd.run = run ∧ snd.entry.roundNo = r

/-- What a deposit that fires has met. -/
structure Permitted (s : Page) (p : Params) (nowMs : ℤ) (entry : UnattendedEntry) : Prop where
  armed : s.auto.armed = true
  silent : p.gated = false ∧ unattendedSigning p.plan = .silent
  /-- Above the round on screen at arming. -/
  above : ∀ r, s.visible = some r → r < entry.roundNo
  read : p.live.map LiveRound.roundNo = some entry.roundNo
  target : p.targetRoundNo = some entry.roundNo
  entriesOpen : entriesOpen p.live nowMs = true
  idle : s.pending = false
  tries : (s.sentInto s.run entry.roundNo).length < MAX_TRIES
  /-- No deposit into the round has been reported landed since the rule was armed. -/
  notEntered : entry.roundNo ∉ s.entered
  cents : ∃ n : ℕ, entry.amountUsd = n / 100
  least : MIN_STAKE_USD ≤ entry.amountUsd
  amount : ∃ usd, resolveAmountUsd s.auto.rule p.simWalletUsd = some usd ∧ entry.amountUsd ≤ usd ∧
    usd ≤ s.auto.rule.rawUsd p.simWalletUsd + 1 / 200
  caps : entry.amountUsd ≤ s.auto.limits.perRoundCapUsd ∧ entry.amountUsd ≤ STAKE_CAP_USD
  budget : s.auto.tally.spentUsd + entry.amountUsd ≤ s.auto.limits.budgetUsd

/-- A page inside the bounds. -/
structure InBounds (s : Page) : Prop where
  onePending : s.sends.countP (·.settled.isNone) ≤ 1
  tries : ∀ run r, (s.sentInto run r).length ≤ MAX_TRIES
  fires : ∀ p nowMs entry s', s.step (.evaluate p nowMs) = .ok (s', some entry) → Permitted s p nowMs entry

namespace Page

variable {s s' : Page}

theorem shotsInto_shots (run : ℕ) (r : ℤ) :
    shotsInto (s.sends.map Send.shot) run r = (s.sentInto run r).length := by
  rw [shotsInto, List.countP_map, List.countP_eq_length_filter]
  rfl

/-! ## What a deposit that fires has met -/

theorem caughtUp_fields (state : AutoDeployState) (p : Params) :
    (caughtUp state p).armed = state.armed ∧ (caughtUp state p).rule = state.rule ∧
      (caughtUp state p).limits = state.limits ∧ (caughtUp state p).tally.spentUsd = state.tally.spentUsd := by
  rcases expireStaleAttempt_cases state (p.live.map LiveRound.roundNo) with hsame | ⟨b, _, _, hgone⟩
  · simp [caughtUp, hsame, bookRunPnl]
  · simp [caughtUp, hgone, bookRunPnl, abandonAttempt]

theorem permitted (hk : s.Known) (h : s.Ordered) {p : Params} {nowMs : ℤ} {entry : UnattendedEntry}
    (hs : s.step (.evaluate p nowMs) = .ok (s', some entry)) : Permitted s p nowMs entry := by
  have htries := (h.evaluate hs).2 entry rfl
  have hentered := (hk.evaluate h hs).2 entry rfl
  obtain ⟨_, hidle, hstep⟩ := step_evaluate hs
  have hfired : some entry = (Repeat.evaluate s.auto p nowMs).2 := by
    rcases hstep with ⟨_, hnone, _⟩ | ⟨_, hfired, _⟩
    · cases hnone
    · exact hfired
  obtain ⟨hfires, _⟩ := evaluate_fire hfired.symm
  obtain ⟨harmed, hrule, hlimits, hspent⟩ := caughtUp_fields s.auto p
  obtain ⟨usd, husd, hclamped⟩ := sendable_eq_ok hfires.sendable
  have hsilent : p.gated = false ∧ unattendedSigning p.plan = .silent := by
    have : p.signing = .silent := hfires.silent
    cases hg : p.gated <;> simp_all [Params.signing]
  have hinput : (p.input (caughtUp s.auto p) nowMs).state = caughtUp s.auto p := rfl
  rw [hinput, hlimits, hspent] at hclamped
  constructor
  case armed => exact harmed ▸ hfires.armed
  case silent => exact hsilent
  case above =>
    intro r hr
    refine hfires.floor r ?_
    rw [hinput, caughtUp_floorRound, h.floor, hr]
  case read => exact hfires.read
  case target => exact hfires.target
  case entriesOpen => exact hfires.entriesOpen
  case idle => exact hidle hfires.idle
  case tries => exact shotsInto_shots s.run entry.roundNo ▸ htries
  case notEntered => exact hentered
  case cents => exact hclamped.cents
  case least => exact hclamped.least
  case amount =>
    have husd' : resolveAmountUsd s.auto.rule p.simWalletUsd = some usd := hrule ▸ husd
    exact ⟨usd, husd', hclamped.amount, resolveAmountUsd_le husd'⟩
  case caps => exact ⟨hclamped.roundCap, hclamped.stakeCap⟩
  case budget => exact hclamped.budget

end Page

/-- In every run whose reports forget no deposit, the page stays inside the bounds. -/
theorem unattended_deposits_bounded (acts : List PageAct) (h : page.Each Page.Careful Page.loaded acts) :
    InBounds (page.run Page.loaded acts) := by
  obtain ⟨hordered, hknown⟩ : (page.run Page.loaded acts).Ordered ∧ (page.run Page.loaded acts).Known :=
    Machine.run_history_when (H := fun _ s => s.Ordered ∧ s.Known)
      (fun _ _ _ _ _ hcareful ⟨ho, hk⟩ hs => ⟨ho.step hs, hk.step ho hcareful hs⟩) (h := [])
      ⟨Page.Ordered.loaded, Page.Known.loaded⟩ acts h
  constructor
  case onePending =>
    have := hordered.slots.one
    simpa [List.countP_map, Send.shot, Function.comp_def] using this
  case tries =>
    intro run r
    rw [← Page.shotsInto_shots]
    exact hordered.slots.tries run r
  case fires => exact fun p nowMs entry s' hs => Page.permitted hknown hordered hs

/-! ## A deposit by hand that the record never hears of -/

def params (r : ℤ) : Params :=
  ⟨some ⟨r, .lobby, none, []⟩, some r, false, 1000, false, .session, 1, [], "player"⟩

def timedOut : Thrown := ⟨some "Transaction was not confirmed in 30.00 seconds", .unknown, ""⟩

/-- The rule is armed in round 1. In round 2 a deposit by hand is given up on, and the rule sends its
own; the one by hand then confirms, and the rule's fails. -/
def doubled : List PageAct :=
  [.connected "player", .press 0 (some 1), .pressConfirmed 0,
    .armWith ⟨.fixed 25, .repeatLast⟩ DEFAULT_LIMITS (some 1) 0, .press 0 (some 2), .pressGivenUp 1,
    .evaluate (params 2) 1000, .pressConfirmed 1, .settled 0 (.failed timedOut) 31000]

/-- Without the deposit by hand, the rule's is reported and may be tried again. -/
def retriedAlone : List PageAct := doubled.take 7 ++ [.settled 0 (.failed timedOut) 31000]

theorem unattended_deposits_bounded_retried : InBounds (page.run Page.loaded retriedAlone) := by
  refine unattended_deposits_bounded retriedAlone ?_
  have hentered : (page.run Page.loaded (retriedAlone.take 7)).entered = [] := by decide +kernel
  refine ⟨trivial, trivial, trivial, trivial, trivial, trivial, trivial, ?_, trivial⟩
  intro snd _
  constructor
  · intro _ r hr
    change r ∈ (page.run Page.loaded (retriedAlone.take 7)).entered at hr
    simp [hentered] at hr
  · intro _ _ hr
    change snd.entry.roundNo ∈ (page.run Page.loaded (retriedAlone.take 7)).entered at hr
    simp [hentered] at hr

/-- The next tick sends a second deposit into round 2. -/
theorem second_deposit_into_one_round :
    ¬ InBounds (page.run Page.loaded doubled) ∧
      ∃ s', (page.run Page.loaded doubled).step (.evaluate (params 2) 34000) = .ok (s', some ⟨2, 0, 25⟩) ∧
        2 ∈ (page.run Page.loaded doubled).entered := by
  have hfires : ((page.run Page.loaded doubled).step (.evaluate (params 2) 34000)).toOption.map Prod.snd =
      some (some ⟨2, 0, 25⟩) := by decide +kernel
  have hentered : 2 ∈ (page.run Page.loaded doubled).entered := by decide +kernel
  obtain ⟨s', hs⟩ : ∃ s', (page.run Page.loaded doubled).step (.evaluate (params 2) 34000) =
      .ok (s', some ⟨2, 0, 25⟩) := by
    cases hstep : (page.run Page.loaded doubled).step (.evaluate (params 2) 34000) with
    | error e => simp [hstep, Except.toOption] at hfires
    | ok r =>
        obtain ⟨s', o⟩ := r
        simp only [hstep, Except.toOption, Option.map_some, Option.some.injEq] at hfires
        exact ⟨s', by rw [hfires]⟩
  exact ⟨fun h => (h.fires _ _ _ _ hs).notEntered hentered, s', hs, hentered⟩

end BullsUnicorns.Repeat

import BullsUnicorns.Repeat.Lemmas.Books

/-!
# Every automatic deposit is charged to the run that made it

Where the promise of a deposit reports what the chain did with it, the books of a run are the sums over
its deposits that landed. A promise that is rejected first and whose deposit lands afterwards leaves a
deposit that no run is charged for.
-/

namespace BullsUnicorns.Repeat

namespace Page

/-- The deposits of one run that landed. -/
def landedOf (s : Page) (run : ℕ) : List UnattendedEntry := entriesOf Send.landed run s.sends

/-- Every deposit that landed has been confirmed to both callbacks. -/
def Delivered (s : Page) : Prop := ∀ snd ∈ s.sends, snd.landed = true → snd.noted = true ∧ snd.settled.isSome

/-- Promises report what the chain did. A deposit whose promise was rejected does not land, a confirmed one
is of the run on the page or of a round that the record is not about, and it was made by the account that
the register is claimed for. -/
def Reported (s : Page) : PageAct → Prop
  | .landed k => ∀ snd, s.sends[k]? = some snd → snd.rejected = false
  | .settled k (.failed _) _ => ∀ snd, s.sends[k]? = some snd → snd.landed = false
  | .settled k (.confirmed _) _ => ∀ snd, s.sends[k]? = some snd →
      if snd.run = s.run then s.auto.pnl.wallet = "" ∨ s.auto.pnl.wallet = snd.walletAtSend
      else s.auto.attemptAt snd.entry.roundNo = none
  | _ => True

end Page

/-- The books of a page: what they say once everything has been delivered, and what a run may have spent
at any moment. -/
structure ChargedOnce (s : Page) : Prop where
  spent : s.Delivered → s.auto.tally.spentUsd = totalUsd (s.landedOf s.run)
  entered : s.Delivered → s.auto.tally.entered = (s.landedOf s.run).length
  newest : s.Delivered → ∀ r, s.auto.pnl.lastEnteredRound = some r ↔
    IsGreatest {q | ∃ e ∈ s.landedOf s.run, e.roundNo = q} r
  budget : ∀ run b, 0 ≤ b → (∀ snd ∈ s.sends, snd.run = run → snd.budgetUsd ≤ b) → totalUsd (s.landedOf run) ≤ b

namespace Page

structure Accounted (s : Page) : Prop where
  books : Books s.auto (entriesOf Send.charged s.run s.sends) s.target
  noted : ∀ snd ∈ s.sends, snd.noted = true → snd.landed = true
  charged : ∀ snd ∈ s.sends, snd.charged = true → snd.landed = true
  rejected : ∀ snd ∈ s.sends, snd.rejected = true → snd.landed = false
  positive : ∀ snd ∈ s.sends, 0 ≤ snd.entry.amountUsd
  /-- The last budget that a run sent under covers all that it has on the chain or out. -/
  funded : ∀ run, (∃ snd ∈ s.sends, snd.run = run) →
    ∃ snd ∈ s.sends, snd.run = run ∧ totalUsd (entriesOf Send.exposed run s.sends) ≤ snd.budgetUsd

variable {s s' : Page} {o : Option UnattendedEntry}

theorem Accounted.loaded : Page.loaded.Accounted := by
  constructor
  case books => exact Books.initial
  all_goals simp [Page.loaded]

/-- With nothing out, a deposit has landed exactly where it was charged. -/
theorem Accounted.landed_eq_charged (h : s.Accounted) {snd : Send} (hsnd : snd ∈ s.sends)
    (hsettled : snd.settled.isSome) : snd.landed = snd.charged := by
  obtain ⟨how, hhow⟩ := Option.isSome_iff_exists.mp hsettled
  cases how with
  | confirmed signature =>
      have hcharged : snd.charged = true := by simp [Send.charged, hhow]
      rw [hcharged, h.charged snd hsnd hcharged]
  | failed e =>
      have hrejected : snd.rejected = true := by simp [Send.rejected, hhow]
      rw [h.rejected snd hsnd hrejected]
      simp [Send.charged, hhow]

/-- What concerns the books alone. -/
theorem Accounted.rebook (h : s.Accounted) {auto : AutoDeployState} {newest : Option ℤ}
    (hbooks : Books auto (entriesOf Send.charged s.run s.sends) newest) :
    Accounted { s with auto := auto, target := newest } :=
  { h with books := hbooks }

theorem Accounted.startRun (h : s.Accounted) (ho : s.Ordered) {auto : AutoDeployState} {visible : Option ℤ}
    (hattempt : auto.attempt = none) (htally : auto.tally.spentUsd = 0 ∧ auto.tally.entered = 0)
    (hlast : auto.tally.lastRound = none) (hpnl : auto.pnl.lastEnteredRound = none) :
    (s.startRun auto visible).Accounted := by
  have hnone : entriesOf Send.charged (s.run + 1) s.sends = [] := by
    refine entriesOf_eq_nil fun snd hsnd hrun => ?_
    have := ho.slots.runs snd.shot (List.mem_map_of_mem hsnd)
    simp only [Send.shot] at this
    omega
  refine { h with books := ?_ }
  show Books auto (entriesOf Send.charged (s.run + 1) s.sends) s.target
  rw [hnone]
  exact Books.arm hattempt htally hlast hpnl

/-! ## A tick -/

theorem caughtUp_books {state : AutoDeployState} {p : Params} {paid : List UnattendedEntry} {newest : Option ℤ}
    (h : Books state paid newest) (hseen : ∀ b, state.attempt = some b → Seen newest b.roundNo) :
    Books (caughtUp state p) paid newest := by
  have hbook {st : AutoDeployState} (hst : Books st paid newest) :
      Books (bookRunPnl st p.roundLog p.youPubkey) paid newest :=
    hst.frame rfl (bookSettledRounds_entered st.pnl p.roundLog p.youPubkey).1 rfl
  rcases expireStaleAttempt_cases state (p.live.map LiveRound.roundNo) with hsame | ⟨b, hb, hretrying, hgone⟩
  · rw [caughtUp, hsame]
    exact hbook h
  · rw [caughtUp, hgone]
    refine hbook (h.abandon .roundMovedOn (hseen b hb) fun e he => ?_)
    obtain ⟨b', hb', hround, _⟩ := abandonAttempt_attempt state b.roundNo .roundMovedOn
    rw [hb']
    refine (h.known e he).newer ?_ ?_
    · intro c hc
      rw [hb] at hc
      cases hc
      exact hround.ge
    · intro c hc _
      rw [hb] at hc
      cases hc
      simp [hretrying]

theorem Accounted.evaluate (h : s.Accounted) (ho : s.Ordered) {p : Params} {nowMs : ℤ}
    (hs : s.step (.evaluate p nowMs) = .ok (s', o)) : s'.Accounted := by
  obtain ⟨htargets, hidle, hstep⟩ := step_evaluate hs
  have hnew := targets_mono htargets
  have hseen := (ho.slots.target hnew).seenSlot
  have hcaught := caughtUp_books (p := p) (h.books.target hnew) hseen
  have hslots := (ho.slots.target hnew).caughtUp p
  rcases hstep with ⟨_, rfl, rfl⟩ | ⟨_, hfired, rfl⟩
  · exact h.rebook (h.books.target hnew)
  rcases evaluate_cases s.auto p nowMs with heval | ⟨side, r, usd, reason, hint, heval⟩ | ⟨entry, hfires, heval⟩
  · obtain rfl : o = none := by simp [hfired, heval]
    simpa [heval] using h.rebook hcaught
  · obtain rfl : o = none := by simp [hfired, heval]
    have htarget : s.advance p.targetRoundNo = some r := by
      have : p.targetRoundNo = some r := hint.target
      simp [advance, this]
    have habandon := hcaught.abandon reason ⟨r, htarget, le_rfl⟩ fun e he => by
      obtain ⟨b', hb', hround, _⟩ := abandonAttempt_attempt (caughtUp s.auto p) r reason
      rw [htarget] at hslots
      rw [hb']
      exact known_of_free (hcaught.known e he) hint.free (fun b hb => hslots.le_target hb) hround
    simpa [heval] using h.rebook habandon
  · obtain rfl : o = some entry := by simp [hfired, heval]
    have htarget : s.advance p.targetRoundNo = some entry.roundNo := by
      have : p.targetRoundNo = some entry.roundNo := hfires.target
      simp [advance, this]
    obtain ⟨usd, _, hclamped⟩ := sendable_eq_ok hfires.sendable
    have hpositive : 0 ≤ entry.amountUsd := by
      have := hclamped.least
      simp only [MIN_STAKE_USD] at this
      linarith
    have hbegin := hcaught.begin htarget fun e he => by
      obtain ⟨b', hb', hround, _⟩ := beginAttempt_attempt (caughtUp s.auto p) entry.roundNo
      rw [htarget] at hslots
      rw [hb']
      exact known_of_free (hcaught.known e he) hfires.free (fun b hb => hslots.le_target hb) hround
    -- what the run has on the chain is what it was charged for, and the new deposit fits the rest
    have hsettled := settled_of_not_pending (hidle hfires.idle)
    have hexposed : entriesOf Send.exposed s.run s.sends = entriesOf Send.charged s.run s.sends := by
      refine entriesOf_congr fun snd hsnd _ => ?_
      have := h.landed_eq_charged hsnd (hsettled snd hsnd)
      simp [Send.exposed, this, Option.isSome_iff_ne_none.mp (hsettled snd hsnd)]
    have hspent : (caughtUp s.auto p).limits = s.auto.limits ∧
        (caughtUp s.auto p).tally.spentUsd = totalUsd (entriesOf Send.charged s.run s.sends) := by
      refine ⟨?_, hcaught.spent⟩
      rcases expireStaleAttempt_cases s.auto (p.live.map LiveRound.roundNo) with hsame | ⟨b, _, _, hgone⟩
      · simp [caughtUp, hsame, bookRunPnl]
      · simp [caughtUp, hgone, bookRunPnl, abandonAttempt]
    have hfits := hclamped.budget
    rw [show (p.input (caughtUp s.auto p) nowMs).state = caughtUp s.auto p from rfl, hspent.1, hspent.2] at hfits
    simp only [heval, Option.map_some, Option.toList_some]
    constructor
    case books =>
      show Books _ (entriesOf Send.charged s.run (s.sends ++ [s.sendOf p entry])) _
      rw [entriesOf_append, entriesOf_cons]
      simpa [sendOf, Send.charged, entriesOf] using hbegin
    case noted =>
      intro snd hsnd
      rcases List.mem_append.mp hsnd with hsnd | hsnd
      · exact h.noted snd hsnd
      · simp [List.mem_singleton.mp hsnd, sendOf]
    case charged =>
      intro snd hsnd
      rcases List.mem_append.mp hsnd with hsnd | hsnd
      · exact h.charged snd hsnd
      · simp [List.mem_singleton.mp hsnd, sendOf, Send.charged]
    case rejected =>
      intro snd hsnd
      rcases List.mem_append.mp hsnd with hsnd | hsnd
      · exact h.rejected snd hsnd
      · simp [List.mem_singleton.mp hsnd, sendOf]
    case positive =>
      intro snd hsnd
      rcases List.mem_append.mp hsnd with hsnd | hsnd
      · exact h.positive snd hsnd
      · rw [List.mem_singleton.mp hsnd]
        exact hpositive
    case funded =>
      rintro run ⟨snd, hsnd, hrun⟩
      by_cases hnow : run = s.run
      · subst hnow
        refine ⟨s.sendOf p entry, by simp, rfl, ?_⟩
        rw [entriesOf_append, totalUsd_append, hexposed, entriesOf_cons]
        simpa [sendOf, Send.exposed, entriesOf] using hfits
      · have hold : ∃ snd ∈ s.sends, snd.run = run := by
          rcases List.mem_append.mp hsnd with hsnd | hsnd
          · exact ⟨snd, hsnd, hrun⟩
          · rw [List.mem_singleton.mp hsnd] at hrun
            exact absurd hrun.symm hnow
        obtain ⟨x, hx, hxrun, hle⟩ := h.funded run hold
        refine ⟨x, List.mem_append_left _ hx, hxrun, ?_⟩
        rw [entriesOf_append, entriesOf_cons]
        simpa [sendOf, Ne.symm hnow, entriesOf] using hle

/-! ## The other acts -/

/-- A confirmation is noted: the record may hear of a round, the books of nothing. -/
theorem Accounted.note (h : s.Accounted) (side : Side) (roundNo : Option ℤ) : (s.note side roundNo).Accounted := by
  have hbooks : Books (bookConfirmedDeposit s.auto side roundNo) (entriesOf Send.charged s.run s.sends) s.target := by
    rcases bookConfirmedDeposit_cases s.auto side roundNo with ⟨hbook, _⟩ | ⟨r, _, _, hbook⟩
    · rw [hbook]
      exact h.books.frame rfl rfl rfl
    · rw [hbook]
      rcases noteRoundEntered_cases (noteDeploy s.auto side) r with ⟨hsame, _⟩ | ⟨b', hnote, hround, hlanded, hnewer⟩
      · rw [hsame]
        exact h.books.frame rfl rfl rfl
      · rw [hnote]
        refine h.books.reslot rfl rfl ?_ fun e he => ?_
        · rintro _ ⟨⟩ hsending
          simp [hlanded] at hsending
        · obtain ⟨b, hb, hover⟩ := h.books.known e he
          have hle : e.roundNo ≤ b.roundNo := by
            rcases hover with hlt | ⟨heq, _⟩
            · exact hlt.le
            · exact heq.le
          rcases (hle.trans (hround ▸ hnewer b hb)).lt_or_eq with hlt | heq
          · exact ⟨b', rfl, .inl hlt⟩
          · exact ⟨b', rfl, .inr ⟨heq, .inl hlanded⟩⟩
  exact { h with books := hbooks }

/-- The flags of one deposit change: it stays with the chain what it was, and costs no more. -/
theorem Accounted.reflag (h : s.Accounted) {pre post : List Send} (snd : Send) {snd' : Send} {auto : AutoDeployState}
    (hl : s.sends = pre ++ snd :: post) (hentry : snd'.entry = snd.entry) (hrun : snd'.run = snd.run)
    (hfunds : snd'.budgetUsd = snd.budgetUsd)
    (hbooks : Books auto (entriesOf Send.charged s.run (pre ++ snd' :: post)) s.target)
    (hnoted : snd'.noted = true → snd'.landed = true) (hcharged : snd'.charged = true → snd'.landed = true)
    (hrejected : snd'.rejected = true → snd'.landed = false) (hexposed : snd'.exposed = true → snd.exposed = true) :
    Accounted { s with auto := auto, sends := pre ++ snd' :: post } := by
  have hmem {q : Send → Prop} (hold : ∀ x ∈ s.sends, q x) (hnew : q snd') : ∀ x ∈ pre ++ snd' :: post, q x := by
    intro x hx
    rcases List.mem_append.mp hx with hx | hx
    · exact hold x (by simp [hl, hx])
    rcases List.mem_cons.mp hx with rfl | hx
    · exact hnew
    · exact hold x (by simp [hl, hx])
  have hpositive : ∀ x ∈ pre ++ snd' :: post, 0 ≤ x.entry.amountUsd :=
    hmem h.positive (hentry ▸ h.positive snd (by simp [hl]))
  constructor
  case books => exact hbooks
  case noted => exact hmem h.noted hnoted
  case charged => exact hmem h.charged hcharged
  case rejected => exact hmem h.rejected hrejected
  case positive => exact hpositive
  case funded =>
    rintro run ⟨x, hx, hxrun⟩
    have hold : ∃ x ∈ s.sends, x.run = run := by
      rcases List.mem_append.mp hx with hx | hx
      · exact ⟨x, by simp [hl, hx], hxrun⟩
      rcases List.mem_cons.mp hx with rfl | hx
      · exact ⟨snd, by simp [hl], hrun ▸ hxrun⟩
      · exact ⟨x, by simp [hl, hx], hxrun⟩
    have hless : totalUsd (entriesOf Send.exposed run (pre ++ snd' :: post)) ≤
        totalUsd (entriesOf Send.exposed run s.sends) := by
      rw [hl]
      simp only [entriesOf_append, entriesOf_cons, totalUsd_append, hrun, hentry]
      have hpos := h.positive snd (by simp [hl])
      by_cases hr : snd.run = run
      · cases hn : snd'.exposed with
        | true => simp [hr, hexposed hn]
        | false => cases ho : snd.exposed <;> simp [hr, hpos]
      · simp [hr]
    obtain ⟨y, hy, hyrun, hle⟩ := h.funded run hold
    have hsame : ∃ y' ∈ pre ++ snd' :: post, y'.run = run ∧ y'.budgetUsd = y.budgetUsd := by
      rw [hl] at hy
      rcases List.mem_append.mp hy with hy | hy
      · exact ⟨y, by simp [hy], hyrun, rfl⟩
      rcases List.mem_cons.mp hy with rfl | hy
      · exact ⟨snd', by simp, hrun.trans hyrun, hfunds⟩
      · exact ⟨y, by simp [hy], hyrun, rfl⟩
    obtain ⟨y', hy', hyrun', hbudget⟩ := hsame
    exact ⟨y', hy', hyrun', hless.trans (hle.trans hbudget.ge)⟩

theorem Accounted.settled (h : s.Accounted) (ho : s.Ordered) {k : ℕ} {how : Settled} {nowMs : ℤ}
    (hreported : s.Reported (.settled k how nowMs)) (hs : s.step (.settled k how nowMs) = .ok (s', o)) :
    s'.Accounted := by
  obtain ⟨snd, pre, post, hk, hl, hmay, _, rfl⟩ := step_settled hs
  have hnone := maySettle_pending hmay
  have hmem : snd ∈ s.sends := List.mem_of_getElem? hk
  have hshot : snd.shot ∈ s.sends.map Send.shot := List.mem_map_of_mem hmem
  have hpend : snd.shot.pending = true := by simp [Send.shot, hnone]
  have hseen : Seen s.target snd.entry.roundNo := ho.slots.seen snd.shot hshot
  have hout : snd.charged = false := by simp [Send.charged, hnone]
  have hexposed : snd.exposed = true := by simp [Send.exposed, hnone]
  have hbooks := h.books
  rw [hl] at hbooks
  cases how with
  | confirmed signature =>
      have hnoted : snd.noted = true := by simpa [maySettle, hnone] using hmay
      have hcharged : ({ snd with settled := some (.confirmed signature) } : Send).charged = true := rfl
      have hnew : Books (attemptLanded s.auto snd.entry.roundNo signature snd.entry.amountUsd snd.walletAtSend)
          (entriesOf Send.charged s.run (pre ++ { snd with settled := some (.confirmed signature) } :: post)) s.target := by
        have hcond := hreported snd hk
        split at hcond
        · rename_i hrun
          obtain ⟨b, hb, hsending, hround⟩ := ho.slots.pending snd.shot hshot hpend hrun
          have hconfirm := hbooks.confirm hb hsending (e := snd.entry) (hround ▸ hseen) hround.symm signature hcond
          exact hconfirm.perm (entriesOf_join snd hrun hcharged hout)
        · rename_i hrun
          rw [show attemptLanded s.auto snd.entry.roundNo signature snd.entry.amountUsd snd.walletAtSend = s.auto by
            simp [attemptLanded, hcond]]
          have hkept : entriesOf Send.charged s.run (pre ++ { snd with settled := some (.confirmed signature) } :: post) =
              entriesOf Send.charged s.run (pre ++ snd :: post) := by
            simp [entriesOf_append, entriesOf_cons, hrun]
          rw [hkept]
          exact hbooks
      refine h.reflag snd hl rfl rfl rfl hnew ?_ ?_ ?_ ?_
      · exact fun _ => h.noted snd hmem hnoted
      · exact fun _ => h.noted snd hmem hnoted
      · intro hrejected
        cases hrejected
      · exact fun _ => hexposed
  | failed e =>
      have hlanded : snd.landed = false := hreported snd hk
      have hkept : entriesOf Send.charged s.run (pre ++ { snd with settled := some (.failed e) } :: post) =
          entriesOf Send.charged s.run (pre ++ snd :: post) := entriesOf_split rfl rfl (by simp [Send.charged, hnone])
      -- the record stays with the rounds that were charged, whatever the failure
      have hknown {st : AutoDeployState} (hst : snd.run = s.run → ∃ b', st.attempt = some b' ∧ b'.roundNo = snd.entry.roundNo) :
          ∀ f ∈ entriesOf Send.charged s.run (pre ++ snd :: post), Page.KnownIn st.attempt False f.roundNo := by
        intro f hf
        by_cases hrun : snd.run = s.run
        · obtain ⟨b, hb, hsending, hround⟩ := ho.slots.pending snd.shot hshot hpend hrun
          obtain ⟨b', hb', hround'⟩ := hst hrun
          have hlt := hbooks.lt_of_sending hb hsending f hf
          exact ⟨b', hb', .inl (by rw [hround']; exact hlt.trans_eq hround)⟩
        · obtain ⟨x, hx, hxrun, _⟩ := mem_entriesOf.mp hf
          rw [← hl] at hx
          exact absurd hxrun (ho.slots.alone snd.shot hshot hpend hrun x.shot (List.mem_map_of_mem hx))
      have hnew : Books (applySendOutcome s.auto (outcomeOf snd (.failed e) nowMs))
          (entriesOf Send.charged s.run (pre ++ { snd with settled := some (.failed e) } :: post)) s.target := by
        rw [hkept]
        rcases applySendOutcome_failed s.auto (outcomeOf snd (.failed e) nowMs) e rfl with ⟨_, happly⟩ | ⟨_, happly⟩
        · rw [happly]
          refine (hbooks.abandon .sessionLapsed hseen (hknown fun _ => ?_)).frame rfl rfl rfl
          obtain ⟨b', hb', hround, _⟩ := abandonAttempt_attempt s.auto snd.entry.roundNo .sessionLapsed
          exact ⟨b', hb', hround⟩
        · rw [happly]
          show Books (attemptFailed s.auto snd.entry.roundNo (messageOf e) nowMs) _ _
          rcases attemptFailed_cases s.auto snd.entry.roundNo (messageOf e) nowMs with
            ⟨hsame, _⟩ | ⟨b, b', _, _, _, hbr', hretrying, _, hfail⟩
          · rw [hsame]
            exact hbooks
          · rw [hfail]
            refine hbooks.reslot rfl rfl ?_ (hknown fun _ => ⟨b', rfl, hbr'⟩)
            rintro _ ⟨⟩ hsending
            simp [hretrying] at hsending
      refine h.reflag snd hl rfl rfl rfl hnew ?_ ?_ ?_ ?_
      · exact h.noted snd hmem
      · intro hcharged
        cases hcharged
      · exact fun _ => hlanded
      · exact fun _ => hexposed

theorem Accounted.step (h : s.Accounted) (ho : s.Ordered) {act : PageAct} (hreported : s.Reported act)
    (hs : s.step act = .ok (s', o)) : s'.Accounted := by
  cases act with
  | evaluate p nowMs => exact h.evaluate ho hs
  | arm rule visibleRoundNo nowMs =>
      cases hs
      exact h.startRun ho rfl ⟨rfl, rfl⟩ rfl rfl
  | armWith strategy limits visibleRoundNo nowMs =>
      cases hs
      exact h.startRun ho rfl ⟨rfl, rfl⟩ rfl rfl
  | disarm =>
      cases hs
      exact h.rebook (h.books.frame rfl rfl rfl)
  | setRule rule =>
      cases hs
      exact h.rebook (h.books.frame rfl rfl rfl)
  | setLimits limits =>
      cases hs
      exact h.rebook (h.books.frame rfl rfl rfl)
  | connected youPubkey =>
      cases hs
      refine { h with books := ?_ }
      split
      · exact h.books.frame rfl rfl rfl
      · exact h.books
  | press side targetRoundNo =>
      simp only [Page.step] at hs
      split at hs
      · rename_i htargets
        cases hs
        exact { h with books := h.books.target (targets_mono htargets) }
      · cases hs
  | pressGivenUp k =>
      cases hs
      exact { h with }
  | pressConfirmed k =>
      simp only [Page.step] at hs
      split at hs
      · rename_i press _
        split at hs
        · cases hs
        · cases hs
          exact { h.note press.side press.roundNo with }
      · cases hs
  | landed k =>
      cases hs
      cases hk : s.sends[k]? with
      | none =>
          rw [List.modify_eq_self (List.getElem?_eq_none_iff.mp hk)]
          exact h
      | some snd =>
          obtain ⟨pre, post, hl, hmod⟩ := modify_split hk
          have hrejected : snd.rejected = false := hreported snd hk
          rw [hmod]
          have hbooks := h.books
          rw [hl] at hbooks
          refine h.reflag snd hl rfl rfl rfl ?_ ?_ ?_ ?_ ?_
          · rw [show entriesOf Send.charged s.run (pre ++ { snd with landed := true } :: post) =
              entriesOf Send.charged s.run (pre ++ snd :: post) from entriesOf_split rfl rfl rfl]
            exact hbooks
          · exact fun _ => rfl
          · exact fun _ => rfl
          · intro hbad
            rw [show ({ snd with landed := true } : Send).rejected = snd.rejected from rfl, hrejected] at hbad
            cases hbad
          · intro _
            -- a settled deposit that lands was confirmed, and had landed before
            cases hsettled : snd.settled with
            | none => simp [Send.exposed, hsettled]
            | some how =>
                cases how with
                | confirmed signature =>
                    have := h.charged snd (List.mem_of_getElem? hk) (by simp [Send.charged, hsettled])
                    simp [Send.exposed, this]
                | failed e => simp [Send.rejected, hsettled] at hrejected
  | noted k =>
      simp only [Page.step] at hs
      split at hs
      · rename_i snd hk
        split at hs
        · rename_i hmay
          cases hs
          obtain ⟨pre, post, hl, hmod⟩ := modify_split hk
          have hlanded : snd.landed = true := by
            simp only [Bool.and_eq_true] at hmay
            exact hmay.1
          rw [hmod]
          have hnote := h.note snd.entry.side (some snd.entry.roundNo)
          have hbooks := hnote.books
          rw [show (s.note snd.entry.side (some snd.entry.roundNo)).sends = pre ++ snd :: post from hl] at hbooks
          refine hnote.reflag snd hl rfl rfl rfl ?_ ?_ ?_ ?_ ?_
          · have hsame : entriesOf Send.charged s.run (pre ++ { snd with noted := true } :: post) =
                entriesOf Send.charged s.run (pre ++ snd :: post) := entriesOf_split rfl rfl rfl
            show Books (s.note _ _).auto (entriesOf Send.charged s.run _) _
            rw [hsame]
            exact hbooks
          · exact fun _ => hlanded
          · exact fun _ => hlanded
          · exact h.rejected snd (List.mem_of_getElem? hk)
          · exact id
        · cases hs
      · cases hs
  | settled k how nowMs => exact h.settled ho hreported hs

/-! ## What the books say -/

theorem Accounted.landedOf_eq (h : s.Accounted) (hdelivered : s.Delivered) (run : ℕ) :
    s.landedOf run = entriesOf Send.charged run s.sends := by
  refine entriesOf_congr fun snd hsnd _ => ?_
  cases hlanded : snd.landed with
  | true => rw [← h.landed_eq_charged hsnd (hdelivered snd hsnd hlanded).2, hlanded]
  | false =>
      cases hcharged : snd.charged with
      | false => rfl
      | true => simp [h.charged snd hsnd hcharged] at hlanded

theorem Accounted.chargedOnce (h : s.Accounted) : ChargedOnce s := by
  constructor
  case spent =>
    intro hdelivered
    rw [h.landedOf_eq hdelivered]
    exact h.books.spent
  case entered =>
    intro hdelivered
    rw [h.landedOf_eq hdelivered]
    exact h.books.entered
  case newest =>
    intro hdelivered r
    rw [h.landedOf_eq hdelivered]
    constructor
    · intro hr
      obtain ⟨hmem, hbound⟩ := h.books.registerSome r hr
      refine ⟨hmem, ?_⟩
      rintro q ⟨e, he, rfl⟩
      exact hbound e he
    · rintro ⟨⟨e, he, rfl⟩, hbound⟩
      cases hlast : s.auto.pnl.lastEnteredRound with
      | none => simp [h.books.registerNone hlast] at he
      | some q =>
          obtain ⟨⟨f, hf, rfl⟩, hnewest⟩ := h.books.registerSome q hlast
          rw [le_antisymm (hnewest e he) (hbound ⟨f, hf, rfl⟩)]
  case budget =>
    intro run b hb hbudgets
    by_cases hany : ∃ snd ∈ s.sends, snd.run = run
    · obtain ⟨snd, hsnd, hrun, hle⟩ := h.funded run hany
      refine le_trans ?_ (hle.trans (hbudgets snd hsnd hrun))
      refine totalUsd_entriesOf_le h.positive fun x _ hlanded => ?_
      simp [Send.exposed, hlanded]
    · have hnil : s.landedOf run = [] := entriesOf_eq_nil fun snd hsnd hrun => hany ⟨snd, hsnd, hrun⟩
      rw [hnil]
      exact hb

end Page

/-- In every run whose promises report what the chain did, a run is charged for each of its deposits that
landed, once, and for no other. -/
theorem automatic_deposits_charged_once (acts : List PageAct) (h : page.Each Page.Reported Page.loaded acts) :
    ChargedOnce (page.run Page.loaded acts) := by
  have hall : (page.run Page.loaded acts).Ordered ∧ (page.run Page.loaded acts).Accounted :=
    Machine.run_history_when (H := fun _ s => s.Ordered ∧ s.Accounted)
      (fun _ _ _ _ _ hreported ⟨ho, ha⟩ hs => ⟨ho.step hs, ha.step ho hreported hs⟩) (h := [])
      ⟨Page.Ordered.loaded, Page.Accounted.loaded⟩ acts h
  exact hall.2.chargedOnce

/-! ## A deposit that lands after its promise was rejected -/

/-- A tick in an open lobby. -/
def tick (r : ℤ) (nowMs : ℤ) : PageAct :=
  .evaluate ⟨some ⟨r, .lobby, none, []⟩, some r, false, 1000, false, .session, 1, [], "player"⟩ nowMs

def stoppedWaiting : Thrown := ⟨some "this page stopped waiting for it", .unknown, ""⟩

/-- The rule is armed in round 1 with a budget of $25. -/
def armed : List PageAct :=
  [.connected "player", .press ⟨0, Nat.two_pos⟩ (some 1), .pressConfirmed 0,
    .armWith ⟨.fixed 25, .repeatLast⟩ ⟨25, 100, none, none⟩ (some 1) 0]

def settledInTime : List PageAct :=
  armed ++ [tick 2 1000, .landed 0, .noted 0, .settled 0 (.confirmed "signature") 3000]

/-- The deposit into round 2 lands when the page has stopped waiting for it. -/
def settledLate : List PageAct :=
  armed ++ [tick 2 1000, .settled 0 (.failed stoppedWaiting) 121000, .landed 0, .noted 0, tick 3 200000, .landed 1,
    .noted 1, .settled 1 (.confirmed "signature") 203000]

theorem automatic_deposits_charged_once_in_time :
    ChargedOnce (page.run Page.loaded settledInTime) := by
  refine automatic_deposits_charged_once settledInTime ?_
  have hlanded : (page.run Page.loaded (settledInTime.take 5)).sends[0]?.map Send.rejected = some false := by
    decide +kernel
  have hsettled : (page.run Page.loaded (settledInTime.take 7)).sends[0]?.map Send.run =
      some (page.run Page.loaded (settledInTime.take 7)).run := by decide +kernel
  have hwallet : (page.run Page.loaded (settledInTime.take 7)).auto.pnl.wallet = "" := by decide +kernel
  refine ⟨trivial, trivial, trivial, trivial, trivial, ?_, trivial, ?_, trivial⟩
  · intro snd hsnd
    change (page.run Page.loaded (settledInTime.take 5)).sends[0]? = some snd at hsnd
    simpa [hsnd] using hlanded
  · intro snd hsnd
    change (page.run Page.loaded (settledInTime.take 7)).sends[0]? = some snd at hsnd
    have hrun : snd.run = (page.run Page.loaded (settledInTime.take 7)).run := by simpa [hsnd] using hsettled
    exact (if_pos hrun).mpr (.inl hwallet)

/-- Everything has been delivered, $50 have landed for a run with $25, and it was charged for $25. -/
theorem late_landing_is_not_charged :
    ¬ ChargedOnce (page.run Page.loaded settledLate) ∧ (page.run Page.loaded settledLate).Delivered ∧
      (page.run Page.loaded settledLate).auto.tally.spentUsd = 25 ∧
      totalUsd ((page.run Page.loaded settledLate).landedOf 1) = 50 := by
  have hspent : (page.run Page.loaded settledLate).auto.tally.spentUsd = 25 := by decide +kernel
  have hlanded : totalUsd ((page.run Page.loaded settledLate).landedOf 1) = 50 := by decide +kernel
  have hbudgets : ∀ snd ∈ (page.run Page.loaded settledLate).sends, snd.budgetUsd ≤ 25 := by decide +kernel
  have hdelivered : ∀ snd ∈ (page.run Page.loaded settledLate).sends,
      snd.landed = true → snd.noted = true ∧ snd.settled.isSome = true := by decide +kernel
  refine ⟨fun h => ?_, hdelivered, hspent, hlanded⟩
  have hle := h.budget 1 25 (by norm_num) fun snd hsnd _ => hbudgets snd hsnd
  rw [hlanded] at hle
  norm_num at hle

end BullsUnicorns.Repeat

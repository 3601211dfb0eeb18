import BullsUnicorns.Repeat.Lemmas.LostRounds
import BullsUnicorns.Repeat.Theorems.Charged

/-!
# No round is lost in silence

A tick, a confirmation and the report of an outcome keep what has been said of the rounds, where no
deposit by hand and no arming takes the record away from a round that the rule is not done with.
-/

namespace BullsUnicorns.Repeat

variable {state : AutoDeployState} {notes : List Note} {newest : Option ℤ} {r : ℤ}

/-! ## A tick -/

/-- A retry that has not been overtaken is all that a tick leaves. -/
theorem caughtUp_retrying {p : Params} (hlive : p.live.map LiveRound.roundNo = some r) {a : AutoDeployAttempt}
    (ha : (caughtUp state p).attempt = some a) (hretrying : a.outcome = .retrying) : r ≤ a.roundNo := by
  rw [caughtUp, bookRunPnl_attempt, hlive] at ha
  cases hb : state.attempt with
  | none => simp [expireStaleAttempt, hb] at ha
  | some b =>
      simp only [expireStaleAttempt, hb] at ha
      split at ha
      · cases ha
        cases hretrying
      · rename_i hstale
        rw [hb] at ha
        cases ha
        exact not_lt.mp fun hlt => hstale ⟨hlt, hretrying⟩

/-- The record may pass to the round that a decision is about. -/
theorem Intends.passes {p : Params} {nowMs : ℤ} {side : Side} {usd : ℚ}
    (h : Intends (p.input (caughtUp state p) nowMs) side r usd)
    (hle : ∀ a, (caughtUp state p).attempt = some a → a.roundNo ≤ r) : Passes (caughtUp state p) r := by
  intro a ha
  obtain ⟨hidle, hsame⟩ := attemptHold_eq_none h.free a ha
  rcases (hle a ha).lt_or_eq with hlt | heq
  · refine .inl ⟨hlt, ?_⟩
    cases ho : a.outcome with
    | sending => exact absurd ho hidle
    | retrying => exact absurd (caughtUp_retrying h.read ha ho) (not_le.mpr hlt)
    | landed => exact .inl rfl
    | abandoned => exact .inr rfl
  · exact .inr ⟨heq, .inr (hsame heq)⟩

/-- After a tick the rule works on what it has worked on, or on what it has just sent to. -/
theorem evaluate_worksOn {p : Params} {nowMs : ℤ} (h : (Repeat.evaluate state p nowMs).1.worksOn r) :
    state.worksOn r ∧ (Repeat.evaluate state p nowMs).2 = none ∨
      ∃ entry, (Repeat.evaluate state p nowMs).2 = some entry ∧ entry.roundNo = r ∧ p.targetRoundNo = some r := by
  obtain ⟨a, ha, hr, hunder⟩ := h
  rcases evaluate_cases state p nowMs with heval | ⟨_, q, _, reason, _, heval⟩ | ⟨entry, hfires, heval⟩
  · rw [heval] at ha ⊢
    rcases caughtUp_cases state p with hsame | ⟨_, b, _, _, _, hgone, hb⟩
    · exact .inl ⟨⟨a, hsame ▸ ha, hr, hunder⟩, rfl⟩
    · rw [hb] at ha
      cases ha
      simp [hgone] at hunder
  · rw [heval] at ha
    cases ha
    simp at hunder
  · rw [heval] at ha ⊢
    cases ha
    cases hr
    exact .inr ⟨entry, rfl, rfl, hfires.target⟩

theorem bookConfirmedDeposit_worksOn {side : Side} {roundNo : Option ℤ}
    (h : (bookConfirmedDeposit state side roundNo).worksOn r) : state.worksOn r := by
  obtain ⟨a, ha, hr, hunder⟩ := h
  rcases bookConfirmedDeposit_cases state side roundNo with ⟨hbook, _⟩ | ⟨q, _, _, hbook⟩
  · rw [hbook] at ha
    exact ⟨a, ha, hr, hunder⟩
  · rw [hbook] at ha
    rcases noteRoundEntered_cases (noteDeploy state side) q with ⟨hsame, _⟩ | ⟨b, hnote, _, hlanded, _⟩
    · rw [hsame] at ha
      exact ⟨a, ha, hr, hunder⟩
    · rw [hnote] at ha
      cases ha
      simp [hlanded] at hunder

/-- No report makes the rule work on another round. -/
theorem applySendOutcome_worksOn {a : AutoDeployAttempt} (ha : state.attempt = some a) (hsending : a.outcome = .sending)
    {o : SendOutcome} (h : (applySendOutcome state o).worksOn r) : state.worksOn r := by
  obtain ⟨c, hc, hr, hunder⟩ := h
  cases hs : o.settled with
  | confirmed signature =>
      simp only [applySendOutcome, hs] at hc
      rcases attemptLanded_cases state o.roundNo signature o.amountUsd o.walletAtSend with
        ⟨_, hsame⟩ | ⟨_, b, _, _, _, hlanded, hland⟩
      · rw [hsame] at hc
        exact ⟨c, hc, hr, hunder⟩
      · rw [hland] at hc
        cases hc
        simp [hlanded] at hunder
  | failed e =>
      rcases applySendOutcome_failed state o e hs with ⟨_, happly⟩ | ⟨_, happly⟩
      · rw [happly] at hc
        cases hc
        simp at hunder
      · rw [happly] at hc
        rcases attemptFailed_cases state o.roundNo (messageOf e) o.nowMs with
          ⟨hsame, _⟩ | ⟨b, b', hb, hbr, _, hb'r, _, _, hfail⟩
        · rw [hsame] at hc
          exact ⟨c, hc, hr, hunder⟩
        · rw [hfail] at hc
          cases hc
          rw [ha] at hb
          cases hb
          exact ⟨a, ha, hbr.trans (hb'r.symm.trans hr), .inl hsending⟩

namespace Heard

/-- An overtaken retry is written off, and reported. -/
theorem expire (h : Heard state notes newest) (hseen : ∀ a, state.attempt = some a → Seen newest a.roundNo)
    (live : Option ℤ) :
    Heard (expireStaleAttempt state live) (notes ++ losing state (expireStaleAttempt state live)) newest := by
  rcases expireStaleAttempt_cases state live with hsame | ⟨b, hb, hretrying, hgone⟩
  · rw [hsame, losing, lostRound_same rfl]
    simpa using h
  · rw [hgone]
    have hpass : Passes state b.roundNo := by
      intro a ha
      rw [hb] at ha
      cases ha
      exact .inr ⟨rfl, .inr hretrying⟩
    exact h.lose hpass (hseen b hb) (h.fresh _ ⟨b, hb, rfl, .inr hretrying⟩) .roundMovedOn

/-- No decision is about a reported round. -/
theorem not_lost (h : Heard state notes newest) (hpass : Passes state r) (hnewest : newest = some r)
    (hfloor : ∀ f, state.floorRound = some f → f < r) : r ∉ lostRounds notes := by
  intro hmem
  obtain ⟨f, hf, hle⟩ := h.not_newest hpass ⟨r, hnewest, le_rfl⟩ hmem hnewest
  exact absurd (hfloor f hf) (not_lt.mpr hle)

theorem evaluate (h : Heard state notes newest) (hseen : ∀ a, state.attempt = some a → Seen newest a.roundNo)
    (p : Params) (nowMs : ℤ) (htarget : ∀ r, p.targetRoundNo = some r → newest = some r) :
    Heard (Repeat.evaluate state p nowMs).1 (notes ++ evaluateNotes state p nowMs) newest := by
  have hcaught : Heard (caughtUp state p)
      (notes ++ losing state (expireStaleAttempt state (p.live.map LiveRound.roundNo))) newest :=
    (h.expire hseen _).frame rfl rfl rfl
  have hle {r : ℤ} (hnewest : newest = some r) (a : AutoDeployAttempt) (ha : (caughtUp state p).attempt = some a) :
      a.roundNo ≤ r := by
    have hseen' : Seen newest a.roundNo := by
      rcases caughtUp_cases state p with hsame | ⟨b, b', hb, _, hround, _, hb'⟩
      · exact hseen a (hsame ▸ ha)
      · rw [hb'] at ha
        cases ha
        exact hround ▸ hseen b hb
    obtain ⟨t, ht, hle⟩ := hseen'
    rw [hnewest] at ht
    cases ht
    exact hle
  simp only [Repeat.evaluate, evaluateNotes]
  cases hdecide : decideAutoDeploy (p.input (caughtUp state p) nowMs) with
  | hold reason => simpa using hcaught
  | abandon r reason =>
      obtain ⟨side, usd, hint⟩ := decideAutoDeploy_abandon hdecide
      have hnewest := htarget r hint.target
      have hpass := hint.passes (hle hnewest)
      have hlose := hcaught.lose hpass ⟨r, hnewest, le_rfl⟩ (hcaught.not_lost hpass hnewest hint.floor) reason
      obtain ⟨b, hb, hround, hgone⟩ := abandonAttempt_attempt (caughtUp state p) r reason
      have hnoted := hlose.began (r := r) (.inr (by simp [losing_abandon hpass hb hround hgone, lostRounds]))
      simpa [List.append_assoc] using hnoted
  | fire entry n =>
      have hint := (decideAutoDeploy_fire hdecide).toIntends
      have hnewest := htarget entry.roundNo hint.target
      have hpass := hint.passes (hle hnewest)
      have hbegin := hcaught.begin hpass hnewest (hcaught.not_lost hpass hnewest hint.floor)
      simpa [List.append_assoc] using hbegin

/-- A confirmed deposit is recorded, unless it is history or the rule's own is in flight. -/
theorem note (h : Heard state notes newest) (side : Side) (roundNo : Option ℤ)
    (hseen : ∀ r, roundNo = some r → Seen newest r)
    (hminds : ∀ r a, roundNo = some r → state.attempt = some a → a.outcome = .retrying → r ≤ a.roundNo) :
    Heard (bookConfirmedDeposit state side roundNo)
      (notes ++ landedNotes (bookConfirmedDeposit state side roundNo)) newest := by
  have hside : Heard (noteDeploy state side) notes newest := h.frame rfl rfl rfl
  rcases bookConfirmedDeposit_cases state side roundNo with ⟨hbook, _⟩ | ⟨r, hr, hidle, hbook⟩
  · rw [hbook]
    exact hside.landed _
  · rw [hbook]
    rcases noteRoundEntered_cases (noteDeploy state side) r with ⟨hsame, _⟩ | ⟨b, hnote, hround, hlanded, hnewer⟩
    · rw [hsame]
      exact hside.landed _
    · rw [hnote]
      refine hside.land hround hlanded (hseen r hr) ?_ hnewer
      rintro q ⟨a, ha, rfl, hsending | hretrying⟩
      · exact absurd (isSending_iff.mpr ⟨a, ha, hsending⟩) hidle
      · exact le_antisymm (hnewer a ha) (hminds r a hr ha hretrying)

/-- The outcome of the deposit that the record says is being sent. -/
theorem settled (h : Heard state notes newest) {a : AutoDeployAttempt} (ha : state.attempt = some a)
    (hsending : a.outcome = .sending) (hseen : Seen newest a.roundNo) (o : SendOutcome)
    (hround : o.roundNo = a.roundNo) :
    Heard (applySendOutcome state o)
      (notes ++ (settledNotes state o ++ landedNotes (applySendOutcome state o))) newest := by
  have hworks : state.worksOn o.roundNo := ⟨a, ha, hround.symm, .inl hsending⟩
  have hpass : Passes state o.roundNo := by
    intro c hc
    rw [ha] at hc
    cases hc
    exact .inr ⟨hround.symm, .inl hsending⟩
  have hat : state.attemptAt o.roundNo = some a := attemptAt_eq_some.mpr ⟨ha, hround.symm⟩
  have hfresh := h.fresh _ hworks
  cases hs : o.settled with
  | confirmed signature =>
      have happly : applySendOutcome state o =
          attemptLanded state o.roundNo signature o.amountUsd o.walletAtSend := by simp [applySendOutcome, hs]
      rcases attemptLanded_cases state o.roundNo signature o.amountUsd o.walletAtSend with
        ⟨hnone, _⟩ | ⟨c, b, _, _, hb, hlanded, hland⟩
      · rw [hat] at hnone
        cases hnone
      · have hkept : losing state (applySendOutcome state o) = [] := by
          rw [losing, lostRound_kept (b := b) (by rw [happly, hland]) (by simp [hlanded])]
          rfl
        have hlast := h.lastRound_lt hpass
        have hnewer : ¬ state.tally.lastRound.any (o.roundNo < ·) = true := by
          intro hany
          obtain ⟨q, hq, hlt⟩ : ∃ q, state.tally.lastRound = some q ∧ o.roundNo < q := by
            simpa [Option.any_eq_true] using hany
          exact lt_asymm hlt (hlast q hq)
        have hother : ¬ state.tally.lastRound = some o.roundNo := fun hq => lt_irrefl _ (hlast _ hq)
        have hrecord := (h.entered hfresh).land hb hlanded (hround ▸ hseen) (fun _ => hpass.works) fun _ => hpass.le
        have hbooked : Heard (applySendOutcome state o) _ newest := hrecord.book (r := o.roundNo)
          ⟨b, rfl, hb, .inl hlanded⟩ (by rw [happly, hland]) (by rw [happly, hland])
          (by rw [happly, hland]; simp [tallyEntered, hnewer, hother])
          (by rw [happly, hland]; simp [tallyEntered, hnewer, hother])
        have hnotes : settledNotes state o = [.entered o.roundNo] := by
          simp only [settledNotes, hs, hat, hkept]
          rfl
        rw [hnotes]
        simpa [landedNotes, happly, hland] using hbooked
  | failed e =>
      have hnotes : settledNotes state o = losing state (applySendOutcome state o) := by
        simp only [settledNotes, hs, List.nil_append]
      rw [hnotes, ← List.append_assoc]
      rcases applySendOutcome_failed state o e hs with ⟨_, happly⟩ | ⟨_, happly⟩
      · rw [happly]
        have hlose : Heard (noteSessionRefused state o.roundNo o.sessionEpochAtSend)
            (notes ++ losing state (noteSessionRefused state o.roundNo o.sessionEpochAtSend)) newest :=
          (h.lose hpass (hround ▸ hseen) hfresh .sessionLapsed).frame rfl rfl rfl
        exact hlose.landed _
      · rw [happly]
        rcases attemptFailed_cases state o.roundNo (messageOf e) o.nowMs with
          ⟨_, hlanded⟩ | ⟨_, b, _, _, _, hb, hretrying, _, hfail⟩
        · have := hlanded a ha hround.symm
          simp [hsending] at this
        · have hkept : lostRound state { state with attempt := some b } = none := lostRound_kept rfl (by simp [hretrying])
          rw [hfail, losing, hkept, Option.toList_none, List.map_nil, List.append_nil]
          exact (h.retry hworks hb hretrying).landed _

end Heard

/-! ## The page -/

namespace Journal

structure Sound (j : Journal) : Prop where
  ordered : j.page.Ordered
  heard : Heard j.page.auto j.notes j.page.target
  /-- A deposit that is out is one of the current run. -/
  own : ∀ snd ∈ j.page.sends, snd.settled = none → snd.run = j.page.run
  newest : ∀ r, j.page.auto.worksOn r → ∀ snd ∈ j.page.sends, snd.entry.roundNo ≤ r

variable {j j' : Journal} {o : Option UnattendedEntry}

theorem Sound.loaded : Journal.loaded.Sound := by
  constructor
  case ordered => exact Page.Ordered.loaded
  case heard => exact Heard.initial
  case own => simp [Journal.loaded, Page.loaded]
  case newest => simp [Journal.loaded, Page.loaded]

theorem step_ok {act : PageAct} (hs : j.step act = .ok (j', o)) :
    ∃ s', j.page.step act = .ok (s', o) ∧ j' = ⟨s', j.notes ++ (j.page.notes act ++ landedNotes s'.auto)⟩ := by
  unfold Journal.step at hs
  cases hp : j.page.step act with
  | error e => simp [hp, Except.map] at hs
  | ok res =>
      rw [hp] at hs
      cases hs
      exact ⟨res.1, rfl, rfl⟩

/-- A deposit that is out is the one that the record says is being sent. -/
theorem Sound.sending (h : j.Sound) {snd : Send} (hsnd : snd ∈ j.page.sends) (hout : snd.settled = none) :
    ∃ a, j.page.auto.attempt = some a ∧ a.outcome = .sending ∧ a.roundNo = snd.entry.roundNo :=
  h.ordered.slots.pending snd.shot (List.mem_map.mpr ⟨snd, hsnd, rfl⟩) (by simp [Send.shot, hout])
    (h.own snd hsnd hout)

theorem Sound.evaluate (h : j.Sound) {p : Params} {nowMs : ℤ} (hs : j.step (.evaluate p nowMs) = .ok (j', o)) :
    j'.Sound := by
  obtain ⟨s', hstep, rfl⟩ := step_ok hs
  have hordered := (h.ordered.evaluate hstep).1
  obtain ⟨htargets, _, hcases⟩ := Page.step_evaluate hstep
  have hnew := Page.targets_mono htargets
  rcases hcases with ⟨hyou, rfl, rfl⟩ | ⟨hyou, ho, rfl⟩
  · constructor
    case ordered => exact hordered
    case heard => simpa [Page.notes, hyou] using (h.heard.target hnew).landed j.page.auto
    case own => exact h.own
    case newest => exact h.newest
  · constructor
    case ordered => exact hordered
    case heard =>
      have hseen := (h.ordered.slots.target hnew).seenSlot
      have heard := (h.heard.target hnew).evaluate hseen p nowMs fun r hr => by simp [Page.advance, hr]
      simpa [Page.notes, hyou] using heard.landed (Repeat.evaluate j.page.auto p nowMs).1
    case own =>
      intro snd hsnd hout
      rcases List.mem_append.mp hsnd with hsnd | hsnd
      · exact h.own snd hsnd hout
      · obtain ⟨entry, _, rfl⟩ : ∃ entry, o = some entry ∧ j.page.sendOf p entry = snd := by
          simpa [Option.map_eq_some_iff] using hsnd
        rfl
    case newest =>
      intro r hworks snd hsnd
      rcases evaluate_worksOn hworks with ⟨hold, hnone⟩ | ⟨entry, _, _, htarget⟩
      · rw [← ho] at hnone
        subst hnone
        exact h.newest r hold snd (by simpa using hsnd)
      · obtain ⟨t, ht, hle⟩ := hordered.slots.seen snd.shot (List.mem_map.mpr ⟨snd, hsnd, rfl⟩)
        have hadvance : j.page.advance p.targetRoundNo = some r := by simp [Page.advance, htarget]
        rw [show t = r from Option.some.inj (ht.symm.trans hadvance)] at hle
        exact hle

/-- An act that leaves record, floor and tally alone, and no deposit newly out. -/
theorem Sound.quiet (h : j.Sound) {s' : Page} (hordered : s'.Ordered) {notes : List Note} (hnotes : notes = [])
    (hattempt : s'.auto.attempt = j.page.auto.attempt) (hfloor : s'.auto.floorRound = j.page.auto.floorRound)
    (htally : s'.auto.tally = j.page.auto.tally)
    (htarget : ∀ t, j.page.target = some t → ∃ t', s'.target = some t' ∧ t ≤ t') (hrun : s'.run = j.page.run)
    (hsends : ∀ snd ∈ s'.sends, ∃ snd' ∈ j.page.sends, snd'.shot = snd.shot) :
    Sound ⟨s', j.notes ++ (notes ++ landedNotes s'.auto)⟩ := by
  subst hnotes
  constructor
  case ordered => exact hordered
  case heard => exact ((h.heard.target htarget).frame hattempt hfloor htally).landed s'.auto
  case own =>
    intro snd hsnd hout
    obtain ⟨snd', hsnd', hshot⟩ := hsends snd hsnd
    simp only [Send.shot, Shot.mk.injEq] at hshot
    have hout' : snd'.settled = none := by simpa [hout] using hshot.2.2
    exact (hshot.1.symm.trans (h.own snd' hsnd' hout')).trans hrun.symm
  case newest =>
    intro r hworks snd hsnd
    obtain ⟨snd', hsnd', hshot⟩ := hsends snd hsnd
    simp only [Send.shot, Shot.mk.injEq] at hshot
    refine hshot.2.1 ▸ h.newest r ?_ snd' hsnd'
    simpa [AutoDeployState.worksOn, hattempt] using hworks

theorem shot_modify {f : Send → Send} (hf : ∀ snd, (f snd).shot = snd.shot) (l : List Send) (k : ℕ) :
    ∀ snd ∈ l.modify k f, ∃ snd' ∈ l, snd'.shot = snd.shot := by
  intro snd hsnd
  rcases mem_modify_of hsnd with hsnd | ⟨snd', hsnd', rfl⟩
  · exact ⟨snd, hsnd, rfl⟩
  · exact ⟨snd', hsnd', (hf snd').symm⟩

/-- A confirmation is noted. -/
theorem Sound.note (h : j.Sound) {s' : Page} (hordered : s'.Ordered) (side : Side) (roundNo : Option ℤ)
    (hseen : ∀ r, roundNo = some r → Seen j.page.target r)
    (hminds : ∀ r a, roundNo = some r → j.page.auto.attempt = some a → a.outcome = .retrying → r ≤ a.roundNo)
    (hauto : s'.auto = bookConfirmedDeposit j.page.auto side roundNo) (htarget : s'.target = j.page.target)
    (hrun : s'.run = j.page.run) (hsends : ∀ snd ∈ s'.sends, ∃ snd' ∈ j.page.sends, snd'.shot = snd.shot) :
    Sound ⟨s', j.notes ++ ([] ++ landedNotes s'.auto)⟩ := by
  have heard := h.heard.note side roundNo hseen hminds
  constructor
  case ordered => exact hordered
  case heard => simpa only [hauto, htarget, List.nil_append] using heard
  case own =>
    intro snd hsnd hout
    obtain ⟨snd', hsnd', hshot⟩ := hsends snd hsnd
    simp only [Send.shot, Shot.mk.injEq] at hshot
    have hout' : snd'.settled = none := by simpa [hout] using hshot.2.2
    exact (hshot.1.symm.trans (h.own snd' hsnd' hout')).trans hrun.symm
  case newest =>
    intro r hworks snd hsnd
    obtain ⟨snd', hsnd', hshot⟩ := hsends snd hsnd
    simp only [Send.shot, Shot.mk.injEq] at hshot
    refine hshot.2.1 ▸ h.newest r ?_ snd' hsnd'
    have hworks' : s'.auto.worksOn r := hworks
    rw [hauto] at hworks'
    exact bookConfirmedDeposit_worksOn hworks'

/-- The promise of a deposit settles. -/
theorem Sound.settled (h : j.Sound) {k : ℕ} {how : Settled} {nowMs : ℤ}
    (hs : j.step (.settled k how nowMs) = .ok (j', o)) : j'.Sound := by
  obtain ⟨s', hstep, rfl⟩ := step_ok hs
  have hordered := h.ordered.settled hstep
  obtain ⟨snd, pre, post, hk, hl, hmay, _, rfl⟩ := Page.step_settled hstep
  have hsnd : snd ∈ j.page.sends := List.mem_of_getElem? hk
  obtain ⟨a, ha, hsending, hround⟩ := h.sending hsnd (Page.maySettle_pending hmay)
  have hsends (x : Send) (hx : x ∈ pre ++ { snd with settled := some how } :: post) :
      ∃ x' ∈ j.page.sends, x'.run = x.run ∧ x'.entry.roundNo = x.entry.roundNo ∧
        (x.settled = none → x'.settled = none) := by
    rw [hl]
    rcases List.mem_append.mp hx with hx | hx
    · exact ⟨x, List.mem_append_left _ hx, rfl, rfl, id⟩
    rcases List.mem_cons.mp hx with rfl | hx
    · exact ⟨snd, by simp, rfl, rfl, by simp⟩
    · exact ⟨x, by simp [hx], rfl, rfl, id⟩
  constructor
  case ordered => exact hordered
  case heard =>
    have heard := h.heard.settled ha hsending (h.ordered.slots.seenSlot a ha) (Page.outcomeOf snd how nowMs) hround.symm
    simpa [Page.notes, hk] using heard
  case own =>
    intro x hx hout
    obtain ⟨x', hx', hrun, _, hout'⟩ := hsends x hx
    exact hrun ▸ h.own x' hx' (hout' hout)
  case newest =>
    intro r hworks x hx
    obtain ⟨x', hx', _, hsame, _⟩ := hsends x hx
    rw [← hsame]
    exact h.newest r (applySendOutcome_worksOn ha hsending hworks) x' hx'

/-- A run is armed. -/
theorem Sound.startRun (h : j.Sound) {auto : AutoDeployState} {visible : Option ℤ}
    (hminds : (∀ r, ¬ j.page.auto.worksOn r) ∧
      ∀ r ∈ lostRounds j.notes, j.page.target = some r → visible.any (r ≤ ·))
    (hattempt : auto.attempt = none) (hfloor : auto.floorRound = visible) (hlast : auto.tally.lastRound = none)
    (hmissed : auto.tally.missed = 0) :
    Sound ⟨j.page.startRun auto visible, j.notes ++ ([.armed] ++ landedNotes auto)⟩ := by
  constructor
  case ordered => exact h.ordered.startRun hattempt hfloor
  case heard =>
    have hvisible (r : ℤ) (hr : r ∈ lostRounds j.notes) (htarget : j.page.target = some r) :
        ∃ f, auto.floorRound = some f ∧ r ≤ f := by
      simpa [hfloor, Option.any_eq_true] using hminds.2 r hr htarget
    have heard : Heard auto (j.notes ++ [.armed]) j.page.target :=
      h.heard.arm hminds.1 hvisible hattempt hlast hmissed
    show Heard auto (j.notes ++ ([.armed] ++ landedNotes auto)) j.page.target
    rw [← List.append_assoc]
    exact heard.landed auto
  case own =>
    intro snd hsnd hout
    obtain ⟨a, ha, hsending, _⟩ := h.sending hsnd hout
    exact absurd ⟨a, ha, rfl, .inl hsending⟩ (hminds.1 a.roundNo)
  case newest =>
    rintro r ⟨a, ha, _⟩
    simp [Page.startRun, hattempt] at ha

theorem Sound.step (h : j.Sound) {act : PageAct} (hminds : j.Minds act) (hs : j.step act = .ok (j', o)) :
    j'.Sound := by
  obtain ⟨s', hstep, rfl⟩ := step_ok hs
  have hordered := h.ordered.step hstep
  have hself : ∀ t, j.page.target = some t → ∃ t', j.page.target = some t' ∧ t ≤ t' := fun t ht => ⟨t, ht, le_rfl⟩
  have hsame : ∀ snd ∈ j.page.sends, ∃ snd' ∈ j.page.sends, snd'.shot = snd.shot := fun snd hsnd => ⟨snd, hsnd, rfl⟩
  cases act with
  | evaluate p nowMs => exact h.evaluate hs
  | arm rule visibleRoundNo nowMs =>
      cases hstep
      exact h.startRun hminds rfl rfl rfl rfl
  | armWith strategy limits visibleRoundNo nowMs =>
      cases hstep
      exact h.startRun hminds rfl rfl rfl rfl
  | disarm =>
      cases hstep
      exact h.quiet hordered rfl rfl rfl rfl hself rfl hsame
  | setRule rule =>
      cases hstep
      exact h.quiet hordered rfl rfl rfl rfl hself rfl hsame
  | setLimits limits =>
      cases hstep
      exact h.quiet hordered rfl rfl rfl rfl hself rfl hsame
  | connected youPubkey =>
      cases hstep
      refine h.quiet hordered rfl ?_ ?_ ?_ hself rfl hsame
      all_goals
        dsimp only
        split <;> rfl
  | press side targetRoundNo =>
      simp only [Page.step] at hstep
      split at hstep
      · rename_i htargets
        cases hstep
        exact h.quiet hordered rfl rfl rfl rfl (Page.targets_mono htargets) rfl hsame
      · cases hstep
  | pressGivenUp k =>
      cases hstep
      exact h.quiet hordered rfl rfl rfl rfl hself rfl hsame
  | pressConfirmed k =>
      simp only [Page.step] at hstep
      split at hstep
      · rename_i press hk
        split at hstep
        · cases hstep
        · cases hstep
          refine h.note hordered press.side press.roundNo ?_ (fun r a => hminds press r a hk) rfl rfl rfl hsame
          exact h.ordered.presses press (List.mem_of_getElem? hk)
      · cases hstep
  | landed k =>
      cases hstep
      have hsends := shot_modify (f := fun snd => { snd with landed := true }) (fun _ => rfl) j.page.sends k
      exact h.quiet hordered rfl rfl rfl rfl hself rfl hsends
  | noted k =>
      simp only [Page.step] at hstep
      split at hstep
      · rename_i snd hk
        have hsnd : snd ∈ j.page.sends := List.mem_of_getElem? hk
        split at hstep
        · cases hstep
          have hsends := shot_modify (f := fun snd => { snd with noted := true }) (fun _ => rfl) j.page.sends k
          refine h.note hordered snd.entry.side (some snd.entry.roundNo) ?_ ?_ rfl rfl rfl hsends
          · rintro r ⟨⟩
            exact h.ordered.slots.seen snd.shot (List.mem_map.mpr ⟨snd, hsnd, rfl⟩)
          · rintro r a ⟨⟩ ha hretrying
            exact h.newest a.roundNo ⟨a, ha, rfl, .inr hretrying⟩ snd hsnd
        · cases hstep
      · cases hstep
  | settled k how nowMs => exact h.settled hs

theorem Sound.noSilence (h : j.Sound) : j.NoSilence := by
  constructor
  case told =>
    intro r hr
    rcases h.heard.told r hr with hworks | hlanded | hmem
    · exact .inl hworks
    · exact .inr (.inl hlanded)
    · exact .inr (.inr (List.count_eq_one_of_mem h.heard.once hmem))
  case once => exact h.heard.once
  case missed =>
    refine ⟨h.heard.missed, List.nodup_iff_count_le_one.mpr fun r => ?_⟩
    exact (count_missedRounds_le j.notes r).trans (List.nodup_iff_count_le_one.mp h.heard.once r)

end Journal

/-- Keeping the journal changes nothing of the page. -/
theorem journal_run_page (j : Journal) (acts : List PageAct) :
    (journal.run j acts).page = page.run j.page acts := by
  induction acts generalizing j with
  | nil => rfl
  | cons act acts ih =>
      rw [Machine.run_cons, Machine.run_cons, ih]
      cases hs : j.page.step act with
      | ok r => simp [Machine.attempt, journal, page, Journal.step, hs, Except.map]
      | error e => simp [Machine.attempt, journal, page, Journal.step, hs, Except.map]

/-- In every run whose acts take no round from the rule before it is done with it, every round that was
begun or written off lands or is reported lost, once, and the tally counts the reported ones. -/
theorem no_round_lost_in_silence (acts : List PageAct) (h : journal.Each Journal.Minds Journal.loaded acts) :
    (journal.run Journal.loaded acts).NoSilence := by
  have hsound : (journal.run Journal.loaded acts).Sound :=
    Machine.run_history_when (H := fun _ j => j.Sound) (fun _ _ _ _ _ hminds hj hs => hj.step hminds hs) (h := [])
      Journal.Sound.loaded acts h
  exact hsound.noSilence

/-! ## What takes a round from the rule -/

/-- A deposit into round 2 fails, and is to be tried again. -/
def retrying : List PageAct := armed ++ [tick 2 1000, .settled 0 (.failed stoppedWaiting) 2000]

/-- The clock finds round 3 open, closes the books on round 2 and goes on. -/
def overtaken : List PageAct :=
  retrying ++ [tick 3 3000, .landed 1, .noted 1, .settled 1 (.confirmed "signature") 5000]

/-- A deposit by hand into round 3 confirms before the clock finds that round. -/
def overtakenByHand : List PageAct := retrying ++ [.press ⟨0, Nat.two_pos⟩ (some 3), .pressConfirmed 1]

theorem no_round_lost_in_silence_witness :
    (journal.run Journal.loaded overtaken).NoSilence ∧
      (lostRounds (journal.run Journal.loaded overtaken).notes) = [2] := by
  have hpress : (journal.run Journal.loaded (overtaken.take 2)).page.auto.attempt = none := by decide +kernel
  have harm : (journal.run Journal.loaded (overtaken.take 3)).page.auto.attempt.map AutoDeployAttempt.outcome =
      some .landed := by decide +kernel
  have hnone : lostRounds (journal.run Journal.loaded (overtaken.take 3)).notes = [] := by decide +kernel
  refine ⟨no_round_lost_in_silence overtaken ?_, by decide +kernel⟩
  refine ⟨trivial, trivial, ?_, ⟨?_, ?_⟩, trivial, trivial, trivial, trivial, trivial, trivial, trivial⟩
  · intro _ _ a _ _ ha
    change (journal.run Journal.loaded (overtaken.take 2)).page.auto.attempt = some a at ha
    rw [hpress] at ha
    cases ha
  · rintro r ⟨a, ha, _, hunder⟩
    change (journal.run Journal.loaded (overtaken.take 3)).page.auto.attempt = some a at ha
    have hlanded : a.outcome = .landed := by simpa [ha] using harm
    simp [hlanded] at hunder
  · intro r hr
    change r ∈ lostRounds (journal.run Journal.loaded (overtaken.take 3)).notes at hr
    rw [hnone] at hr
    cases hr

/-- The record is about round 3, round 2 has neither landed nor been reported, and no toast has been shown. -/
theorem round_overtaken_by_hand_is_lost_in_silence :
    ¬ (journal.run Journal.loaded overtakenByHand).NoSilence ∧
      (journal.run Journal.loaded overtakenByHand).page.auto.attempt.map AutoDeployAttempt.roundNo = some 3 ∧
      .began 2 ∈ (journal.run Journal.loaded overtakenByHand).notes ∧
      .landed 2 ∉ (journal.run Journal.loaded overtakenByHand).notes ∧
      lostRounds (journal.run Journal.loaded overtakenByHand).notes = [] := by
  have hround : (journal.run Journal.loaded overtakenByHand).page.auto.attempt.map AutoDeployAttempt.roundNo =
      some 3 := by decide +kernel
  have hbegan : .began 2 ∈ (journal.run Journal.loaded overtakenByHand).notes := by decide +kernel
  have hlanded : .landed 2 ∉ (journal.run Journal.loaded overtakenByHand).notes := by decide +kernel
  have hlost : lostRounds (journal.run Journal.loaded overtakenByHand).notes = [] := by decide +kernel
  refine ⟨fun h => ?_, hround, hbegan, hlanded, hlost⟩
  rcases h.told 2 hbegan with ⟨a, ha, hr, _⟩ | h2 | h2
  · simp [ha, hr] at hround
  · exact hlanded h2
  · simp [hlost] at h2

/-- So is one that is to be tried again when the rule is armed anew; -/
example : (journal.run Journal.loaded (retrying ++ [.arm (.fixed 5) (some 2) 3000, tick 3 4000])).page.auto.attempt.map
    AutoDeployAttempt.roundNo = some 3 ∧
    lostRounds (journal.run Journal.loaded (retrying ++ [.arm (.fixed 5) (some 2) 3000, tick 3 4000])).notes = [] := by
  decide +kernel

/-- and a run that is armed while no round is on screen reports once more what the last one has lost. -/
example : lostRounds (journal.run Journal.loaded (armed ++ [.evaluate ⟨some ⟨2, .fight, none, []⟩, some 2, false,
    1000, false, .session, 1, [], "player"⟩ 1000, .arm (.fixed 5) none 2000, .evaluate ⟨some ⟨2, .fight, none, []⟩,
    some 2, false, 1000, false, .session, 1, [], "player"⟩ 3000])).notes = [2, 2] := by
  decide +kernel

end BullsUnicorns.Repeat

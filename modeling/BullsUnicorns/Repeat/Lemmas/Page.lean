import BullsUnicorns.Repeat.Lemmas.Transitions

/-!
# The page keeps its record in order

What holds of a page after any acts, and what its record knows besides of the rounds that have had a
deposit, where no report of an outcome makes it forget one.
-/

namespace BullsUnicorns.Repeat

/-! ## One element of a list -/

theorem modify_split {α : Type*} {l : List α} {k : ℕ} {x : α} (h : l[k]? = some x) :
    ∃ pre post, l = pre ++ x :: post ∧ ∀ f : α → α, l.modify k f = pre ++ f x :: post := by
  obtain ⟨hk, rfl⟩ := List.getElem?_eq_some_iff.mp h
  refine ⟨l.take k, l.drop (k + 1), ?_, fun f => List.modify_eq_take_cons_drop hk⟩
  rw [List.getElem_cons_drop, List.take_append_drop]

theorem map_modify_of {α β : Type*} {g : α → β} {f : α → α} (hf : ∀ x, g (f x) = g x) (l : List α) (k : ℕ) :
    (l.modify k f).map g = l.map g := by
  cases hk : l[k]? with
  | none => rw [List.modify_eq_self (List.getElem?_eq_none_iff.mp hk)]
  | some x =>
      obtain ⟨pre, post, hl, hmod⟩ := modify_split hk
      rw [hmod, hl]
      simp [hf]

theorem mem_modify_of {α : Type*} {l : List α} {k : ℕ} {f : α → α} {y : α} (h : y ∈ l.modify k f) :
    y ∈ l ∨ ∃ x ∈ l, y = f x := by
  cases hk : l[k]? with
  | none =>
      rw [List.modify_eq_self (List.getElem?_eq_none_iff.mp hk)] at h
      exact .inl h
  | some x =>
      obtain ⟨pre, post, hl, hmod⟩ := modify_split hk
      rw [hmod] at h
      rcases List.mem_append.mp h with hy | hy
      · exact .inl (by simp [hl, hy])
      rcases List.mem_cons.mp hy with rfl | hy
      · exact .inr ⟨x, by simp [hl], rfl⟩
      · exact .inl (by simp [hl, hy])

/-! ## The record and a tick -/

namespace Slots

variable {state : AutoDeployState} {shots : List Shot} {run : ℕ} {newest : Option ℤ}

/-- Only the record of this run's own deposit says that one is being sent. -/
theorem own {x : Shot} {a : Option AutoDeployAttempt} (h : Slots a shots run newest) (hx : x ∈ shots)
    (hpend : x.pending = true) {b : AutoDeployAttempt} (hb : a = some b) (hsending : b.outcome = .sending) :
    x.run = run ∧ b.roundNo = x.roundNo := by
  obtain ⟨y, hy, _, hrun, _⟩ := h.sending b hb hsending
  have hxrun : x.run = run := by
    by_contra hne
    exact h.alone x hx hpend hne y hy hrun
  obtain ⟨c, hc, _, hround⟩ := h.pending x hx hpend hxrun
  rw [hb] at hc
  cases hc
  exact ⟨hxrun, hround⟩

theorem caughtUp (h : Slots state.attempt shots run newest) (p : Params) :
    Slots (caughtUp state p).attempt shots run newest := by
  rcases caughtUp_cases state p with hsame | ⟨b, b', hb, hretrying, hround, hgone, hcaught⟩
  · rw [hsame]
    exact h
  · rw [hcaught]
    refine h.close ?_ (hround ▸ h.seenSlot b hb) ?_ (.inr hgone)
    · intro c hc
      rw [hb] at hc
      cases hc
      simp [hretrying]
    · intro c hc
      rw [hb] at hc
      cases hc
      exact hround.ge

/-- In the target's own round the record is not ahead. -/
theorem le_target {a : Option AutoDeployAttempt} {r : ℤ} (h : Slots a shots run (some r))
    {b : AutoDeployAttempt} (hb : a = some b) : b.roundNo ≤ r := by
  obtain ⟨t, ht, hle⟩ := h.seenSlot b hb
  cases ht
  exact hle

theorem evaluate (h : Slots state.attempt shots run newest) (p : Params) (nowMs : ℤ)
    (htarget : ∀ r, p.targetRoundNo = some r → newest = some r)
    (hidle : p.entering = false → ∀ x ∈ shots, x.pending = false) :
    match (Repeat.evaluate state p nowMs).2 with
    | none => Slots (Repeat.evaluate state p nowMs).1.attempt shots run newest
    | some entry =>
        shotsInto shots run entry.roundNo < MAX_TRIES ∧
          Slots (Repeat.evaluate state p nowMs).1.attempt (shots ++ [⟨run, entry.roundNo, true⟩]) run newest := by
  have hcaught := h.caughtUp p
  rcases evaluate_cases state p nowMs with heval | ⟨side, r, usd, reason, hint, heval⟩ | ⟨entry, hfires, heval⟩
  · rw [heval]
    exact hcaught
  · rw [heval]
    obtain rfl := htarget r hint.target
    obtain ⟨b', hb', hround, hgone⟩ := abandonAttempt_attempt (Repeat.caughtUp state p) r reason
    show Slots (abandonAttempt (Repeat.caughtUp state p) r reason).attempt shots run (some r)
    rw [hb']
    refine hcaught.close ?_ ⟨r, rfl, hround.le⟩ ?_ (.inr hgone)
    · exact fun b hb => (attemptHold_eq_none hint.free b hb).1
    · exact fun b hb => hround ▸ hcaught.le_target hb
  · rw [heval]
    obtain rfl := htarget entry.roundNo hfires.target
    obtain ⟨b', hb', hround, hsending, htries⟩ := beginAttempt_attempt (Repeat.caughtUp state p) entry.roundNo
    have hfire := hcaught.fire (hidle hfires.idle) b' ⟨entry.roundNo, rfl, hround.le⟩
      (fun b hb => hround ▸ hcaught.le_target hb) hsending fun b hb hsame => ?_
    · rw [hround] at hfire
      show _ ∧ Slots (beginAttempt (Repeat.caughtUp state p) entry.roundNo).attempt _ _ _
      rw [hb']
      exact hfire
    · have hat : (Repeat.caughtUp state p).attemptAt entry.roundNo = some b :=
        attemptAt_eq_some.mpr ⟨hb, hsame.trans hround⟩
      rw [hat] at htries
      exact ⟨(attemptHold_eq_none hfires.free b hb).2 (hsame.trans hround), htries.symm, hfires.tries b hat⟩

theorem note (h : Slots state.attempt shots run newest) (side : Side) {roundNo : Option ℤ}
    (hseen : ∀ r, roundNo = some r → Seen newest r) :
    Slots (bookConfirmedDeposit state side roundNo).attempt shots run newest := by
  rcases bookConfirmedDeposit_cases state side roundNo with ⟨hbook, _⟩ | ⟨r, hr, hidle, hbook⟩
  · rw [hbook]
    exact h
  · rw [hbook]
    rcases noteRoundEntered_cases (noteDeploy state side) r with ⟨hsame, _⟩ | ⟨b', hnote, hround, hlanded, hnewer⟩
    · rw [hsame]
      exact h
    · rw [hnote]
      exact h.close (not_isSending.mp hidle) (hround ▸ hseen r hr) (fun b hb => hround ▸ hnewer b hb) (.inl hlanded)

theorem report {pre post : List Shot} {x : Shot} (h : Slots state.attempt (pre ++ x :: post) run newest)
    (hpend : x.pending = true) {o : SendOutcome} (hround : o.roundNo = x.roundNo) :
    Slots (applySendOutcome state o).attempt (pre ++ { x with pending := false } :: post) run newest := by
  have hmem : x ∈ pre ++ x :: post := by simp
  have hseen : Seen newest o.roundNo := hround ▸ h.seen x hmem
  cases hs : o.settled with
  | confirmed signature =>
      simp only [applySendOutcome, hs]
      rcases attemptLanded_cases state o.roundNo signature o.amountUsd o.walletAtSend with
        ⟨hat, hsame⟩ | ⟨b, b', hb, hbr, hbr', hlanded, hland⟩
      · have hother : ∀ b, state.attempt = some b → b.roundNo ≠ x.roundNo := by
          intro b hb hbx
          rw [attemptAt_eq_some.mpr ⟨hb, hbx.trans hround.symm⟩] at hat
          cases hat
        rw [hsame]
        refine h.settle hpend (fun b hb => ⟨h.seenSlot b hb, fun hsending => ?_⟩) fun _ b hb hbx => ?_
        · exact hother b hb (h.own hmem hpend hb hsending).2
        · exact absurd hbx (hother b hb)
      · rw [hland]
        refine h.settle hpend ?_ fun _ c hc hcx => ⟨b', rfl, by rw [hbr', hcx, hround], by simp [hlanded]⟩
        rintro c ⟨⟩
        exact ⟨hbr' ▸ hseen, by simp [hlanded]⟩
  | failed e =>
      rcases applySendOutcome_failed state o e hs with ⟨_, happly⟩ | ⟨_, happly⟩
      · obtain ⟨b', hb', hbr', hgone⟩ := abandonAttempt_attempt state o.roundNo .sessionLapsed
        have hrefused : (applySendOutcome state o).attempt = some b' := by
          rw [happly]
          exact hb'
        rw [hrefused]
        refine h.settle hpend ?_ fun _ c hc hcx => ⟨b', rfl, by rw [hbr', hcx, hround], by simp [hgone]⟩
        rintro c ⟨⟩
        exact ⟨hbr' ▸ hseen, by simp [hgone]⟩
      · rw [happly]
        rcases attemptFailed_cases state o.roundNo (messageOf e) o.nowMs with
          ⟨hsame, hlanded⟩ | ⟨b, b', hb, hbr, _, hbr', hretrying, htries, hfail⟩
        · rw [hsame]
          refine h.settle hpend (fun b hb => ⟨h.seenSlot b hb, fun hsending => ?_⟩) fun _ b hb hbx => ?_
          · have := hlanded b hb ((h.own hmem hpend hb hsending).2.trans hround.symm)
            simp [hsending] at this
          · exact ⟨b, hb, rfl, fun hretrying => by simp [hlanded b hb (hbx.trans hround.symm)] at hretrying⟩
        · rw [hfail]
          refine h.settle hpend ?_ fun _ c hc hcx => ?_
          · rintro c ⟨⟩
            exact ⟨hbr' ▸ hseen, by simp [hretrying]⟩
          · rw [hb] at hc
            cases hc
            exact ⟨b', rfl, by rw [hbr', hbr], fun _ => htries⟩

end Slots

/-! ## The page -/

namespace Page

structure Ordered (s : Page) : Prop where
  slots : Slots s.auto.attempt (s.sends.map Send.shot) s.run s.target
  floor : s.auto.floorRound = s.visible
  presses : ∀ press ∈ s.presses, ∀ r, press.roundNo = some r → Seen s.target r
  entered : ∀ r ∈ s.entered, Seen s.target r

variable {s s' : Page} {o : Option UnattendedEntry}

theorem Ordered.loaded : Page.loaded.Ordered := by
  constructor
  case slots => exact Slots.initial
  case floor => rfl
  case presses => simp [Page.loaded]
  case entered => simp [Page.loaded]

theorem targets_mono {next : Option ℤ} (h : s.targets next = true) :
    ∀ t, s.target = some t → ∃ t', s.advance next = some t' ∧ t ≤ t' := by
  intro t ht
  cases next with
  | none => exact ⟨t, ht, le_rfl⟩
  | some r => exact ⟨r, rfl, by simpa [targets, ht] using h⟩

/-- No deposit of the rule is out where nothing of the page is pending. -/
theorem settled_of_not_pending (h : s.pending = false) : ∀ snd ∈ s.sends, snd.settled.isSome := by
  intro snd hsnd
  have := (Bool.or_eq_false_iff.mp h).1
  rw [List.any_eq_false] at this
  exact Option.isSome_iff_ne_none.mpr (by simpa using this snd hsnd)

/-- A tick that the page allows: under another account it does nothing. -/
theorem step_evaluate {p : Params} {nowMs : ℤ} (hs : s.step (.evaluate p nowMs) = .ok (s', o)) :
    s.targets p.targetRoundNo = true ∧ (p.entering = false → s.pending = false) ∧
      ((p.youPubkey ≠ s.runWallet ∧ o = none ∧ s' = { s with target := s.advance p.targetRoundNo }) ∨
        p.youPubkey = s.runWallet ∧ o = (Repeat.evaluate s.auto p nowMs).2 ∧
          s' = { s with
            target := s.advance p.targetRoundNo
            auto := (Repeat.evaluate s.auto p nowMs).1
            sends := s.sends ++ (o.map (s.sendOf p)).toList }) := by
  simp only [step] at hs
  split at hs
  · rename_i hguard
    simp only [Bool.and_eq_true, Bool.or_eq_true, Bool.not_eq_true'] at hguard
    refine ⟨hguard.1, fun hentering => by simpa [hentering] using hguard.2, ?_⟩
    split at hs
    · rename_i hyou
      cases hs
      exact .inl ⟨hyou, rfl, rfl⟩
    · rename_i hyou
      cases hs
      exact .inr ⟨not_not.mp hyou, rfl, rfl⟩
  · cases hs

theorem Ordered.evaluate (h : s.Ordered) {p : Params} {nowMs : ℤ}
    (hs : s.step (.evaluate p nowMs) = .ok (s', o)) :
    s'.Ordered ∧ ∀ entry, o = some entry →
      shotsInto (s.sends.map Send.shot) s.run entry.roundNo < MAX_TRIES := by
  obtain ⟨htargets, hidle, hstep⟩ := step_evaluate hs
  have hnew := targets_mono htargets
  have hslots := h.slots.target hnew
  rcases hstep with ⟨_, rfl, rfl⟩ | ⟨_, ho, rfl⟩
  · refine ⟨⟨hslots, h.floor, ?_, ?_⟩, by simp⟩
    · exact fun press hp r hr => (h.presses press hp r hr).mono hnew
    · exact fun r hr => (h.entered r hr).mono hnew
  · have heval := hslots.evaluate p nowMs (fun r hr => by simp [advance, hr]) fun hentering x hx => by
      obtain ⟨snd, hsnd, rfl⟩ := List.mem_map.mp hx
      have := settled_of_not_pending (hidle hentering) snd hsnd
      simpa [Send.shot] using this
    rw [← ho] at heval
    refine ⟨⟨?_, ?_, ?_, ?_⟩, ?_⟩
    · cases o with
      | none => simpa using heval
      | some entry => simpa [Send.shot, sendOf] using heval.2
    · exact (evaluate_floorRound p nowMs).trans h.floor
    · exact fun press hp r hr => (h.presses press hp r hr).mono hnew
    · exact fun r hr => (h.entered r hr).mono hnew
    · rintro entry rfl
      exact heval.1

/-- A confirmation is noted. -/
theorem Ordered.note (h : s.Ordered) (side : Side) (roundNo : Option ℤ)
    (hseen : ∀ r, roundNo = some r → Seen s.target r) : (s.note side roundNo).Ordered := by
  constructor
  case slots => exact h.slots.note side hseen
  case floor => exact (bookConfirmedDeposit_floorRound side roundNo).trans h.floor
  case presses => exact h.presses
  case entered =>
    intro r hr
    rcases List.mem_append.mp hr with hr | hr
    · exact hseen r (by simpa using hr)
    · exact h.entered r hr

/-- Flags of deposits that the record does not know of may change. -/
theorem Ordered.reflag (h : s.Ordered) {f : Send → Send} (hf : ∀ snd, (f snd).shot = snd.shot) (k : ℕ) :
    Ordered { s with sends := s.sends.modify k f } :=
  { h with slots := by simpa [map_modify_of hf] using h.slots }

theorem Ordered.press (h : s.Ordered) {presses : List Press}
    (hpresses : ∀ press ∈ presses, ∃ press' ∈ s.presses, press'.roundNo = press.roundNo) :
    Ordered { s with presses := presses } :=
  { h with
    presses := fun press hp r hr => by
      obtain ⟨press', hp', hsame⟩ := hpresses press hp
      exact h.presses press' hp' r (hsame.trans hr) }

theorem modify_presses {f : Press → Press} (hf : ∀ press, (f press).roundNo = press.roundNo) (l : List Press) (k : ℕ) :
    ∀ press ∈ l.modify k f, ∃ press' ∈ l, press'.roundNo = press.roundNo := by
  intro press hp
  rcases mem_modify_of hp with hp | ⟨press', hp', rfl⟩
  · exact ⟨press, hp, rfl⟩
  · exact ⟨press', hp', (hf press').symm⟩

theorem Ordered.startRun (h : s.Ordered) {auto : AutoDeployState} {visible : Option ℤ}
    (hattempt : auto.attempt = none) (hfloor : auto.floorRound = visible) : (s.startRun auto visible).Ordered := by
  constructor
  case slots =>
    show Slots auto.attempt _ _ _
    rw [hattempt]
    exact h.slots.arm
  case floor => exact hfloor
  case presses => exact h.presses
  case entered => simp [Page.startRun]

/-- A deposit whose promise settles was out, and the rule applies its outcome. -/
theorem step_settled {k : ℕ} {how : Settled} {nowMs : ℤ} (hs : s.step (.settled k how nowMs) = .ok (s', o)) :
    ∃ snd pre post, s.sends[k]? = some snd ∧ s.sends = pre ++ snd :: post ∧ maySettle snd how = true ∧ o = none ∧
      s' = { s with
        auto := applySendOutcome s.auto (outcomeOf snd how nowMs)
        sends := pre ++ { snd with settled := some how } :: post } := by
  simp only [step] at hs
  split at hs
  · rename_i snd hk
    split at hs
    · rename_i hmay
      cases hs
      obtain ⟨pre, post, hl, hmod⟩ := modify_split hk
      exact ⟨snd, pre, post, hk, hl, hmay, rfl, by rw [hmod]⟩
    · cases hs
  · cases hs

theorem maySettle_pending {snd : Send} {how : Settled} (h : maySettle snd how = true) : snd.settled = none := by
  simp only [maySettle, Bool.and_eq_true, Option.isNone_iff_eq_none] at h
  exact h.1

theorem Ordered.settled (h : s.Ordered) {k : ℕ} {how : Settled} {nowMs : ℤ}
    (hs : s.step (.settled k how nowMs) = .ok (s', o)) : s'.Ordered := by
  obtain ⟨snd, pre, post, _, hl, hmay, _, rfl⟩ := step_settled hs
  have hnone := maySettle_pending hmay
  have hslots := h.slots
  rw [hl, List.map_append, List.map_cons] at hslots
  constructor
  case slots =>
    have hreport := hslots.report (o := outcomeOf snd how nowMs) (by simp [Send.shot, hnone]) rfl
    simpa [Send.shot] using hreport
  case floor => exact (applySendOutcome_floorRound _).trans h.floor
  case presses => exact h.presses
  case entered => exact h.entered

theorem Ordered.step (h : s.Ordered) {act : PageAct} (hs : s.step act = .ok (s', o)) : s'.Ordered := by
  cases act with
  | evaluate p nowMs => exact (h.evaluate hs).1
  | arm rule visibleRoundNo nowMs =>
      cases hs
      exact h.startRun rfl rfl
  | armWith strategy limits visibleRoundNo nowMs =>
      cases hs
      exact h.startRun rfl rfl
  | disarm =>
      cases hs
      exact ⟨h.slots, h.floor, h.presses, h.entered⟩
  | setRule rule =>
      cases hs
      exact ⟨h.slots, h.floor, h.presses, h.entered⟩
  | setLimits limits =>
      cases hs
      exact ⟨h.slots, h.floor, h.presses, h.entered⟩
  | connected youPubkey =>
      cases hs
      split
      · exact ⟨h.slots, h.floor, h.presses, h.entered⟩
      · exact ⟨h.slots, h.floor, h.presses, h.entered⟩
  | press side targetRoundNo =>
      simp only [Page.step] at hs
      split at hs
      · rename_i htargets
        cases hs
        have hnew := targets_mono htargets
        refine ⟨h.slots.target hnew, h.floor, ?_, fun r hr => (h.entered r hr).mono hnew⟩
        intro press hp r hr
        rcases List.mem_append.mp hp with hp | hp
        · exact (h.presses press hp r hr).mono hnew
        · obtain rfl := List.mem_singleton.mp hp
          exact ⟨r, by simp [advance, show targetRoundNo = some r from hr], le_rfl⟩
      · cases hs
  | pressGivenUp k =>
      cases hs
      refine h.press (modify_presses ?_ s.presses k)
      exact fun _ => rfl
  | pressConfirmed k =>
      simp only [Page.step] at hs
      split at hs
      · rename_i press hk
        split at hs
        · cases hs
        · cases hs
          have hnote := h.note press.side press.roundNo fun r hr => h.presses press (List.mem_of_getElem? hk) r hr
          refine hnote.press (modify_presses ?_ s.presses k)
          exact fun _ => rfl
      · cases hs
  | landed k =>
      cases hs
      refine h.reflag ?_ k
      exact fun _ => rfl
  | noted k =>
      simp only [Page.step] at hs
      split at hs
      · rename_i snd hk
        split at hs
        · cases hs
          have hseen : Seen s.target snd.entry.roundNo :=
            h.slots.seen snd.shot (List.mem_map_of_mem (List.mem_of_getElem? hk))
          have hnote := h.note snd.entry.side (some snd.entry.roundNo) (by simpa using hseen)
          refine hnote.reflag ?_ k
          exact fun _ => rfl
        · cases hs
      · cases hs
  | settled k how nowMs => exact h.settled hs

theorem Ordered.run (acts : List PageAct) : (page.run Page.loaded acts).Ordered :=
  Machine.run_invariant (fun _ _ _ _ h hs => h.step hs) Ordered.loaded acts

end Page

end BullsUnicorns.Repeat

import BullsUnicorns.Repeat.Lemmas.Page

/-!
# The rounds that the record knows of

While a deposit of the rule is in flight `bookConfirmedDeposit` stands aside, and the round of the
deposit that it was told of is remembered nowhere else. Where no report of an outcome makes the record
forget one, every round with a reported deposit is over.
-/

namespace BullsUnicorns.Repeat

/-- A refusal of the session that signed. -/
def Settled.lapsed : Settled → Prop
  | .confirmed _ => False
  | .failed e => classifySendFailure e = .sessionLapsed

/-- A failure that earns another try. -/
def Settled.retried : Settled → Prop
  | .confirmed _ => False
  | .failed e => classifySendFailure e = .retry

namespace Page

/-- The report of an outcome forgets no deposit. While the rule's own is in flight none into a newer
round has been reported landed, and a failure that is tried again finds none into the same round; nor is
an earlier run's deposit refused by its session after one into a newer round. -/
def Careful (s : Page) : PageAct → Prop
  | .settled k how _ => ∀ snd, s.sends[k]? = some snd →
      (s.auto.isSending ∨ how.lapsed → ∀ r ∈ s.entered, r ≤ snd.entry.roundNo) ∧
        (s.auto.isSending → how.retried → snd.entry.roundNo ∉ s.entered)
  | _ => True

/-! ## The rounds that the record knows of -/

/-- The record says of a round that it is over. -/
def KnownIn (a : Option AutoDeployAttempt) (idle : Prop) (r : ℤ) : Prop :=
  ∃ b, a = some b ∧ (r < b.roundNo ∨ r = b.roundNo ∧ (b.outcome = .landed ∨ b.outcome = .abandoned ∧ idle))

/-- No deposit of the rule is out. -/
def Idle (sends : List Send) : Prop := ∀ snd ∈ sends, snd.settled.isSome

/-- Every round with a reported deposit is over, unless one of the rule is being sent. -/
def Known (s : Page) : Prop := ¬ s.auto.isSending → ∀ r ∈ s.entered, KnownIn s.auto.attempt (Idle s.sends) r

variable {s s' : Page} {o : Option UnattendedEntry}

theorem KnownIn.newer {a : Option AutoDeployAttempt} {idle idle' : Prop} {r : ℤ} {b' : AutoDeployAttempt}
    (h : KnownIn a idle r) (hnewer : ∀ b, a = some b → b.roundNo ≤ b'.roundNo)
    (hsame : ∀ b, a = some b → b.roundNo = b'.roundNo → b.outcome ≠ .landed ∧ b.outcome ≠ .abandoned) :
    KnownIn (some b') idle' r := by
  obtain ⟨b, hb, hlt | ⟨rfl, hover⟩⟩ := h
  · exact ⟨b', rfl, .inl (hlt.trans_le (hnewer b hb))⟩
  · rcases (hnewer b hb).lt_or_eq with hlt | heq
    · exact ⟨b', rfl, .inl hlt⟩
    · have hnot := hsame b hb heq
      rcases hover with hlanded | ⟨hgone, _⟩
      · exact absurd hlanded hnot.1
      · exact absurd hgone hnot.2

theorem KnownIn.mono {a : Option AutoDeployAttempt} {idle idle' : Prop} {r : ℤ} (h : KnownIn a idle r)
    (hidle : idle → idle') : KnownIn a idle' r := by
  obtain ⟨b, hb, hlt | ⟨hr, hlanded | ⟨hgone, hi⟩⟩⟩ := h
  · exact ⟨b, hb, .inl hlt⟩
  · exact ⟨b, hb, .inr ⟨hr, .inl hlanded⟩⟩
  · exact ⟨b, hb, .inr ⟨hr, .inr ⟨hgone, hidle hi⟩⟩⟩

theorem Known.loaded : Page.loaded.Known := by
  intro _ r hr
  simp [Page.loaded] at hr

/-- Catching up keeps what is known. -/
theorem known_caughtUp {state : AutoDeployState} {p : Params} {idle : Prop} {r : ℤ}
    (h : KnownIn state.attempt idle r) : KnownIn (caughtUp state p).attempt idle r := by
  rcases caughtUp_cases state p with hsame | ⟨b, b', hb, hretrying, hround, _, hcaught⟩
  · rw [hsame]
    exact h
  · rw [hcaught]
    refine h.newer ?_ ?_
    · intro c hc
      rw [hb] at hc
      cases hc
      exact hround.ge
    · intro c hc _
      rw [hb] at hc
      cases hc
      simp [hretrying]

theorem caughtUp_isSending {state : AutoDeployState} {p : Params} (h : state.isSending) :
    (caughtUp state p).isSending := by
  obtain ⟨b, hb, hsending⟩ := isSending_iff.mp h
  rcases caughtUp_cases state p with hsame | ⟨c, _, hc, hretrying, _⟩
  · exact isSending_iff.mpr ⟨b, hsame.trans hb, hsending⟩
  · rw [hb] at hc
    cases hc
    simp [hsending] at hretrying

/-- A round that is free to be entered is not known to be over. -/
theorem not_known_of_free {state : AutoDeployState} {r : ℤ} {idle : Prop} (hfree : attemptHold state r = none)
    (hnewer : ∀ b, state.attempt = some b → b.roundNo ≤ r) : ¬ KnownIn state.attempt idle r := by
  rintro ⟨b, hb, hlt | ⟨rfl, hover⟩⟩
  · exact absurd (hnewer b hb) (not_le.mpr hlt)
  · have hretrying := (attemptHold_eq_none hfree b hb).2 rfl
    rcases hover with hlanded | ⟨hgone, _⟩
    · simp [hretrying] at hlanded
    · simp [hretrying] at hgone

/-- A record that passes to a free round keeps what is known. -/
theorem known_of_free {state : AutoDeployState} {r q : ℤ} {idle idle' : Prop} (h : KnownIn state.attempt idle q)
    (hfree : attemptHold state r = none) (hnewer : ∀ b, state.attempt = some b → b.roundNo ≤ r)
    {b' : AutoDeployAttempt} (hround : b'.roundNo = r) : KnownIn (some b') idle' q := by
  refine h.newer (fun b hb => hround ▸ hnewer b hb) fun b hb hsame => ?_
  have hretrying := (attemptHold_eq_none hfree b hb).2 (hsame.trans hround)
  simp [hretrying]

theorem Known.evaluate (hk : s.Known) (h : s.Ordered) {p : Params} {nowMs : ℤ}
    (hs : s.step (.evaluate p nowMs) = .ok (s', o)) :
    s'.Known ∧ ∀ entry, o = some entry → entry.roundNo ∉ s.entered := by
  obtain ⟨htargets, hidle, hstep⟩ := step_evaluate hs
  rcases hstep with ⟨_, rfl, rfl⟩ | ⟨_, ho, rfl⟩
  · exact ⟨hk, by simp⟩
  have hslots := (h.slots.target (targets_mono htargets)).caughtUp p
  rcases evaluate_cases s.auto p nowMs with heval | ⟨side, r, usd, reason, hint, heval⟩ | ⟨entry, hfires, heval⟩
  · obtain rfl : o = none := by simp [ho, heval]
    refine ⟨fun hsending r hr => ?_, by simp⟩
    simp only [heval] at hsending ⊢
    have := hk (fun h => hsending (caughtUp_isSending h)) r hr
    exact (known_caughtUp this).mono fun hidle => by simpa [Idle] using hidle
  · obtain rfl : o = none := by simp [ho, heval]
    refine ⟨fun _ q hq => ?_, by simp⟩
    simp only [heval]
    have hfree := hint.free
    have hnot : ¬ s.auto.isSending := fun hsending =>
      absurd (caughtUp_isSending hsending) (not_isSending.mpr fun b hb => (attemptHold_eq_none hfree b hb).1)
    obtain ⟨b', hb', hround, _⟩ := abandonAttempt_attempt (caughtUp s.auto p) r reason
    rw [hb']
    have htarget : s.advance p.targetRoundNo = some r := by
      have : p.targetRoundNo = some r := hint.target
      simp [advance, this]
    rw [htarget] at hslots
    exact known_of_free (known_caughtUp (hk hnot q hq)) hfree (fun b hb => hslots.le_target hb) hround
  · obtain rfl : o = some entry := by simp [ho, heval]
    have hfree := hfires.free
    have hnot : ¬ s.auto.isSending := fun hsending =>
      absurd (caughtUp_isSending hsending) (not_isSending.mpr fun b hb => (attemptHold_eq_none hfree b hb).1)
    have htarget : s.advance p.targetRoundNo = some entry.roundNo := by
      have : p.targetRoundNo = some entry.roundNo := hfires.target
      simp [advance, this]
    rw [htarget] at hslots
    constructor
    · intro hsending
      refine absurd ?_ hsending
      simp only [heval]
      exact rfl
    · rintro entry' ⟨⟩ hentered
      exact not_known_of_free hfree (fun b hb => hslots.le_target hb) (known_caughtUp (hk hnot _ hentered))

/-- A deposit that is noted is known, unless the rule's own is in flight. -/
theorem Known.note (hk : s.Known) (side : Side) (roundNo : Option ℤ) : (s.note side roundNo).Known := by
  intro hsending r hr
  have hcases := bookConfirmedDeposit_cases s.auto side roundNo
  rcases hcases with ⟨hbook, hin⟩ | ⟨q, rfl, hidle, hbook⟩
  · have hnot : ¬ s.auto.isSending := by
      simp only [Page.note, hbook] at hsending
      exact hsending
    have hr' : r ∈ s.entered := by
      rcases List.mem_append.mp hr with hr | hr
      · exact absurd (hin r (by simpa using hr)) hnot
      · exact hr
    simp only [Page.note, hbook]
    exact hk hnot r hr'
  · simp only [Page.note, hbook]
    rcases noteRoundEntered_cases (noteDeploy s.auto side) q with ⟨hsame, b, hb, hover⟩ | ⟨b', hnote, hround, hlanded, hnewer⟩
    · rw [hsame]
      rcases List.mem_append.mp hr with hr | hr
      · obtain rfl : r = q := by simpa using hr
        rcases hover with hlt | ⟨rfl, hlanded⟩
        · exact ⟨b, hb, .inl hlt⟩
        · exact ⟨b, hb, .inr ⟨rfl, .inl hlanded⟩⟩
      · exact hk hidle r hr
    · rw [hnote]
      rcases List.mem_append.mp hr with hr | hr
      · obtain rfl : r = q := by simpa using hr
        exact ⟨b', rfl, .inr ⟨hround.symm, .inl hlanded⟩⟩
      · obtain ⟨b, hb, hover⟩ := hk hidle r hr
        have hle : r ≤ b.roundNo := by
          rcases hover with hlt | ⟨rfl, _⟩
          · exact hlt.le
          · exact le_rfl
        rcases (hle.trans (hround ▸ hnewer b hb)).lt_or_eq with hlt | heq
        · exact ⟨b', rfl, .inl hlt⟩
        · exact ⟨b', rfl, .inr ⟨heq, .inl hlanded⟩⟩

/-- What a report that forgets no deposit leaves known of a round that had one. -/
theorem known_report {state : AutoDeployState} {shots : List Shot} {run : ℕ} {newest : Option ℤ} {x : Shot}
    {out : SendOutcome} {idle idle' : Prop} {r : ℤ} (hslots : Slots state.attempt shots run newest) (hx : x ∈ shots)
    (hpend : x.pending = true) (hround : out.roundNo = x.roundNo)
    (hk : ¬ state.isSending → KnownIn state.attempt idle r) (hidle : ¬ idle) (hidle' : idle')
    (hnewest : state.isSending ∨ out.settled.lapsed → r ≤ out.roundNo)
    (hsame : state.isSending → out.settled.retried → r ≠ out.roundNo) :
    KnownIn (applySendOutcome state out).attempt idle' r := by
  -- where the record is not about the reported deposit, it is not about one in flight
  have hother (hnot : ∀ b, state.attempt = some b → b.roundNo = out.roundNo → b.outcome ≠ .sending) :
      KnownIn state.attempt idle' r := by
    refine (hk ?_).mono fun h => absurd h hidle
    rw [not_isSending]
    exact fun b hb hsending => hnot b hb ((hslots.own hx hpend hb hsending).2.trans hround.symm) hsending
  -- where it is about its round, no newer one is known
  have hle {b : AutoDeployAttempt} (hb : state.attempt = some b) (hbr : b.roundNo = out.roundNo) :
      r ≤ out.roundNo := by
    by_cases hsending : state.isSending
    · exact hnewest (.inl hsending)
    · obtain ⟨c, hc, hover⟩ := hk hsending
      rw [hb] at hc
      cases hc
      rcases hover with hlt | ⟨rfl, _⟩
      · exact hbr ▸ hlt.le
      · exact hbr.le
  cases hs : out.settled with
  | confirmed signature =>
      simp only [applySendOutcome, hs]
      rcases attemptLanded_cases state out.roundNo signature out.amountUsd out.walletAtSend with
        ⟨hat, hkept⟩ | ⟨b, b', hb, hbr, hbr', hlanded, hland⟩
      · rw [hkept]
        refine hother fun b hb hbr => ?_
        rw [attemptAt_eq_some.mpr ⟨hb, hbr⟩] at hat
        cases hat
      · rw [hland]
        rcases (hle hb hbr).lt_or_eq with hlt | heq
        · exact ⟨b', rfl, .inl (hbr' ▸ hlt)⟩
        · exact ⟨b', rfl, .inr ⟨heq.trans hbr'.symm, .inl hlanded⟩⟩
  | failed e =>
      rcases applySendOutcome_failed state out e hs with ⟨hc, happly⟩ | ⟨hc, happly⟩
      · rw [happly]
        obtain ⟨b', hb', hbr', hgone⟩ := abandonAttempt_attempt state out.roundNo .sessionLapsed
        have hlapsed : out.settled.lapsed := by rw [hs]; exact hc
        rcases (hnewest (.inr hlapsed)).lt_or_eq with hlt | heq
        · exact ⟨b', hb', .inl (hbr' ▸ hlt)⟩
        · exact ⟨b', hb', .inr ⟨heq.trans hbr'.symm, .inr ⟨hgone, hidle'⟩⟩⟩
      · rw [happly]
        have hretried : out.settled.retried := by rw [hs]; exact hc
        rcases attemptFailed_cases state out.roundNo (messageOf e) out.nowMs with
          ⟨hkept, hlanded⟩ | ⟨b, b', hb, hbr, hnot, hbr', hretrying, _, hfail⟩
        · rw [hkept]
          refine hother fun b hb hbr hsending => ?_
          simp [hlanded b hb hbr] at hsending
        · rw [hfail]
          refine ⟨b', rfl, .inl ?_⟩
          rw [hbr']
          by_cases hsending : state.isSending
          · exact lt_of_le_of_ne (hle hb hbr) (hsame hsending hretried)
          · obtain ⟨c, hc', hover⟩ := hk hsending
            rw [hb] at hc'
            cases hc'
            rcases hover with hlt | ⟨_, hlanded | ⟨_, hall⟩⟩
            · exact hbr ▸ hlt
            · exact absurd hlanded hnot
            · exact absurd hall hidle

/-- After the report of the one deposit that was out, none is. -/
theorem idle_settled {pre post : List Send} {snd : Send} {how : Settled} (h : s.Ordered)
    (hl : s.sends = pre ++ snd :: post) (hnone : snd.settled = none) :
    Idle (pre ++ { snd with settled := some how } :: post) := by
  have hone := h.slots.one
  rw [hl, List.map_append, List.map_cons] at hone
  have hothers := others_settled hone (by simp [Send.shot, hnone])
  have hsettled : ∀ x ∈ pre ++ post, x.settled.isSome := by
    intro x hx
    have := hothers x.shot (by rw [← List.map_append]; exact List.mem_map_of_mem hx)
    simpa [Send.shot] using this
  intro x hx
  rcases List.mem_append.mp hx with hx | hx
  · exact hsettled x (by simp [hx])
  rcases List.mem_cons.mp hx with rfl | hx
  · rfl
  · exact hsettled x (by simp [hx])

theorem Known.settled (hk : s.Known) (h : s.Ordered) {k : ℕ} {how : Settled} {nowMs : ℤ}
    (hcareful : s.Careful (.settled k how nowMs)) (hs : s.step (.settled k how nowMs) = .ok (s', o)) :
    s'.Known := by
  obtain ⟨snd, pre, post, hsnd, hl, hmay, _, rfl⟩ := step_settled hs
  have hnone := maySettle_pending hmay
  obtain ⟨hnewest, hsame⟩ := hcareful snd hsnd
  have hmem : snd ∈ s.sends := List.mem_of_getElem? hsnd
  intro _ r hr
  refine known_report h.slots (List.mem_map_of_mem hmem) (by simp [Send.shot, hnone]) rfl
    (fun hnot => hk hnot r hr) ?_ (idle_settled h hl hnone) (fun hor => hnewest hor r hr) ?_
  · intro hidle
    simpa [hnone] using hidle snd hmem
  · rintro hsending hretried rfl
    exact hsame hsending hretried hr

theorem Known.frame {auto : AutoDeployState} (hk : s.Known) (hattempt : auto.attempt = s.auto.attempt) :
    Known { s with auto := auto } := by
  intro hsending r hr
  simp only [AutoDeployState.isSending, hattempt] at hsending ⊢
  exact hk hsending r hr

/-- Flags that no report depends on may change. -/
theorem Known.reflag (hk : s.Known) {f : Send → Send} (hf : ∀ snd, (f snd).settled = snd.settled) (k : ℕ) :
    Known { s with sends := s.sends.modify k f } := by
  intro hsending r hr
  refine (hk hsending r hr).mono fun hidle snd hsnd => ?_
  rcases mem_modify_of hsnd with hsnd | ⟨snd', hsnd', rfl⟩
  · exact hidle snd hsnd
  · rw [hf]
    exact hidle snd' hsnd'

theorem Known.startRun (auto : AutoDeployState) (visible : Option ℤ) : (s.startRun auto visible).Known := by
  intro _ r hr
  simp [Page.startRun] at hr

theorem Known.step (hk : s.Known) (h : s.Ordered) {act : PageAct} (hcareful : s.Careful act)
    (hs : s.step act = .ok (s', o)) : s'.Known := by
  cases act with
  | evaluate p nowMs => exact (hk.evaluate h hs).1
  | arm rule visibleRoundNo nowMs =>
      cases hs
      exact Known.startRun _ _
  | armWith strategy limits visibleRoundNo nowMs =>
      cases hs
      exact Known.startRun _ _
  | disarm =>
      cases hs
      exact hk.frame rfl
  | setRule rule =>
      cases hs
      exact hk.frame rfl
  | setLimits limits =>
      cases hs
      exact hk.frame rfl
  | connected youPubkey =>
      cases hs
      refine Known.frame (s := { s with runWallet := youPubkey }) hk ?_
      split
      · rfl
      · rfl
  | press side targetRoundNo =>
      simp only [Page.step] at hs
      split at hs
      · cases hs
        exact hk
      · cases hs
  | pressGivenUp k =>
      cases hs
      exact hk
  | pressConfirmed k =>
      simp only [Page.step] at hs
      split at hs
      · split at hs
        · cases hs
        · cases hs
          exact hk.note _ _
      · cases hs
  | landed k =>
      cases hs
      refine hk.reflag ?_ k
      exact fun _ => rfl
  | noted k =>
      simp only [Page.step] at hs
      split at hs
      · rename_i snd hk'
        split at hs
        · cases hs
          refine (hk.note snd.entry.side (some snd.entry.roundNo)).reflag ?_ k
          exact fun _ => rfl
        · cases hs
      · cases hs
  | settled k how nowMs => exact hk.settled h hcareful hs

end Page

end BullsUnicorns.Repeat

import BullsUnicorns.Repeat.Lemmas.Decision

/-!
# One attempt record

What the attempt record says of the deposits that the rule has sent, and that each transition keeps
it. At most one deposit is unreported. One of the present run is the one that the record says is being
sent; where one of an earlier run is still out, the present run has sent nothing.
-/

namespace BullsUnicorns.Repeat

/-- A deposit as the attempt record knows of it. -/
structure Shot where
  run : ℕ
  roundNo : ℤ
  pending : Bool
deriving DecidableEq, Repr

def Send.shot (snd : Send) : Shot := ⟨snd.run, snd.entry.roundNo, snd.settled.isNone⟩

def shotsInto (shots : List Shot) (run : ℕ) (r : ℤ) : ℕ :=
  shots.countP fun x => x.run = run ∧ x.roundNo = r

/-- A round no newer than the newest that was targeted. -/
def Seen (newest : Option ℤ) (r : ℤ) : Prop := ∃ t, newest = some t ∧ r ≤ t

structure Slots (a : Option AutoDeployAttempt) (shots : List Shot) (run : ℕ) (newest : Option ℤ) : Prop where
  runs : ∀ x ∈ shots, x.run ≤ run
  seen : ∀ x ∈ shots, Seen newest x.roundNo
  seenSlot : ∀ b, a = some b → Seen newest b.roundNo
  one : shots.countP Shot.pending ≤ 1
  below : ∀ x ∈ shots, x.run = run → ∃ b, a = some b ∧ x.roundNo ≤ b.roundNo
  sending : ∀ b, a = some b → b.outcome = .sending →
    ∃ x ∈ shots, x.pending = true ∧ x.run = run ∧ x.roundNo = b.roundNo
  pending : ∀ x ∈ shots, x.pending = true → x.run = run →
    ∃ b, a = some b ∧ b.outcome = .sending ∧ b.roundNo = x.roundNo
  alone : ∀ x ∈ shots, x.pending = true → x.run ≠ run → ∀ y ∈ shots, y.run ≠ run
  tries : ∀ k r, shotsInto shots k r ≤ MAX_TRIES
  retrying : ∀ b, a = some b → b.outcome = .retrying → shotsInto shots run b.roundNo ≤ b.tries
  sendingTries : ∀ b, a = some b → b.outcome = .sending → shotsInto shots run b.roundNo ≤ b.tries + 1

theorem Seen.mono {newest newest' : Option ℤ} {r : ℤ} (h : Seen newest r)
    (hnew : ∀ t, newest = some t → ∃ t', newest' = some t' ∧ t ≤ t') : Seen newest' r := by
  obtain ⟨t, ht, hr⟩ := h
  obtain ⟨t', ht', hle⟩ := hnew t ht
  exact ⟨t', ht', hr.trans hle⟩

theorem shotsInto_eq_zero {shots : List Shot} {run : ℕ} {r : ℤ}
    (h : ∀ x ∈ shots, x.run = run → x.roundNo ≠ r) : shotsInto shots run r = 0 := by
  simp only [shotsInto, List.countP_eq_zero]
  intro x hx hcontra
  obtain ⟨hrun, hr⟩ : x.run = run ∧ x.roundNo = r := by simpa using hcontra
  exact h x hx hrun hr

theorem shotsInto_snoc (shots : List Shot) (run k : ℕ) (r q : ℤ) (p : Bool) :
    shotsInto (shots ++ [⟨run, r, p⟩]) k q = shotsInto shots k q + if run = k ∧ r = q then 1 else 0 := by
  by_cases h : run = k ∧ r = q <;> simp [shotsInto, List.countP_append, h]

/-- Whether a deposit is still pending does not matter to the count. -/
theorem shotsInto_split (pre post : List Shot) (x x' : Shot) (hrun : x'.run = x.run)
    (hround : x'.roundNo = x.roundNo) (k : ℕ) (r : ℤ) :
    shotsInto (pre ++ x' :: post) k r = shotsInto (pre ++ x :: post) k r := by
  simp [shotsInto, List.countP_append, List.countP_cons, hrun, hround]

/-- Besides the one deposit that is out, none is. -/
theorem others_settled {pre post : List Shot} {x : Shot} (hone : (pre ++ x :: post).countP Shot.pending ≤ 1)
    (hpend : x.pending = true) : ∀ y ∈ pre ++ post, y.pending = false := by
  simp only [List.countP_append, List.countP_cons, hpend, if_true] at hone
  have hzero : (pre ++ post).countP Shot.pending = 0 := by
    rw [List.countP_append]
    omega
  intro y hy
  simpa using List.countP_eq_zero.mp hzero y hy

namespace Slots

variable {a : Option AutoDeployAttempt} {shots : List Shot} {run : ℕ} {newest : Option ℤ}

theorem initial : Slots none [] 0 none := by
  constructor <;> simp [shotsInto]

theorem target (h : Slots a shots run newest) {newest' : Option ℤ}
    (hnew : ∀ t, newest = some t → ∃ t', newest' = some t' ∧ t ≤ t') : Slots a shots run newest' :=
  { h with
    seen := fun x hx => (h.seen x hx).mono hnew
    seenSlot := fun b hb => (h.seenSlot b hb).mono hnew }

/-- A new run has sent nothing. -/
theorem arm (h : Slots a shots run newest) : Slots none shots (run + 1) newest := by
  have hold : ∀ x ∈ shots, x.run ≠ run + 1 := fun x hx => by
    have := h.runs x hx
    omega
  constructor
  case runs => exact fun x hx => (h.runs x hx).trans (Nat.le_succ run)
  case seen => exact h.seen
  case seenSlot => simp
  case one => exact h.one
  case below => exact fun x hx hrun => absurd hrun (hold x hx)
  case sending => simp
  case pending => exact fun x hx _ hrun => absurd hrun (hold x hx)
  case alone => exact fun _ _ _ _ y hy => hold y hy
  case tries => exact h.tries
  case retrying => simp
  case sendingTries => simp

/-- The record passes, with nothing of this run in flight, to a round at least as new, and says of it
what is final. -/
theorem close (h : Slots a shots run newest) (hidle : ∀ b, a = some b → b.outcome ≠ .sending)
    {b' : AutoDeployAttempt} (hseen : Seen newest b'.roundNo)
    (hnewer : ∀ b, a = some b → b.roundNo ≤ b'.roundNo) (hfinal : b'.outcome = .landed ∨ b'.outcome = .abandoned) :
    Slots (some b') shots run newest := by
  have hnot : b'.outcome ≠ .sending ∧ b'.outcome ≠ .retrying := by
    rcases hfinal with hb | hb <;> simp [hb]
  constructor
  case runs => exact h.runs
  case seen => exact h.seen
  case seenSlot =>
    rintro b ⟨⟩
    exact hseen
  case one => exact h.one
  case below =>
    intro x hx hrun
    obtain ⟨b, hb, hle⟩ := h.below x hx hrun
    exact ⟨b', rfl, hle.trans (hnewer b hb)⟩
  case sending =>
    rintro b ⟨⟩ hb
    exact absurd hb hnot.1
  case pending =>
    intro x hx hpend hrun
    obtain ⟨b, hb, hsending, _⟩ := h.pending x hx hpend hrun
    exact absurd hsending (hidle b hb)
  case alone => exact h.alone
  case tries => exact h.tries
  case retrying =>
    rintro b ⟨⟩ hb
    exact absurd hb hnot.2
  case sendingTries =>
    rintro b ⟨⟩ hb
    exact absurd hb hnot.1

/-- A deposit fires: none is in flight, and the round is at least as new as the record's. -/
theorem fire (h : Slots a shots run newest) (hidle : ∀ x ∈ shots, x.pending = false) (b' : AutoDeployAttempt)
    (hseen : Seen newest b'.roundNo) (hnewer : ∀ b, a = some b → b.roundNo ≤ b'.roundNo)
    (hsending : b'.outcome = .sending)
    (hprior : ∀ b, a = some b → b.roundNo = b'.roundNo →
      b.outcome = .retrying ∧ b.tries = b'.tries ∧ b.tries < MAX_TRIES) :
    shotsInto shots run b'.roundNo < MAX_TRIES ∧
      Slots (some b') (shots ++ [⟨run, b'.roundNo, true⟩]) run newest := by
  -- what went into the round before is what the record counted, if it was about the round
  have hcount : shotsInto shots run b'.roundNo ≤ b'.tries ∧ shotsInto shots run b'.roundNo < MAX_TRIES := by
    by_cases hany : ∃ x ∈ shots, x.run = run ∧ x.roundNo = b'.roundNo
    · obtain ⟨x, hx, hrun, hround⟩ := hany
      obtain ⟨b, hb, hle⟩ := h.below x hx hrun
      have hsame : b.roundNo = b'.roundNo := le_antisymm (hnewer b hb) (hround ▸ hle)
      obtain ⟨hretrying, htries, hlt⟩ := hprior b hb hsame
      have hle := h.retrying b hb hretrying
      rw [hsame] at hle
      omega
    · have hzero : shotsInto shots run b'.roundNo = 0 :=
        shotsInto_eq_zero fun x hx hrun hround => hany ⟨x, hx, hrun, hround⟩
      simp [hzero, MAX_TRIES]
  have hnone : shots.countP Shot.pending = 0 := by
    rw [List.countP_eq_zero]
    intro x hx
    simp [hidle x hx]
  refine ⟨hcount.2, ?_⟩
  constructor
  case runs =>
    intro x hx
    rcases List.mem_append.mp hx with hx | hx
    · exact h.runs x hx
    · rw [List.mem_singleton.mp hx]
  case seen =>
    intro x hx
    rcases List.mem_append.mp hx with hx | hx
    · exact h.seen x hx
    · rw [List.mem_singleton.mp hx]
      exact hseen
  case seenSlot =>
    rintro b ⟨⟩
    exact hseen
  case one => simp [List.countP_append, hnone]
  case below =>
    intro x hx hrun
    rcases List.mem_append.mp hx with hx | hx
    · obtain ⟨b, hb, hle⟩ := h.below x hx hrun
      exact ⟨b', rfl, hle.trans (hnewer b hb)⟩
    · rw [List.mem_singleton.mp hx]
      exact ⟨b', rfl, le_rfl⟩
  case sending =>
    rintro b ⟨⟩ _
    exact ⟨⟨run, b'.roundNo, true⟩, by simp, rfl, rfl, rfl⟩
  case pending =>
    intro x hx hpend _
    rcases List.mem_append.mp hx with hx | hx
    · simp [hidle x hx] at hpend
    · rw [List.mem_singleton.mp hx]
      exact ⟨b', rfl, hsending, rfl⟩
  case alone =>
    intro x hx hpend hrun
    rcases List.mem_append.mp hx with hx | hx
    · simp [hidle x hx] at hpend
    · rw [List.mem_singleton.mp hx] at hrun
      exact absurd rfl hrun
  case tries =>
    intro k r
    rw [shotsInto_snoc]
    split
    · rename_i hkr
      obtain ⟨rfl, rfl⟩ := hkr
      exact hcount.2
    · exact h.tries k r
  case retrying =>
    rintro b ⟨⟩ hb
    simp [hsending] at hb
  case sendingTries =>
    rintro b ⟨⟩ _
    rw [shotsInto_snoc]
    simpa using hcount.1

/-- The outcome of the deposit in flight is reported. One of this run leaves the record at its round;
one of an earlier run may leave it anywhere, as this run has sent nothing. -/
theorem settle {pre post : List Shot} {x : Shot} (h : Slots a (pre ++ x :: post) run newest)
    (hpend : x.pending = true) {a' : Option AutoDeployAttempt}
    (hseen : ∀ b, a' = some b → Seen newest b.roundNo ∧ b.outcome ≠ .sending)
    (hown : x.run = run → ∀ b, a = some b → b.roundNo = x.roundNo →
      ∃ b', a' = some b' ∧ b'.roundNo = b.roundNo ∧ (b'.outcome = .retrying → b'.tries = b.tries + 1)) :
    Slots a' (pre ++ { x with pending := false } :: post) run newest := by
  have hmem : x ∈ pre ++ x :: post := by simp
  have hfrom : ∀ y ∈ pre ++ { x with pending := false } :: post,
      ∃ z ∈ pre ++ x :: post, z.run = y.run ∧ z.roundNo = y.roundNo := by
    intro y hy
    rcases List.mem_append.mp hy with hy | hy
    · exact ⟨y, by simp [hy], rfl, rfl⟩
    rcases List.mem_cons.mp hy with rfl | hy
    · exact ⟨x, hmem, rfl, rfl⟩
    · exact ⟨y, by simp [hy], rfl, rfl⟩
  have hnone : ∀ y ∈ pre ++ { x with pending := false } :: post, y.pending = false := by
    have hothers := others_settled h.one hpend
    intro y hy
    rcases List.mem_append.mp hy with hy | hy
    · exact hothers y (by simp [hy])
    rcases List.mem_cons.mp hy with rfl | hy
    · rfl
    · exact hothers y (by simp [hy])
  have hcount : ∀ k r, shotsInto (pre ++ { x with pending := false } :: post) k r =
      shotsInto (pre ++ x :: post) k r := shotsInto_split pre post x _ rfl rfl
  constructor
  case runs =>
    intro y hy
    obtain ⟨z, hz, hrun, _⟩ := hfrom y hy
    exact hrun ▸ h.runs z hz
  case seen =>
    intro y hy
    obtain ⟨z, hz, _, hround⟩ := hfrom y hy
    exact hround ▸ h.seen z hz
  case seenSlot => exact fun b hb => (hseen b hb).1
  case one =>
    have hzero : (pre ++ { x with pending := false } :: post).countP Shot.pending = 0 := by
      rw [List.countP_eq_zero]
      intro y hy
      simp [hnone y hy]
    omega
  case below =>
    intro y hy hrun
    obtain ⟨z, hz, hzrun, hround⟩ := hfrom y hy
    by_cases hx : x.run = run
    · obtain ⟨b, hb, _, hbx⟩ := h.pending x hmem hpend hx
      obtain ⟨b', hb', hsame, _⟩ := hown hx b hb hbx
      obtain ⟨c, hc, hle⟩ := h.below z hz (hzrun.trans hrun)
      rw [hb] at hc
      cases hc
      exact ⟨b', hb', by rw [hsame, ← hround]; exact hle⟩
    · exact absurd (hzrun.trans hrun) (h.alone x hmem hpend hx z hz)
  case sending => exact fun b hb hsending => absurd hsending (hseen b hb).2
  case pending =>
    intro y hy hy'
    simp [hnone y hy] at hy'
  case alone =>
    intro y hy hy'
    simp [hnone y hy] at hy'
  case tries => exact fun k r => (hcount k r).le.trans (h.tries k r)
  case retrying =>
    intro b' hb' hretrying
    rw [hcount]
    by_cases hx : x.run = run
    · obtain ⟨b, hb, hsending, hbx⟩ := h.pending x hmem hpend hx
      obtain ⟨c, hc, hsame, htries⟩ := hown hx b hb hbx
      rw [hb'] at hc
      cases hc
      rw [hsame, htries hretrying]
      exact h.sendingTries b hb hsending
    · have hzero := shotsInto_eq_zero (r := b'.roundNo) fun y hy hrun _ => h.alone x hmem hpend hx y hy hrun
      omega
  case sendingTries => exact fun b hb hsending => absurd hsending (hseen b hb).2

end Slots

end BullsUnicorns.Repeat

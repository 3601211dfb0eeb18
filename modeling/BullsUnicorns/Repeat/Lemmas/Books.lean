import BullsUnicorns.Repeat.Lemmas.Known

/-!
# The books of a run

The tally and the profit register against the deposits that the rule has sent. A deposit is charged when
its promise confirms it; where that is also what the chain did, the books of a run are the sums over the
deposits that landed.
-/

namespace BullsUnicorns.Repeat

/-- Its promise confirmed it. -/
def Send.charged (snd : Send) : Bool :=
  match snd.settled with
  | some (.confirmed _) => true
  | _ => false

/-- Its promise was rejected. -/
def Send.rejected (snd : Send) : Bool :=
  match snd.settled with
  | some (.failed _) => true
  | _ => false

/-- On the chain, or still out. -/
def Send.exposed (snd : Send) : Bool := snd.landed || snd.settled.isNone

/-- The deposits of one run of which `p` holds. -/
def entriesOf (p : Send → Bool) (run : ℕ) (sends : List Send) : List UnattendedEntry :=
  (sends.filter fun snd => snd.run = run && p snd).map Send.entry

def totalUsd (entries : List UnattendedEntry) : ℚ := (entries.map UnattendedEntry.amountUsd).sum

/-! ## Deposits of a run -/

theorem mem_entriesOf {p : Send → Bool} {run : ℕ} {sends : List Send} {e : UnattendedEntry} :
    e ∈ entriesOf p run sends ↔ ∃ snd ∈ sends, snd.run = run ∧ p snd = true ∧ snd.entry = e := by
  simp [entriesOf, and_assoc]

theorem entriesOf_append (p : Send → Bool) (run : ℕ) (l l' : List Send) :
    entriesOf p run (l ++ l') = entriesOf p run l ++ entriesOf p run l' := by
  simp [entriesOf]

theorem entriesOf_cons (p : Send → Bool) (run : ℕ) (snd : Send) (l : List Send) :
    entriesOf p run (snd :: l) = (if snd.run = run && p snd then [snd.entry] else []) ++ entriesOf p run l := by
  by_cases h : (snd.run = run && p snd) = true <;> simp [entriesOf, h]

theorem entriesOf_congr {p q : Send → Bool} {run : ℕ} {sends : List Send}
    (h : ∀ snd ∈ sends, snd.run = run → p snd = q snd) : entriesOf p run sends = entriesOf q run sends := by
  unfold entriesOf
  congr 1
  refine List.filter_congr fun snd hsnd => ?_
  by_cases hrun : snd.run = run
  · rw [h snd hsnd hrun]
  · simp [hrun]

theorem entriesOf_eq_nil {p : Send → Bool} {run : ℕ} {sends : List Send} (h : ∀ snd ∈ sends, snd.run ≠ run) :
    entriesOf p run sends = [] := by
  simp only [entriesOf, List.map_eq_nil_iff, List.filter_eq_nil_iff]
  intro snd hsnd
  simp [h snd hsnd]

/-- A deposit of which the same holds as before. -/
theorem entriesOf_split {p : Send → Bool} {run : ℕ} {pre post : List Send} {snd snd' : Send}
    (hrun : snd'.run = snd.run) (hentry : snd'.entry = snd.entry) (hp : p snd' = p snd) :
    entriesOf p run (pre ++ snd' :: post) = entriesOf p run (pre ++ snd :: post) := by
  simp only [entriesOf_append, entriesOf_cons, hrun, hentry, hp]

/-- A deposit that joins. -/
theorem entriesOf_join {p : Send → Bool} {run : ℕ} {pre post : List Send} (snd : Send) {snd' : Send}
    (hrun : snd'.run = run) (hp : p snd' = true) (hnot : p snd = false) :
    (entriesOf p run (pre ++ snd' :: post)).Perm (snd'.entry :: entriesOf p run (pre ++ snd :: post)) := by
  simp only [entriesOf_append, entriesOf_cons, hrun, hp, hnot, decide_true, Bool.and_self, Bool.and_false, if_true]
  exact List.perm_middle

@[simp]
theorem totalUsd_nil : totalUsd [] = 0 := rfl

@[simp]
theorem totalUsd_cons (e : UnattendedEntry) (l : List UnattendedEntry) :
    totalUsd (e :: l) = e.amountUsd + totalUsd l := by
  simp [totalUsd]

@[simp]
theorem totalUsd_append (l l' : List UnattendedEntry) : totalUsd (l ++ l') = totalUsd l + totalUsd l' := by
  simp [totalUsd]

/-- Fewer deposits are worth no more. -/
theorem totalUsd_entriesOf_le {p q : Send → Bool} {run : ℕ} {sends : List Send}
    (hpos : ∀ snd ∈ sends, 0 ≤ snd.entry.amountUsd) (h : ∀ snd ∈ sends, p snd = true → q snd = true) :
    totalUsd (entriesOf p run sends) ≤ totalUsd (entriesOf q run sends) := by
  induction sends with
  | nil => simp [entriesOf]
  | cons snd l ih =>
      have htail := ih (fun x hx => hpos x (by simp [hx])) fun x hx => h x (by simp [hx])
      have hhead := hpos snd (by simp)
      have himp := h snd (by simp)
      rw [entriesOf_cons, entriesOf_cons, totalUsd_append, totalUsd_append]
      refine add_le_add ?_ htail
      by_cases hrun : snd.run = run
      · cases hp : p snd with
        | true => simp [hrun, himp hp]
        | false => cases hq : q snd <;> simp [hrun, hhead]
      · simp [hrun]

/-! ## The tally and the register -/

/-- A round that the tally can still be charged for. -/
def Chargeable (t : RunTally) (r : ℤ) : Prop :=
  ∀ q, t.lastRound = some q → q < r ∨ q = r ∧ t.lastOutcome = some .missed

theorem tallyEntered_of_chargeable {t : RunTally} {r : ℤ} (h : Chargeable t r) (usd : ℚ) :
    (tallyEntered t r usd).entered = t.entered + 1 ∧ (tallyEntered t r usd).spentUsd = t.spentUsd + usd ∧
      (tallyEntered t r usd).lastRound = some r ∧ (tallyEntered t r usd).lastOutcome = some .entered := by
  have hnewer : ¬ t.lastRound.any (r < ·) = true := by
    intro hany
    obtain ⟨q, hq, hlt⟩ : ∃ q, t.lastRound = some q ∧ r < q := by simpa [Option.any_eq_true] using hany
    rcases h q hq with hlt' | ⟨rfl, _⟩
    · exact absurd hlt hlt'.not_gt
    · exact lt_irrefl _ hlt
  have hsame : ¬ (t.lastRound = some r ∧ ¬ (t.lastRound = some r ∧ t.lastOutcome = some .missed)) := by
    rintro ⟨hr, hnot⟩
    rcases h r hr with hlt | ⟨_, hmissed⟩
    · exact lt_irrefl _ hlt
    · exact hnot ⟨hr, hmissed⟩
  simp only [tallyEntered, if_neg hnewer, if_neg hsame, and_self]

theorem tallyMissed_cases (t : RunTally) (r : ℤ) :
    tallyMissed t r = t ∨
      (∀ q, t.lastRound = some q → q < r) ∧ (tallyMissed t r).lastRound = some r ∧
        (tallyMissed t r).lastOutcome = some .missed := by
  unfold tallyMissed
  split
  · exact .inl rfl
  · rename_i hnewer
    refine .inr ⟨?_, rfl, rfl⟩
    simpa [Option.any_eq_false] using hnewer

@[simp]
theorem tallyMissed_spentUsd (t : RunTally) (r : ℤ) : (tallyMissed t r).spentUsd = t.spentUsd := by
  unfold tallyMissed
  split <;> rfl

@[simp]
theorem tallyMissed_entered (t : RunTally) (r : ℤ) : (tallyMissed t r).entered = t.entered := by
  unfold tallyMissed
  split <;> rfl

theorem pnlEntered_lastEnteredRound {p : RunPnl} {r : ℤ} {wallet : String}
    (hwallet : p.wallet = "" ∨ p.wallet = wallet) (hnewer : ∀ q, p.lastEnteredRound = some q → q < r) :
    (pnlEntered p r wallet).lastEnteredRound = some r := by
  have hother : ¬ (p.wallet ≠ "" ∧ p.wallet ≠ wallet) := by
    rintro ⟨hne, hne'⟩
    rcases hwallet with h | h
    · exact hne h
    · exact hne' h
  have hany : ¬ p.lastEnteredRound.any (r ≤ ·) = true := by
    intro hany
    obtain ⟨q, hq, hle⟩ : ∃ q, p.lastEnteredRound = some q ∧ r ≤ q := by simpa [Option.any_eq_true] using hany
    exact absurd (hnewer q hq) hle.not_gt
  simp only [pnlEntered, if_neg hother, if_neg hany]

/-- Booking what has settled moves neither the newest round nor the owner. -/
theorem bookSettledRounds_entered (p : RunPnl) (rounds : List RoundSummary) (you : String) :
    (bookSettledRounds p rounds you).lastEnteredRound = p.lastEnteredRound ∧
      (bookSettledRounds p rounds you).wallet = p.wallet := by
  unfold bookSettledRounds
  split
  · exact ⟨rfl, rfl⟩
  split
  · exact ⟨rfl, rfl⟩
  split
  · exact ⟨rfl, rfl⟩
  split
  · exact ⟨rfl, rfl⟩
  dsimp only
  split
  · exact ⟨rfl, rfl⟩
  · exact ⟨rfl, rfl⟩

/-! ## The books -/

/-- What the tally and the register of a run say of the deposits that it was charged for. -/
structure Books (state : AutoDeployState) (paid : List UnattendedEntry) (newest : Option ℤ) : Prop where
  spent : state.tally.spentUsd = totalUsd paid
  entered : state.tally.entered = paid.length
  lastSeen : ∀ r, state.tally.lastRound = some r → Seen newest r
  lastSending : ∀ b, state.attempt = some b → b.outcome = .sending →
    ∀ r, state.tally.lastRound = some r → r ≤ b.roundNo
  lastOutcome : ∀ r, state.tally.lastRound = some r →
    state.tally.lastOutcome = some .missed ∨ ∃ e ∈ paid, e.roundNo = r
  registerNone : state.pnl.lastEnteredRound = none → paid = []
  registerSome : ∀ r, state.pnl.lastEnteredRound = some r → (∃ e ∈ paid, e.roundNo = r) ∧ ∀ e ∈ paid, e.roundNo ≤ r
  /-- The record knows the rounds of the charged deposits to be over. -/
  known : ∀ e ∈ paid, Page.KnownIn state.attempt False e.roundNo

namespace Books

variable {state state' : AutoDeployState} {paid paid' : List UnattendedEntry} {newest newest' : Option ℤ}

theorem initial : Books INITIAL_AUTO_DEPLOY [] none := by
  constructor <;> simp [INITIAL_AUTO_DEPLOY, EMPTY_TALLY, EMPTY_RUN_PNL]

/-- A new run has been charged for nothing. -/
theorem arm (hattempt : state.attempt = none) (htally : state.tally.spentUsd = 0 ∧ state.tally.entered = 0)
    (hlast : state.tally.lastRound = none) (hpnl : state.pnl.lastEnteredRound = none) :
    Books state [] newest := by
  constructor <;> simp [hattempt, htally, hlast, hpnl]

theorem target (h : Books state paid newest)
    (hnew : ∀ t, newest = some t → ∃ t', newest' = some t' ∧ t ≤ t') : Books state paid newest' :=
  { h with lastSeen := fun r hr => (h.lastSeen r hr).mono hnew }

theorem perm (h : Books state paid newest) (hperm : paid'.Perm paid) : Books state paid' newest := by
  constructor
  case spent => exact h.spent.trans (hperm.map UnattendedEntry.amountUsd).sum_eq.symm
  case entered => exact h.entered.trans hperm.length_eq.symm
  case lastSeen => exact h.lastSeen
  case lastSending => exact h.lastSending
  case lastOutcome => exact fun r hr => by simpa only [hperm.mem_iff] using h.lastOutcome r hr
  case registerNone => exact fun hr => by simpa [h.registerNone hr] using hperm
  case registerSome => exact fun r hr => by simpa only [hperm.mem_iff] using h.registerSome r hr
  case known => exact fun e he => h.known e (hperm.mem_iff.mp he)

/-- The record may change where it goes on knowing the charged rounds, and no deposit is begun. -/
theorem reslot (h : Books state paid newest) (htally : state'.tally = state.tally)
    (hpnl : state'.pnl.lastEnteredRound = state.pnl.lastEnteredRound)
    (hsending : ∀ b, state'.attempt = some b → b.outcome = .sending → state.attempt = some b)
    (hknown : ∀ e ∈ paid, Page.KnownIn state'.attempt False e.roundNo) : Books state' paid newest := by
  constructor
  case spent => exact htally ▸ h.spent
  case entered => exact htally ▸ h.entered
  case lastSeen => exact htally ▸ h.lastSeen
  case lastSending => exact fun b hb hs => htally ▸ h.lastSending b (hsending b hb hs) hs
  case lastOutcome => exact htally ▸ h.lastOutcome
  case registerNone => exact hpnl ▸ h.registerNone
  case registerSome => exact hpnl ▸ h.registerSome
  case known => exact hknown

theorem frame (h : Books state paid newest) (htally : state'.tally = state.tally)
    (hpnl : state'.pnl.lastEnteredRound = state.pnl.lastEnteredRound) (hattempt : state'.attempt = state.attempt) :
    Books state' paid newest :=
  h.reslot htally hpnl (fun _ hb _ => hattempt ▸ hb) fun e he => hattempt ▸ h.known e he

/-- A round is written off. -/
theorem abandon (h : Books state paid newest) {r : ℤ} (reason : AbandonReason) (hseen : Seen newest r)
    (hknown : ∀ e ∈ paid, Page.KnownIn (abandonAttempt state r reason).attempt False e.roundNo) :
    Books (abandonAttempt state r reason) paid newest := by
  have htally : (abandonAttempt state r reason).tally = tallyMissed state.tally r := rfl
  constructor
  case spent => exact (tallyMissed_spentUsd state.tally r).trans h.spent
  case entered => exact (tallyMissed_entered state.tally r).trans h.entered
  case lastSeen =>
    intro q hq
    rw [htally] at hq
    rcases tallyMissed_cases state.tally r with hsame | ⟨_, hlast, _⟩
    · exact h.lastSeen q (hsame ▸ hq)
    · rw [hlast] at hq
      cases hq
      exact hseen
  case lastSending =>
    rintro _ ⟨⟩ hsending
    cases hsending
  case lastOutcome =>
    intro q hq
    rw [htally] at hq ⊢
    rcases tallyMissed_cases state.tally r with hsame | ⟨_, _, hmissed⟩
    · rw [hsame] at hq ⊢
      exact h.lastOutcome q hq
    · exact .inl hmissed
  case registerNone => exact h.registerNone
  case registerSome => exact h.registerSome
  case known => exact hknown

/-- A deposit into a round that is not over is begun. -/
theorem begin (h : Books state paid newest) {r : ℤ} (hnewest : newest = some r)
    (hknown : ∀ e ∈ paid, Page.KnownIn (beginAttempt state r).attempt False e.roundNo) :
    Books (beginAttempt state r) paid newest := by
  constructor
  case spent => exact h.spent
  case entered => exact h.entered
  case lastSeen => exact h.lastSeen
  case lastSending =>
    rintro _ ⟨⟩ _ q hq
    obtain ⟨t, ht, hle⟩ := h.lastSeen q hq
    rw [hnewest] at ht
    cases ht
    exact hle
  case lastOutcome => exact h.lastOutcome
  case registerNone => exact h.registerNone
  case registerSome => exact h.registerSome
  case known => exact hknown

/-- Every charged round is older than one that is being sent to. -/
theorem lt_of_sending (h : Books state paid newest) {b : AutoDeployAttempt} (hb : state.attempt = some b)
    (hsending : b.outcome = .sending) : ∀ e ∈ paid, e.roundNo < b.roundNo := by
  intro e he
  obtain ⟨c, hc, hover⟩ := h.known e he
  rw [hb] at hc
  cases hc
  rcases hover with hlt | ⟨_, hlanded | ⟨_, hfalse⟩⟩
  · exact hlt
  · simp [hsending] at hlanded
  · exact hfalse.elim

/-- The deposit that was being sent is confirmed, and charged. -/
theorem confirm (h : Books state paid newest) {b : AutoDeployAttempt} (hb : state.attempt = some b)
    (hsending : b.outcome = .sending) (hseen : Seen newest b.roundNo) {e : UnattendedEntry}
    (hround : e.roundNo = b.roundNo) (signature : String) {wallet : String}
    (hwallet : state.pnl.wallet = "" ∨ state.pnl.wallet = wallet) :
    Books (attemptLanded state e.roundNo signature e.amountUsd wallet) (e :: paid) newest := by
  have hlt := h.lt_of_sending hb hsending
  have hchargeable : Chargeable state.tally e.roundNo := by
    intro q hq
    rcases h.lastOutcome q hq with hmissed | ⟨f, hf, rfl⟩
    · rcases (h.lastSending b hb hsending q hq).lt_or_eq with hlt | heq
      · exact .inl (hround ▸ hlt)
      · exact .inr ⟨heq.trans hround.symm, hmissed⟩
    · exact .inl (hround ▸ hlt f hf)
  have hregister : ∀ q, state.pnl.lastEnteredRound = some q → q < e.roundNo := by
    intro q hq
    obtain ⟨⟨f, hf, rfl⟩, _⟩ := h.registerSome q hq
    exact hround ▸ hlt f hf
  obtain ⟨hentered, hspent, hlast, _⟩ := tallyEntered_of_chargeable hchargeable e.amountUsd
  have hnewest := pnlEntered_lastEnteredRound hwallet hregister
  rcases attemptLanded_cases state e.roundNo signature e.amountUsd wallet with
    ⟨hat, _⟩ | ⟨c, b', hc, _, hbr', hlanded, hland⟩
  · rw [attemptAt_eq_some.mpr ⟨hb, hround.symm⟩] at hat
    cases hat
  rw [hland]
  constructor
  case spent =>
    rw [totalUsd_cons, ← h.spent, add_comm]
    exact hspent
  case entered =>
    rw [List.length_cons, ← h.entered]
    exact hentered
  case lastSeen =>
    intro q hq
    rw [hlast] at hq
    cases hq
    exact hround ▸ hseen
  case lastSending =>
    rintro d ⟨⟩ hd
    simp [hlanded] at hd
  case lastOutcome =>
    intro q hq
    rw [hlast] at hq
    cases hq
    exact .inr ⟨e, by simp, rfl⟩
  case registerNone =>
    intro hnone
    rw [hnewest] at hnone
    cases hnone
  case registerSome =>
    intro q hq
    rw [hnewest] at hq
    cases hq
    refine ⟨⟨e, by simp, rfl⟩, fun f hf => ?_⟩
    rcases List.mem_cons.mp hf with rfl | hf
    · exact le_rfl
    · exact hround ▸ (hlt f hf).le
  case known =>
    intro f hf
    rcases List.mem_cons.mp hf with rfl | hf
    · exact ⟨b', rfl, .inr ⟨hbr'.symm, .inl hlanded⟩⟩
    · exact ⟨b', rfl, .inl (by rw [hbr', hround]; exact hlt f hf)⟩

end Books

end BullsUnicorns.Repeat

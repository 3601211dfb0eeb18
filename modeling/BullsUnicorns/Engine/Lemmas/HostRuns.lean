import BullsUnicorns.Engine.Lemmas.Host

/-!
# The host in a run

Every event keeps the ledger sound and candid and the converts in their books; and the counters one behind the
rounds, with no number settled twice, as long as every restart finds them.
-/

namespace BullsUnicorns.Engine

open Battle

/-- A restart finds the counters that the next process is to go on from. -/
def CountersLast (env : HostEnv) (h : Host) : HostEvent → Prop
  | .restart signal _ => (h.leaving env signal).Idle → ∀ arena, h.engine.roundsByArena arena = 0
  | _ => True

/-! ## The host in a run -/

structure Ordered (env : HostEnv) (h : Host) : Prop where
  sound : Sound env.settings h.engine
  candid : Candid h.engine.ledger
  desk : Kept env.convert (fun _ => True) { h.desk with ledger := h.engine.ledger }
  payouts : ∀ p ∈ h.payouts, 0 < p.units

structure Numbered (h : Host) : Prop where
  now : ∀ arena, h.engine.roundOf arena = h.engine.roundsByArena arena + 1
  past : ∀ p ∈ h.used, p.2 ≤ h.engine.roundsByArena p.1
  once : h.used.Nodup

variable {env : HostEnv} {h h' : Host}

theorem Numbered.of_passes {e : State} (hn : Numbered h) (hp : Passes h.engine e) : Numbered { h with engine := e } := by
  have hused : { h with engine := e }.used = h.used := by simp only [Host.used, hp.settled]
  constructor
  case now =>
      intro arena
      change e.roundOf arena = e.roundsByArena arena + 1
      rw [hp.rounds, hp.counts, hn.now]
  case past =>
      rw [hused]
      change ∀ p ∈ h.used, p.2 ≤ e.roundsByArena p.1
      rw [hp.counts]
      exact hn.past
  case once =>
      rw [hused]
      exact hn.once

/-- A round that is settled has a number that was not used. -/
theorem Numbered.of_closed {e : State} {arena : Arena} (hn : Numbered h) (hc : Closed arena h.engine e) :
    Numbered { h with engine := e } := by
  have hused : { h with engine := e }.used = h.used ++ [(arena, h.engine.roundOf arena)] := by
    obtain ⟨ids, hsettled⟩ := hc.settled
    simp only [Host.used, hsettled, List.map_append, List.map_cons, List.map_nil, List.append_assoc]
  constructor
  case now =>
      intro arena'
      change e.roundOf arena' = e.roundsByArena arena' + 1
      rw [hc.rounds, hc.counts]
      by_cases harena : arena' = arena
      · subst harena
        rw [Function.update_self, Function.update_self, hn.now]
      · rw [Function.update_of_ne harena, Function.update_of_ne harena, hn.now]
  case past =>
      rw [hused]
      change ∀ p ∈ h.used ++ [(arena, h.engine.roundOf arena)], p.2 ≤ e.roundsByArena p.1
      rw [hc.counts]
      intro p hp
      rcases List.mem_append.mp hp with hp | hp
      · apply (hn.past p hp).trans
        rw [Function.update_apply]
        split
        · next harena =>
            rw [harena]
            exact Nat.le_succ _
        · exact le_refl _
      · obtain rfl := List.mem_singleton.mp hp
        rw [Function.update_self, hn.now]
  case once =>
      rw [hused]
      refine List.nodup_append.mpr ⟨hn.once, List.nodup_singleton _, fun p hp p' hp' heq => ?_⟩
      obtain rfl := List.mem_singleton.mp hp'
      have hpast := hn.past p hp
      rw [heq, hn.now] at hpast
      exact absurd hpast (Nat.not_succ_le_self _)

/-- A handler at the cash desk. -/
theorem Ordered.cash {l : Ledger} (ho : Ordered env h) (hj : Joined h.engine.ledger l) : Ordered env (h.setLedger l) where
  sound := hj.sound ho.sound
  candid := hj.candid ho.candid
  desk := ho.desk.relocate (hj.nonneg ho.sound.nonneg) hj.stays
  payouts := ho.payouts

theorem Numbered.cash {l : Ledger} (hn : Numbered h) : Numbered (h.setLedger l) where
  now := by
    intro arena
    cases arena with
    | two aid => exact hn.now (.two aid)
    | many aid => exact hn.now (.many aid)
  past := hn.past
  once := hn.once

theorem Ordered.withdrawal {r : Ledger × Option Payout} (ho : Ordered env h) (hj : Joined h.engine.ledger r.1)
    (hpos : ∀ p ∈ r.2, 0 < p.units) : Ordered env (h.withdrawal r) := by
  have hcash := ho.cash hj
  refine ⟨hcash.sound, hcash.candid, hcash.desk, fun p hp => ?_⟩
  rcases List.mem_append.mp hp with hp | hp
  · exact ho.payouts p hp
  · exact hpos p (Option.mem_toList.mp hp)

theorem Ordered.payout (ho : Ordered env h) (i : ℕ) {g : Payout → Ledger → Ledger}
    (hj : ∀ p : Payout, 0 < p.units → Joined h.engine.ledger (g p h.engine.ledger)) : Ordered env (h.payout i g) := by
  unfold Host.payout
  split
  · next p hp =>
      have hcash := ho.cash (hj p (ho.payouts p (List.mem_of_getElem? hp)))
      exact ⟨hcash.sound, hcash.candid, hcash.desk, fun p' hp' => ho.payouts p' (List.mem_of_mem_eraseIdx hp')⟩
  · exact ho

theorem Numbered.payout (hn : Numbered h) (i : ℕ) (g : Payout → Ledger → Ledger) : Numbered (h.payout i g) := by
  unfold Host.payout
  split
  · next p _ =>
      have hcash := hn.cash (l := g p h.engine.ledger)
      exact ⟨hcash.now, hcash.past, hcash.once⟩
  · exact hn

theorem write_same (h : Host) (throws : ℕ → Bool) : (h.write throws).engine = h.engine ∧
    (h.write throws).desk = h.desk ∧ (h.write throws).payouts = h.payouts ∧ (h.write throws).history = h.history := by
  unfold Host.write
  split
  · exact ⟨rfl, rfl, rfl, rfl⟩
  · exact ⟨rfl, rfl, rfl, rfl⟩

/-- The store changes and nothing else. -/
theorem Ordered.stored (ho : Ordered env h) (h1 : h'.engine = h.engine) (h2 : h'.desk = h.desk)
    (h3 : h'.payouts = h.payouts) : Ordered env h' :=
  ⟨h1 ▸ ho.sound, h1 ▸ ho.candid, by rw [h1, h2]; exact ho.desk, h3 ▸ ho.payouts⟩

theorem Numbered.stored (hn : Numbered h) (h1 : h'.engine = h.engine) (h2 : h'.history = h.history) : Numbered h' := by
  have hused : h'.used = h.used := by simp only [Host.used, h1, h2]
  exact ⟨h1 ▸ hn.now, by rw [hused, h1]; exact hn.past, by rw [hused]; exact hn.once⟩

/-! ## Shutdown and start -/

theorem loadedRows (hk : Keyed h.engine.ledger) :
    ((loadSnapshot h.saved.db).map (·.accounts)).getD [] = snapshot h.engine := by
  rw [loadSnapshot, (saved_rows hk).1]
  by_cases hnone : snapshot h.engine = []
  · rw [if_pos hnone, hnone]
    rfl
  · rw [if_neg hnone]
    rfl

/-- A new process on rows that are regular and candid. -/
theorem start_ordered {db : Database} {e : State} (b : BootDraw) (vault : Field → ℚ) (history : List (Arena × ℕ))
    (hrows : ((loadSnapshot db).map (·.accounts)).getD [] = snapshot e) (hr : Regular env.settings e.ledger)
    (hc : Candid e.ledger) : Ordered env (Host.start env db b vault history e) := by
  have hsound := start_sound (e := { e with roundsByArena := (restored db).2 }) hr b
  have hnumbers := start_numbers (e := { e with roundsByArena := (restored db).2 }) hr b
  have hengine : (Host.start env db b vault history e).engine = start env.settings
      (snapshot { e with roundsByArena := (restored db).2 }) { e with roundsByArena := (restored db).2 } b :=
    congrArg (fun rows => start env.settings rows _ b) hrows
  constructor
  case sound => rwa [hengine]
  case candid =>
      rw [hengine]
      exact hnumbers.1 hc
  case desk =>
      have hdesk : Kept env.convert (fun _ => True)
          (.boot (Host.start env db b vault history e).engine.ledger vault) := by
        refine Kept.boot (fun _ _ => trivial) (Ledger.nonnegOf_all.mpr ?_) vault
        rw [hengine]
        exact hsound.nonneg
      exact hdesk
  case payouts => exact fun p hp => (List.not_mem_nil hp).elim

theorem start_numbered {db : Database} {e : State} (b : BootDraw) (vault : Field → ℚ) {history : List (Arena × ℕ)}
    (hrows : ((loadSnapshot db).map (·.accounts)).getD [] = snapshot e) (hr : Regular env.settings e.ledger)
    (hpast : ∀ p ∈ history, p.2 ≤ (restored db).2 p.1) (honce : history.Nodup) :
    Numbered (Host.start env db b vault history e) := by
  obtain ⟨-, hcounts, hrounds, hsettled⟩ :=
    start_numbers (e := { e with roundsByArena := (restored db).2 }) hr b
  have hengine : (Host.start env db b vault history e).engine = start env.settings
      (snapshot { e with roundsByArena := (restored db).2 }) { e with roundsByArena := (restored db).2 } b :=
    congrArg (fun rows => start env.settings rows _ b) hrows
  have hused : (Host.start env db b vault history e).used = history := by
    rw [Host.used, hengine, hsettled]
    exact List.append_nil _
  refine ⟨fun arena => ?_, ?_, ?_⟩
  · rw [hengine, hrounds, hcounts]
  · rw [hused, hengine, hcounts]
    exact hpast
  · rwa [hused]

theorem leaving_regular (ho : Ordered env h) (signal : Option Quotes) :
    Regular env.settings (h.leaving env signal).engine.ledger ∧
    Passes h.engine (h.leaving env signal).engine := by
  unfold Host.leaving
  cases signal with
  | some q => exact ⟨(refundOpenRounds_refunded _ q _).regular ho.sound, .refundOpenRounds _ q _⟩
  | none => exact ⟨ho.sound.regular, .refl _⟩

theorem Ordered.restart (ho : Ordered env h) (signal : Option Quotes) (b : BootDraw) :
    Ordered env (h.restart env signal b) := by
  obtain ⟨hr, hp⟩ := leaving_regular ho signal
  exact start_ordered b _ _ (loadedRows hr.keyed) hr (hp.candid ho.candid)

theorem Numbered.restart (hn : Numbered h) (ho : Ordered env h) (signal : Option Quotes) (b : BootDraw)
    (hlast : CountersLast env h (.restart signal b)) : Numbered (h.restart env signal b) := by
  obtain ⟨hr, hp⟩ := leaving_regular ho signal
  have hleft : Numbered (h.leaving env signal) := hn.of_passes hp
  have hcounters : (restored (h.leaving env signal).saved.db).2 = h.engine.roundsByArena := by
    obtain ⟨hidle, hbusy⟩ := restored_counters hr.keyed
    by_cases hi : (h.leaving env signal).Idle
    · rw [hidle hi]
      funext arena
      exact (hlast hi arena).symm
    · rw [hbusy hi, hp.counts]
  apply start_numbered b _ (loadedRows hr.keyed) hr
  · rw [hcounters, ← hp.counts]
    exact hleft.past
  · exact hleft.once

theorem first_rows (b : BootDraw) : ((loadSnapshot .empty).map (·.accounts)).getD [] =
    snapshot (Host.State.none env.settings b) := rfl

theorem first_regular (b : BootDraw) : Regular env.settings (Host.State.none env.settings b).ledger :=
  ⟨fun _ _ => le_refl 0, fun _ _ ha => (by cases ha), fun _ _ ha => (by cases ha), fun _ _ ha => (by cases ha)⟩

theorem Ordered.first (b : BootDraw) (vault : Field → ℚ) : Ordered env (Host.first env b vault) :=
  start_ordered b vault [] (first_rows b) (first_regular b) fun _ _ ha => by cases ha

theorem Numbered.first (b : BootDraw) (vault : Field → ℚ) : Numbered (Host.first env b vault) :=
  start_numbered b vault (first_rows b) (first_regular b) (fun _ hp => (List.not_mem_nil hp).elim) List.nodup_nil

/-! ## Every event -/

theorem serve_accepted {event : Event} {o : Unit} (hstep : (host env).step h (.serve event) = .ok (h', o)) :
    (∀ signal b, event ≠ .restart signal b) ∧ h' = { h with engine := State.serve env.settings h.engine event } := by
  have hup : ∀ signal b, event ≠ .restart signal b := by
    rintro signal b rfl
    cases hstep
  refine ⟨hup, ?_⟩
  have hserved : (host env).step h (.serve event) =
      ((engine env.settings).step h.engine event).map fun r => ({ h with engine := r.1 }, ()) := by
    cases event with
    | restart signal b => exact absurd rfl (hup signal b)
    | _ => rfl
  rw [hserved] at hstep
  simp only [engine] at hstep
  split at hstep
  · cases hstep
    rfl
  · cases hstep

theorem convert_accepted {event : ConvertEvent} {o : Unit} (hstep : (host env).step h (.convert event) = .ok (h', o)) :
    (∀ other, event ≠ .elsewhere other) ∧ ∃ d, Steps env.convert { h.desk with ledger := h.engine.ledger } event d ∧
      h' = { h.setLedger d.ledger with desk := d } := by
  have hown : ∀ other, event ≠ .elsewhere other := by
    rintro other rfl
    cases hstep
  refine ⟨hown, ?_⟩
  have hmoved : (host env).step h (.convert event) =
      (Desk.step env.convert { h.desk with ledger := h.engine.ledger } event).map fun r =>
        ({ h.setLedger r.1.ledger with desk := r.1 }, ()) := by
    cases event with
    | elsewhere other => exact absurd rfl (hown other)
    | _ => rfl
  rw [hmoved] at hstep
  cases hdesk : Desk.step env.convert { h.desk with ledger := h.engine.ledger } event with
  | error e =>
      rw [hdesk] at hstep
      cases hstep
  | ok r =>
      rw [hdesk] at hstep
      cases hstep
      exact ⟨r.1, step_steps (o := r.2) hdesk, rfl⟩

theorem Ordered.step {event : HostEvent} {o : Unit} (ho : Ordered env h) (hstep : (host env).step h event = .ok (h', o)) :
    Ordered env h' := by
  cases event with
  | serve event =>
      obtain ⟨hup, rfl⟩ := serve_accepted hstep
      obtain ⟨hsound, hstays⟩ := serve_holds ho.sound hup
      refine ⟨hsound, ?_, ho.desk.relocate hsound.nonneg hstays, ho.payouts⟩
      rcases serve_numbers ho.sound hup with hp | ⟨arena, hc⟩
      · exact hp.candid ho.candid
      · exact hc.candid ho.candid
  | join wallet side =>
      cases hstep
      exact ho.cash (.acct _ wallet side)
  | depositSol wallet sol px =>
      cases hstep
      exact ho.cash (.depositSol wallet sol px _)
  | deposit wallet side credited =>
      cases hstep
      exact ho.cash (.deposit wallet side credited _)
  | withdrawSol isFrozen wallet units px =>
      cases hstep
      obtain ⟨hj, hpos⟩ := Joined.withdrawSol isFrozen wallet units px h.engine.ledger
      exact ho.withdrawal hj hpos
  | withdraw isFrozen wallet side amount =>
      cases hstep
      obtain ⟨hj, hpos⟩ := Joined.withdraw isFrozen wallet side amount h.engine.ledger
      exact ho.withdrawal hj hpos
  | payoutSent i =>
      cases hstep
      exact ho.payout i fun p hp => .sent hp _
  | payoutFailed i =>
      cases hstep
      exact ho.payout i fun p hp => .failed hp ho.sound.nonneg
  | convert event =>
      obtain ⟨hown, d, hsteps, rfl⟩ := convert_accepted hstep
      have hcash := ho.cash (Joined.desk ho.desk hsteps hown)
      have hdesk := ho.desk.step hsteps fun o he => absurd he (hown o)
      exact ⟨hcash.sound, hcash.candid, hdesk, hcash.payouts⟩
  | persist =>
      cases hstep
      exact ho.stored rfl rfl rfl
  | timer throws =>
      cases hstep
      unfold Host.timer
      split
      · obtain ⟨h1, h2, h3, -⟩ := write_same { h with pending := false } throws
        exact ho.stored h1 h2 h3
      · exact ho
  | flush throws =>
      cases hstep
      obtain ⟨h1, h2, h3, -⟩ := write_same { h with pending := false } throws
      exact ho.stored h1 h2 h3
  | restart signal b =>
      cases hstep
      exact ho.restart signal b

theorem Numbered.step {event : HostEvent} {o : Unit} (hn : Numbered h) (ho : Ordered env h)
    (hlast : CountersLast env h event) (hstep : (host env).step h event = .ok (h', o)) : Numbered h' := by
  cases event with
  | serve event =>
      obtain ⟨hup, rfl⟩ := serve_accepted hstep
      rcases serve_numbers ho.sound hup with hp | ⟨arena, hc⟩
      · exact hn.of_passes hp
      · exact hn.of_closed hc
  | join wallet side =>
      cases hstep
      exact hn.cash
  | depositSol wallet sol px =>
      cases hstep
      exact hn.cash
  | deposit wallet side credited =>
      cases hstep
      exact hn.cash
  | withdrawSol isFrozen wallet units px =>
      cases hstep
      exact ⟨hn.cash.now, hn.past, hn.once⟩
  | withdraw isFrozen wallet side amount =>
      cases hstep
      exact ⟨hn.cash.now, hn.past, hn.once⟩
  | payoutSent i =>
      cases hstep
      exact hn.payout i _
  | payoutFailed i =>
      cases hstep
      exact hn.payout i _
  | convert event =>
      obtain ⟨-, d, -, rfl⟩ := convert_accepted hstep
      exact ⟨hn.cash.now, hn.past, hn.once⟩
  | persist =>
      cases hstep
      exact hn.stored rfl rfl
  | timer throws =>
      cases hstep
      unfold Host.timer
      split
      · obtain ⟨h1, -, -, h4⟩ := write_same { h with pending := false } throws
        exact hn.stored h1 h4
      · exact hn
  | flush throws =>
      cases hstep
      obtain ⟨h1, -, -, h4⟩ := write_same { h with pending := false } throws
      exact hn.stored h1 h4
  | restart signal b =>
      cases hstep
      exact hn.restart ho signal b hlast

theorem run_ordered (b : BootDraw) (vault : Field → ℚ) (events : List HostEvent) :
    Ordered env ((host env).run (Host.first env b vault) events) :=
  Machine.run_invariant (fun _ _ _ _ ho hstep => ho.step hstep) (.first b vault) events

/-- No number of a round is used twice while every restart finds its counters. -/
theorem run_numbered (b : BootDraw) (vault : Field → ℚ) (events : List HostEvent)
    (hlast : (host env).Each (CountersLast env) (Host.first env b vault) events) :
    Numbered ((host env).run (Host.first env b vault) events) := by
  refine (Machine.run_history_when (P := CountersLast env) (H := fun _ h => Ordered env h ∧ Numbered h) ?_
    (h := []) ⟨.first b vault, .first b vault⟩ events hlast).2
  rintro _ h event h' o hkept ⟨ho, hn⟩ hstep
  exact ⟨ho.step hstep, hn.step ho hkept hstep⟩

end BullsUnicorns.Engine

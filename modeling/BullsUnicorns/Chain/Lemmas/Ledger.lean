import BullsUnicorns.Chain.Lemmas.World

/-!
# The history of an arena

What the log of a run says of the accounts at its end: which rounds were opened, which were swept and
for how much, and which accounts are gone.
-/

namespace BullsUnicorns.Chain

open Word

abbrev Log := List (Call × Option Event)

/-- The round a sweep names, and what it moved. -/
def Event.sweep : Event → Option (ℕ × ℕ × ℕ)
  | .houseSwept roundNo fees penalties _ _ => some (roundNo, fees, penalties)
  | _ => none

def Event.opening : Event → Option ℕ
  | .roundOpened roundNo _ _ _ => some roundNo
  | _ => none

def sweeps (log : Log) : List (ℕ × ℕ × ℕ) := log.filterMap fun x => x.2.bind Event.sweep

def openings (log : Log) : List ℕ := log.filterMap fun x => x.2.bind Event.opening

theorem sweeps_snoc (log : Log) (c : Call) (e : Option Event) :
    sweeps (log ++ [(c, e)]) = sweeps log ++ (e.bind Event.sweep).toList :=
  Machine.filterMap_snoc _ _ _

theorem openings_snoc (log : Log) (c : Call) (e : Option Event) :
    openings (log ++ [(c, e)]) = openings log ++ (e.bind Event.opening).toList :=
  Machine.filterMap_snoc _ _ _

section
variable {sha256 : List UInt8 → Bytes32} {w w' : World} {c : Call} {e : Option Event} {log : Log}

theorem ix_frame {r r' : RoundState} {now arena i} (h : Effect sha256 r (.ix now arena i) r' e) :
    r'.houseSwept = r.houseSwept ∧ e.bind Event.sweep = none ∧ e.bind Event.opening = none := by
  cases h <;> exact ⟨rfl, rfl, rfl⟩

/-- The openings `os` and the sweeps `ss` of a log agree with the accounts. -/
structure Audited (os : List ℕ) (ss : List (ℕ × ℕ × ℕ)) (w : World) : Prop where
  opened : os = List.range' 1 w.arena.roundCounter
  unbooked : w.treasury = none → ss = []
  booked : ∀ t, w.treasury = some t →
    t = ⟨(ss.map fun x => x.2.1).sum, (ss.map fun x => x.2.2).sum, ss.length⟩
  once : (ss.map Prod.fst).Nodup
  known : ∀ x ∈ ss, 1 ≤ x.1 ∧ x.1 ≤ w.arena.roundCounter
  kept : ∀ x ∈ ss, ∀ a, w.rounds x.1 = some a →
    a.round.isSwept = true ∧ a.round.feesCollected = x.2.1 ∧ a.round.penaltiesCollected = x.2.2
  flagged : ∀ n a, w.rounds n = some a → a.round.isSwept = true → n ∈ ss.map Prod.fst

variable {os : List ℕ} {ss : List (ℕ × ℕ × ℕ)}

theorem Audited.frame (h : Audited os ss w) (hc : w'.arena.roundCounter = w.arena.roundCounter)
    (ht : w'.treasury = w.treasury)
    (hr : ∀ n a', w'.rounds n = some a' → ∃ a, w.rounds n = some a ∧
      a'.round.houseSwept = a.round.houseSwept ∧ (a.round.isSwept = true → a'.round = a.round)) :
    Audited os ss w' := by
  refine ⟨hc ▸ h.opened, ht ▸ h.unbooked, ht ▸ h.booked, h.once, hc ▸ h.known, ?_, ?_⟩
  · intro x hx a' ha'
    obtain ⟨a, ha, -, hsame⟩ := hr _ a' ha'
    have hk := h.kept x hx a ha
    rw [hsame hk.1]
    exact hk
  · intro n a' ha' hflag
    obtain ⟨a, ha, hflags, -⟩ := hr _ a' ha'
    exact h.flagged n a ha (by simpa [RoundState.isSwept, hflags] using hflag)

theorem Audited.sweep (h : Audited os ss w) {a : RoundAccount} {t : Treasury} {n : ℕ}
    (hf : w.rounds n = some a) (hno : a.round.roundNo = n) (ht : w.treasury = some t)
    (hun : a.round.isSwept = false)
    (hn : 1 ≤ n ∧ n ≤ w.arena.roundCounter) (hc : w'.arena.roundCounter = w.arena.roundCounter)
    (ht' : w'.treasury = some ⟨t.feesAccrued + a.round.feesCollected,
      t.penaltiesAccrued + a.round.penaltiesCollected, t.roundsSwept + 1⟩)
    (hr : w'.rounds = (w.setRound n (some { a with round := { a.round with houseSwept := 1 } })).rounds) :
    Audited os (ss ++ [(a.round.roundNo, a.round.feesCollected, a.round.penaltiesCollected)]) w' := by
  subst hno
  have hnew : a.round.roundNo ∉ ss.map Prod.fst := by
    intro hmem
    obtain ⟨x, hx, he⟩ := List.mem_map.mp hmem
    have := (h.kept x hx a (by rw [he]; exact hf)).1
    simp [hun] at this
  refine ⟨hc ▸ h.opened, fun h' => by simp [ht'] at h', ?_, ?_, ?_, ?_, ?_⟩
  · intro t' h'
    rw [ht'] at h'
    obtain rfl := Option.some.inj h'
    rw [h.booked t ht]
    simp
  · rw [List.map_append]
    exact h.once.append (List.nodup_singleton _) (List.disjoint_singleton.mpr hnew)
  · intro x hx
    rcases List.mem_append.mp hx with hx | hx
    · exact hc ▸ h.known x hx
    · obtain rfl := List.mem_singleton.mp hx
      exact hc ▸ hn
  · intro x hx b hb
    rw [hr] at hb
    rcases setRound_eq_some hb with ⟨hxn, he⟩ | ⟨hxn, ho⟩
    · cases he
      rcases List.mem_append.mp hx with hx | hx
      · exact absurd (hxn ▸ List.mem_map_of_mem hx) hnew
      · obtain rfl := List.mem_singleton.mp hx
        exact ⟨rfl, rfl, rfl⟩
    · rcases List.mem_append.mp hx with hx | hx
      · exact h.kept x hx b ho
      · obtain rfl := List.mem_singleton.mp hx
        exact absurd rfl hxn
  · intro m b hb hflag
    rw [hr] at hb
    rw [List.map_append, List.mem_append]
    rcases setRound_eq_some hb with ⟨rfl, -⟩ | ⟨-, ho⟩
    · exact Or.inr (by simp)
    · exact Or.inl (h.flagged m b ho hflag)

theorem Audited.open (h : Audited os ss w) {r : RoundState} (hun : r.isSwept = false)
    (hc : w'.arena.roundCounter = w.arena.roundCounter + 1) (ht : w'.treasury = w.treasury)
    (hr : w'.rounds = (w.setRound (w.arena.roundCounter + 1) (some ⟨r, false⟩)).rounds) :
    Audited (os ++ [w.arena.roundCounter + 1]) ss w' := by
  refine ⟨?_, ht ▸ h.unbooked, ht ▸ h.booked, h.once, ?_, ?_, ?_⟩
  · rw [h.opened, hc, List.range'_concat, Nat.one_mul, Nat.add_comm 1]
  · intro x hx
    have hk := h.known x hx
    exact ⟨hk.1, by omega⟩
  · intro x hx a ha
    rw [hr] at ha
    rcases setRound_eq_some ha with ⟨hxn, -⟩ | ⟨-, ho⟩
    · have hk := h.known x hx
      omega
    · exact h.kept x hx a ho
  · intro n a ha hflag
    rw [hr] at ha
    rcases setRound_eq_some ha with ⟨-, he⟩ | ⟨-, ho⟩
    · cases he
      simp [hun] at hflag
    · exact h.flagged n a ho hflag

theorem audited_step (hw : Housed sha256 w) (ha : Audited os ss w) (h : Change sha256 w c w' e) :
    Audited (os ++ (e.bind Event.opening).toList) (ss ++ (e.bind Event.sweep).toList) w' := by
  cases h with
  | initTreasury auth fresh =>
      have hnil := ha.unbooked fresh
      subst hnil
      simp only [Option.bind_none, Option.toList_none, List.append_nil]
      refine ⟨ha.opened, fun _ => rfl, fun t ht => ?_, ha.once, ha.known, ha.kept, ha.flagged⟩
      exact (Option.some.inj ht).symm
  | setFeeBps auth =>
      simp only [Option.bind_some, Event.opening, Event.sweep, Option.toList_none, List.append_nil]
      exact ha.frame rfl rfl fun n a hn => ⟨a, hn, rfl, fun _ => rfl⟩
  | @openRound now signer seedCommit lobbySeconds roundNo auth fresh next =>
      simp only [Option.bind_some, Event.opening, Event.sweep, Option.toList_none, Option.toList_some,
        List.append_nil, next]
      exact ha.open (r := openedRound now (w.arena.roundCounter + 1) seedCommit lobbySeconds) rfl rfl rfl
        rfl
  | @delegateRound now signer a roundNo auth found owned =>
      simp only [Option.bind_none, Option.toList_none, List.append_nil]
      refine ha.frame rfl rfl fun n a' hn => ?_
      rcases setRound_eq_some hn with ⟨rfl, he⟩ | ⟨-, ho⟩
      · cases he
        exact ⟨a, found, rfl, fun _ => rfl⟩
      · exact ⟨a', ho, rfl, fun _ => rfl⟩
  | @onRound now a i r e roundNo found step =>
      obtain ⟨hflag, hs, ho⟩ := ix_frame (step_effect step)
      simp only [hs, ho, Option.toList_none, List.append_nil]
      refine ha.frame rfl rfl fun n a' hn => ?_
      rcases setRound_eq_some hn with ⟨rfl, he⟩ | ⟨-, ho⟩
      · cases he
        refine ⟨a, found, hflag, fun hswept => ?_⟩
        -- a swept round is terminal, and only a sweep changes a terminal round
        have hterm := (hw.produced _ a found).inv.staged.swept hswept
        rcases terminal_step hterm (step_effect step) with he | ⟨⟨_, hc⟩, -⟩
        · exact he
        · cases hc
      · exact ⟨a', ho, rfl, fun _ => rfl⟩
  | @sweep now a t roundNo found owned books terminal unswept step =>
      simp only [Option.bind_some, Event.opening, Event.sweep, Option.toList_none, Option.toList_some,
        List.append_nil]
      exact ha.sweep found (hw.numbered _ a found) books unswept (hw.opened _ a found) rfl rfl rfl
  | @close now signer a roundNo auth found owned terminal swept old =>
      simp only [Option.bind_some, Event.opening, Event.sweep, Option.toList_none, List.append_nil]
      refine ha.frame rfl rfl fun n a' hn => ?_
      rcases setRound_eq_some hn with ⟨-, he⟩ | ⟨-, ho⟩
      · cases he
      · exact ⟨a', ho, rfl, fun _ => rfl⟩

theorem audited_run (authority : Pubkey) (feeBps : FeeBps) (calls : List Call) :
    Housed sha256 ((program sha256).run (World.initial authority feeBps) calls) ∧
      Audited (openings ((program sha256).accepted (World.initial authority feeBps) calls))
        (sweeps ((program sha256).accepted (World.initial authority feeBps) calls))
        ((program sha256).run (World.initial authority feeBps) calls) := by
  have hinit : Audited [] [] (World.initial authority feeBps) :=
    ⟨rfl, fun _ => rfl, fun t h => by simp [World.initial] at h, List.nodup_nil,
      fun x hx => by simp at hx, fun x hx => by simp at hx,
      fun n a ha => by simp [World.initial] at ha⟩
  refine Machine.run_history (m := program sha256)
    (H := fun log s => Housed sha256 s ∧ Audited (openings log) (sweeps log) s) ?_ (h := [])
    ⟨housed_initial authority feeBps, hinit⟩ calls
  intro log s c s' e hs h
  rw [openings_snoc, sweeps_snoc]
  exact ⟨housed_step hs.1 (step_change h), audited_step hs.1 hs.2 (step_change h)⟩

/-! ## Accounts that are gone -/

theorem counter_step (h : Change sha256 w c w' e) :
    w.arena.roundCounter ≤ w'.arena.roundCounter := by
  cases h with
  | openRound auth fresh next => simp only [next]; omega
  | initTreasury auth fresh => exact Nat.le_refl _
  | setFeeBps auth => exact Nat.le_refl _
  | delegateRound auth found owned => exact Nat.le_refl _
  | onRound found step => exact Nat.le_refl _
  | sweep found owned books terminal unswept step => exact Nat.le_refl _
  | close auth found owned terminal swept old => exact Nat.le_refl _

/-- An opened number without an account never gets one again. -/
theorem gone_step (h : Change sha256 w c w' e) {n : ℕ} (hn : n ≤ w.arena.roundCounter)
    (hg : w.rounds n = none) : w'.rounds n = none := by
  cases h with
  | initTreasury auth fresh => exact hg
  | setFeeBps auth => exact hg
  | openRound auth fresh next =>
      exact (setRound_ne w (by omega) _).trans hg
  | delegateRound auth found owned =>
      exact (setRound_ne w (fun he => by rw [he, found] at hg; cases hg) _).trans hg
  | onRound found step =>
      exact (setRound_ne w (fun he => by rw [he, found] at hg; cases hg) _).trans hg
  | sweep found owned books terminal unswept step =>
      exact (setRound_ne w (fun he => by rw [he, found] at hg; cases hg) _).trans hg
  | close auth found owned terminal swept old =>
      exact (setRound_ne w (fun he => by rw [he, found] at hg; cases hg) _).trans hg

/-- A round that may be closed: finished, swept, and behind the newest rounds. -/
def Closable (w : World) (n : ℕ) : Prop :=
  ∃ a, w.rounds n = some a ∧ a.round.phase.terminal ∧ a.round.isSwept = true ∧
    n + minRetainedRounds ≤ w.arena.roundCounter

theorem vanish_step (hw : Housed sha256 w) (h : Change sha256 w c w' e) {n : ℕ}
    (hn : n ≤ w'.arena.roundCounter) (hg : w'.rounds n = none) :
    n ≤ w.arena.roundCounter ∧ w.rounds n = none ∨ Closable w n := by
  -- writing an account back removes none
  have hwrite : ∀ m a, (w.setRound m (some a)).rounds n = none → n ≠ m ∧ w.rounds n = none := by
    intro m a hnone
    have hne : n ≠ m := by
      rintro rfl
      rw [setRound_self] at hnone
      cases hnone
    exact ⟨hne, (setRound_ne w hne _).symm.trans hnone⟩
  cases h with
  | initTreasury auth fresh => exact Or.inl ⟨hn, hg⟩
  | setFeeBps auth => exact Or.inl ⟨hn, hg⟩
  | openRound auth fresh next =>
      obtain ⟨hne, hnone⟩ := hwrite _ _ hg
      simp only at hn
      exact Or.inl ⟨by omega, hnone⟩
  | delegateRound auth found owned => exact Or.inl ⟨hn, (hwrite _ _ hg).2⟩
  | onRound found step => exact Or.inl ⟨hn, (hwrite _ _ hg).2⟩
  | sweep found owned books terminal unswept step => exact Or.inl ⟨hn, (hwrite _ _ hg).2⟩
  | @close now signer a roundNo auth found owned terminal swept old =>
      by_cases he : n = roundNo.toNat
      · subst he
        exact Or.inr ⟨a, found, terminal, swept, hw.numbered _ a found ▸ old⟩
      · exact Or.inl ⟨hn, (setRound_ne w he _).symm.trans hg⟩

/-- Every opened round whose account is gone was closable at some state of the run. -/
def Accounted (sha256 : List UInt8 → Bytes32) (w₀ w : World) : Prop :=
  ∀ n, 1 ≤ n → n ≤ w.arena.roundCounter → w.rounds n = none →
    n + minRetainedRounds ≤ w.arena.roundCounter ∧
      ∃ v, (program sha256).Reach w₀ v ∧ (program sha256).Reach v w ∧ Closable v n

theorem accounted_step {w₀ : World} (hr : (program sha256).Reach w₀ w) (hw : Housed sha256 w)
    (ha : Accounted sha256 w₀ w) (hs : (program sha256).step w c = .ok (w', e)) :
    Accounted sha256 w₀ w' := by
  intro n h₁ hn hg
  have hmono := counter_step (step_change hs)
  rcases vanish_step hw (step_change hs) hn hg with ⟨hle, hold⟩ | hclose
  · obtain ⟨hwin, v, hv, hvw, hc⟩ := ha n h₁ hle hold
    exact ⟨by omega, v, hv, hvw.step hs, hc⟩
  · have hwin := hclose.choose_spec.2.2.2
    exact ⟨by omega, w, hr, (Machine.Reach.refl w).step hs, hclose⟩

theorem accounted_run (authority : Pubkey) (feeBps : FeeBps) (calls : List Call) :
    Accounted sha256 (World.initial authority feeBps)
      ((program sha256).run (World.initial authority feeBps) calls) := by
  refine (Machine.run_invariant (m := program sha256)
    (I := fun w => ((program sha256).Reach (World.initial authority feeBps) w ∧ Housed sha256 w) ∧
      Accounted sha256 (World.initial authority feeBps) w) ?_ ⟨⟨Machine.Reach.refl _,
        housed_initial authority feeBps⟩, fun n h₁ hn _ => ?_⟩ calls).2
  · intro w c w' e hs h
    exact ⟨⟨hs.1.1.step h, housed_step hs.1.2 (step_change h)⟩, accounted_step hs.1.1 hs.1.2 hs.2 h⟩
  · simp only [World.initial] at hn
    omega

theorem gone_run {n : ℕ} (hn : n ≤ w.arena.roundCounter) (hg : w.rounds n = none)
    (calls : List Call) : ((program sha256).run w calls).rounds n = none :=
  (Machine.run_invariant (m := program sha256)
    (I := fun w => n ≤ w.arena.roundCounter ∧ w.rounds n = none)
    (fun _ _ _ _ hs h => ⟨Nat.le_trans hs.1 (counter_step (step_change h)),
      gone_step (step_change h) hs.1 hs.2⟩) ⟨hn, hg⟩ calls).2

end

end BullsUnicorns.Chain

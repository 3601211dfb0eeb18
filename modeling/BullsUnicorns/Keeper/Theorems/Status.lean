import BullsUnicorns.Keeper.StatusFile

/-!
# What the keeper publishes is what the page understands
-/

namespace BullsUnicorns.Keeper

open Json (field_eq reads orNull isNumber isString isNumberArray orNull_ofOption)

/-! ## The payload is read back as it was written -/

theorem parseError_toJson (error : KeeperError) : parseError error.toJson = some error := rfl

theorem parseLowBalance_toJson (low : KeeperLowBalance) : parseLowBalance low.toJson = some low := by
  refine reads rfl <| reads rfl <| reads rfl <| reads rfl ?_
  rw [dif_pos low.lamports_u64, dif_pos low.floor_u64]
  rfl

theorem isNotOpeningReason_toJson (reason : NotOpeningReason) :
    isNotOpeningReason reason.toJson = some reason := by
  cases reason <;> rfl

theorem parseErValidator_toJson (validator : ErValidator) :
    parseErValidator validator.toJson = some validator := rfl

theorem wholeCode_natCast (n : ℕ) : wholeCode n = some n := by
  simp [wholeCode]

theorem parseRound_toJson (round : KeeperRoundStatus) : parseRound round.toJson = some round := by
  refine reads rfl <| reads rfl <| reads rfl <| reads rfl <| reads rfl <| reads rfl <| reads rfl <|
    reads rfl <| reads rfl <| reads rfl <| reads rfl ?_
  rw [dif_pos round.pot_u64]
  refine reads (wholeCode_natCast _) <| reads rfl ?_
  rw [dif_pos round.named]
  rfl

theorem orNull_number (o : Option ℚ) : orNull isNumber (.ofOption Json.num o) = some o := by
  have hread (n : ℚ) : isNumber (Json.num n) = some n := rfl
  exact orNull_ofOption hread (fun _ => nofun) o

theorem parseKeeper_toJson (keeper : KeeperHealth) : parseKeeper keeper.toJson = some keeper := by
  refine reads rfl <| reads rfl <| reads rfl <| reads rfl <| reads rfl <| reads rfl <|
    reads (field_eq rfl (Json.isNumberArray_nums _)) <|
    reads (field_eq rfl (orNull_ofOption parseError_toJson (fun _ => nofun) _)) <|
    reads (field_eq rfl (orNull_number _)) <|
    reads (field_eq rfl (orNull_ofOption parseLowBalance_toJson (fun _ => nofun) _)) <|
    reads (field_eq rfl (orNull_ofOption isNotOpeningReason_toJson (fun _ => nofun) _)) <| reads rfl rfl

theorem parseChain_toJson (chain : KeeperChain) : parseChain chain.toJson = some chain :=
  reads rfl <| reads rfl <| reads rfl <| reads rfl <| reads rfl <|
    reads (field_eq rfl (orNull_ofOption parseErValidator_toJson (fun _ => nofun) _)) rfl

theorem parse_serialize (status : KeeperStatus) :
    parseKeeperStatus (serializeKeeperStatus status) = some status := by
  refine reads rfl <| reads rfl <| reads rfl <| reads (field_eq rfl (parseKeeper_toJson _)) <|
    reads (field_eq rfl (parseChain_toJson _)) <|
    reads (field_eq rfl (orNull_ofOption parseRound_toJson (fun _ => nofun) _)) <|
    reads (field_eq rfl (orNull_number _)) <| reads (field_eq rfl (orNull_number _)) rfl

/-! ## The account is reported as it stands -/

/-- The only thing wrong with a round account is a phase without a name. -/
theorem roundStatusFrom_isOk (round : RawRoundAccount) (roundPda : String) (heldOpen : Bool) :
    (∃ status, roundStatusFrom round roundPda heldOpen = .ok status ∧
      status.phaseCode = round.phase.toNat ∧ status.pot = toString round.pot.toNat) ↔
      round.phase.toNat < phaseName.length := by
  unfold roundStatusFrom
  constructor
  · rintro ⟨status, hstatus, -⟩
    split at hstatus
    · cases hstatus
    · rename_i phase named
      exact (List.getElem?_eq_some_iff.mp named).1
  · intro hlt
    split
    · rename_i named
      exact absurd (List.getElem?_eq_none_iff.mp named) (by omega)
    · exact ⟨_, rfl, rfl, rfl⟩

/-! ## What a render decides -/

variable {publisher : StatusPublisher} {L : List KeeperStatus}

def HoldRound (round : Option KeeperRoundStatus) : Prop :=
  ∃ r, round = some r ∧ (r.phase = "Settled" ∨ r.phase = "Abandoned")

def LobbyRound (round : Option KeeperRoundStatus) : Prop := ∃ r, round = some r ∧ r.phase = "Lobby"

theorem phase_of_hold {r : KeeperRoundStatus} (h : r.phaseCode ∈ holdPhases) :
    r.phase = "Settled" ∨ r.phase = "Abandoned" := by
  have hnamed := r.named
  simp only [holdPhases, List.mem_cons, List.not_mem_nil, or_false] at h
  rcases h with h | h
  · rw [h] at hnamed
    exact .inl (Option.some.inj hnamed).symm
  · rw [h] at hnamed
    exact .inr (Option.some.inj hnamed).symm

theorem phase_of_lobby {r : KeeperRoundStatus} (h : r.phaseCode = 0) : r.phase = "Lobby" := by
  have hnamed := r.named
  rw [h] at hnamed
  exact (Option.some.inj hnamed).symm

/-- A next-lobby time comes out beside a held round only, and is that round's latch from then on. -/
theorem honestNext_some {round : Option KeeperRoundStatus} {candidate : Option ℚ}
    {latch : Option CountdownLatch} {a : ℚ}
    (h : (honestNextLobbyOpensAt round candidate latch).1 = some a) :
    ∃ r, round = some r ∧ r.phaseCode ∈ holdPhases ∧
      (honestNextLobbyOpensAt round candidate latch).2 = some ⟨r.no, a⟩ := by
  cases round with
  | none => cases h
  | some r =>
      by_cases hphase : r.phaseCode ∈ holdPhases
      · refine ⟨r, rfl, hphase, ?_⟩
        simp only [honestNextLobbyOpensAt, not_not.mpr hphase, if_false] at h ⊢
        cases hheld : latch.filter fun held => held.roundNo = r.no with
        | some held =>
            rw [hheld] at h
            obtain ⟨hlatch, hno⟩ := Option.filter_eq_some_iff.mp hheld
            cases h
            simp only [hlatch]
            rw [← of_decide_eq_true hno]
        | none =>
            rw [hheld] at h
            cases candidate with
            | none => cases h
            | some c =>
                cases h
                rfl
      · simp [honestNextLobbyOpensAt, hphase] at h

/-- A latch holds against everything its own round proposes. -/
theorem honestNext_latched {round : Option KeeperRoundStatus} (candidate : Option ℚ)
    {held : CountdownLatch} (h : ∀ r, round = some r → r.no = held.roundNo) :
    (honestNextLobbyOpensAt round candidate (some held)).2 = some held := by
  cases round with
  | none => rfl
  | some r =>
      have hno : held.roundNo = r.no := (h r rfl).symm
      simp only [honestNextLobbyOpensAt, Option.filter_some, hno, decide_true, if_true]
      split <;> rfl

theorem honestEntries_some {round : Option KeeperRoundStatus} {candidate : Option ℚ}
    (h : honestEntriesCloseAt round candidate ≠ none) : LobbyRound round := by
  cases round with
  | none => exact absurd rfl h
  | some r =>
      by_cases hphase : r.phaseCode = 0
      · exact ⟨r, rfl, phase_of_lobby hphase⟩
      · exact absurd (by simp [honestEntriesCloseAt, hphase]) h

/-! ## What a call does -/

/-- A call only proposes, or renders the publisher that it finds, with its heartbeat moved at most. -/
theorem call_cases (publisher : StatusPublisher) (c : PublisherCall) :
    ((publisher.call c).2 = none ∧ (publisher.call c).1.latch = publisher.latch) ∨
      ∃ q : StatusPublisher, q.latch = publisher.latch ∧
        q.status.keeper.wedgedRounds = publisher.status.keeper.wedgedRounds ∧
        publisher.call c = (q.render, some q.render.status) := by
  cases c with
  | publish => exact .inr ⟨publisher, rfl, rfl, rfl⟩
  | heartbeat nowSec =>
      exact .inr ⟨publisher.setKeeper { publisher.status.keeper with heartbeatAt := nowSec },
        rfl, rfl, rfl⟩
  | addWedgedRound roundNo =>
      by_cases hknown : roundNo ∈ publisher.status.keeper.wedgedRounds
      · simp [StatusPublisher.call, hknown]
      · simp [StatusPublisher.call, hknown, StatusPublisher.setKeeper]
  | _ => exact .inl ⟨rfl, rfl⟩

theorem call_rendered {c : PublisherCall} {s : KeeperStatus} (h : (publisher.call c).2 = some s) :
    s = (publisher.call c).1.status := by
  rcases call_cases publisher c with ⟨hnone, -⟩ | ⟨q, -, -, hcall⟩
  · rw [hnone] at h
    cases h
  · rw [hcall] at h ⊢
    exact (Option.some.inj h).symm

theorem call_wedged (h : publisher.status.keeper.wedgedRounds.Nodup) (c : PublisherCall) :
    publisher.status.keeper.wedgedRounds <+: (publisher.call c).1.status.keeper.wedgedRounds ∧
      (publisher.call c).1.status.keeper.wedgedRounds.Nodup := by
  cases c with
  | addWedgedRound roundNo =>
      by_cases hknown : roundNo ∈ publisher.status.keeper.wedgedRounds
      · simp only [StatusPublisher.call, if_pos hknown]
        exact ⟨List.prefix_refl _, h⟩
      · simp only [StatusPublisher.call, if_neg hknown]
        refine ⟨List.prefix_append _ _, ?_⟩
        exact List.nodup_append.mpr ⟨h, List.nodup_singleton _, fun a ha b hb hab =>
          hknown (List.mem_singleton.mp hb ▸ hab ▸ ha)⟩
  | setLowBalance low => cases low <;> exact ⟨List.prefix_refl _, h⟩
  | _ => exact ⟨List.prefix_refl _, h⟩

/-- A funding report keeps its beginning until it is cleared. -/
theorem call_lowBalance {c : PublisherCall} (hc : c ≠ .setLowBalance none) {low : KeeperLowBalance}
    (h : publisher.status.keeper.lowBalance = some low) :
    ∃ low', (publisher.call c).1.status.keeper.lowBalance = some low' ∧ low'.since = low.since := by
  cases c with
  | setLowBalance report =>
      cases report with
      | none => exact absurd rfl hc
      | some report => exact ⟨_, rfl, by simp [h]⟩
  | addWedgedRound roundNo =>
      by_cases hknown : roundNo ∈ publisher.status.keeper.wedgedRounds
      · simp only [StatusPublisher.call, if_pos hknown]
        exact ⟨low, h, rfl⟩
      · simp only [StatusPublisher.call, if_neg hknown]
        exact ⟨low, h, rfl⟩
  | _ => exact ⟨low, h, rfl⟩

/-! ## Stretches -/

/-- All of them describe the same round. -/
def Stretch (n : ℚ) (stretch : List KeeperStatus) : Prop :=
  ∀ s ∈ stretch, s.round.map (·.no) = some n

/-- No stretch promises two times. -/
def SteadyCountdown (L : List KeeperStatus) : Prop :=
  ∀ pre stretch post n, L = pre ++ stretch ++ post → Stretch n stretch →
    ∀ s ∈ stretch, ∀ s' ∈ stretch, ∀ a b,
      s.nextLobbyOpensAt = some a → s'.nextLobbyOpensAt = some b → a = b

/-- What the stretch still going on has promised is what the latch holds. -/
def Latched (L : List KeeperStatus) (latch : Option CountdownLatch) : Prop :=
  ∀ pre stretch n, L = pre ++ stretch → Stretch n stretch →
    ∀ s ∈ stretch, ∀ a, s.nextLobbyOpensAt = some a → latch = some ⟨n, a⟩

theorem Latched.render (h : Latched L publisher.latch) :
    Latched (L ++ [publisher.render.status]) publisher.render.latch := by
  intro pre stretch n hL hstretch s hs a ha
  rcases List.eq_nil_or_concat stretch with rfl | ⟨before, last, rfl⟩
  · cases hs
  · rw [List.concat_eq_append, ← List.append_assoc] at hL
    obtain ⟨hbefore, hlast⟩ := List.append_inj' hL rfl
    obtain rfl : publisher.render.status = last := by simpa using hlast
    have hround : publisher.status.round.map (·.no) = some n := hstretch publisher.render.status (by simp)
    rw [List.concat_eq_append] at hs hstretch
    rcases List.mem_append.mp hs with hs | hs
    · have hlatch := h pre before n hbefore (fun x hx => hstretch x (List.mem_append_left _ hx)) s hs a ha
      have hsame : ∀ r, publisher.status.round = some r → r.no = (⟨n, a⟩ : CountdownLatch).roundNo := by
        intro r hr
        rw [hr] at hround
        exact Option.some.inj hround
      have hkept := honestNext_latched publisher.proposedNextLobbyOpensAt hsame
      rw [← hlatch] at hkept
      exact hkept.trans hlatch
    · rw [List.mem_singleton.mp hs] at ha
      obtain ⟨r, hr, -, hlatch⟩ := honestNext_some ha
      rw [hr] at hround
      obtain rfl : r.no = n := Option.some.inj hround
      exact hlatch

theorem SteadyCountdown.snoc {s : KeeperStatus} {latch : Option CountdownLatch} (h : SteadyCountdown L)
    (hlatched : Latched (L ++ [s]) latch) : SteadyCountdown (L ++ [s]) := by
  intro pre stretch post n hL hstretch x hx y hy a b ha hb
  rcases List.eq_nil_or_concat post with rfl | ⟨before, last, rfl⟩
  · rw [List.append_nil] at hL
    have hxlatch := hlatched pre stretch n hL hstretch x hx a ha
    have hylatch := hlatched pre stretch n hL hstretch y hy b hb
    rw [hxlatch] at hylatch
    cases hylatch
    rfl
  · rw [List.concat_eq_append, ← List.append_assoc] at hL
    exact h pre stretch before n (List.append_inj' hL rfl).1 hstretch x hx y hy a b ha hb

/-! ## Runs -/

abbrev PublisherLog := List (PublisherCall × Option KeeperStatus)

/-- Two payloads with no clearing call between them report one funding stretch. -/
def SteadySince (log : PublisherLog) : Prop :=
  ∀ pre c s mid c' s' post, log = pre ++ (c, some s) :: (mid ++ (c', some s') :: post) →
    (∀ x ∈ mid, x.1 ≠ .setLowBalance none) → ∀ low low', s.keeper.lowBalance = some low →
      s'.keeper.lowBalance = some low' → low.since = low'.since

/-- The stretch still going on began where its payloads say. -/
def SinceHeld (log : PublisherLog) (publisher : StatusPublisher) : Prop :=
  ∀ pre c s mid, log = pre ++ (c, some s) :: mid → (∀ x ∈ mid, x.1 ≠ .setLowBalance none) →
    ∀ low, s.keeper.lowBalance = some low →
      ∃ low', publisher.status.keeper.lowBalance = some low' ∧ low'.since = low.since

theorem SinceHeld.call {log : PublisherLog} (h : SinceHeld log publisher) (c : PublisherCall) :
    SinceHeld (log ++ [(c, (publisher.call c).2)]) (publisher.call c).1 := by
  intro pre c₁ s mid hlog hmid low hlow
  rcases List.eq_nil_or_concat mid with rfl | ⟨before, last, rfl⟩
  · obtain ⟨-, hlast⟩ := List.append_inj' hlog rfl
    have hs : (publisher.call c).2 = some s := by
      rw [List.cons.injEq, Prod.mk.injEq] at hlast
      exact hlast.1.2
    exact ⟨low, by rw [← call_rendered hs, hlow], rfl⟩
  · rw [List.concat_eq_append] at hlog hmid
    rw [← List.cons_append, ← List.append_assoc] at hlog
    obtain ⟨hbefore, hlast⟩ := List.append_inj' hlog rfl
    obtain ⟨low', hlow', hsince⟩ := h pre c₁ s before hbefore
      (fun x hx => hmid x (List.mem_append_left _ hx)) low hlow
    have hc : c ≠ .setLowBalance none := by
      have hlast' : (c, (publisher.call c).2) = last := by simpa using hlast
      have := hmid last (by simp)
      rwa [← hlast'] at this
    obtain ⟨low'', hlow'', hsince'⟩ := call_lowBalance hc hlow'
    exact ⟨low'', hlow'', hsince'.trans hsince⟩

theorem SteadySince.call {log : PublisherLog} (h : SteadySince log) (hheld : SinceHeld log publisher)
    (c : PublisherCall) : SteadySince (log ++ [(c, (publisher.call c).2)]) := by
  intro pre c₁ s mid c₂ s' post hlog hmid low low' hlow hlow'
  rcases List.eq_nil_or_concat post with rfl | ⟨before, last, rfl⟩
  · rw [← List.cons_append, ← List.append_assoc] at hlog
    obtain ⟨hbefore, hlast⟩ := List.append_inj' hlog rfl
    have hs : (publisher.call c).2 = some s' := by
      rw [List.cons.injEq, Prod.mk.injEq] at hlast
      exact hlast.1.2
    have hc : c ≠ .setLowBalance none := by
      rintro rfl
      cases hs
    obtain ⟨held, hheld, hsince⟩ := hheld pre c₁ s mid hbefore hmid low hlow
    obtain ⟨held', hheld', hsince'⟩ := call_lowBalance hc hheld
    rw [call_rendered hs, hheld'] at hlow'
    cases hlow'
    exact (hsince'.trans hsince).symm
  · rw [List.concat_eq_append, ← List.cons_append, ← List.append_assoc, ← List.cons_append,
      ← List.append_assoc] at hlog
    refine h pre c₁ s mid c₂ s' before ?_ hmid low low' hlow hlow'
    have hbefore := (List.append_inj' hlog rfl).1
    simpa using hbefore

/-- Everything rendered so far, beginning with `first`. -/
def payloads (first : KeeperStatus) (log : PublisherLog) : List KeeperStatus :=
  first :: log.filterMap Prod.snd

/-- What holds of everything published, and of the publisher that goes on from there. -/
structure Published (first : KeeperStatus) (log : PublisherLog) (publisher : StatusPublisher) : Prop where
  beside : ∀ s ∈ payloads first log, (s.nextLobbyOpensAt ≠ none → HoldRound s.round) ∧
    (s.entriesCloseAt ≠ none → LobbyRound s.round)
  latched : Latched (payloads first log) publisher.latch
  steady : SteadyCountdown (payloads first log)
  distinct : publisher.status.keeper.wedgedRounds.Nodup
  known : ∀ s ∈ payloads first log, s.keeper.wedgedRounds <+: publisher.status.keeper.wedgedRounds
  grows : (payloads first log).Pairwise fun s s' => s.keeper.wedgedRounds <+: s'.keeper.wedgedRounds
  sinceHeld : SinceHeld log publisher
  steadySince : SteadySince log

theorem payloads_quiet {first : KeeperStatus} {log : PublisherLog} (c : PublisherCall) :
    payloads first (log ++ [(c, none)]) = payloads first log := by
  simp [payloads]

theorem payloads_rendered {first : KeeperStatus} {log : PublisherLog} (c : PublisherCall)
    (s : KeeperStatus) : payloads first (log ++ [(c, some s)]) = payloads first log ++ [s] := by
  simp [payloads]

theorem beside_render (publisher : StatusPublisher) :
    (publisher.render.status.nextLobbyOpensAt ≠ none → HoldRound publisher.render.status.round) ∧
      (publisher.render.status.entriesCloseAt ≠ none → LobbyRound publisher.render.status.round) := by
  refine ⟨fun hnext => ?_, honestEntries_some⟩
  obtain ⟨a, ha⟩ := Option.ne_none_iff_exists'.mp hnext
  obtain ⟨r, hr, hhold, -⟩ := honestNext_some ha
  exact ⟨r, hr, phase_of_hold hhold⟩

theorem Published.call {first : KeeperStatus} {log : PublisherLog} (h : Published first log publisher)
    (c : PublisherCall) : Published first (log ++ [(c, (publisher.call c).2)]) (publisher.call c).1 := by
  obtain ⟨hmore, hdistinct⟩ := call_wedged h.distinct c
  have hheld := h.sinceHeld.call c
  have hsteady := h.steadySince.call h.sinceHeld c
  rcases call_cases publisher c with ⟨hnone, hlatch⟩ | ⟨q, hlatch, hwedged, hcall⟩
  · refine ⟨?_, ?_, ?_, hdistinct, ?_, ?_, hheld, hsteady⟩
    · rw [hnone, payloads_quiet]
      exact h.beside
    · rw [hnone, payloads_quiet, hlatch]
      exact h.latched
    · rw [hnone, payloads_quiet]
      exact h.steady
    · rw [hnone, payloads_quiet]
      exact fun s hs => (h.known s hs).trans hmore
    · rw [hnone, payloads_quiet]
      exact h.grows
  · have hrendered : Latched (payloads first log ++ [q.render.status]) q.render.latch :=
      Latched.render (hlatch ▸ h.latched)
    rw [hcall] at hmore hdistinct hheld hsteady ⊢
    refine ⟨?_, ?_, ?_, hdistinct, ?_, ?_, hheld, hsteady⟩
    · rw [payloads_rendered]
      intro s hs
      rcases List.mem_append.mp hs with hs | hs
      · exact h.beside s hs
      · rw [List.mem_singleton.mp hs]
        exact beside_render q
    · rw [payloads_rendered]
      exact hrendered
    · rw [payloads_rendered]
      exact h.steady.snoc hrendered
    · rw [payloads_rendered]
      intro s hs
      rcases List.mem_append.mp hs with hs | hs
      · exact (h.known s hs).trans hmore
      · rw [List.mem_singleton.mp hs]
    · rw [payloads_rendered]
      refine List.pairwise_append.mpr ⟨h.grows, List.pairwise_singleton _ _, fun s hs s' hs' => ?_⟩
      rw [List.mem_singleton.mp hs']
      exact (h.known s hs).trans hmore

theorem published_created (options : StatusPublisherOptions) (startedAt : ℚ) :
    Published (createStatusPublisher options startedAt).status []
      (createStatusPublisher options startedAt) where
  beside s hs := by
    rw [List.mem_singleton.mp hs]
    exact ⟨absurd rfl, absurd rfl⟩
  latched pre stretch n hL _ s hs a ha := by
    have hmem : s ∈ payloads (createStatusPublisher options startedAt).status [] := by
      rw [hL]
      exact List.mem_append_right _ hs
    rw [List.mem_singleton.mp hmem] at ha
    cases ha
  steady pre stretch post n hL _ s hs s' _ a b ha _ := by
    have hmem : s ∈ payloads (createStatusPublisher options startedAt).status [] := by
      rw [hL]
      exact List.mem_append_left _ (List.mem_append_right _ hs)
    rw [List.mem_singleton.mp hmem] at ha
    cases ha
  distinct := List.nodup_nil
  known s hs := by rw [List.mem_singleton.mp hs]
  grows := List.pairwise_singleton _ _
  sinceHeld pre c s mid hlog := by simp at hlog
  steadySince pre c s mid c' s' post hlog := by simp at hlog

theorem published_run (options : StatusPublisherOptions) (startedAt : ℚ) (calls : List PublisherCall) :
    Published (createStatusPublisher options startedAt).status
      (statusPublisher.accepted (createStatusPublisher options startedAt) calls)
      (statusPublisher.run (createStatusPublisher options startedAt) calls) := by
  refine Machine.run_history (h := []) (fun log publisher c publisher' o h hstep => ?_)
    (published_created options startedAt) calls
  have hcall : publisher.call c = (publisher', o) := Except.ok.inj hstep
  have hnext := h.call c
  rwa [hcall] at hnext

/-! ## The page -/

/-- What stands behind a next-lobby countdown. -/
theorem keeperCountdown_nextLobby {s : KeeperStatus} {nowSec : ℚ} {seconds : ℤ}
    (h : keeperCountdown (some s) nowSec = .nextLobby seconds) :
    isKeeperStale s nowSec = false ∧ isKeeperStalled s nowSec = false ∧
      s.keeper.notOpeningRounds = none ∧
      ∃ opensAt, s.nextLobbyOpensAt = some opensAt ∧ seconds = secondsUntil opensAt nowSec := by
  simp only [keeperCountdown] at h
  split at h
  · cases h
  · rename_i hlive
    simp only [Bool.or_eq_true, not_or, Bool.not_eq_true] at hlive
    refine ⟨hlive.1, hlive.2, ?_⟩
    cases hround : s.round with
    | none =>
        rw [hround] at h
        cases h
    | some round =>
        rw [hround] at h
        simp only at h
        split at h
        · -- a lobby has countdowns of its own, and none to the next one
          split at h
          · cases h
          · split at h <;> split at h <;> cases h
        · split at h
          · split at h
            · cases h
            · rename_i hopening
              cases hnext : s.nextLobbyOpensAt with
              | none =>
                  rw [hnext] at h
                  cases h
              | some opensAt =>
                  rw [hnext] at h
                  simp only at h
                  split at h
                  · cases h
                  · cases h
                    exact ⟨by simpa using hopening, opensAt, rfl, rfl⟩
          · cases h

theorem secondsUntil_anti {deadline t t' : ℚ} (h : t ≤ t') :
    secondsUntil deadline t' ≤ secondsUntil deadline t := by
  have hceil : ⌈deadline - t'⌉ ≤ ⌈deadline - t⌉ := Int.ceil_le_ceil (by linarith)
  exact max_le_max_left 0 hceil

/-- Over every sequence of calls: each payload is read back as the status it was rendered from; what
stands beside what; one promise a stretch; a list of wedged rounds that only grows; one beginning for a
funding stretch. So a next-lobby countdown never jumps back, and is never drawn for a keeper that is down,
stalled, or not opening rounds. -/
theorem published_status_is_understood (options : StatusPublisherOptions) (startedAt : ℚ)
    (calls : List PublisherCall) :
    let L := rendered options startedAt calls
    (∀ s ∈ L, parseKeeperStatus (serializeKeeperStatus s) = some s) ∧
      (∀ s ∈ L, (s.nextLobbyOpensAt ≠ none → HoldRound s.round) ∧
        (s.entriesCloseAt ≠ none → LobbyRound s.round)) ∧
      SteadyCountdown L ∧
      (∀ s ∈ L, s.keeper.wedgedRounds.Nodup) ∧
      (L.Pairwise fun s s' => s.keeper.wedgedRounds <+: s'.keeper.wedgedRounds) ∧
      SteadySince (statusPublisher.accepted (createStatusPublisher options startedAt) calls) ∧
      (∀ pre stretch post n, L = pre ++ stretch ++ post → Stretch n stretch →
        ∀ s ∈ stretch, ∀ s' ∈ stretch, ∀ t t' seconds seconds', t ≤ t' →
          keeperCountdown (some s) t = .nextLobby seconds →
            keeperCountdown (some s') t' = .nextLobby seconds' → seconds' ≤ seconds) ∧
      ∀ s ∈ L, ∀ t seconds, keeperCountdown (some s) t = .nextLobby seconds →
        isKeeperStale s t = false ∧ isKeeperStalled s t = false ∧ s.keeper.notOpeningRounds = none := by
  intro L
  have h := published_run options startedAt calls
  refine ⟨fun s _ => parse_serialize s, h.beside, h.steady, fun s hs => ?_, h.grows, h.steadySince, ?_, ?_⟩
  · exact h.distinct.sublist (h.known s hs).sublist
  · intro pre stretch post n hL hstretch s hs s' hs' t t' seconds seconds' hle hcount hcount'
    obtain ⟨-, -, -, a, ha, rfl⟩ := keeperCountdown_nextLobby hcount
    obtain ⟨-, -, -, b, hb, rfl⟩ := keeperCountdown_nextLobby hcount'
    rw [h.steady pre stretch post n hL hstretch s hs s' hs' a b ha hb]
    exact secondsUntil_anti hle
  · intro s _ t seconds hcount
    obtain ⟨hstale, hstalled, hopening, -⟩ := keeperCountdown_nextLobby hcount
    exact ⟨hstale, hstalled, hopening⟩

/-! ## A promise outlives its keeper's stop -/

def settledRound : KeeperRoundStatus where
  no := 7
  pda := "7xKX"
  phase := "Settled"
  phaseCode := 3
  lobbyOpenedAt := 0
  lobbyClosesAt := 60
  fightStartedAt := 70
  fighterCount := 2
  heldOpen := false
  winner := 1
  pot := "200"
  named := rfl
  pot_u64 := by decide

/-- A time latched for a round stays in the payload after the keeper has withdrawn it and said why no
further round is coming. -/
theorem latched_promise_survives_the_stop :
    ¬ ∀ (options : StatusPublisherOptions) (startedAt : ℚ) (calls : List PublisherCall),
      ∀ s ∈ rendered options startedAt calls,
        s.keeper.notOpeningRounds ≠ none → s.nextLobbyOpensAt = none := by
  intro h
  have hstands : ∃ s ∈ rendered ⟨"program", "arena", false, 2, 15⟩ 100
      [.setRound (some settledRound), .setNextLobbyOpensAt (some 112), .publish,
        .setNextLobbyOpensAt none, .setNotOpeningRounds (some .lowBalance), .publish],
      s.keeper.notOpeningRounds ≠ none ∧ s.nextLobbyOpensAt ≠ none := by decide +kernel
  obtain ⟨s, hs, hstopped, hpromised⟩ := hstands
  exact hpromised (h _ _ _ s hs hstopped)

end BullsUnicorns.Keeper

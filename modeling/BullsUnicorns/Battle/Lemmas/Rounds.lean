import BullsUnicorns.Battle.Lemmas.Canon
import BullsUnicorns.Lib.Machine

/-!
# Runs of the round runners

A runner serves calls of `enter` and `tick` in any order, and the calls of `tick` that wait for a settlement
go on when it is done. Beside the runner a record is kept of what was drawn, accepted and settled.
-/

namespace BullsUnicorns.Battle

/-! ## Runs -/

inductive RoundEvent (S : Type) where
  | enter (id : String) (slot : S) (stake : ℚ)
  | tick (now : ℚ) (d : Draw)
  /-- The settlement that the `i`th waiting call awaits is done, or has failed. -/
  | resume (i : ℕ) (d : Draw)
  | reject (i : ℕ)

/-- A runner, the rounds that calls of `tick` wait for, and the record. -/
structure Served (E R S : Type) where
  runner : Runner E R
  waiting : List ℕ
  /-- The value drawn when the lobby opened. -/
  drawn : String
  /-- What was accepted since then. -/
  accepted : List (String × S × ℚ)
  /-- The entries when the lobby was left. -/
  left : List E
  /-- The rounds that `onSettle` was called for. -/
  settled : List ℕ

section
variable {E R S : Type} [DecidableEq S] (p : Platform) (env : RoundEnv) (c : RunnerClass E R S)

/-- A fresh lobby, and a record that starts again but for the settlements. -/
def opened (round : ℕ) (d : Draw) (waiting settled : List ℕ) : Served E R S :=
  { runner := freshLobby p env round d, waiting, drawn := d.secret, accepted := [], left := [], settled }

def serve (w : Served E R S) : RoundEvent S → Except Unit (Served E R S × Option Bool)
  | .enter id slot stake =>
    let (entered, runner) := enter c w.runner id slot stake
    .ok ({ w with runner, accepted := if entered then w.accepted ++ [(id, slot, stake)] else w.accepted }, some entered)
  | .tick now d =>
    let s := w.runner.state
    match tick p env c w.runner now d with
    | (runner, .returns true) =>
      .ok ({ w with runner, drawn := d.secret, accepted := [], left := [] }, some true)
    | (runner, .returns false) =>
      let left := if s.phase = .lobby ∧ runner.state.phase = .battle then s.entries else w.left
      .ok ({ w with runner, left }, some false)
    | (runner, .awaits _) =>
      .ok ({ w with runner, waiting := w.waiting ++ [s.round], settled := w.settled ++ [s.round] }, none)
  | .resume i d =>
    match w.waiting[i]? with
    | some round => .ok (opened p env (round + 1) d (w.waiting.eraseIdx i) w.settled, some true)
    | none => .error ()
  | .reject i =>
    match w.waiting[i]? with
    | some _ => .ok ({ w with waiting := w.waiting.eraseIdx i }, none)
    | none => .error ()

def rounds : Machine (Served E R S) (RoundEvent S) (Option Bool) Unit := ⟨serve p env c⟩

/-- A new runner. -/
def constructed (startRound : ℕ) (d : Draw) : Served E R S := opened p env startRound d [] []

/-! ## What a run keeps -/

/-- Entries that hold each accepted stake, merged by id and side. -/
structure Merged (accepted : List (String × S × ℚ)) (entries : List E) : Prop where
  once : (entries.map fun e => (c.id e, c.slot e)).Nodup
  mem : ∀ id slot, (id, slot) ∈ entries.map (fun e => (c.id e, c.slot e)) ↔
    (id, slot) ∈ accepted.map (fun a => (a.1, a.2.1))
  stakes : ∀ id slot, ((entries.filter fun e => c.id e = id ∧ c.slot e = slot).map c.stake).sum =
    ((accepted.filter fun a => a.1 = id ∧ a.2.1 = slot).map (·.2.2)).sum

/-- What holds of runner and record at any time. -/
structure Kept (startRound : ℕ) (w : Served E R S) : Prop where
  published : w.runner.state.seedHashPublished = p.sha256 w.drawn
  secret : w.runner.secret = w.drawn
  merged : Merged c w.accepted w.runner.state.entries
  hidden : w.runner.state.phase = .lobby → w.runner.state.seed = none ∧ w.runner.state.secretRevealed = none
  fought : w.runner.state.phase ≠ .lobby →
    w.runner.state.entries = w.left ∧ w.runner.state.secretRevealed = c.secretRevealed w.drawn ∧
      w.runner.state.seed = some (c.seedOf w.drawn w.left) ∧
      w.runner.state.result = some (c.fight (c.seedOf w.drawn w.left) w.left w.runner.state.multiplier)
  started : startRound ≤ w.runner.state.round
  settled : w.settled = List.range' startRound
    (w.runner.state.round - startRound + if w.runner.state.phase = .settle then 1 else 0)
  waiting : w.waiting = [] ∨ (w.runner.state.phase = .settle ∧ w.waiting = [w.runner.state.round])

end

section
variable {E R S : Type} [DecidableEq S] {p : Platform} {env : RoundEnv} {c : RunnerClass E R S}

omit [DecidableEq S] in
theorem parts_new (id : String) (slot : S) (stake : ℚ) :
    c.id (c.parts.symm (id, slot, stake)) = id ∧ c.slot (c.parts.symm (id, slot, stake)) = slot ∧
      c.stake (c.parts.symm (id, slot, stake)) = stake := by
  simp [RunnerClass.id, RunnerClass.slot, RunnerClass.stake]

theorem place_keys (id : String) (slot : S) (stake : ℚ) (es : List E) :
    (place c id slot stake es).map (fun e => (c.id e, c.slot e)) =
      if (id, slot) ∈ es.map (fun e => (c.id e, c.slot e)) then es.map fun e => (c.id e, c.slot e)
      else es.map (fun e => (c.id e, c.slot e)) ++ [(id, slot)] := by
  obtain ⟨hid, hslot, -⟩ := parts_new (c := c) id slot stake
  induction es with
  | nil => simp [place, hid, hslot]
  | cons e es ih =>
      by_cases he : c.id e = id ∧ c.slot e = slot
      · obtain ⟨hid', hslot', -⟩ := parts_new (c := c) id slot (c.stake e + stake)
        have hplace : place c id slot stake (e :: es) = c.parts.symm (id, slot, c.stake e + stake) :: es := if_pos he
        rw [hplace, if_pos (by simp [he.1, he.2])]
        simp [hid', hslot', he.1, he.2]
      · have hplace : place c id slot stake (e :: es) = e :: place c id slot stake es := if_neg he
        have hne : ¬((id, slot) = (c.id e, c.slot e)) := fun h => he ⟨(Prod.mk.inj h).1.symm, (Prod.mk.inj h).2.symm⟩
        rw [hplace, List.map_cons, ih, List.map_cons]
        simp only [List.mem_cons, hne, false_or]
        split <;> rfl

theorem place_stakes (id : String) (slot : S) (stake : ℚ) (es : List E) (i : String) (s : S) :
    (((place c id slot stake es).filter fun e => c.id e = i ∧ c.slot e = s).map c.stake).sum =
      ((es.filter fun e => c.id e = i ∧ c.slot e = s).map c.stake).sum + if id = i ∧ slot = s then stake else 0 := by
  induction es with
  | nil =>
      obtain ⟨hid, hslot, hstake⟩ := parts_new (c := c) id slot stake
      have hplace : place c id slot stake [] = [c.parts.symm (id, slot, stake)] := rfl
      rw [hplace]
      generalize c.parts.symm (id, slot, stake) = new at hid hslot hstake
      by_cases h : id = i ∧ slot = s
      · simp [hid, hslot, hstake, h.1, h.2]
      · simp [hid, hslot, h]
  | cons e es ih =>
      by_cases he : c.id e = id ∧ c.slot e = slot
      · obtain ⟨hid, hslot, hstake⟩ := parts_new (c := c) id slot (c.stake e + stake)
        have hplace : place c id slot stake (e :: es) = c.parts.symm (id, slot, c.stake e + stake) :: es := if_pos he
        rw [hplace]
        generalize c.parts.symm (id, slot, c.stake e + stake) = topped at hid hslot hstake
        by_cases h : id = i ∧ slot = s
        · simp only [List.filter_cons, hid, hslot, he.1, he.2, h.1, h.2, and_self, decide_true, if_true, List.map_cons,
            List.sum_cons, hstake]
          ring
        · simp [hid, hslot, he.1, he.2, h]
      · have hplace : place c id slot stake (e :: es) = e :: place c id slot stake es := if_neg he
        rw [hplace, List.filter_cons, List.filter_cons]
        split
        · rw [List.map_cons, List.sum_cons, ih, List.map_cons, List.sum_cons, add_assoc]
        · exact ih

theorem Merged.nil : Merged c [] ([] : List E) := ⟨List.nodup_nil, by simp, by simp⟩

/-- One more stake. -/
theorem Merged.place {accepted : List (String × S × ℚ)} {es : List E} (h : Merged c accepted es) (id : String)
    (slot : S) (stake : ℚ) : Merged c (accepted ++ [(id, slot, stake)]) (place c id slot stake es) where
  once := by
    rw [place_keys]
    split
    · exact h.once
    · next hnew =>
        refine List.nodup_append.mpr ⟨h.once, List.nodup_singleton _, ?_⟩
        intro a ha b hb hab
        rw [List.mem_singleton] at hb
        rw [hab, hb] at ha
        exact hnew ha
  mem i s := by
    have hmem := h.mem i s
    rw [place_keys]
    split
    · next hold =>
        have hseen := (h.mem id slot).mp hold
        rw [hmem, List.map_append, List.mem_append]
        refine ⟨.inl, fun h => h.elim (fun h => h) fun h => ?_⟩
        rw [List.map_singleton, List.mem_singleton] at h
        rwa [h]
    · rw [List.mem_append, List.map_append, List.mem_append, hmem, List.map_singleton]
  stakes i s := by
    rw [place_stakes, h.stakes, List.filter_append, List.map_append, List.sum_append]
    by_cases his : id = i ∧ slot = s
    · simp [his]
    · simp [his]

/-! ## One step -/

theorem opened_kept {startRound round : ℕ} {d : Draw} {waiting settled : List ℕ} (hstart : startRound ≤ round)
    (hsettled : settled = List.range' startRound (round - startRound)) (hwaiting : waiting = []) :
    Kept p c startRound (opened p env round d waiting settled : Served E R S) where
  published := rfl
  secret := rfl
  merged := Merged.nil
  hidden _ := ⟨rfl, rfl⟩
  fought h := absurd rfl h
  started := hstart
  settled := hsettled
  waiting := .inl hwaiting

/-- After the lobby no stake is taken. -/
theorem enter_locked {r : Runner E R} (h : r.state.phase ≠ .lobby) (id : String) (slot : S) (stake : ℚ) :
    enter c r id slot stake = (false, r) := if_pos h

theorem enter_kept {startRound : ℕ} {w : Served E R S} (h : Kept p c startRound w) (id : String) (slot : S)
    (stake : ℚ) {w' : Served E R S} {o : Option Bool} (hs : serve p env c w (.enter id slot stake) = .ok (w', o)) :
    Kept p c startRound w' := by
  by_cases hlobby : w.runner.state.phase = .lobby
  · have henter : enter c w.runner id slot stake = (true, { w.runner with
        state := { w.runner.state with entries := place c id slot stake w.runner.state.entries } }) :=
      if_neg (not_not.mpr hlobby)
    simp only [serve, henter, if_true, Except.ok.injEq, Prod.mk.injEq] at hs
    obtain ⟨rfl, -⟩ := hs
    exact {
      published := h.published
      secret := h.secret
      merged := h.merged.place id slot stake
      hidden := h.hidden
      fought := fun hne => absurd hlobby hne
      started := h.started
      settled := h.settled
      waiting := h.waiting }
  · simp only [serve, enter_locked hlobby, Bool.false_eq_true, if_false, Except.ok.injEq, Prod.mk.injEq] at hs
    obtain ⟨rfl, -⟩ := hs
    exact h

/-- What a call of `tick` can do: leave the lobby, leave the battle for the settlement, or nothing. -/
theorem tick_cases {startRound : ℕ} {w : Served E R S} (h : Kept p c startRound w) (now : ℚ) (d : Draw)
    {w' : Served E R S} {o : Option Bool} (hs : serve p env c w (.tick now d) = .ok (w', o)) :
    (w.runner.state.phase = .lobby ∧ ∃ ms, w' = { w with
      left := w.runner.state.entries
      runner := { w.runner with state := { w.runner.state with
        phase := .battle, seed := some (c.seedOf w.drawn w.runner.state.entries)
        secretRevealed := c.secretRevealed w.drawn
        result := some (c.fight (c.seedOf w.drawn w.runner.state.entries) w.runner.state.entries w.runner.state.multiplier)
        battleMs := some ms, closesAt := now + ms } } }) ∨
    (w.runner.state.phase = .battle ∧ w' = { w with
      runner := { w.runner with state := { w.runner.state with phase := .settle } }
      waiting := w.waiting ++ [w.runner.state.round], settled := w.settled ++ [w.runner.state.round] }) ∨
    w' = w := by
  by_cases hopen : w.runner.state.phase = .lobby ∧ w.runner.state.closesAt ≤ now
  · left
    obtain ⟨ms, htick⟩ := tick_leaves p env c d hopen
    simp only [serve, htick, hopen.1, and_self, if_true, Except.ok.injEq, Prod.mk.injEq] at hs
    obtain ⟨rfl, -⟩ := hs
    refine ⟨hopen.1, ms, ?_⟩
    rw [← h.secret]
  right
  by_cases hover : w.runner.state.phase = .battle ∧ w.runner.state.closesAt ≤ now
  · left
    obtain ⟨-, -, -, hresult⟩ := h.fought (by rw [hover.1]; decide)
    simp only [serve, tick_settles p env c d hover hresult, Except.ok.injEq, Prod.mk.injEq] at hs
    obtain ⟨rfl, -⟩ := hs
    exact ⟨hover.1, rfl⟩
  · right
    have hleft : ¬(w.runner.state.phase = .lobby ∧ w.runner.state.phase = .battle) := by
      rintro ⟨hl, hb⟩
      rw [hl] at hb
      cases hb
    simp only [serve, tick_idle p env c d hopen hover, if_neg hleft, Except.ok.injEq, Prod.mk.injEq] at hs
    exact hs.1.symm

theorem tick_kept {startRound : ℕ} {w : Served E R S} (h : Kept p c startRound w) (now : ℚ) (d : Draw)
    {w' : Served E R S} {o : Option Bool} (hs : serve p env c w (.tick now d) = .ok (w', o)) :
    Kept p c startRound w' := by
  obtain ⟨hphase, ms, rfl⟩ | ⟨hphase, rfl⟩ | rfl := tick_cases h now d hs
  · exact {
      published := h.published
      secret := h.secret
      merged := h.merged
      hidden := fun hl => by cases hl
      fought := fun _ => ⟨rfl, rfl, rfl, rfl⟩
      started := h.started
      settled := by
        have hold := h.settled
        rw [hphase] at hold
        exact hold
      waiting := by
        obtain hnone | ⟨hsettle, -⟩ := h.waiting
        · exact .inl hnone
        · rw [hphase] at hsettle
          cases hsettle }
  · have hfought := h.fought (by rw [hphase]; decide)
    have hnone : w.waiting = [] := by
      obtain hnone | ⟨hsettle, -⟩ := h.waiting
      · exact hnone
      · rw [hphase] at hsettle
        cases hsettle
    have hsettled := h.settled
    rw [hphase, if_neg (by decide), add_zero] at hsettled
    exact {
      published := h.published
      secret := h.secret
      merged := h.merged
      hidden := fun hl => by cases hl
      fought := fun _ => hfought
      started := h.started
      settled := by
        have hround : startRound + (w.runner.state.round - startRound) = w.runner.state.round :=
          Nat.add_sub_cancel' h.started
        change w.settled ++ [w.runner.state.round] = _
        rw [if_pos rfl, List.range'_concat, one_mul, hround, ← hsettled]
      waiting := .inr ⟨rfl, by rw [hnone, List.nil_append]⟩ }
  · exact h

theorem resume_kept {startRound : ℕ} {w : Served E R S} (h : Kept p c startRound w) (i : ℕ) (d : Draw)
    {w' : Served E R S} {o : Option Bool} (hs : serve p env c w (.resume i d) = .ok (w', o)) :
    Kept p c startRound w' := by
  simp only [serve] at hs
  split at hs
  · next round hround =>
      simp only [Except.ok.injEq, Prod.mk.injEq] at hs
      obtain ⟨rfl, -⟩ := hs
      obtain hnone | ⟨hsettle, hone⟩ := h.waiting
      · rw [hnone] at hround
        cases hround
      · -- only the one call can be waiting
        rw [hone, List.getElem?_singleton] at hround
        split at hround
        · next hi =>
            obtain rfl := Option.some.inj hround
            subst hi
            refine opened_kept (Nat.le_succ_of_le h.started) ?_ (by rw [hone]; rfl)
            rw [h.settled, if_pos hsettle, Nat.sub_add_comm h.started]
        · cases hround
  · cases hs

theorem reject_kept {startRound : ℕ} {w : Served E R S} (h : Kept p c startRound w) (i : ℕ)
    {w' : Served E R S} {o : Option Bool} (hs : serve p env c w (.reject i) = .ok (w', o)) :
    Kept p c startRound w' := by
  simp only [serve] at hs
  split at hs
  · next round hround =>
      simp only [Except.ok.injEq, Prod.mk.injEq] at hs
      obtain ⟨rfl, -⟩ := hs
      refine { h with waiting := .inl ?_ }
      obtain hnone | ⟨-, hone⟩ := h.waiting
      · rw [hnone] at hround
        cases hround
      · rw [hone, List.getElem?_singleton] at hround
        split at hround
        · next hi =>
            subst hi
            rw [hone]
            rfl
        · cases hround
  · cases hs

theorem serve_kept {startRound : ℕ} {w w' : Served E R S} {e : RoundEvent S} {o : Option Bool}
    (h : Kept p c startRound w) (hs : serve p env c w e = .ok (w', o)) : Kept p c startRound w' := by
  cases e with
  | enter id slot stake => exact enter_kept h id slot stake hs
  | tick now d => exact tick_kept h now d hs
  | resume i d => exact resume_kept h i d hs
  | reject i => exact reject_kept h i hs

variable (p env c) in
/-- What every run of a runner keeps. -/
theorem run_kept (startRound : ℕ) (d : Draw) (events : List (RoundEvent S)) :
    Kept p c startRound ((rounds p env c).run (constructed p env startRound d : Served E R S) events) := by
  have hstart : Kept p c startRound (constructed p env startRound d : Served E R S) :=
    opened_kept (le_refl startRound) (by rw [Nat.sub_self, List.range'_zero]) rfl
  refine Machine.run_invariant (m := rounds p env c) (fun w e w' o h hs => ?_) hstart events
  exact serve_kept h (show serve p env c w e = .ok (w', o) from hs)

end

end BullsUnicorns.Battle

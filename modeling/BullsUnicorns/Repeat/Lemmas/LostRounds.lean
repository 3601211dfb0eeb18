import BullsUnicorns.Repeat.LostRounds
import BullsUnicorns.Repeat.Lemmas.Known

/-!
# What has been said of the rounds so far

Which transition writes a round off, and what holds of the record, the tally and the notes together
where no round is dropped unfinished.
-/

namespace BullsUnicorns.Repeat

/-! ## The notes -/

@[simp]
theorem lostRounds_append (l l' : List Note) : lostRounds (l ++ l') = lostRounds l ++ lostRounds l' :=
  List.filterMap_append

@[simp]
theorem lostRounds_landedNotes (state : AutoDeployState) : lostRounds (landedNotes state) = [] := by
  simp only [lostRounds, landedNotes, List.filterMap_map, List.filterMap_eq_nil_iff]
  intro attempt _
  rfl

@[simp]
theorem missedRounds_armed (notes : List Note) : missedRounds (notes ++ [.armed]) = [] := by
  simp [missedRounds]

@[simp]
theorem missedRounds_lost (notes : List Note) (r : ℤ) (text : String) :
    missedRounds (notes ++ [.lost r text]) = r :: missedRounds notes := by
  simp [missedRounds]

@[simp]
theorem missedRounds_entered (notes : List Note) (r : ℤ) :
    missedRounds (notes ++ [.entered r]) = (missedRounds notes).filter (· ≠ r) := by
  simp [missedRounds]

@[simp]
theorem missedRounds_began (notes : List Note) (r : ℤ) : missedRounds (notes ++ [.began r]) = missedRounds notes := by
  simp [missedRounds]

@[simp]
theorem missedRounds_landedNotes (notes : List Note) (state : AutoDeployState) :
    missedRounds (notes ++ landedNotes state) = missedRounds notes := by
  unfold landedNotes
  cases state.attempt.filter (·.outcome = .landed) with
  | none => simp
  | some attempt => simp [missedRounds]

/-- A round that counts as missed was reported, as often. -/
theorem count_missedRounds_le (notes : List Note) (r : ℤ) :
    (missedRounds notes).count r ≤ (lostRounds notes).count r := by
  induction notes using List.reverseRecOn with
  | nil => exact Nat.zero_le _
  | append_singleton notes note ih =>
      rw [lostRounds_append, List.count_append]
      cases note with
      | armed => simp
      | began q => simpa using ih.trans (Nat.le_add_right _ _)
      | landed q =>
          rw [show missedRounds (notes ++ [.landed q]) = missedRounds notes by simp [missedRounds]]
          exact ih.trans (Nat.le_add_right _ _)
      | entered q =>
          rw [missedRounds_entered]
          exact ((List.filter_sublist.count_le r).trans ih).trans (Nat.le_add_right _ _)
      | lost q text =>
          rw [missedRounds_lost, show lostRounds [.lost q text] = [q] from rfl, List.count_cons, List.count_singleton]
          exact Nat.add_le_add_right ih _

theorem mem_landedNotes {state : AutoDeployState} {a : AutoDeployAttempt} (ha : state.attempt = some a)
    (hlanded : a.outcome = .landed) : Note.landed a.roundNo ∈ landedNotes state := by
  simp [landedNotes, ha, Option.filter, hlanded]

/-! ## Which round a transition writes off -/

variable {state state' : AutoDeployState} {notes : List Note} {newest newest' : Option ℤ} {r : ℤ}

/-- The rule is done with the round of its record. -/
def AutoDeployState.doneWith (state : AutoDeployState) (r : ℤ) : Prop :=
  ∃ a, state.attempt = some a ∧ a.roundNo = r ∧ (a.outcome = .landed ∨ a.outcome = .abandoned)

theorem lostRound_same (h : state'.attempt = state.attempt) : lostRound state state' = none := by
  unfold lostRound
  rw [h]
  cases hb : state.attempt with
  | none => rfl
  | some b => simp

theorem lostRound_kept {b : AutoDeployAttempt} (hb : state'.attempt = some b) (hkept : b.outcome ≠ .abandoned) :
    lostRound state state' = none := by
  simp [lostRound, hb, hkept]

/-- The record may pass to a round: what it says of an older one is final, and of the round itself it is not. -/
def Passes (state : AutoDeployState) (r : ℤ) : Prop :=
  ∀ a, state.attempt = some a →
    a.roundNo < r ∧ (a.outcome = .landed ∨ a.outcome = .abandoned) ∨
      a.roundNo = r ∧ (a.outcome = .sending ∨ a.outcome = .retrying)

theorem Passes.works (h : Passes state r) {q : ℤ} (hq : state.worksOn q) : q = r := by
  obtain ⟨a, ha, rfl, hunder⟩ := hq
  rcases h a ha with ⟨_, hover⟩ | ⟨hr, _⟩
  · rcases hunder with hs | hs <;> simp [hs] at hover
  · exact hr

theorem Passes.done (h : Passes state r) {q : ℤ} (hq : state.doneWith q) : q < r := by
  obtain ⟨a, ha, rfl, hover⟩ := hq
  rcases h a ha with ⟨hlt, _⟩ | ⟨_, hunder⟩
  · exact hlt
  · rcases hover with hs | hs <;> simp [hs] at hunder

theorem Passes.le (h : Passes state r) {a : AutoDeployAttempt} (ha : state.attempt = some a) : a.roundNo ≤ r := by
  rcases h a ha with ⟨hlt, _⟩ | ⟨heq, _⟩
  · exact hlt.le
  · exact heq.le

/-- Abandoning a round that the record may pass to is reported. -/
theorem losing_abandon (h : Passes state r) {b : AutoDeployAttempt} (hb : state'.attempt = some b)
    (hr : b.roundNo = r) (hgone : b.outcome = .abandoned) :
    losing state state' = [.lost r (lostRoundText b)] := by
  have hlost : lostRound state state' = some b := by
    have hnew : ¬ state.attempt.any (fun prior => prior.roundNo = b.roundNo ∧ prior.outcome = .abandoned) = true := by
      intro hany
      obtain ⟨a, ha, hsame, habandoned⟩ :
          ∃ a, state.attempt = some a ∧ a.roundNo = b.roundNo ∧ a.outcome = .abandoned := by
        simpa [Option.any_eq_true] using hany
      have hlt := h.done ⟨a, ha, hsame.trans hr, .inr habandoned⟩
      exact lt_irrefl r hlt
    simp only [lostRound, hb, hgone, ne_eq, not_true_eq_false, if_false, if_neg hnew]
  rw [losing, hlost]
  simp [hr]

/-! ## What has been said -/

structure Heard (state : AutoDeployState) (notes : List Note) (newest : Option ℤ) : Prop where
  told : ∀ r, .began r ∈ notes → state.worksOn r ∨ .landed r ∈ notes ∨ r ∈ lostRounds notes
  fresh : ∀ r, state.worksOn r → r ∉ lostRounds notes
  seen : ∀ r ∈ lostRounds notes, Seen newest r
  /-- A reported round is not worked on again. -/
  shut : ∀ r ∈ lostRounds notes, newest = some r → (∃ f, state.floorRound = some f ∧ r ≤ f) ∨ state.doneWith r
  once : (lostRounds notes).Nodup
  tally : ∀ q, state.tally.lastRound = some q → (∃ a, state.attempt = some a ∧ q < a.roundNo) ∨ state.doneWith q
  missed : state.tally.missed = (missedRounds notes).length

namespace Heard

theorem initial : Heard INITIAL_AUTO_DEPLOY [] none := by
  constructor <;> simp [INITIAL_AUTO_DEPLOY, EMPTY_TALLY, lostRounds, missedRounds]

/-- The target goes on. -/
theorem target (h : Heard state notes newest) (hnew : ∀ t, newest = some t → ∃ t', newest' = some t' ∧ t ≤ t') :
    Heard state notes newest' := by
  constructor
  case told => exact h.told
  case fresh => exact h.fresh
  case seen => exact fun r hr => (h.seen r hr).mono hnew
  case shut =>
    intro r hr hnewest
    obtain ⟨t, ht, hle⟩ := h.seen r hr
    obtain ⟨t', ht', hle'⟩ := hnew t ht
    rw [hnewest] at ht'
    cases ht'
    rw [le_antisymm hle hle'] at hr ⊢
    exact h.shut t hr ht
  case once => exact h.once
  case tally => exact h.tally
  case missed => exact h.missed

theorem frame (h : Heard state notes newest) (hattempt : state'.attempt = state.attempt)
    (hfloor : state'.floorRound = state.floorRound) (htally : state'.tally = state.tally) :
    Heard state' notes newest := by
  have hworks (q : ℤ) : state'.worksOn q ↔ state.worksOn q := by simp [AutoDeployState.worksOn, hattempt]
  have hdone (q : ℤ) : state'.doneWith q ↔ state.doneWith q := by simp [AutoDeployState.doneWith, hattempt]
  constructor
  case told => simpa only [hworks] using h.told
  case fresh => simpa only [hworks] using h.fresh
  case seen => exact h.seen
  case shut => simpa only [hfloor, hdone] using h.shut
  case once => exact h.once
  case tally => simpa only [htally, hattempt, hdone] using h.tally
  case missed => exact htally ▸ h.missed

/-- Noting that a deposit has landed says nothing of a loss. -/
theorem landed (h : Heard state notes newest) (state' : AutoDeployState) :
    Heard state (notes ++ landedNotes state') newest := by
  have hlost : lostRounds (notes ++ landedNotes state') = lostRounds notes := by simp
  constructor
  case told =>
    intro r hr
    have hbegan : Note.began r ∈ notes := by
      rcases List.mem_append.mp hr with hr | hr
      · exact hr
      · simp [landedNotes] at hr
    rw [hlost]
    rcases h.told r hbegan with hworks | hlanded | hmem
    · exact .inl hworks
    · exact .inr (.inl (List.mem_append_left _ hlanded))
    · exact .inr (.inr hmem)
  case fresh => exact hlost ▸ h.fresh
  case seen => exact hlost ▸ h.seen
  case shut => exact hlost ▸ h.shut
  case once => exact hlost ▸ h.once
  case tally => exact h.tally
  case missed => simpa using h.missed

/-- A round that is accounted for is noted as begun. -/
theorem began (h : Heard state notes newest)
    (hr : state.worksOn r ∨ r ∈ lostRounds notes) : Heard state (notes ++ [.began r]) newest := by
  have hlost : lostRounds (notes ++ [.began r]) = lostRounds notes := by simp [lostRounds]
  constructor
  case told =>
    intro q hq
    rw [hlost]
    rcases List.mem_append.mp hq with hq | hq
    · rcases h.told q hq with hworks | hlanded | hmem
      · exact .inl hworks
      · exact .inr (.inl (List.mem_append_left _ hlanded))
      · exact .inr (.inr hmem)
    · obtain rfl : q = r := by simpa using hq
      rcases hr with hworks | hmem
      · exact .inl hworks
      · exact .inr (.inr hmem)
  case fresh => exact hlost ▸ h.fresh
  case seen => exact hlost ▸ h.seen
  case shut => exact hlost ▸ h.shut
  case once => exact hlost ▸ h.once
  case tally => exact h.tally
  case missed => simpa using h.missed

/-- Every round that the tally knows is older than one that the record may pass to. -/
theorem lastRound_lt (h : Heard state notes newest) (hpass : Passes state r) :
    ∀ q, state.tally.lastRound = some q → q < r := by
  intro q hq
  rcases h.tally q hq with ⟨a, ha, hlt⟩ | hdone
  · exact hlt.trans_le (hpass.le ha)
  · exact hpass.done hdone

/-- A reported round that is the newest is kept from the rule by its floor where the record may pass on. -/
theorem not_newest (h : Heard state notes newest) (hpass : Passes state r) (hseen : Seen newest r)
    {q : ℤ} (hq : q ∈ lostRounds notes) (hnewest : newest = some q) : ∃ f, state.floorRound = some f ∧ q ≤ f := by
  obtain ⟨t, ht, hle⟩ := hseen
  rw [hnewest] at ht
  cases ht
  rcases h.shut q hq hnewest with hf | hdone
  · exact hf
  · exact absurd (hpass.done hdone) (not_lt.mpr hle)

/-- A round is written off, and reported. -/
theorem lose (h : Heard state notes newest) (hpass : Passes state r) (hseen : Seen newest r)
    (hfresh : r ∉ lostRounds notes) (reason : AbandonReason) :
    Heard (abandonAttempt state r reason) (notes ++ losing state (abandonAttempt state r reason)) newest := by
  obtain ⟨b, hb, hround, hgone⟩ := abandonAttempt_attempt state r reason
  rw [losing_abandon hpass hb hround hgone]
  have hlost : lostRounds (notes ++ [.lost r (lostRoundText b)]) = lostRounds notes ++ [r] := lostRounds_append _ _
  have hdone : (abandonAttempt state r reason).doneWith r := ⟨b, hb, hround, .inr hgone⟩
  have hlast : ¬ state.tally.lastRound.any (r ≤ ·) = true := by
    intro hany
    obtain ⟨q, hq, hle⟩ : ∃ q, state.tally.lastRound = some q ∧ r ≤ q := by simpa [Option.any_eq_true] using hany
    exact absurd (h.lastRound_lt hpass q hq) hle.not_gt
  have htally : (abandonAttempt state r reason).tally = tallyMissed state.tally r := rfl
  simp only [tallyMissed, if_neg hlast] at htally
  constructor
  case told =>
    intro q hq
    rw [hlost]
    have hbegan : Note.began q ∈ notes := by simpa using hq
    rcases h.told q hbegan with hworks | hlanded | hmem
    · exact .inr (.inr (by simp [hpass.works hworks]))
    · exact .inr (.inl (List.mem_append_left _ hlanded))
    · exact .inr (.inr (List.mem_append_left _ hmem))
  case fresh =>
    rintro q ⟨c, hc, _, hunder⟩
    rw [hb] at hc
    cases hc
    simp [hgone] at hunder
  case seen =>
    intro q hq
    rw [hlost] at hq
    rcases List.mem_append.mp hq with hq | hq
    · exact h.seen q hq
    · rw [List.mem_singleton.mp hq]
      exact hseen
  case shut =>
    intro q hq hnewest
    by_cases hqr : q = r
    · exact .inr (hqr ▸ hdone)
    · have hold : q ∈ lostRounds notes := by simpa [hlost, hqr] using hq
      exact .inl (h.not_newest hpass hseen hold hnewest)
  case once =>
    rw [hlost]
    have hnew : ∀ q ∈ lostRounds notes, q ≠ r := fun q hq hqr => hfresh (hqr ▸ hq)
    exact List.nodup_append.mpr ⟨h.once, List.nodup_singleton r, by simpa using hnew⟩
  case tally =>
    intro q hq
    rw [htally] at hq
    cases hq
    exact .inr hdone
  case missed =>
    rw [htally, missedRounds_lost, List.length_cons, h.missed]
    simp

/-- A deposit into the targeted round is begun. -/
theorem begin (h : Heard state notes newest) (hpass : Passes state r) (hnewest : newest = some r)
    (hfresh : r ∉ lostRounds notes) : Heard (beginAttempt state r) (notes ++ [.began r]) newest := by
  obtain ⟨b, hb, hround, hsending, _⟩ := beginAttempt_attempt state r
  have hworks : (beginAttempt state r).worksOn r := ⟨b, hb, hround, .inl hsending⟩
  refine began ?_ (.inl hworks)
  constructor
  case told =>
    intro q hq
    rcases h.told q hq with hw | hrest
    · exact .inl (hpass.works hw ▸ hworks)
    · exact .inr hrest
  case fresh =>
    rintro q ⟨c, hc, rfl, _⟩
    rw [hb] at hc
    cases hc
    rwa [hround]
  case seen => exact h.seen
  case shut =>
    intro q hq hq'
    rw [hnewest] at hq'
    cases hq'
    exact absurd hq hfresh
  case once => exact h.once
  case tally =>
    intro q hq
    exact .inl ⟨b, hb, hround ▸ h.lastRound_lt hpass q hq⟩
  case missed => exact h.missed

/-- A failed deposit is to be tried again. -/
theorem retry (h : Heard state notes newest) (hworks : state.worksOn r) {b : AutoDeployAttempt}
    (hround : b.roundNo = r) (hretrying : b.outcome = .retrying) :
    Heard { state with attempt := some b } notes newest := by
  have hsame (q : ℤ) (hq : state.worksOn q) : q = r := by
    obtain ⟨a, ha, rfl, _⟩ := hq
    obtain ⟨a', ha', hr, _⟩ := hworks
    rw [ha] at ha'
    cases ha'
    exact hr
  have hnot (q : ℤ) : ¬ state.doneWith q := by
    rintro ⟨a, ha, _, hover⟩
    obtain ⟨a', ha', _, hunder⟩ := hworks
    rw [ha] at ha'
    cases ha'
    rcases hunder with hs | hs <;> simp [hs] at hover
  constructor
  case told =>
    intro q hq
    rcases h.told q hq with hw | hrest
    · exact .inl ⟨b, rfl, hround.trans (hsame q hw).symm, .inr hretrying⟩
    · exact .inr hrest
  case fresh =>
    rintro q ⟨c, hc, rfl, _⟩
    cases hc
    exact hround ▸ h.fresh r hworks
  case seen => exact h.seen
  case shut =>
    intro q hq hnewest
    exact .inl ((h.shut q hq hnewest).resolve_right (hnot q))
  case once => exact h.once
  case tally =>
    intro q hq
    obtain ⟨a, ha, hlt⟩ := (h.tally q hq).resolve_right (hnot q)
    obtain ⟨a', ha', hr, _⟩ := hworks
    rw [ha] at ha'
    cases ha'
    exact .inl ⟨b, rfl, by rwa [hround, ← hr]⟩
  case missed => exact h.missed

/-- A deposit into a round that is not over, or is written off, is recorded as landed. -/
theorem land (h : Heard state notes newest) {b : AutoDeployAttempt} (hround : b.roundNo = r)
    (hlanded : b.outcome = .landed) (hseen : Seen newest r) (hworks : ∀ q, state.worksOn q → q = r)
    (hnewer : ∀ a, state.attempt = some a → a.roundNo ≤ r) :
    Heard { state with attempt := some b } (notes ++ landedNotes { state with attempt := some b }) newest := by
  have hnote : Note.landed r ∈ landedNotes { state with attempt := some b } :=
    hround ▸ mem_landedNotes rfl hlanded
  have hdone : AutoDeployState.doneWith { state with attempt := some b } r := ⟨b, rfl, hround, .inl hlanded⟩
  have hlost : lostRounds (notes ++ landedNotes { state with attempt := some b }) = lostRounds notes := by simp
  constructor
  case told =>
    intro q hq
    have hbegan : Note.began q ∈ notes := by
      rcases List.mem_append.mp hq with hq | hq
      · exact hq
      · simp [landedNotes] at hq
    rw [hlost]
    rcases h.told q hbegan with hw | hnoted | hmem
    · exact .inr (.inl (List.mem_append_right _ (hworks q hw ▸ hnote)))
    · exact .inr (.inl (List.mem_append_left _ hnoted))
    · exact .inr (.inr hmem)
  case fresh =>
    rintro q ⟨c, hc, _, hunder⟩
    cases hc
    simp [hlanded] at hunder
  case seen => exact hlost ▸ h.seen
  case shut =>
    intro q hq hnewest
    rw [hlost] at hq
    rcases h.shut q hq hnewest with hf | ⟨a, ha, rfl, _⟩
    · exact .inl hf
    · obtain ⟨t, ht, hle⟩ := hseen
      rw [hnewest] at ht
      cases ht
      exact .inr (le_antisymm (hnewer a ha) hle ▸ hdone)
  case once => exact hlost ▸ h.once
  case tally =>
    intro q hq
    rcases h.tally q hq with ⟨a, ha, hlt⟩ | ⟨a, ha, rfl, _⟩
    · exact .inl ⟨b, rfl, hround ▸ hlt.trans_le (hnewer a ha)⟩
    · rcases (hnewer a ha).lt_or_eq with hlt | heq
      · exact .inl ⟨b, rfl, hround ▸ hlt⟩
      · exact .inr (heq ▸ hdone)
  case missed => simpa using h.missed

/-- A booked deposit is noted; its round was not reported lost. -/
theorem entered (h : Heard state notes newest) (hfresh : r ∉ lostRounds notes) :
    Heard state (notes ++ [.entered r]) newest := by
  have hlost : lostRounds (notes ++ [.entered r]) = lostRounds notes := by simp [lostRounds]
  have hmissed : missedRounds (notes ++ [.entered r]) = missedRounds notes := by
    have hnot : r ∉ missedRounds notes := by
      intro hmem
      have hle := count_missedRounds_le notes r
      rw [List.count_eq_zero_of_not_mem hfresh] at hle
      exact absurd (List.count_pos_iff.mpr hmem) (not_lt.mpr hle)
    rw [missedRounds_entered, List.filter_eq_self]
    intro q hq
    simpa using fun hqr : q = r => hnot (hqr ▸ hq)
  constructor
  case told =>
    intro q hq
    rw [hlost]
    rcases h.told q (by simpa using hq) with hw | hnoted | hmem
    · exact .inl hw
    · exact .inr (.inl (List.mem_append_left _ hnoted))
    · exact .inr (.inr hmem)
  case fresh => exact hlost ▸ h.fresh
  case seen => exact hlost ▸ h.seen
  case shut => exact hlost ▸ h.shut
  case once => exact hlost ▸ h.once
  case tally => exact h.tally
  case missed => exact hmissed ▸ h.missed

/-- The tally takes in a round that the rule is done with. -/
theorem book (h : Heard state notes newest) (hdone : state.doneWith r) (hattempt : state'.attempt = state.attempt)
    (hfloor : state'.floorRound = state.floorRound) (hlast : state'.tally.lastRound = some r)
    (hmissed : state'.tally.missed = state.tally.missed) : Heard state' notes newest := by
  have hworks (q : ℤ) : state'.worksOn q ↔ state.worksOn q := by simp [AutoDeployState.worksOn, hattempt]
  have hdone' (q : ℤ) : state'.doneWith q ↔ state.doneWith q := by simp [AutoDeployState.doneWith, hattempt]
  constructor
  case told => simpa only [hworks] using h.told
  case fresh => simpa only [hworks] using h.fresh
  case seen => exact h.seen
  case shut => simpa only [hfloor, hdone'] using h.shut
  case once => exact h.once
  case tally =>
    intro q hq
    rw [hlast] at hq
    cases hq
    exact .inr ((hdone' r).mpr hdone)
  case missed => exact hmissed.trans h.missed

/-- A run is armed while the rule is done with its round, and sees the newest round if that was lost. -/
theorem arm (h : Heard state notes newest) (hidle : ∀ r, ¬ state.worksOn r)
    (hvisible : ∀ r ∈ lostRounds notes, newest = some r → ∃ f, state'.floorRound = some f ∧ r ≤ f)
    (hattempt : state'.attempt = none) (hlast : state'.tally.lastRound = none) (hmissed : state'.tally.missed = 0) :
    Heard state' (notes ++ [.armed]) newest := by
  have hlost : lostRounds (notes ++ [.armed]) = lostRounds notes := by simp [lostRounds]
  constructor
  case told =>
    intro q hq
    rw [hlost]
    rcases h.told q (by simpa using hq) with hw | hnoted | hmem
    · exact absurd hw (hidle q)
    · exact .inr (.inl (List.mem_append_left _ hnoted))
    · exact .inr (.inr hmem)
  case fresh =>
    rintro q ⟨a, ha, _⟩
    simp [hattempt] at ha
  case seen => exact hlost ▸ h.seen
  case shut => exact hlost ▸ fun q hq hnewest => .inl (hvisible q hq hnewest)
  case once => exact hlost ▸ h.once
  case tally => simp [hlast]
  case missed => simp [hmissed]

end Heard

end BullsUnicorns.Repeat

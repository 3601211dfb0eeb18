import BullsUnicorns.Lib.History
import BullsUnicorns.Identity.PrivyIdentity

/-!
# No key of a retired set, and a rotation that is picked up

A key is used only while its set is young, and what is known and young is never refused. A call that finds its
set too old, or its key unknown, while a refresh is in flight does not wait for it.
-/

namespace BullsUnicorns.Identity

open SingleFlight History

/-- A call of the cache's log. -/
abbrev KeyEntry := KeyAct × List KeyEffect

def KeyAct.time : KeyAct → Option ℚ
  | .keyFor _ nowSec => some nowSec
  | _ => none

def KeyEffect.isFetch : KeyEffect → Bool
  | .fetch _ => true
  | _ => false

/-- What an entry says of the fetches. -/
def KeyEntry.events : KeyEntry → List (Event ℚ Jwks)
  | (.keyFor _ nowSec, effects) => if effects.any KeyEffect.isFetch then [.began nowSec] else []
  | (.settled _ outcome, _) => [.settled (fetchedKeys outcome)]
  | (.released _, _) => [.ended]
  | (.resumed _, _) => []

def keyFetches (log : List KeyEntry) : Past ℚ Jwks := .ofLog KeyEntry.events log

/-- A key that is handed out is of a set whose fetch was started within the TTL before the call. -/
def AnswersLiveKey (before : List KeyEntry) (entry : KeyEntry) : Prop :=
  ∀ call jwk, .answer call (.ok jwk) ∈ entry.2 →
    ∃ r ∈ (keyFetches before).produced, call.nowSec - r.2 < JWKS_TTL_SECONDS ∧ r.1.lookup call.kid = some jwk

/-- Once a set has been read, a fetch is started a cooldown after every earlier one. -/
def FetchCooled (before : List KeyEntry) (entry : KeyEntry) : Prop :=
  ∀ kid now, entry.1 = .keyFor kid now → entry.2.any KeyEffect.isFetch = true → (keyFetches before).latest ≠ none →
    ∀ t ∈ (keyFetches before).starts, t + JWKS_COOLDOWN_SECONDS ≤ now

/-- A key of the latest set is answered as long as that set is young, whatever has failed since. -/
def KnownAnswered (before : List KeyEntry) (entry : KeyEntry) : Prop :=
  ∀ kid now, entry.1 = .keyFor kid now → ∀ r, (keyFetches before).latest = some r → now - r.2 < JWKS_TTL_SECONDS →
    ∀ jwk, r.1.lookup kid = some jwk → entry.2 = [.answer ⟨kid, now⟩ (.ok jwk)]

/-! ## A rotation -/

/-- Every fetch that is started from `T` on reads a set with the key. -/
def ReadsFrom (T : ℚ) (kid : String) (before : List KeyEntry) (entry : KeyEntry) : Prop :=
  ∀ id outcome, entry.1 = .settled id outcome → ∀ t, (keyFetches before).stage = some (.running t) → T ≤ t →
    ∃ keys, fetchedKeys outcome = some keys ∧ (keys.lookup kid).isSome = true

/-- No fetch is still in flight a cooldown after its start. -/
def EndsInTime (before : List KeyEntry) (entry : KeyEntry) : Prop :=
  ∀ kid now, entry.1 = .keyFor kid now → ∀ stage, (keyFetches before).stage = some stage →
    (∀ t outcome, stage ≠ .ended t outcome) → now < stage.began + JWKS_COOLDOWN_SECONDS

/-- A call of the key that begins a cooldown after `T` is answered with one. -/
def AnsweredFrom (T : ℚ) (kid : String) (_before : List KeyEntry) (entry : KeyEntry) : Prop :=
  ∀ call lookup, .answer call lookup ∈ entry.2 → call.kid = kid → T + JWKS_COOLDOWN_SECONDS ≤ call.nowSec →
    ∃ jwk, lookup = .ok jwk

/-- While a fetch is in flight, such a call finds the key in a set that is young, or no set has been read. -/
def KnownInFlight (T : ℚ) (kid : String) (before : List KeyEntry) (entry : KeyEntry) : Prop :=
  ∀ now, entry.1 = .keyFor kid now → T + JWKS_COOLDOWN_SECONDS ≤ now →
    ∀ t, (keyFetches before).stage = some (.running t) → ∀ r, (keyFetches before).latest = some r →
      now - r.2 < JWKS_TTL_SECONDS ∧ (r.1.lookup kid).isSome = true

/-! ## What the cache holds -/

/-- The cache against what the fetches have done by the time `now`. -/
structure Keyed (now : ℚ) (past : Past ℚ Jwks) (s : PrivyJwksCache) : Prop where
  timely : past.Timely now
  single : Single () s.flights past.stage
  keys : s.keys = past.latest.map Prod.fst
  fetchedAt : ∀ r, past.latest = some r → s.fetchedAtSec = r.2
  attempt : ∀ stage, past.stage = some stage → s.lastAttemptSec = stage.began
  read : ∀ stage, past.stage = some stage → ∀ keys, stage.outcome = some keys → past.latest = some (keys, stage.began)
  /-- A call that waits for an unknown key has found a young set. -/
  waiting : ∀ w ∈ s.waiting, w.stale = false → ∃ r, past.latest = some r ∧ w.call.nowSec - r.2 < JWKS_TTL_SECONDS

namespace Keyed

variable {now now' : ℚ} {past : Past ℚ Jwks} {s : PrivyJwksCache} {url : String}

theorem new (now : ℚ) : Keyed now .empty .new := by
  constructor
  case timely => exact .empty now
  case single => exact .fresh 0
  all_goals simp [PrivyJwksCache.new, Past.empty, Past.latest]

theorem later (h : Keyed now past s) (hle : now ≤ now') : Keyed now' past s := { h with timely := h.timely.later hle }

theorem isStale_eq_false (h : Keyed now past s) (t : ℚ) :
    s.isStale t = false ↔ ∃ r, past.latest = some r ∧ t - r.2 < JWKS_TTL_SECONDS := by
  rw [PrivyJwksCache.isStale, h.keys]
  cases hlatest : past.latest with
  | none => simp
  | some r => simp [h.fetchedAt r hlatest]

theorem lookup_eq (h : Keyed now past s) {r : Jwks × ℚ} (hr : past.latest = some r) (kid : String) :
    s.lookup kid = match r.1.lookup kid with
      | none => .unknownKey
      | some jwk => .ok jwk := by
  rw [PrivyJwksCache.lookup, h.keys, hr]
  rfl

/-- What is produced last is started last. -/
theorem produced_le (h : Keyed now past s) {r : Jwks × ℚ} (hr : past.latest = some r) {stage : Stage ℚ Jwks}
    (hstage : past.stage = some stage) : r.2 ≤ stage.began := by
  obtain ⟨last, hlast, hle⟩ := h.timely.starts r.2 (h.timely.produced r (List.mem_of_getLast? hr))
  rw [hstage] at hlast
  cases hlast
  exact hle

/-- An answer that is a key is one of the latest set. -/
theorem lookup_live (h : Keyed now past s) {call : KeyCall} (hfresh : s.isStale call.nowSec = false) {jwk : EcPublicJwk}
    (hjwk : s.lookup call.kid = .ok jwk) :
    ∃ r ∈ past.produced, call.nowSec - r.2 < JWKS_TTL_SECONDS ∧ r.1.lookup call.kid = some jwk := by
  obtain ⟨r, hr, hage⟩ := (h.isStale_eq_false _).mp hfresh
  refine ⟨r, List.mem_of_getLast? hr, hage, ?_⟩
  rw [h.lookup_eq hr] at hjwk
  split at hjwk
  · cases hjwk
  · rename_i found hfound
    cases hjwk
    exact hfound

theorem cooled (h : Keyed now past s) {t' : ℚ} (hcool : JWKS_COOLDOWN_SECONDS ≤ t' - s.lastAttemptSec) :
    ∀ t ∈ past.starts, t + JWKS_COOLDOWN_SECONDS ≤ t' := by
  intro t ht
  obtain ⟨stage, hstage, hle⟩ := h.timely.starts t ht
  rw [h.attempt stage hstage] at hcool
  linarith

/-- A call that joins the fetch in flight, or starts one. -/
theorem refresh (h : Keyed now past s) {call : KeyCall} (hnow : call.nowSec = now) {stale : Bool}
    (hstale : stale = false → s.isStale now = false) :
    Keyed now ((KeyEntry.events (.keyFor call.kid now, (s.refresh url call stale).2)).foldl Past.next past)
      (s.refresh url call stale).1 := by
  have hwaiting (id : ℕ) : ∀ w ∈ s.waiting ++ [⟨id, call, stale⟩], w.stale = false →
      ∃ r, past.latest = some r ∧ w.call.nowSec - r.2 < JWKS_TTL_SECONDS := by
    intro w hw hfresh
    rcases List.mem_append.mp hw with hw | hw
    · exact h.waiting w hw hfresh
    · cases List.mem_singleton.mp hw
      rw [hnow]
      exact (h.isStale_eq_false now).mp (hstale hfresh)
  unfold PrivyJwksCache.refresh
  cases hid : s.flights.inflight with
  | some id => exact { h with waiting := hwaiting id }
  | none =>
      subst hnow
      constructor
      case timely => exact h.timely.next_began
      case single => exact h.single.start hid _ ()
      case keys => exact h.keys
      case fetchedAt => exact h.fetchedAt
      case attempt =>
        rintro _ ⟨⟩
        rfl
      case read =>
        rintro _ ⟨⟩ keys hkeys
        cases hkeys
      case waiting => exact hwaiting s.flights.begun

/-- A fetch comes back. -/
theorem settle (h : Keyed now past s) {id k : ℕ} {t : ℚ} (hfind : s.flights.find? id = some ⟨k, t, none⟩)
    (outcome : FetchOutcome) : Keyed now (past.next (.settled (fetchedKeys outcome))) (s.settle id t outcome) := by
  obtain ⟨hstage, hid, hsettle⟩ := h.single.find_running hfind
  have htimely := h.timely.next_settled hstage (fetchedKeys outcome)
  rw [Past.next_settled hstage] at htimely ⊢
  cases houtcome : fetchedKeys outcome with
  | none =>
      rw [houtcome] at htimely
      simp only [PrivyJwksCache.settle, houtcome, Option.map_none, Option.toList_none, List.append_nil] at htimely ⊢
      constructor
      case timely => exact htimely
      case single => exact hsettle () none
      case keys => exact h.keys
      case fetchedAt => exact h.fetchedAt
      case attempt =>
        rintro _ ⟨⟩
        have hattempt := h.attempt _ hstage
        exact hattempt
      case read =>
        rintro _ ⟨⟩ keys hkeys
        cases hkeys
      case waiting => exact h.waiting
  | some fetched =>
      rw [houtcome] at htimely
      simp only [PrivyJwksCache.settle, houtcome, Option.map_some, Option.toList_some] at htimely ⊢
      constructor
      case timely => exact htimely
      case single => exact hsettle () (some fetched)
      case keys => simp [Past.latest]
      case fetchedAt => simp [Past.latest]
      case attempt =>
        rintro _ ⟨⟩
        have hattempt := h.attempt _ hstage
        exact hattempt
      case read =>
        rintro _ ⟨⟩ keys hkeys
        cases hkeys
        simp [Past.latest, Stage.began]
      case waiting =>
        intro w hw hfresh
        obtain ⟨r, hr, hage⟩ := h.waiting w hw hfresh
        have hle := h.produced_le hr hstage
        refine ⟨(fetched, t), by simp [Past.latest], ?_⟩
        simp only [Stage.began] at hle ⊢
        linarith

theorem release (h : Keyed now past s) {id k : ℕ} {t : ℚ} (hfind : s.flights.find? id = some ⟨k, t, some ()⟩) :
    Keyed now (past.next .ended) { s with flights := s.flights.release id } := by
  obtain ⟨outcome, hstage, -, -, hrelease⟩ := h.single.find_settled hfind
  have htimely := h.timely.next_ended hstage
  rw [Past.next_ended hstage] at htimely ⊢
  constructor
  case timely => exact htimely
  case single => exact hrelease ()
  case keys => exact h.keys
  case fetchedAt => exact h.fetchedAt
  case attempt =>
    rintro _ ⟨⟩
    have hattempt := h.attempt _ hstage
    exact hattempt
  case read =>
    rintro _ ⟨⟩ keys hkeys
    exact h.read _ hstage keys hkeys
  case waiting => exact h.waiting

theorem resume (h : Keyed now past s) (i : ℕ) : Keyed now past { s with waiting := s.waiting.eraseIdx i } :=
  { h with waiting := fun w hw => h.waiting w (List.mem_of_mem_eraseIdx hw) }

end Keyed

/-! ## One act -/

/-- What one act of a log shows. -/
structure KeyEntrySound (before : List KeyEntry) (entry : KeyEntry) : Prop where
  live : AnswersLiveKey before entry
  cooled : FetchCooled before entry
  known : KnownAnswered before entry

theorem keyFetches_snoc (log : List KeyEntry) (entry : KeyEntry) :
    keyFetches (log ++ [entry]) = entry.events.foldl Past.next (keyFetches log) :=
  Past.ofLog_snoc _ _ _

theorem refresh_noAnswer (s : PrivyJwksCache) (url : String) (call : KeyCall) (stale : Bool) (call' : KeyCall)
    (lookup : KeyLookup) : .answer call' lookup ∉ (s.refresh url call stale).2 := by
  unfold PrivyJwksCache.refresh
  split <;> simp

/-- The ways of a call: it refreshes a set that is too old or lacks the key, refuses, or looks the key up. -/
theorem keyFor_cases (s : PrivyJwksCache) (url : String) (call : KeyCall) :
    (∃ stale, s.keyFor url call = s.refresh url call stale ∧ s.isStale call.nowSec = stale ∧
        (s.keys.isNone = true ∨ JWKS_COOLDOWN_SECONDS ≤ call.nowSec - s.lastAttemptSec) ∧
        (stale = false → (s.keys.bind (·.lookup call.kid)).isNone = true)) ∨
      (s.keyFor url call = (s, [.answer call .keysUnavailable]) ∧ s.isStale call.nowSec = true ∧
        ¬ (s.keys.isNone = true ∨ JWKS_COOLDOWN_SECONDS ≤ call.nowSec - s.lastAttemptSec)) ∨
      (s.keyFor url call = (s, [.answer call (s.lookup call.kid)]) ∧ s.isStale call.nowSec = false ∧
        ((s.keys.bind (·.lookup call.kid)).isNone = true →
          ¬ JWKS_COOLDOWN_SECONDS ≤ call.nowSec - s.lastAttemptSec)) := by
  by_cases hcool : JWKS_COOLDOWN_SECONDS ≤ call.nowSec - s.lastAttemptSec
  · cases hstale : s.isStale call.nowSec with
    | true => exact .inl ⟨true, by simp [PrivyJwksCache.keyFor, hstale, hcool], rfl, .inr hcool, by simp⟩
    | false =>
        cases hnone : (s.keys.bind (·.lookup call.kid)).isNone with
        | true => exact .inl ⟨false, by simp [PrivyJwksCache.keyFor, hstale, hcool, hnone], rfl, .inr hcool, by simp⟩
        | false => exact .inr (.inr ⟨by simp [PrivyJwksCache.keyFor, hstale, hnone], rfl, by simp⟩)
  · cases hstale : s.isStale call.nowSec with
    | true =>
        cases hkeys : s.keys.isNone with
        | true => exact .inl ⟨true, by simp [PrivyJwksCache.keyFor, hstale, hkeys], rfl, .inl rfl, by simp⟩
        | false => exact .inr (.inl ⟨by simp [PrivyJwksCache.keyFor, hstale, hkeys, hcool], rfl, by simp [hcool]⟩)
    | false => exact .inr (.inr ⟨by simp [PrivyJwksCache.keyFor, hstale, hcool], rfl, fun _ => hcool⟩)

/-- A call is answered under its own name. -/
theorem keyFor_answer {s : PrivyJwksCache} {url : String} {call call' : KeyCall} {lookup : KeyLookup}
    (h : .answer call' lookup ∈ (s.keyFor url call).2) : call' = call := by
  rcases keyFor_cases s url call with ⟨stale, heq, -⟩ | ⟨heq, -⟩ | ⟨heq, -⟩
  · rw [heq] at h
    exact absurd h (refresh_noAnswer s url call stale call' lookup)
  · rw [heq] at h
    exact (by simpa using h : call' = call ∧ lookup = .keysUnavailable).1
  · rw [heq] at h
    exact (by simpa using h : call' = call ∧ lookup = s.lookup call.kid).1

section

variable {now : ℚ} {log : List KeyEntry} {s s' : PrivyJwksCache} {url : String}

/-- A call of `keyFor`, as far as it gets at once. -/
theorem Keyed.keyFor (url : String) (h : Keyed now (keyFetches log) s) (kid : String) :
    KeyEntrySound log (.keyFor kid now, (s.keyFor url ⟨kid, now⟩).2) ∧
      Keyed now (keyFetches (log ++ [(.keyFor kid now, (s.keyFor url ⟨kid, now⟩).2)])) (s.keyFor url ⟨kid, now⟩).1 := by
  rw [keyFetches_snoc]
  have hyoung {r : Jwks × ℚ} (hr : (keyFetches log).latest = some r) (hage : now - r.2 < JWKS_TTL_SECONDS) :
      s.isStale now = false := (h.isStale_eq_false now).mpr ⟨r, hr, hage⟩
  rcases keyFor_cases s url ⟨kid, now⟩ with ⟨stale, heq, hstale, hcool, hnone⟩ | ⟨heq, hstale, -⟩ | ⟨heq, hstale, -⟩
  · rw [heq]
    refine ⟨?_, h.refresh rfl fun hfresh => hfresh ▸ hstale⟩
    constructor
    case live => exact fun call jwk hanswer => absurd hanswer (refresh_noAnswer s url _ stale call (.ok jwk))
    case cooled =>
      rintro _ _ ⟨⟩ - hread t ht
      rcases hcool with hkeys | hcool
      · rw [h.keys, Option.isNone_map, Option.isNone_iff_eq_none] at hkeys
        exact absurd hkeys hread
      · exact h.cooled hcool t ht
    case known =>
      rintro _ _ ⟨⟩ r hr hage jwk hjwk
      have hfound := hnone (hstale.symm.trans (hyoung hr hage))
      simp [h.keys, hr, hjwk] at hfound
  · rw [heq]
    refine ⟨?_, h⟩
    constructor
    case live => simp [AnswersLiveKey]
    case cooled => simp [FetchCooled, KeyEffect.isFetch]
    case known =>
      rintro _ _ ⟨⟩ r hr hage
      have hyoung := hyoung hr hage
      rw [hstale] at hyoung
      cases hyoung
  · rw [heq]
    refine ⟨?_, h⟩
    constructor
    case live =>
      intro call jwk hanswer
      obtain ⟨rfl, hjwk⟩ : call = ⟨kid, now⟩ ∧ .ok jwk = s.lookup kid := by simpa using hanswer
      exact h.lookup_live hstale hjwk.symm
    case cooled => simp [FetchCooled, KeyEffect.isFetch]
    case known =>
      rintro _ _ ⟨⟩ r hr - jwk hjwk
      simp [h.lookup_eq hr, hjwk]

/-- A call that goes on after its refresh. -/
theorem Keyed.resumed (h : Keyed now (keyFetches log) s) {i : ℕ} {w : Waiting} (hw : s.waiting[i]? = some w) :
    KeyEntrySound log (.resumed i, [.answer w.call (s.resume w)]) := by
  constructor
  case live =>
    intro call jwk hanswer
    obtain ⟨rfl, hjwk⟩ : call = w.call ∧ .ok jwk = s.resume w := by simpa using hanswer
    rw [PrivyJwksCache.resume] at hjwk
    split at hjwk
    · cases hjwk
    · rename_i hrefused
      refine h.lookup_live ?_ hjwk.symm
      cases hstale : w.stale with
      | true => simpa [hstale] using hrefused
      | false => exact (h.isStale_eq_false _).mpr (h.waiting w (List.mem_of_getElem? hw) hstale)
  case cooled => simp [FetchCooled]
  case known => simp [KnownAnswered]

theorem keyEntrySound_silent (log : List KeyEntry) {act : KeyAct} (hact : ∀ kid t, act ≠ .keyFor kid t) :
    KeyEntrySound log (act, []) := by
  constructor
  case live => simp [AnswersLiveKey]
  case cooled => exact fun kid t heq => absurd heq (hact kid t)
  case known => exact fun kid t heq => absurd heq (hact kid t)

/-- The acts of a cache that are not refused. -/
theorem keyed_cases {act : KeyAct} {effects : List KeyEffect} (hstep : (privyJwksCache url).step s act = .ok (s', effects)) :
    (∃ kid t, act = .keyFor kid t ∧ (s', effects) = s.keyFor url ⟨kid, t⟩) ∨
      (∃ id k t outcome, act = .settled id outcome ∧ s.flights.find? id = some ⟨k, t, none⟩ ∧
        s' = s.settle id t outcome ∧ effects = []) ∨
      (∃ id k t, act = .released id ∧ s.flights.find? id = some ⟨k, t, some ()⟩ ∧
        s' = { s with flights := s.flights.release id } ∧ effects = []) ∨
      ∃ i w, act = .resumed i ∧ s.waiting[i]? = some w ∧ s.flights.find? w.promise = none ∧
        s' = { s with waiting := s.waiting.eraseIdx i } ∧ effects = [.answer w.call (s.resume w)] := by
  cases act with
  | keyFor kid t => exact .inl ⟨kid, t, rfl, (Except.ok.inj hstep).symm⟩
  | settled id outcome =>
      simp only [privyJwksCache] at hstep
      split at hstep
      · rename_i k t hfind
        cases hstep
        exact .inr (.inl ⟨id, k, t, outcome, rfl, hfind, rfl, rfl⟩)
      · cases hstep
  | released id =>
      simp only [privyJwksCache] at hstep
      split at hstep
      · rename_i k t hfind
        cases hstep
        exact .inr (.inr (.inl ⟨id, k, t, rfl, hfind, rfl, rfl⟩))
      · cases hstep
  | resumed i =>
      simp only [privyJwksCache] at hstep
      split at hstep
      · cases hstep
      · rename_i w hw
        split at hstep
        · cases hstep
        · rename_i hended
          cases hstep
          exact .inr (.inr (.inr ⟨i, w, rfl, hw, by simpa using hended, rfl, rfl⟩))

theorem keyed_step {act : KeyAct} {effects : List KeyEffect} (h : Keyed now (keyFetches log) s)
    (htime : ∀ t, act.time = some t → t = now) (hstep : (privyJwksCache url).step s act = .ok (s', effects)) :
    KeyEntrySound log (act, effects) ∧ Keyed now (keyFetches (log ++ [(act, effects)])) s' := by
  rcases keyed_cases hstep with ⟨kid, t, rfl, heq⟩ | ⟨id, k, t, outcome, rfl, hfind, rfl, rfl⟩ |
    ⟨id, k, t, rfl, hfind, rfl, rfl⟩ | ⟨i, w, rfl, hw, -, rfl, rfl⟩
  · cases htime t rfl
    have hkeyFor := h.keyFor url kid
    rw [← heq] at hkeyFor
    exact hkeyFor
  · rw [keyFetches_snoc]
    exact ⟨keyEntrySound_silent log (by simp), h.settle hfind outcome⟩
  · rw [keyFetches_snoc]
    exact ⟨keyEntrySound_silent log (by simp), h.release hfind⟩
  · rw [keyFetches_snoc]
    exact ⟨h.resumed hw, h.resume i⟩

end

/-! ## The rotation is picked up -/

/-- What the fetches since `T` owe to the calls of a key: one that has come back has read it, and a call waits for
such a fetch or has had one. -/
structure Promised (T : ℚ) (kid : String) (past : Past ℚ Jwks) (s : PrivyJwksCache) : Prop where
  good : ∀ stage, past.stage = some stage → T ≤ stage.began → (∀ t, stage ≠ .running t) →
    ∃ keys, stage.outcome = some keys ∧ (keys.lookup kid).isSome = true
  waiting : ∀ w ∈ s.waiting, w.call.kid = kid → T + JWKS_COOLDOWN_SECONDS ≤ w.call.nowSec →
    (∃ t, past.stage = some (.running t) ∧ T ≤ t ∧ s.flights.inflight = some w.promise ∧
      w.call.nowSec - t < JWKS_TTL_SECONDS) ∨
    ∃ r, past.latest = some r ∧ T ≤ r.2 ∧ w.call.nowSec - r.2 < JWKS_TTL_SECONDS ∧ (r.1.lookup kid).isSome = true

theorem cooldown_lt_ttl : JWKS_COOLDOWN_SECONDS < JWKS_TTL_SECONDS := by
  norm_num [JWKS_COOLDOWN_SECONDS, JWKS_TTL_SECONDS]

theorem cooldown_pos : 0 < JWKS_COOLDOWN_SECONDS := by norm_num [JWKS_COOLDOWN_SECONDS]

namespace Promised

variable {T now : ℚ} {kid : String} {log : List KeyEntry} {past : Past ℚ Jwks} {s : PrivyJwksCache} {url : String}

theorem new (T : ℚ) (kid : String) : Promised T kid .empty .new := by
  constructor <;> simp [PrivyJwksCache.new, Past.empty]

/-- A fetch of the last cooldown that has come back has read the key, and its set is the latest. -/
theorem recent (h : Promised T kid past s) (hkeyed : Keyed now past s) (hT : T + JWKS_COOLDOWN_SECONDS ≤ now)
    {stage : Stage ℚ Jwks} (hstage : past.stage = some stage) (hrecent : now < stage.began + JWKS_COOLDOWN_SECONDS)
    (hback : ∀ t, stage ≠ .running t) :
    ∃ keys, past.latest = some (keys, stage.began) ∧ T ≤ stage.began ∧ now - stage.began < JWKS_TTL_SECONDS ∧
      (keys.lookup kid).isSome = true := by
  have hT' : T ≤ stage.began := by linarith
  have hlt := cooldown_lt_ttl
  obtain ⟨keys, houtcome, hkey⟩ := h.good stage hstage hT' hback
  exact ⟨keys, hkeyed.read stage hstage keys houtcome, hT', by linarith, hkey⟩

/-- A call that refreshes waits for a fetch that reads the key. -/
theorem refresh (h : Promised T kid past s) (hkeyed : Keyed now past s) {call : KeyCall} (hnow : call.nowSec = now)
    (stale : Bool) (hends : ∀ stage, past.stage = some stage → (∀ t outcome, stage ≠ .ended t outcome) →
      now < stage.began + JWKS_COOLDOWN_SECONDS) :
    Promised T kid ((KeyEntry.events (.keyFor call.kid now, (s.refresh url call stale).2)).foldl Past.next past)
      (s.refresh url call stale).1 := by
  have hlt := cooldown_lt_ttl
  have hpos := cooldown_pos
  unfold PrivyJwksCache.refresh
  cases hid : s.flights.inflight with
  | some id =>
      refine { h with waiting := fun w hw hkid hw' => ?_ }
      rcases List.mem_append.mp hw with hw | hw
      · exact h.waiting w hw hkid hw'
      cases List.mem_singleton.mp hw
      simp only [hnow] at hw' ⊢
      obtain ⟨-, t, hrunning | ⟨outcome, hsettled⟩⟩ := hkeyed.single.inflight_eq_some hid
      · have hrecent := hends _ hrunning (by simp)
        simp only [Stage.began] at hrecent
        exact .inl ⟨t, hrunning, by linarith, hid, by linarith⟩
      · obtain ⟨keys, hlatest, hT, hage, hkey⟩ := h.recent hkeyed hw' hsettled (hends _ hsettled (by simp)) (by simp)
        exact .inr ⟨_, hlatest, hT, hage, hkey⟩
  | none =>
      subst hnow
      constructor
      case good =>
        rintro _ ⟨⟩ - hback
        exact absurd rfl (hback call.nowSec)
      case waiting =>
        intro w hw hkid hw'
        rcases List.mem_append.mp hw with hw | hw
        · rcases h.waiting w hw hkid hw' with ⟨t, -, -, hpromise, -⟩ | hread
          · rw [hid] at hpromise
            cases hpromise
          · exact .inr hread
        · cases List.mem_singleton.mp hw
          simp only at hw'
          exact .inl ⟨call.nowSec, rfl, by linarith, rfl, by linarith⟩

theorem settle (h : Promised T kid past s) (hkeyed : Keyed now past s) {id k : ℕ} {t : ℚ}
    (hfind : s.flights.find? id = some ⟨k, t, none⟩) {outcome : FetchOutcome}
    (hreads : T ≤ t → ∃ keys, fetchedKeys outcome = some keys ∧ (keys.lookup kid).isSome = true) :
    Promised T kid (past.next (.settled (fetchedKeys outcome))) (s.settle id t outcome) := by
  obtain ⟨hstage, -, -⟩ := hkeyed.single.find_running hfind
  rw [Past.next_settled hstage]
  have hwaits : (s.settle id t outcome).waiting = s.waiting := by
    unfold PrivyJwksCache.settle
    split <;> rfl
  constructor
  case good =>
    rintro _ ⟨⟩ hT -
    exact hreads hT
  case waiting =>
    intro w hw hkid hw'
    rw [hwaits] at hw
    -- what it waits for has just been read, or what it has had is renewed
    have hT : T ≤ t ∧ w.call.nowSec - t < JWKS_TTL_SECONDS := by
      rcases h.waiting w hw hkid hw' with ⟨t', hrunning, hT, -, hage⟩ | ⟨r, hr, hT, hage, -⟩
      · rw [hstage] at hrunning
        cases hrunning
        exact ⟨hT, hage⟩
      · have hle := hkeyed.produced_le hr hstage
        simp only [Stage.began] at hle
        exact ⟨hT.trans hle, by linarith⟩
    obtain ⟨keys, hfetched, hkey⟩ := hreads hT.1
    exact .inr ⟨(keys, t), by simp [hfetched, Past.latest], hT.1, hT.2, hkey⟩

theorem release (h : Promised T kid past s) (hkeyed : Keyed now past s) {id k : ℕ} {t : ℚ}
    (hfind : s.flights.find? id = some ⟨k, t, some ()⟩) :
    Promised T kid (past.next .ended) { s with flights := s.flights.release id } := by
  obtain ⟨outcome, hstage, -⟩ := hkeyed.single.find_settled hfind
  rw [Past.next_ended hstage]
  constructor
  case good =>
    rintro _ ⟨⟩ hT -
    exact h.good (.settled t outcome) hstage hT (by simp)
  case waiting =>
    intro w hw hkid hw'
    rcases h.waiting w hw hkid hw' with ⟨t', hrunning, -⟩ | hread
    · rw [hstage] at hrunning
      cases hrunning
    · exact .inr hread

theorem resume (h : Promised T kid past s) (i : ℕ) : Promised T kid past { s with waiting := s.waiting.eraseIdx i } :=
  { h with waiting := fun w hw => h.waiting w (List.mem_of_mem_eraseIdx hw) }

/-- A call of the key is answered with one exactly if, with a fetch in flight, the key is known. -/
theorem keyFor (url : String) (h : Promised T kid (keyFetches log) s) (hkeyed : Keyed now (keyFetches log) s)
    (hends : ∀ stage, (keyFetches log).stage = some stage → (∀ t outcome, stage ≠ .ended t outcome) →
      now < stage.began + JWKS_COOLDOWN_SECONDS) (hT : T + JWKS_COOLDOWN_SECONDS ≤ now) :
    (∀ lookup, .answer ⟨kid, now⟩ lookup ∈ (s.keyFor url ⟨kid, now⟩).2 → ∃ jwk, lookup = .ok jwk) ↔
      ∀ t, (keyFetches log).stage = some (.running t) → ∀ r, (keyFetches log).latest = some r →
        now - r.2 < JWKS_TTL_SECONDS ∧ (r.1.lookup kid).isSome = true := by
  -- not cooled down: the last fetch is recent, so that it is in flight or has read the key
  have hwarm {r : Jwks × ℚ} (hr : (keyFetches log).latest = some r)
      (hcool : ¬ JWKS_COOLDOWN_SECONDS ≤ now - s.lastAttemptSec)
      (hflight : ∀ t, (keyFetches log).stage = some (.running t) →
        now - r.2 < JWKS_TTL_SECONDS ∧ (r.1.lookup kid).isSome = true) :
      now - r.2 < JWKS_TTL_SECONDS ∧ (r.1.lookup kid).isSome = true := by
    obtain ⟨stage, hstage, -⟩ := hkeyed.timely.starts r.2 (hkeyed.timely.produced r (List.mem_of_getLast? hr))
    rw [hkeyed.attempt stage hstage, not_le] at hcool
    by_cases hrunning : ∃ t, stage = .running t
    · obtain ⟨t, rfl⟩ := hrunning
      exact hflight t hstage
    · obtain ⟨keys, hlatest, -, hage, hkey⟩ :=
        h.recent hkeyed hT hstage (by linarith) fun t heq => hrunning ⟨t, heq⟩
      rw [hr] at hlatest
      cases hlatest
      exact ⟨hage, hkey⟩
  rcases keyFor_cases s url ⟨kid, now⟩ with ⟨stale, heq, -, hcool, -⟩ | ⟨heq, hstale, hcool⟩ | ⟨heq, hstale, hnone⟩
  · -- it waits; with a fetch in flight only where nothing has been read
    rw [heq]
    constructor
    · intro _ t hrunning r hr
      exfalso
      have hends := hends _ hrunning (by simp)
      rcases hcool with hkeys | hcool
      · simp [hkeyed.keys, hr] at hkeys
      · rw [hkeyed.attempt _ hrunning] at hcool
        linarith
    · exact fun _ lookup hanswer => absurd hanswer (refresh_noAnswer s url _ stale _ lookup)
  · -- it is refused
    rw [heq]
    have hread : ∃ r, (keyFetches log).latest = some r := by
      rw [← Option.isSome_iff_exists]
      have hkeys : s.keys.isNone = false := Bool.eq_false_iff.mpr fun hkeys => hcool (.inl hkeys)
      simpa [hkeyed.keys] using hkeys
    obtain ⟨r, hr⟩ := hread
    have hold : ¬ now - r.2 < JWKS_TTL_SECONDS := fun hage => by
      rw [(hkeyed.isStale_eq_false now).mpr ⟨r, hr, hage⟩] at hstale
      cases hstale
    constructor
    · intro hanswered
      obtain ⟨jwk, hjwk⟩ := hanswered .keysUnavailable (by simp)
      cases hjwk
    · exact fun hflight => absurd (hwarm hr (fun hcool' => hcool (.inr hcool')) fun t ht => hflight t ht r hr).1 hold
  · rw [heq]
    obtain ⟨r, hr, hage⟩ := (hkeyed.isStale_eq_false now).mp hstale
    have hlookup := hkeyed.lookup_eq hr kid
    constructor
    · intro hanswered t hrunning r' hr'
      rw [hr] at hr'
      cases hr'
      refine ⟨hage, ?_⟩
      obtain ⟨jwk, hjwk⟩ := hanswered (s.lookup kid) (by simp)
      rw [hlookup] at hjwk
      cases hfound : r.1.lookup kid with
      | none => simp [hfound] at hjwk
      | some found => rfl
    · intro hflight lookup hanswer
      obtain rfl : lookup = s.lookup kid := by simpa using hanswer
      rw [hlookup]
      cases hfound : r.1.lookup kid with
      | some jwk => exact ⟨jwk, rfl⟩
      | none =>
          have hcool := hnone (by simp [hkeyed.keys, hr, hfound])
          have hkey := (hwarm hr hcool fun t ht => hflight t ht r hr).2
          simp [hfound] at hkey

/-- A call that waited for the key gets it. -/
theorem resumed (h : Promised T kid past s) (hkeyed : Keyed now past s) {i : ℕ} {w : Waiting}
    (hw : s.waiting[i]? = some w) (hended : s.flights.find? w.promise = none) (hkid : w.call.kid = kid)
    (hT : T + JWKS_COOLDOWN_SECONDS ≤ w.call.nowSec) : ∃ jwk, s.resume w = .ok jwk := by
  rcases h.waiting w (List.mem_of_getElem? hw) hkid hT with ⟨t, -, -, hpromise, -⟩ | ⟨r, hr, -, hage, hkey⟩
  · have hfind := (hkeyed.single.inflight_eq_some hpromise).1
    rw [hended] at hfind
    cases hfind
  · obtain ⟨jwk, hjwk⟩ := Option.isSome_iff_exists.mp hkey
    refine ⟨jwk, ?_⟩
    rw [PrivyJwksCache.resume, (hkeyed.isStale_eq_false _).mpr ⟨r, hr, hage⟩, hkeyed.lookup_eq hr, hkid, hjwk]
    simp

/-- The cache after a call. -/
theorem called (url : String) (h : Promised T kid (keyFetches log) s) (hkeyed : Keyed now (keyFetches log) s) (kid' : String)
    (hends : ∀ stage, (keyFetches log).stage = some stage → (∀ t outcome, stage ≠ .ended t outcome) →
      now < stage.began + JWKS_COOLDOWN_SECONDS) :
    Promised T kid (keyFetches (log ++ [(.keyFor kid' now, (s.keyFor url ⟨kid', now⟩).2)]))
      (s.keyFor url ⟨kid', now⟩).1 := by
  rw [keyFetches_snoc]
  rcases keyFor_cases s url ⟨kid', now⟩ with ⟨stale, heq, -⟩ | ⟨heq, -⟩ | ⟨heq, -⟩
  · rw [heq]
    exact h.refresh hkeyed rfl stale hends
  · rw [heq]
    exact h
  · rw [heq]
    exact h

/-- One act, where fetches read the key from `T` on and end in time. -/
theorem step {s' : PrivyJwksCache} {act : KeyAct} {effects : List KeyEffect} (h : Promised T kid (keyFetches log) s)
    (hkeyed : Keyed now (keyFetches log) s) (htime : ∀ t, act.time = some t → t = now)
    (hstep : (privyJwksCache url).step s act = .ok (s', effects)) (hreads : ReadsFrom T kid log (act, effects))
    (hends : EndsInTime log (act, effects)) :
    (AnsweredFrom T kid log (act, effects) ↔ KnownInFlight T kid log (act, effects)) ∧
      Promised T kid (keyFetches (log ++ [(act, effects)])) s' := by
  rcases keyed_cases hstep with ⟨kid', t, rfl, heq⟩ | ⟨id, k, t, outcome, rfl, hfind, rfl, rfl⟩ |
    ⟨id, k, t, rfl, hfind, rfl, rfl⟩ | ⟨i, w, rfl, hw, hended, rfl, rfl⟩
  · cases htime t rfl
    have hintime := hends kid' now rfl
    have hpromised := h.called url hkeyed kid' hintime
    rw [← heq] at hpromised
    refine ⟨?_, hpromised⟩
    have heffects : effects = (s.keyFor url ⟨kid', now⟩).2 := congrArg Prod.snd heq
    constructor
    · rintro hanswered _ ⟨⟩ hT
      refine (h.keyFor url hkeyed hintime hT).mp fun lookup hanswer => ?_
      exact hanswered ⟨kid, now⟩ lookup (heffects ▸ hanswer) rfl hT
    · intro hknown call lookup hanswer hkid hT
      have hcall := keyFor_answer (heffects ▸ hanswer)
      subst hcall
      subst hkid
      exact (h.keyFor url hkeyed hintime hT).mpr (hknown now rfl hT) lookup (heffects ▸ hanswer)
  · rw [keyFetches_snoc]
    refine ⟨by simp [AnsweredFrom, KnownInFlight], h.settle hkeyed hfind fun hT => ?_⟩
    exact hreads id outcome rfl t (hkeyed.single.find_running hfind).1 hT
  · rw [keyFetches_snoc]
    exact ⟨by simp [AnsweredFrom, KnownInFlight], h.release hkeyed hfind⟩
  · rw [keyFetches_snoc]
    refine ⟨?_, h.resume i⟩
    constructor
    · simp [KnownInFlight]
    · intro _ call lookup hanswer hkid hT
      obtain ⟨rfl, rfl⟩ : call = w.call ∧ lookup = s.resume w := by simpa using hanswer
      exact h.resumed hkeyed hw hended hkid hT

end Promised

/-! ## The verifier -/

/-- What an accepted token is: its claims hold at `nowSec`, and its signature over the two segments as they were
sent is one of the key. -/
structure Vouched (deps : PrivyVerifierDeps) (token : String) (nowSec : ℚ) (decoded : DecodedJwt) (jwk : EcPublicJwk) :
    Prop where
  signed : ∃ head body tail, token = Text.join '.' [head, body, tail] ∧
    decoded.signingInput = Text.utf8 (head ++ "." ++ body) ∧ base64UrlToBytes tail = some decoded.signature
  signature : deps.platform.verify jwk decoded.signature decoded.signingInput = some true
  issuer : (decoded.payload.get? "iss").bind Json.isString = some PRIVY_ISSUER
  audience : audienceMatches (decoded.payload.get? "aud") deps.appId = true
  expires : ∃ exp, (decoded.payload.get? "exp").bind Json.isNumber = some exp ∧ nowSec < exp + CLOCK_SKEW_SECONDS
  issued : ∃ iat, (decoded.payload.get? "iat").bind Json.isNumber = some iat ∧ iat - CLOCK_SKEW_SECONDS ≤ nowSec ∧
    nowSec - iat ≤ MAX_IDENTITY_TOKEN_AGE_SECONDS

theorem decodeJwt_signed {platform : Platform} {token : String} {decoded : DecodedJwt}
    (h : decodeJwt platform token = some decoded) :
    ∃ head body tail, token = Text.join '.' [head, body, tail] ∧
      decoded.signingInput = Text.utf8 (head ++ "." ++ body) ∧ base64UrlToBytes tail = some decoded.signature := by
  unfold decodeJwt at h
  split at h
  · cases h
  split at h
  · rename_i head body tail hsplit
    refine ⟨head, body, tail, ?_, ?_⟩
    · rw [← hsplit, Text.join_split]
    · simp only [Option.bind_eq_bind, Option.bind_eq_some_iff, Option.filter_eq_some_iff, Option.some.injEq] at h
      obtain ⟨_, -, _, -, signature, ⟨hsignature, -⟩, _, -, _, -, _, -, rfl⟩ := h
      exact ⟨rfl, hsignature⟩
  · cases h

/-- Claims that pass every check. -/
theorem claimsRejection_eq_none {payload : Json} {appId : String} {nowSec : ℚ}
    (h : claimsRejection payload appId nowSec = none) :
    (payload.get? "iss").bind Json.isString = some PRIVY_ISSUER ∧ audienceMatches (payload.get? "aud") appId = true ∧
      (∃ exp, (payload.get? "exp").bind Json.isNumber = some exp ∧ nowSec < exp + CLOCK_SKEW_SECONDS) ∧
      ∃ iat, (payload.get? "iat").bind Json.isNumber = some iat ∧ iat - CLOCK_SKEW_SECONDS ≤ nowSec ∧
        nowSec - iat ≤ MAX_IDENTITY_TOKEN_AGE_SECONDS := by
  simp only [claimsRejection] at h
  split at h
  · cases h
  rename_i hissuer
  split at h
  · cases h
  rename_i haudience
  split at h
  · cases h
  split at h
  · cases h
  rename_i exp hexp
  split at h
  · cases h
  rename_i hexpires
  split at h
  · cases h
  rename_i iat hiat
  split at h
  · cases h
  rename_i hissued
  split at h
  · cases h
  rename_i hage
  exact ⟨not_ne_iff.mp hissuer, by simpa using haudience, ⟨exp, hexp, not_le.mp hexpires⟩,
    iat, hiat, not_lt.mp hissued, not_lt.mp hage⟩

theorem createPrivyVerifier_ok {deps : PrivyVerifierDeps} {keyFor : String → KeyLookup} {token : String} {nowSec : ℚ}
    {identity : XIdentity} (h : createPrivyVerifier deps keyFor token nowSec = .ok identity) :
    ∃ decoded jwk, decodeJwt deps.platform token = some decoded ∧ keyFor decoded.kid = .ok jwk ∧
      Vouched deps token nowSec decoded jwk := by
  unfold createPrivyVerifier at h
  split at h
  · cases h
  rename_i decoded hdecoded
  split at h
  · cases h
  rename_i hclaims
  split at h
  · cases h
  · cases h
  rename_i jwk hjwk
  split at h
  · rename_i hverify
    obtain ⟨hissuer, haudience, hexpires, hissued⟩ := claimsRejection_eq_none hclaims
    exact ⟨decoded, jwk, hdecoded, hjwk, decodeJwt_signed hdecoded, hverify, hissuer, haudience, hexpires, hissued⟩
  · cases h

/-! ## Every run -/

def KeyAct.isCall : KeyAct → Bool
  | .keyFor _ _ => true
  | _ => false

def KeyEffect.isAnswer : KeyEffect → Bool
  | .answer _ _ => true
  | .fetch _ => false

/-- How many calls a log has, and how many answers. -/
def callCount (log : List KeyEntry) : ℕ := log.countP fun entry => entry.1.isCall

def answerCount (log : List KeyEntry) : ℕ := (log.map fun entry => entry.2.countP KeyEffect.isAnswer).sum

theorem refresh_waits (s : PrivyJwksCache) (url : String) (call : KeyCall) (stale : Bool) :
    (s.refresh url call stale).1.waiting.length = s.waiting.length + 1 ∧
      (s.refresh url call stale).2.countP KeyEffect.isAnswer = 0 := by
  unfold PrivyJwksCache.refresh
  split <;> simp [KeyEffect.isAnswer]

theorem callCount_snoc (log : List KeyEntry) (entry : KeyEntry) :
    callCount (log ++ [entry]) = callCount log + if entry.1.isCall then 1 else 0 := by
  simp [callCount, List.countP_cons]

theorem answerCount_snoc (log : List KeyEntry) (entry : KeyEntry) :
    answerCount (log ++ [entry]) = answerCount log + entry.2.countP KeyEffect.isAnswer := by
  simp [answerCount]

/-- No call is lost: each has been answered or still waits. -/
theorem calls_answered (url : String) (acts : List KeyAct) :
    callCount ((privyJwksCache url).accepted .new acts) =
      answerCount ((privyJwksCache url).accepted .new acts) + ((privyJwksCache url).run .new acts).waiting.length := by
  have hrun := Machine.run_history (m := privyJwksCache url)
    (H := fun log s => callCount log = answerCount log + s.waiting.length) ?_ (h := []) (s := .new) rfl acts
  · exact hrun
  intro log s act s' effects h hstep
  rw [callCount_snoc, answerCount_snoc]
  rcases keyed_cases hstep with ⟨kid, t, rfl, heq⟩ | ⟨id, k, t, outcome, rfl, hfind, rfl, rfl⟩ |
    ⟨id, k, t, rfl, hfind, rfl, rfl⟩ | ⟨i, w, rfl, hw, hended, rfl, rfl⟩
  · rw [show s' = (s.keyFor url ⟨kid, t⟩).1 from congrArg Prod.fst heq,
      show effects = (s.keyFor url ⟨kid, t⟩).2 from congrArg Prod.snd heq]
    simp only [KeyAct.isCall, if_true]
    rcases keyFor_cases s url ⟨kid, t⟩ with ⟨stale, heq, -⟩ | ⟨heq, -⟩ | ⟨heq, -⟩
    · obtain ⟨hwaits, hnone⟩ := refresh_waits s url ⟨kid, t⟩ stale
      rw [heq, hwaits, hnone]
      omega
    · simp only [heq, List.countP_singleton, KeyEffect.isAnswer, if_true]
      omega
    · simp only [heq, List.countP_singleton, KeyEffect.isAnswer, if_true]
      omega
  · have hwaits : (s.settle id t outcome).waiting = s.waiting := by
      unfold PrivyJwksCache.settle
      split <;> rfl
    simpa [KeyAct.isCall, hwaits] using h
  · simpa [KeyAct.isCall] using h
  · have hlen : i < s.waiting.length := (List.getElem?_eq_some_iff.mp hw).1
    simp only [KeyAct.isCall, List.length_eraseIdx_of_lt hlen, List.countP_singleton, KeyEffect.isAnswer, if_true]
    simp only [Bool.false_eq_true, if_false]
    omega

/-- What the acts of a cache show, in any order. -/
structure PrivyKeysSound (url : String) (acts : List KeyAct) : Prop where
  oneInFlight : ((privyJwksCache url).run .new acts).flights.running.length ≤ 1
  live : EachAfter AnswersLiveKey ((privyJwksCache url).accepted .new acts)
  cooled : EachAfter FetchCooled ((privyJwksCache url).accepted .new acts)
  known : EachAfter KnownAnswered ((privyJwksCache url).accepted .new acts)
  /-- The calls that begin a cooldown after the key is in every set are answered with it, exactly if none of them
  finds a fetch in flight, and a set that was read before and is too old or lacks the key. -/
  rotation : ∀ T kid, EachAfter (ReadsFrom T kid) ((privyJwksCache url).accepted .new acts) →
    EachAfter EndsInTime ((privyJwksCache url).accepted .new acts) →
    (EachAfter (AnsweredFrom T kid) ((privyJwksCache url).accepted .new acts) ↔
      EachAfter (KnownInFlight T kid) ((privyJwksCache url).accepted .new acts))
  /-- Each call has been answered, or it waits for the fetch in flight, or may go on. -/
  answered : callCount ((privyJwksCache url).accepted .new acts) =
    answerCount ((privyJwksCache url).accepted .new acts) + ((privyJwksCache url).run .new acts).waiting.length
  waits : ∀ w ∈ ((privyJwksCache url).run .new acts).waiting,
    ((privyJwksCache url).run .new acts).flights.find? w.promise = none ∨
      ((privyJwksCache url).run .new acts).flights.inflight = some w.promise
  /-- On the answer to a call a token is accepted only under a key of a set that was young. -/
  vouches : EachAfter (fun before entry => ∀ call lookup, .answer call lookup ∈ entry.2 →
    ∀ deps keyFor token nowSec identity decoded, keyFor call.kid = lookup →
      decodeJwt deps.platform token = some decoded → decoded.kid = call.kid →
      createPrivyVerifier deps keyFor token nowSec = .ok identity →
        ∃ r ∈ (keyFetches before).produced, call.nowSec - r.2 < JWKS_TTL_SECONDS ∧
          ∃ jwk, r.1.lookup decoded.kid = some jwk ∧ Vouched deps token nowSec decoded jwk)
    ((privyJwksCache url).accepted .new acts)

/-- However calls and fetches interleave: a key is handed out only of a set that was fetched within its TTL, one
fetch runs at a time and no two within a cooldown once a set has been read, and a known young key is never refused.
A rotation is picked up by every call that does not pass by the fetch in flight. -/
theorem privy_keys_are_young (url : String) (acts : List KeyAct) (now : ℚ)
    (hclock : (acts.filterMap KeyAct.time ++ [now]).Pairwise (· ≤ ·)) : PrivyKeysSound url acts := by
  have hrun := Machine.run_timed (m := privyJwksCache url) KeyAct.time
    (H := fun t log s => (EachAfter KeyEntrySound log ∧ Keyed t (keyFetches log) s) ∧
      ∀ T kid, EachAfter (ReadsFrom T kid) log → EachAfter EndsInTime log →
        EachAfter (fun before entry => AnsweredFrom T kid before entry ↔ KnownInFlight T kid before entry) log ∧
          Promised T kid (keyFetches log) s) ?_ ?_ (s := .new) ?_ acts now hclock
  · obtain ⟨⟨hsound, hkeyed⟩, hrotation⟩ := hrun
    constructor
    case oneInFlight => exact hkeyed.single.length_le
    case live => exact hsound.imp fun _ _ h => h.live
    case cooled => exact hsound.imp fun _ _ h => h.cooled
    case known => exact hsound.imp fun _ _ h => h.known
    case rotation =>
      intro T kid hreads hends
      obtain ⟨hiff, -⟩ := hrotation T kid hreads hends
      constructor
      · exact fun h before a after heq => (hiff before a after heq).mp (h before a after heq)
      · exact fun h before a after heq => (hiff before a after heq).mpr (h before a after heq)
    case answered => exact calls_answered url acts
    case waits =>
      intro w _
      cases hfind : ((privyJwksCache url).run .new acts).flights.find? w.promise with
      | none => exact .inl rfl
      | some flight => exact .inr (hkeyed.single.inflight_of_find hfind)
    case vouches =>
      refine hsound.imp ?_
      rintro before entry h call _ hanswer deps keyFor token nowSec identity decoded rfl hdecoded hkid hok
      obtain ⟨decoded', jwk, hdecoded', hjwk, hvouched⟩ := createPrivyVerifier_ok hok
      rw [hdecoded] at hdecoded'
      cases hdecoded'
      obtain ⟨r, hr, hage, hfound⟩ := h.live call jwk (by rw [← hjwk, hkid]; exact hanswer)
      exact ⟨r, hr, hage, jwk, hkid ▸ hfound, hvouched⟩
  · intro t t' log s hle h
    exact ⟨⟨h.1.1, h.1.2.later hle⟩, h.2⟩
  · intro t log s act s' effects htime h hstep
    obtain ⟨hsound, hkeyed⟩ := keyed_step h.1.2 htime hstep
    refine ⟨⟨h.1.1.snoc hsound, hkeyed⟩, fun T kid hreads hends => ?_⟩
    obtain ⟨hiff, hpromised⟩ := h.2 T kid hreads.of_snoc.1 hends.of_snoc.1
    obtain ⟨hstepped, hpromised⟩ := hpromised.step h.1.2 htime hstep hreads.of_snoc.2 hends.of_snoc.2
    exact ⟨hiff.snoc hstepped, hpromised⟩
  · exact fun t => ⟨⟨eachAfter_nil _, .new t⟩, fun T kid _ _ => ⟨eachAfter_nil _, .new T kid⟩⟩

/-! ## A call that passes by the fetch in flight -/

/-- A document with the one key `k`. -/
def oneKey : FetchOutcome :=
  .response 200 (some (.obj [("keys", .arr [.obj [("kty", .str "EC"), ("crv", .str "P-256"), ("kid", .str "k"),
    ("x", .str "1"), ("y", .str "2")]])]))

/-- The set is read at second 0 and again at its TTL; the second call comes a second after the refresh has begun. -/
def passedBy : List KeyAct :=
  [.keyFor "k" 0, .settled 0 oneKey, .released 0, .resumed 0, .keyFor "k" 3600, .keyFor "k" 3601, .settled 1 oneKey,
    .released 1, .resumed 0]

theorem fetchedKeys_oneKey : fetchedKeys oneKey = some [("k", ⟨"1", "2"⟩)] := by decide +kernel

theorem passedBy_log : (privyJwksCache "jwks").accepted .new passedBy =
    [(.keyFor "k" 0, [.fetch "jwks"]), (.settled 0 oneKey, []), (.released 0, []),
      (.resumed 0, [.answer ⟨"k", 0⟩ (.ok ⟨"1", "2"⟩)]), (.keyFor "k" 3600, [.fetch "jwks"]),
      (.keyFor "k" 3601, [.answer ⟨"k", 3601⟩ .keysUnavailable]), (.settled 1 oneKey, []), (.released 1, []),
      (.resumed 0, [.answer ⟨"k", 3600⟩ (.ok ⟨"1", "2"⟩)])] := by
  norm_num [passedBy, Machine.accepted, privyJwksCache, PrivyJwksCache.keyFor, PrivyJwksCache.isStale, PrivyJwksCache.new,
    PrivyJwksCache.refresh, PrivyJwksCache.settle, PrivyJwksCache.resume, PrivyJwksCache.lookup, Flights.idle,
    Flights.start, Flights.find?, Flights.settle, Flights.release, fetchedKeys_oneKey, JWKS_TTL_SECONDS,
    JWKS_COOLDOWN_SECONDS, List.lookup_cons, Option.some_ne_none]

theorem readsFrom_passedBy : EachAfter (ReadsFrom 0 "k") ((privyJwksCache "jwks").accepted .new passedBy) := by
  rintro before entry after hlog id outcome hact - - -
  have hmem : entry.1 ∈ passedBy := Machine.fst_mem_of_mem_accepted (by rw [hlog]; simp)
  rw [hact] at hmem
  have houtcome : outcome = oneKey := by
    rcases (by simpa [passedBy] using hmem : id = 0 ∧ outcome = oneKey ∨ id = 1 ∧ outcome = oneKey) with h | h
    · exact h.2
    · exact h.2
  rw [houtcome]
  exact ⟨_, fetchedKeys_oneKey, rfl⟩

/-- Nothing but a call can come too late. -/
theorem endsInTime_other {log : List KeyEntry} {act : KeyAct} {effects : List KeyEffect}
    (hact : ∀ kid t, act ≠ .keyFor kid t) : EndsInTime log (act, effects) :=
  fun kid t heq => absurd heq (hact kid t)

theorem endsInTime_passedBy : EachAfter EndsInTime ((privyJwksCache "jwks").accepted .new passedBy) := by
  rw [passedBy_log]
  refine (((((((((eachAfter_nil _).snoc ?_).snoc ?_).snoc ?_).snoc ?_).snoc ?_).snoc ?_).snoc ?_).snoc ?_).snoc ?_
  case refine_1 => simp [EndsInTime, keyFetches, Past.ofLog, Past.empty]
  case refine_5 =>
    rintro _ _ ⟨⟩ stage hstage hback
    cases hstage
    exact absurd rfl (hback 0 _)
  case refine_6 =>
    rintro _ _ ⟨⟩ stage hstage -
    cases hstage
    norm_num [Stage.began, JWKS_COOLDOWN_SECONDS]
  all_goals exact endsInTime_other (by simp)

/-- Every fetch reads the key from second 0 on and ends within two seconds, and a call at second 3601 is refused. -/
theorem privy_keys_pass_by_a_refresh :
    EachAfter (ReadsFrom 0 "k") ((privyJwksCache "jwks").accepted .new passedBy) ∧
      EachAfter EndsInTime ((privyJwksCache "jwks").accepted .new passedBy) ∧
      ¬ EachAfter (AnsweredFrom 0 "k") ((privyJwksCache "jwks").accepted .new passedBy) := by
  refine ⟨readsFrom_passedBy, endsInTime_passedBy, fun h => ?_⟩
  rw [passedBy_log] at h
  have hanswered := h [_, _, _, _, _] _ _ rfl
  obtain ⟨jwk, hjwk⟩ := hanswered ⟨"k", 3601⟩ .keysUnavailable (List.mem_singleton_self _) rfl
    (by norm_num [JWKS_COOLDOWN_SECONDS])
  cases hjwk

/-- The same run: each key that was handed out was young. -/
theorem privy_keys_are_young_witness :
    EachAfter AnswersLiveKey ((privyJwksCache "jwks").accepted .new passedBy) :=
  (privy_keys_are_young "jwks" passedBy 3601
    (by change ([0, 3600, 3601, 3601] : List ℚ).Pairwise (· ≤ ·); norm_num)).live

end BullsUnicorns.Identity

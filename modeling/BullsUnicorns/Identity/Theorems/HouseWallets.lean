import BullsUnicorns.Lib.History
import BullsUnicorns.Identity.HouseWallets

/-!
# The house-list cache never forgets, and does not spare a failing keeper

A list that was read is the answer from then on, until a newer one has been read. The time is stamped on success
only: after a fetch that failed the next call fetches again at once.
-/

namespace BullsUnicorns.Identity

open SingleFlight History

/-- A call of the cache's log. -/
abbrev HouseEntry := HouseAct × List HouseEffect

def HouseAct.time : HouseAct → Option ℚ
  | .get nowSec => some nowSec
  | _ => none

def HouseEffect.isFetch : HouseEffect → Bool
  | .fetch _ _ => true
  | _ => false

/-- What an entry says of the fetches. -/
def HouseEntry.events : HouseEntry → List (Event ℚ (List String))
  | (.get nowSec, effects) => if effects.any HouseEffect.isFetch then [.began nowSec] else []
  | (.settled _ outcome, _) => [.settled (fetchedWallets outcome)]
  | (.released _, _) => [.ended]

def fetches (log : List HouseEntry) : Past ℚ (List String) := .ofLog HouseEntry.events log

/-- The list that the last read has given, or that none has. -/
def lastKnown (read : Option (List String × ℚ)) : HouseList := (read.map fun r => ⟨r.1, false⟩).getD HOUSE_LIST_UNKNOWN

/-- The answer is the list that the latest successful fetch has read, and unknown where none has. -/
def AnswersLatest (before : List HouseEntry) (entry : HouseEntry) : Prop :=
  ∀ list, .answer list ∈ entry.2 →
    list = lastKnown (fetches before).latest

/-- A fetch is started an interval after every earlier one. -/
def FetchSpaced (before : List HouseEntry) (entry : HouseEntry) : Prop :=
  ∀ now, entry.1 = .get now → entry.2.any HouseEffect.isFetch = true →
    ∀ t ∈ (fetches before).starts, t + REFRESH_SECONDS ≤ now

/-- With nothing in flight and the last fetch a failure, a call waits an interval from the start of that fetch. -/
def PatientAfterFailure (before : List HouseEntry) (entry : HouseEntry) : Prop :=
  ∀ now, entry.1 = .get now → ∀ t, (fetches before).stage = some (.ended t none) → t + REFRESH_SECONDS ≤ now

/-! ## What the cache holds -/

/-- The cache against what the fetches have done by the time `now`. -/
structure Caches (now : ℚ) (past : Past ℚ (List String)) (s : HouseListCache) : Prop where
  timely : past.Timely now
  single : Single (lastKnown past.latest) s.flights past.stage
  cached : s.cached = past.latest.map fun r => ⟨⟨r.1, false⟩, r.2⟩
  waiting : ∀ id ∈ s.waiting, s.flights.inflight = some id
  read : ∀ stage, past.stage = some stage → ∀ wallets, stage.outcome = some wallets →
    past.latest = some (wallets, stage.began)
  /-- A fetch that has read nothing was started when the latest list was no longer fresh. -/
  renewed : ∀ stage, past.stage = some stage → stage.outcome = none → ∀ r, past.latest = some r →
    r.2 + REFRESH_SECONDS ≤ stage.began

namespace Caches

variable {deps : HouseListDeps} {now now' : ℚ} {past : Past ℚ (List String)} {s : HouseListCache}

theorem new (now : ℚ) : Caches now .empty .new := by
  constructor
  case timely => exact .empty now
  case single => exact .fresh 0
  all_goals simp [HouseListCache.new, Past.empty, Past.latest]

theorem later (h : Caches now past s) (hle : now ≤ now') : Caches now' past s :=
  { h with timely := h.timely.later hle }

/-- A call joins the fetch in flight. -/
theorem join (h : Caches now past s) {id : ℕ} (hid : s.flights.inflight = some id) :
    Caches now past { s with waiting := s.waiting ++ [id] } := by
  refine { h with waiting := fun id' hid' => ?_ }
  rcases List.mem_append.mp hid' with hid' | hid'
  · exact h.waiting id' hid'
  · cases List.mem_singleton.mp hid'
    exact hid

/-- A call starts a fetch: nothing fresh is cached. -/
theorem start (h : Caches now past s) (hidle : s.flights.inflight = none)
    (hstale : (s.cached.filter fun c => now - c.atSec < REFRESH_SECONDS) = none) :
    Caches now (past.next (.began now))
      { s with flights := s.flights.start now, waiting := s.waiting ++ [s.flights.begun] } := by
  constructor
  case timely => exact h.timely.next_began
  case single => exact h.single.start hidle now _
  case cached => exact h.cached
  case waiting =>
    intro id hid
    rcases List.mem_append.mp hid with hid | hid
    · exact absurd (h.waiting id hid) (by simp [hidle])
    · cases List.mem_singleton.mp hid
      rfl
  case read =>
    rintro _ ⟨⟩ wallets houtcome
    cases houtcome
  case renewed =>
    rintro _ ⟨⟩ - r hr
    have hr : past.latest = some r := hr
    have hcached : s.cached = some ⟨⟨r.1, false⟩, r.2⟩ := by rw [h.cached, hr]; rfl
    rw [hcached, Option.filter_eq_none_iff] at hstale
    have hage := hstale _ rfl
    simp only [decide_eq_true_eq, not_lt] at hage
    simp only [Stage.began]
    linarith

/-- A fetch comes back. -/
theorem settle (h : Caches now past s) {id k : ℕ} {t : ℚ} (hfind : s.flights.find? id = some ⟨k, t, none⟩)
    (outcome : FetchOutcome) :
    Caches now (past.next (.settled (fetchedWallets outcome))) (s.settle id t outcome) := by
  obtain ⟨hstage, hid, hsettle⟩ := h.single.find_running hfind
  have hrefreshed : (refreshed s.cached t (fetchedWallets outcome)).2 =
      lastKnown (past.next (.settled (fetchedWallets outcome))).latest := by
    rw [Past.next_settled hstage, h.cached]
    cases fetchedWallets outcome with
    | none => simp [refreshed, lastKnown, Past.latest, Function.comp_def]
    | some wallets => simp [refreshed, lastKnown, Past.latest]
  constructor
  case timely => exact h.timely.next_settled hstage _
  case single =>
    rw [← hrefreshed, Past.next_settled hstage]
    exact hsettle _ _
  case cached =>
    rw [Past.next_settled hstage]
    cases hfetched : fetchedWallets outcome with
    | none => simpa [HouseListCache.settle, hfetched, refreshed, Past.latest] using h.cached
    | some wallets => simp [HouseListCache.settle, hfetched, refreshed, Past.latest]
  case waiting => exact h.waiting
  case read =>
    rw [Past.next_settled hstage]
    rintro _ ⟨⟩ wallets houtcome
    have houtcome : fetchedWallets outcome = some wallets := houtcome
    simp [houtcome, Past.latest, Stage.began]
  case renewed =>
    rw [Past.next_settled hstage]
    rintro _ ⟨⟩ houtcome r hr
    have houtcome : fetchedWallets outcome = none := houtcome
    exact h.renewed _ hstage rfl r (by simpa [houtcome, Past.latest] using hr)

/-- The callers of a fetch are answered. -/
theorem release (h : Caches now past s) {id k : ℕ} {t : ℚ} {list : HouseList}
    (hfind : s.flights.find? id = some ⟨k, t, some list⟩) :
    Caches now (past.next .ended) (s.release id list).1 ∧ list = lastKnown past.latest := by
  obtain ⟨outcome, hstage, hid, hlist, hrelease⟩ := h.single.find_settled hfind
  refine ⟨?_, hlist⟩
  constructor
  case timely => exact h.timely.next_ended hstage
  case single =>
    rw [Past.next_ended hstage]
    exact hrelease _
  case cached =>
    rw [Past.next_ended hstage]
    exact h.cached
  case waiting =>
    intro id' hid'
    obtain ⟨hmem, hne⟩ := List.mem_filter.mp hid'
    have := h.waiting id' hmem
    rw [hid] at this
    cases this
    simp at hne
  case read =>
    rw [Past.next_ended hstage]
    rintro _ ⟨⟩ wallets houtcome
    exact h.read _ hstage wallets houtcome
  case renewed =>
    rw [Past.next_ended hstage]
    rintro _ ⟨⟩ houtcome r hr
    exact h.renewed _ hstage houtcome r hr

end Caches

/-! ## One act -/

/-- What one act of a log shows. -/
structure EntrySound (before : List HouseEntry) (entry : HouseEntry) : Prop where
  answers : AnswersLatest before entry
  spaced : FetchSpaced before entry ↔ PatientAfterFailure before entry

theorem fetches_snoc (log : List HouseEntry) (entry : HouseEntry) :
    fetches (log ++ [entry]) = entry.events.foldl Past.next (fetches log) :=
  Past.ofLog_snoc _ _ _

theorem answer_notMem_warnings (deps : HouseListDeps) (outcome : FetchOutcome) (list : HouseList) :
    .answer list ∉ fetchWarnings deps outcome := by
  cases outcome with
  | threw => simp [fetchWarnings]
  | response status body =>
      simp only [fetchWarnings]
      split <;> simp

/-- A call of `get`: it is answered with what is fresh, joins a fetch, or starts one. -/
theorem Caches.get (deps : HouseListDeps) {now : ℚ} {log : List HouseEntry} {s : HouseListCache}
    (h : Caches now (fetches log) s) :
    EntrySound log (.get now, (s.get deps now).2) ∧
      Caches now (fetches (log ++ [(.get now, (s.get deps now).2)])) (s.get deps now).1 := by
  rw [fetches_snoc]
  unfold HouseListCache.get
  cases hfresh : s.cached.filter fun c => now - c.atSec < REFRESH_SECONDS with
  | some c =>
      obtain ⟨hc, hage⟩ := Option.filter_eq_some_iff.mp hfresh
      rw [h.cached] at hc
      obtain ⟨r, hr, rfl⟩ := Option.map_eq_some_iff.mp hc
      have hage : now - r.2 < REFRESH_SECONDS := of_decide_eq_true hage
      refine ⟨⟨?_, ?_⟩, h⟩
      · intro list hlist
        obtain rfl : list = ⟨r.1, false⟩ := by simpa using hlist
        simp [lastKnown, hr]
      · constructor
        · -- a list that is fresh was read after the failure began
          rintro - now' ⟨⟩ t hstage
          exfalso
          have hbegan := (h.timely.began _ hstage).1
          have hold := h.renewed _ hstage rfl r hr
          simp only [Stage.began] at hbegan hold
          linarith
        · rintro - now' - hfetch
          simp [HouseEffect.isFetch] at hfetch
  | none =>
      cases hid : s.flights.inflight with
      | some id =>
          refine ⟨⟨by simp [AnswersLatest], ?_⟩, h.join hid⟩
          constructor
          · rintro - now' - t hstage
            have hnone := h.single.inflight_eq_none.mpr (.inr ⟨t, none, hstage⟩)
            rw [hid] at hnone
            cases hnone
          · rintro - now' - hfetch
            simp at hfetch
      | none =>
          refine ⟨⟨by simp [AnswersLatest], ?_⟩, h.start hid hfresh⟩
          constructor
          · rintro hspaced now' ⟨⟩ t hstage
            exact hspaced now rfl rfl t (h.timely.began _ hstage).2
          · rintro hpatient now' ⟨⟩ - t ht
            obtain ⟨stage, hstage, hle⟩ := h.timely.starts t ht
            rcases h.single.inflight_eq_none.mp hid with hnone | ⟨began, outcome, hended⟩
            · rw [hstage] at hnone
              cases hnone
            rw [hended] at hstage
            cases hstage
            cases outcome with
            | none => exact (add_le_add_left hle _).trans (hpatient now rfl began hended)
            | some wallets =>
                -- what was read is no longer fresh
                have hread := h.read _ hended wallets rfl
                rw [h.cached, hread, Option.map_some, Option.filter_eq_none_iff] at hfresh
                have hage : ¬ now - began < REFRESH_SECONDS := fun hlt => hfresh _ rfl (decide_eq_true hlt)
                simp only [Stage.began] at hle
                linarith

/-- A fetch comes back; a line may be written, and nobody is answered yet. -/
theorem Caches.settled {deps : HouseListDeps} {now : ℚ} {log : List HouseEntry} {s : HouseListCache}
    (h : Caches now (fetches log) s) {id k : ℕ} {t : ℚ} (hfind : s.flights.find? id = some ⟨k, t, none⟩)
    (outcome : FetchOutcome) :
    EntrySound log (.settled id outcome, fetchWarnings deps outcome) ∧
      Caches now (fetches (log ++ [(.settled id outcome, fetchWarnings deps outcome)])) (s.settle id t outcome) := by
  rw [fetches_snoc]
  refine ⟨⟨fun list hlist => absurd hlist (answer_notMem_warnings deps outcome list), ?_⟩, h.settle hfind outcome⟩
  simp [FetchSpaced, PatientAfterFailure]

/-- The promise ends, and who waited for it is answered. -/
theorem Caches.released {now : ℚ} {log : List HouseEntry} {s : HouseListCache} (h : Caches now (fetches log) s)
    {id k : ℕ} {t : ℚ} {list : HouseList} (hfind : s.flights.find? id = some ⟨k, t, some list⟩) :
    EntrySound log (.released id, (s.release id list).2) ∧
      Caches now (fetches (log ++ [(.released id, (s.release id list).2)])) (s.release id list).1 := by
  rw [fetches_snoc]
  obtain ⟨hcaches, hlist⟩ := h.release hfind
  refine ⟨⟨fun answer hanswer => ?_, by simp [FetchSpaced, PatientAfterFailure]⟩, hcaches⟩
  obtain ⟨_, -, heq⟩ := List.mem_map.mp hanswer
  cases heq
  exact hlist

theorem caches_step {deps : HouseListDeps} {now : ℚ} {log : List HouseEntry} {s s' : HouseListCache} {act : HouseAct}
    {effects : List HouseEffect} (h : Caches now (fetches log) s) (htime : ∀ t, act.time = some t → t = now)
    (hstep : (houseListCache deps).step s act = .ok (s', effects)) :
    EntrySound log (act, effects) ∧ Caches now (fetches (log ++ [(act, effects)])) s' := by
  cases act with
  | get t =>
      cases htime t rfl
      have heq : s.get deps now = (s', effects) := Except.ok.inj hstep
      have hget := h.get deps
      rw [heq] at hget
      exact hget
  | settled id outcome =>
      simp only [houseListCache] at hstep
      split at hstep
      · rename_i hfind
        cases hstep
        exact h.settled hfind outcome
      · cases hstep
  | released id =>
      simp only [houseListCache] at hstep
      split at hstep
      · rename_i hfind
        cases hstep
        exact h.released hfind
      · cases hstep

/-! ## Every run -/

/-- However calls, outcomes and outages interleave: one fetch runs at a time, every answer is the latest list that
was read, unknown only where none has been; and fetches are an interval apart exactly where no call comes sooner
than that after the start of a fetch that failed, with nothing in flight. -/
theorem house_list_never_forgets (deps : HouseListDeps) (acts : List HouseAct) (now : ℚ)
    (hclock : (acts.filterMap HouseAct.time ++ [now]).Pairwise (· ≤ ·)) :
    ((houseListCache deps).run .new acts).flights.running.length ≤ 1 ∧
      EachAfter AnswersLatest ((houseListCache deps).accepted .new acts) ∧
      (EachAfter FetchSpaced ((houseListCache deps).accepted .new acts) ↔
        EachAfter PatientAfterFailure ((houseListCache deps).accepted .new acts)) := by
  have hrun := Machine.run_timed (m := houseListCache deps) HouseAct.time
    (H := fun t log s => EachAfter EntrySound log ∧ Caches t (fetches log) s) ?_ ?_ ?_ acts now hclock (s := .new)
  · obtain ⟨hsound, hcaches⟩ := hrun
    refine ⟨hcaches.single.length_le, hsound.imp fun _ _ h => h.answers, ?_⟩
    constructor
    · exact fun h before a after heq => (hsound before a after heq).spaced.mp (h before a after heq)
    · exact fun h before a after heq => (hsound before a after heq).spaced.mpr (h before a after heq)
  · intro t t' log s hle h
    exact ⟨h.1, h.2.later hle⟩
  · intro t log s act s' effects htime h hstep
    obtain ⟨hsound, hcaches⟩ := caches_step h.2 htime hstep
    exact ⟨h.1.snoc hsound, hcaches⟩
  · exact fun t => ⟨eachAfter_nil _, .new t⟩

/-- The keeper refuses the token, and two calls come a second apart. -/
def refusedTwice : List HouseAct :=
  [.get 0, .settled 0 (.response 401 none), .released 0, .get 1, .settled 1 (.response 401 none), .released 1]

/-- A fetch that failed holds nothing back: the second one starts a second after the first. -/
theorem house_list_asks_a_failing_keeper_again :
    (fetches ((houseListCache ⟨"keeper", "t"⟩).accepted .new refusedTwice)).starts = [0, 1] ∧
      ¬ EachAfter FetchSpaced ((houseListCache ⟨"keeper", "t"⟩).accepted .new refusedTwice) := by
  refine ⟨rfl, fun h => ?_⟩
  have hspaced := h (((houseListCache ⟨"keeper", "t"⟩).accepted .new refusedTwice).take 3) _ _ rfl 1 rfl rfl 0
    (List.mem_singleton_self (0 : ℚ))
  norm_num [REFRESH_SECONDS] at hspaced

/-- The list is read once, for two callers, and the keeper is down when it is asked again. -/
def readOnce : List HouseAct :=
  [.get 0, .get 1, .settled 0 (.response 200 (some (.obj [("wallets", .arr [.str "house"])]))), .released 0, .get 30,
    .get 61, .settled 1 .threw, .released 1]

/-- All four callers are told the list that was read. -/
theorem house_list_never_forgets_witness :
    EachAfter AnswersLatest ((houseListCache ⟨"keeper", "t"⟩).accepted .new readOnce) ∧
      ((houseListCache ⟨"keeper", "t"⟩).accepted .new readOnce).flatMap Prod.snd =
        [.fetch "keeper" "Bearer t", .answer ⟨["house"], false⟩, .answer ⟨["house"], false⟩, .answer ⟨["house"], false⟩,
          .fetch "keeper" "Bearer t", .answer ⟨["house"], false⟩] := by
  have hclock : (readOnce.filterMap HouseAct.time ++ [61]).Pairwise (· ≤ ·) := by
    change ([0, 1, 30, 61, 61] : List ℚ).Pairwise (· ≤ ·)
    norm_num
  exact ⟨(house_list_never_forgets ⟨"keeper", "t"⟩ readOnce 61 hclock).2.1, by decide +kernel⟩

end BullsUnicorns.Identity

import BullsUnicorns.Lib.Machine

/-!
# Tasks that await calls, and pools of them

A task is what is left of an asynchronous function. In a pool many tasks share one state: an act starts a
task, or serves the call that one of them awaits, atomically and in any order. What every task keeps to by
itself, whatever its calls are answered, is kept in every run of a pool.
-/

namespace BullsUnicorns

/-- A value, a thrown error, or a call that is awaited; a call is answered or throws where it is awaited. -/
inductive Task (ε : Type) {C : Type} (A : C → Type) (α : Type) where
  | done (a : α)
  | throw (e : ε)
  | await (c : C) (k : Except ε (A c) → Task ε A α)

/-- A call with its answer. -/
abbrev Reply (ε : Type) {C : Type} (A : C → Type) : Type := (c : C) × Except ε (A c)

namespace Task

variable {ε C α β : Type} {A : C → Type}

def bind : Task ε A α → (α → Task ε A β) → Task ε A β
  | .done a, f => f a
  | .throw e, _ => .throw e
  | .await c k, f => .await c fun r => (k r).bind f

def tryCatch : Task ε A α → (ε → Task ε A α) → Task ε A α
  | .done a, _ => .done a
  | .throw e, f => f e
  | .await c k, f => .await c fun r => (k r).tryCatch f

instance : Monad (Task ε A) where
  pure := done
  bind := bind

instance : MonadExceptOf ε (Task ε A) where
  throw := throw
  tryCatch := tryCatch

def ofExcept : Except ε α → Task ε A α
  | .ok a => .done a
  | .error e => .throw e

def call (c : C) : Task ε A (A c) := .await c ofExcept

/-! ## A task alone -/

/-- A task by itself: each call is served as soon as it is made. -/
def perform {σ : Type} (serve : (c : C) → σ → Except ε (A c) × σ) : Task ε A α → σ → Except ε α × σ
  | .done a, s => (.ok a, s)
  | .throw e, s => (.error e, s)
  | .await c k, s => perform serve (k (serve c s).1) (serve c s).2

theorem perform_call {σ : Type} (serve : (c : C) → σ → Except ε (A c) × σ) (c : C) (f : A c → Task ε A α) (s : σ) :
    perform serve (call c >>= f) s =
      match (serve c s).1 with
      | .ok a => perform serve (f a) (serve c s).2
      | .error e => (.error e, (serve c s).2) := by
  change perform serve (bind (ofExcept (serve c s).1) f) (serve c s).2 = _
  cases (serve c s).1 <;> rfl

/-! ## What a task keeps to by itself -/

/-- Each call is made where `P` allows it after the calls before, and a value is one that `R` admits. -/
def Obeys (P : List (Reply ε A) → C → Prop) (R : List (Reply ε A) → α → Prop) :
    List (Reply ε A) → Task ε A α → Prop
  | past, .done a => R past a
  | _, .throw _ => True
  | past, .await c k => P past c ∧ ∀ r, Obeys P R (past ++ [⟨c, r⟩]) (k r)

variable {P : List (Reply ε A) → C → Prop} {R : List (Reply ε A) → α → Prop} {past : List (Reply ε A)}

@[simp]
theorem obeys_pure {a : α} : Obeys P R past (pure a : Task ε A α) ↔ R past a := Iff.rfl

@[simp]
theorem obeys_throw {e : ε} : Obeys P R past (.throw e : Task ε A α) := trivial

theorem Obeys.bind {R' : List (Reply ε A) → β → Prop} {t : Task ε A α} {f : α → Task ε A β} (ht : Obeys P R past t)
    (hf : ∀ past a, R past a → Obeys P R' past (f a)) : Obeys P R' past (t >>= f) := by
  induction t generalizing past with
  | done a => exact hf past a ht
  | throw e => trivial
  | await c k ih => exact ⟨ht.1, fun r => ih r (ht.2 r)⟩

theorem Obeys.call {R : List (Reply ε A) → β → Prop} {c : C} {f : A c → Task ε A β} (hc : P past c)
    (hf : ∀ a, Obeys P R (past ++ [⟨c, .ok a⟩]) (f a)) : Obeys P R past (Task.call c >>= f) := by
  refine ⟨hc, fun r => ?_⟩
  cases r with
  | ok a => exact hf a
  | error e => trivial

theorem Obeys.tryCatch {t : Task ε A α} {f : ε → Task ε A α} (ht : Obeys P R past t)
    (hf : ∀ past e, Obeys P R past (f e)) : Obeys P R past (t.tryCatch f) := by
  induction t generalizing past with
  | done a => exact ht
  | throw e => exact hf past e
  | await c k ih => exact ⟨ht.1, fun r => ih r (ht.2 r)⟩

end Task

/-! ## Pools -/

/-- The shared state, and the tasks in the order they were started in, each with its request. -/
structure Pool (σ ρ ε : Type) {C : Type} (A : C → Type) (α : Type) where
  shared : σ
  tasks : List (ρ × Task ε A α)

inductive PoolAct (ρ ι : Type) where
  | start (r : ρ)
  /-- The call that a task awaits is served, with an input of its own. -/
  | serve (k : ℕ) (i : ι)

/-- The request that an act starts. -/
def PoolAct.started {ρ ι : Type} : PoolAct ρ ι → Option ρ
  | .start r => some r
  | .serve _ _ => none

/-- A call that was served for a task. -/
structure Served (ρ ε : Type) {C : Type} (A : C → Type) where
  task : ℕ
  request : ρ
  call : C
  answer : Except ε (A call)

namespace Pool

variable {σ ρ ι ε C α : Type} {A : C → Type}
variable (program : ρ → Task ε A α) (serve : ι → (c : C) → σ → Except ε (A c) × σ)

def step (p : Pool σ ρ ε A α) : PoolAct ρ ι → Except Unit (Pool σ ρ ε A α × Option (Served ρ ε A))
  | .start r => .ok (⟨p.shared, p.tasks ++ [(r, program r)]⟩, none)
  | .serve k i =>
      match p.tasks[k]? with
      | some (r, .await c next) =>
          let served := serve i c p.shared
          .ok (⟨served.2, p.tasks.set k (r, next served.1)⟩, some ⟨k, r, c, served.1⟩)
      | _ => .error ()

def machine : Machine (Pool σ ρ ε A α) (PoolAct ρ ι) (Option (Served ρ ε A)) Unit := ⟨step program serve⟩

def reached (s : σ) (acts : List (PoolAct ρ ι)) : Pool σ ρ ε A α := (machine program serve).run ⟨s, []⟩ acts

/-- The calls that a run served, in order. -/
def log (s : σ) (acts : List (PoolAct ρ ι)) : List (Served ρ ε A) :=
  ((machine program serve).accepted ⟨s, []⟩ acts).filterMap Prod.snd

/-- The calls of one task. -/
def past (log : List (Served ρ ε A)) (k : ℕ) : List (Reply ε A) :=
  (log.filter fun e => e.task = k).map fun e => ⟨e.call, e.answer⟩

@[simp]
theorem past_nil (k : ℕ) : past ([] : List (Served ρ ε A)) k = [] := rfl

theorem past_snoc (log : List (Served ρ ε A)) (e : Served ρ ε A) (k : ℕ) :
    past (log ++ [e]) k = if e.task = k then past log k ++ [⟨e.call, e.answer⟩] else past log k := by
  by_cases hk : e.task = k
  · simp [past, hk]
  · simp [past, hk]

/-- A call of a task, found in the log with the calls around it. -/
theorem past_split {log : List (Served ρ ε A)} {k : ℕ} {c : C} {r : Except ε (A c)} {xs ys : List (Reply ε A)}
    (h : past log k = xs ++ ⟨c, r⟩ :: ys) :
    ∃ a q b, log = a ++ ⟨k, q, c, r⟩ :: b ∧ past a k = xs ∧ past b k = ys := by
  obtain ⟨l₁, l₂, hfilter, hxs, hrest⟩ := List.map_eq_append_iff.mp h
  obtain ⟨e, l₃, rfl, he, hys⟩ := List.map_eq_cons_iff.mp hrest
  obtain ⟨a, rest, rfl, ha, hrest⟩ := List.filter_eq_append_iff.mp hfilter
  obtain ⟨skipped, b, rfl, hskipped, hk, hb⟩ := List.filter_eq_cons_iff.mp hrest
  obtain ⟨task, q, call, answer⟩ := e
  obtain rfl : task = k := of_decide_eq_true hk
  cases he
  refine ⟨a ++ skipped, q, b, by simp, ?_, ?_⟩
  · have hnone : skipped.filter (fun e => e.task = task) = [] := List.filter_eq_nil_iff.mpr hskipped
    rw [past, List.filter_append, hnone, List.append_nil, ha, hxs]
  · rw [past, hb, hys]

theorem past_append (a b : List (Served ρ ε A)) (k : ℕ) : past (a ++ b) k = past a k ++ past b k := by
  rw [past, List.filter_append, List.map_append]
  rfl

theorem past_cons (a b : List (Served ρ ε A)) (e : Served ρ ε A) :
    past (a ++ e :: b) e.task = past a e.task ++ ⟨e.call, e.answer⟩ :: past b e.task := by
  rw [past_append]
  simp [past]

variable {program serve}

/-- What holds of each element with those before it, when one more comes. -/
theorem splits_snoc {τ : Type} {Q : List τ → τ → Prop} {l : List τ} {x : τ} (h : ∀ a e b, l = a ++ e :: b → Q a e)
    (hx : Q l x) : ∀ a e b, l ++ [x] = a ++ e :: b → Q a e := by
  intro a e b heq
  rcases List.eq_nil_or_concat b with rfl | ⟨b, e', rfl⟩
  · obtain ⟨rfl, hlast⟩ := List.append_inj' heq rfl
    cases hlast
    exact hx
  · have heq' : l ++ [x] = (a ++ e :: b) ++ [e'] := by simpa using heq
    exact h a e b (List.append_inj' heq' rfl).1

theorem pairwise_of_splits {τ : Type} {Q : τ → τ → Prop} {l : List τ}
    (h : ∀ a y b, l = a ++ y :: b → ∀ x ∈ a, Q x y) : l.Pairwise Q := by
  induction l using List.reverseRecOn with
  | nil => exact .nil
  | append_singleton l x ih =>
      rw [List.pairwise_append]
      refine ⟨ih fun a y b heq => h a y (b ++ [x]) (by simp [heq]), List.pairwise_singleton _ _, fun y hy z hz => ?_⟩
      exact List.mem_singleton.mp hz ▸ h l x [] rfl y hy

/-- Where a list keeps no value twice, one of its elements has it. -/
theorem eq_of_nodup_filterMap {τ υ : Type} {f : τ → Option υ} {l : List τ} (h : (l.filterMap f).Nodup) {x y : τ} {v : υ}
    (hx : x ∈ l) (hy : y ∈ l) (hfx : f x = some v) (hfy : f y = some v) : x = y := by
  obtain ⟨a, b, rfl⟩ := List.mem_iff_append.mp hx
  rw [List.filterMap_append, List.filterMap_cons_some hfx, List.nodup_append] at h
  obtain ⟨_, hb, hdisjoint⟩ := h
  rcases List.mem_append.mp hy with hy | hy
  · exact absurd rfl (hdisjoint v (List.mem_filterMap.mpr ⟨y, hy, hfy⟩) v (by simp))
  · rcases List.mem_cons.mp hy with rfl | hy
    · rfl
    · exact absurd (List.mem_filterMap.mpr ⟨y, hy, hfy⟩) (List.nodup_cons.mp hb).1

/-- Two places of a list whose values are not the same. -/
theorem ne_of_nodup_filterMap {τ υ : Type} {f : τ → Option υ} {l : List τ} (h : (l.filterMap f).Nodup) {i j : ℕ}
    (hij : i ≠ j) {x y : τ} (hx : l[i]? = some x) (hy : l[j]? = some y) {v w : υ} (hv : f x = some v)
    (hw : f y = some w) :
    v ≠ w := by
  have hapart := List.pairwise_filterMap.mp h
  obtain ⟨hi, rfl⟩ := List.getElem?_eq_some_iff.mp hx
  obtain ⟨hj, rfl⟩ := List.getElem?_eq_some_iff.mp hy
  rcases Nat.lt_or_gt_of_ne hij with hlt | hlt
  · exact List.pairwise_iff_getElem.mp hapart i j hi hj hlt v hv w hw
  · exact (List.pairwise_iff_getElem.mp hapart j i hj hi hlt w hw v hv).symm

/-- An act that is not refused starts a task or serves the call that one awaits. -/
theorem step_cases {p p' : Pool σ ρ ε A α} {a : PoolAct ρ ι} {o : Option (Served ρ ε A)}
    (h : (machine program serve).step p a = .ok (p', o)) :
    (∃ r, a = .start r ∧ o = none ∧ p' = ⟨p.shared, p.tasks ++ [(r, program r)]⟩) ∨
    ∃ k i r c next, a = .serve k i ∧ p.tasks[k]? = some (r, .await c next) ∧
      o = some ⟨k, r, c, (serve i c p.shared).1⟩ ∧
      p' = ⟨(serve i c p.shared).2, p.tasks.set k (r, next (serve i c p.shared).1)⟩ := by
  cases a with
  | start r =>
      cases h
      exact .inl ⟨r, rfl, rfl, rfl⟩
  | serve k i =>
      simp only [machine, step] at h
      split at h
      · rename_i r c next hk
        cases h
        exact .inr ⟨k, i, r, c, next, rfl, hk, rfl, rfl⟩
      · cases h

/-- Every call of a log was made where `P` allows it, and the calls of a task are of one request. -/
structure Kept (P : ρ → List (Reply ε A) → C → Prop) (log : List (Served ρ ε A)) : Prop where
  made : ∀ a e b, log = a ++ e :: b → P e.request (past a e.task) e.call
  request : ∀ e ∈ log, ∀ e' ∈ log, e.task = e'.task → e.request = e'.request

variable {P : ρ → List (Reply ε A) → C → Prop} {R : ρ → List (Reply ε A) → α → Prop}

theorem Kept.before {a b : List (Served ρ ε A)} (h : Kept P (a ++ b)) : Kept P a where
  made x e y heq := h.made x e (y ++ b) (by simp [heq])
  request e he e' he' := h.request e (List.mem_append_left _ he) e' (List.mem_append_left _ he')

/-- What every program keeps to, the tasks of a pool keep to, with the log that they left. -/
structure Keeping (P : ρ → List (Reply ε A) → C → Prop) (R : ρ → List (Reply ε A) → α → Prop)
    (log : List (Served ρ ε A)) (p : Pool σ ρ ε A α) : Prop where
  kept : Kept P log
  task : ∀ k r t, p.tasks[k]? = some (r, t) → Task.Obeys (P r) (R r) (past log k) t
  owner : ∀ e ∈ log, p.tasks[e.task]?.map Prod.fst = some e.request

theorem Keeping.initial (s : σ) : Keeping P R [] (⟨s, []⟩ : Pool σ ρ ε A α) := by
  constructor
  case kept => exact ⟨by simp, by simp⟩
  all_goals simp

theorem Keeping.start {log : List (Served ρ ε A)} {p : Pool σ ρ ε A α} (h : Keeping P R log p) {r : ρ}
    {t : Task ε A α} (ht : Task.Obeys (P r) (R r) [] t) : Keeping P R log ⟨p.shared, p.tasks ++ [(r, t)]⟩ := by
  have hlt : ∀ e ∈ log, e.task < p.tasks.length := by
    intro e he
    by_contra hge
    have := h.owner e he
    simp [List.getElem?_eq_none (not_lt.mp hge)] at this
  constructor
  case kept => exact h.kept
  case task =>
    intro k r' t' hk
    rcases lt_or_ge k p.tasks.length with hlen | hlen
    · exact h.task k r' t' (by simpa [List.getElem?_append_left hlen] using hk)
    · -- nothing has been served for the new task
      have hnew : (r', t') = (r, t) := by
        rw [List.getElem?_append_right hlen] at hk
        simpa using List.mem_of_getElem? hk
      cases hnew
      have hnone : past log k = [] := by
        simp only [past, List.map_eq_nil_iff, List.filter_eq_nil_iff, decide_eq_true_eq]
        intro e he hek
        have := hlt e he
        omega
      rw [hnone]
      exact ht
  case owner =>
    intro e he
    rw [List.getElem?_append_left (hlt e he)]
    exact h.owner e he

theorem Keeping.answered {log : List (Served ρ ε A)} {p : Pool σ ρ ε A α} (h : Keeping P R log p) {k : ℕ} {r : ρ} {c : C}
    {next : Except ε (A c) → Task ε A α} (hk : p.tasks[k]? = some (r, .await c next)) (answer : Except ε (A c)) (s : σ) :
    Keeping P R (log ++ [⟨k, r, c, answer⟩]) ⟨s, p.tasks.set k (r, next answer)⟩ := by
  obtain ⟨hc, hnext⟩ := h.task k r _ hk
  have hlen : k < p.tasks.length := (List.getElem?_eq_some_iff.mp hk).1
  have howner : ∀ e ∈ log, e.task = k → e.request = r := by
    intro e he hek
    have := h.owner e he
    simp [hek, hk] at this
    exact this.symm
  constructor
  case kept =>
    constructor
    case made => exact splits_snoc h.kept.made hc
    case request =>
      intro e he e' he' hsame
      rcases List.mem_append.mp he with he | he
      · rcases List.mem_append.mp he' with he' | he'
        · exact h.kept.request e he e' he' hsame
        · obtain rfl := List.mem_singleton.mp he'
          exact howner e he hsame
      · obtain rfl := List.mem_singleton.mp he
        rcases List.mem_append.mp he' with he' | he'
        · exact (howner e' he' hsame.symm).symm
        · obtain rfl := List.mem_singleton.mp he'
          rfl
  case task =>
    intro k' r' t' hk'
    rw [past_snoc]
    by_cases heq : k = k'
    · subst heq
      rw [List.getElem?_set_self hlen] at hk'
      cases hk'
      simpa using hnext answer
    · rw [List.getElem?_set_ne heq] at hk'
      simpa [heq] using h.task k' r' t' hk'
  case owner =>
    intro e he
    rcases List.mem_append.mp he with he | he
    · by_cases heq : k = e.task
      · rw [← heq, List.getElem?_set_self hlen, howner e he heq.symm]
        rfl
      · rw [List.getElem?_set_ne heq]
        exact h.owner e he
    · obtain rfl := List.mem_singleton.mp he
      simp [List.getElem?_set_self hlen]

/-! ## Runs -/

variable (program serve) in
/-- What each served call does to log and shared state together holds in every run, where the calls before
it are known to keep to `P`. -/
theorem run_log (hprogram : ∀ r, Task.Obeys (P r) (R r) [] (program r)) {I : List (Served ρ ε A) → σ → Prop} {s : σ}
    (h0 : I [] s)
    (hstep : ∀ log s k i r c, Kept P (log ++ [⟨k, r, c, (serve i c s).1⟩]) → I log s →
      I (log ++ [⟨k, r, c, (serve i c s).1⟩]) (serve i c s).2) (acts : List (PoolAct ρ ι)) :
    Keeping P R (log program serve s acts) (reached program serve s acts) ∧
      I (log program serve s acts) (reached program serve s acts).shared := by
  refine Machine.run_history (m := machine program serve)
    (H := fun h p => Keeping P R (h.filterMap Prod.snd) p ∧ I (h.filterMap Prod.snd) p.shared) ?_ (h := [])
    ⟨Keeping.initial s, h0⟩ acts
  rintro h p a p' o ⟨hkeep, hI⟩ hs
  rw [Machine.filterMap_snoc]
  rcases step_cases hs with ⟨r, rfl, rfl, rfl⟩ | ⟨k, i, r, c, next, rfl, hk, rfl, rfl⟩
  · simp only [Option.toList_none, List.append_nil]
    exact ⟨hkeep.start (hprogram r), hI⟩
  · have hkeep' := hkeep.answered hk (serve i c p.shared).1 (serve i c p.shared).2
    exact ⟨hkeep', hstep _ _ k i r c hkeep'.kept hI⟩

/-- The tasks of a pool are of the requests that were started, in that order. -/
theorem reached_requests (s : σ) (acts : List (PoolAct ρ ι)) :
    (reached program serve s acts).tasks.map Prod.fst = acts.filterMap PoolAct.started := by
  induction acts using List.reverseRecOn with
  | nil => rfl
  | append_singleton acts a ih =>
      rw [List.filterMap_append, ← ih, reached, Machine.run_append, Machine.run_cons, Machine.run_nil]
      change ((machine program serve).attempt (reached program serve s acts) a).tasks.map Prod.fst = _
      cases hs : (machine program serve).step (reached program serve s acts) a with
      | error e =>
          rw [Machine.attempt_error hs]
          cases a with
          | start r => cases hs
          | serve k i => simp [PoolAct.started]
      | ok stepped =>
          obtain ⟨p', o⟩ := stepped
          rw [Machine.attempt_ok hs]
          rcases step_cases hs with ⟨r, rfl, rfl, rfl⟩ | ⟨k, i, r, c, next, rfl, hk, rfl, rfl⟩
          · simp [PoolAct.started]
          · obtain ⟨hlt, hget⟩ := List.getElem?_eq_some_iff.mp hk
            have hlen : k < ((reached program serve s acts).tasks.map Prod.fst).length := by simpa using hlt
            have hr : r = ((reached program serve s acts).tasks.map Prod.fst)[k] := by simp [hget]
            rw [List.map_set, hr, List.set_getElem_self]
            simp [PoolAct.started]

/-- What one more act does to the log and the shared state of a run. -/
theorem next_cases (s : σ) (acts : List (PoolAct ρ ι)) (a : PoolAct ρ ι) :
    (log program serve s (acts ++ [a]) = log program serve s acts ∧
      (reached program serve s (acts ++ [a])).shared = (reached program serve s acts).shared) ∨
    ∃ k i r c, a = .serve k i ∧
      log program serve s (acts ++ [a]) =
        log program serve s acts ++ [⟨k, r, c, (serve i c (reached program serve s acts).shared).1⟩] ∧
      (reached program serve s (acts ++ [a])).shared = (serve i c (reached program serve s acts).shared).2 := by
  simp only [log, reached, Machine.run_append, Machine.run_cons, Machine.run_nil, Machine.accepted_append,
    List.filterMap_append]
  cases hs : (machine program serve).step ((machine program serve).run ⟨s, []⟩ acts) a with
  | error e => exact .inl (by simp [Machine.accepted, Machine.attempt_error hs, hs])
  | ok stepped =>
      obtain ⟨p', o⟩ := stepped
      rw [Machine.attempt_ok hs]
      rcases step_cases hs with ⟨r, rfl, rfl, rfl⟩ | ⟨k, i, r, c, next, rfl, _, rfl, rfl⟩
      · exact .inl (by simp [Machine.accepted, hs])
      · exact .inr ⟨k, i, r, c, rfl, by simp [Machine.accepted, hs], rfl⟩

end Pool

end BullsUnicorns

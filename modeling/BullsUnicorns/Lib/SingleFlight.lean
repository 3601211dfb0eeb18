import Mathlib.Tactic

/-!
# One task in flight

Callers share a task through a field that holds its promise: who finds the field empty starts the task, and the
task's end empties it. The tasks that have not ended are kept apart from the field. A history tells what the tasks
did: when each was started, what it came to, and that it ended.
-/

namespace BullsUnicorns.SingleFlight

/-- A task that has not ended; `result` is what its callers are to be answered. -/
structure Flight (τ ρ : Type) where
  id : ℕ
  began : τ
  result : Option ρ

structure Flights (τ ρ : Type) where
  inflight : Option ℕ
  running : List (Flight τ ρ)
  /-- How many tasks have been started, and the name of the next one. -/
  begun : ℕ

namespace Flights

variable {τ ρ : Type}

def idle : Flights τ ρ := ⟨none, [], 0⟩

def find? (f : Flights τ ρ) (id : ℕ) : Option (Flight τ ρ) := f.running.find? (·.id = id)

def start (f : Flights τ ρ) (t : τ) : Flights τ ρ :=
  ⟨some f.begun, f.running ++ [⟨f.begun, t, none⟩], f.begun + 1⟩

def settle (f : Flights τ ρ) (id : ℕ) (result : ρ) : Flights τ ρ :=
  { f with running := f.running.map fun flight => if flight.id = id then { flight with result := some result } else flight }

/-- The end of a task empties the field, whatever it holds. -/
def release (f : Flights τ ρ) (id : ℕ) : Flights τ ρ :=
  { f with inflight := none, running := f.running.filter (·.id ≠ id) }

end Flights

/-! ## What has happened -/

/-- A task may come to nothing. -/
inductive Event (τ α : Type) where
  | began (t : τ)
  | settled (outcome : Option α)
  | ended

/-- How far the last task has got, with its start. -/
inductive Stage (τ α : Type) where
  | running (t : τ)
  | settled (t : τ) (outcome : Option α)
  | ended (t : τ) (outcome : Option α)

def Stage.began {τ α : Type} : Stage τ α → τ
  | .running t => t
  | .settled t _ => t
  | .ended t _ => t

/-- What the task came to, as far as is known. -/
def Stage.outcome {τ α : Type} : Stage τ α → Option α
  | .running _ => none
  | .settled _ outcome => outcome
  | .ended _ outcome => outcome

structure Past (τ α : Type) where
  starts : List τ
  /-- What the tasks produced, each with the start of the task that did. -/
  produced : List (α × τ)
  stage : Option (Stage τ α)

namespace Past

variable {τ α : Type}

def empty : Past τ α := ⟨[], [], none⟩

def next (p : Past τ α) : Event τ α → Past τ α
  | .began t => { p with starts := p.starts ++ [t], stage := some (.running t) }
  | .settled outcome =>
      match p.stage with
      | some (.running t) =>
          { p with produced := p.produced ++ (outcome.map (·, t)).toList, stage := some (.settled t outcome) }
      | _ => p
  | .ended =>
      match p.stage with
      | some (.settled t outcome) => { p with stage := some (.ended t outcome) }
      | _ => p

/-- The last product, with the start of its task. -/
def latest (p : Past τ α) : Option (α × τ) := p.produced.getLast?

/-- What a log says, entry by entry. -/
def ofLog {β : Type} (events : β → List (Event τ α)) (log : List β) : Past τ α := (log.flatMap events).foldl next empty

theorem ofLog_snoc {β : Type} (events : β → List (Event τ α)) (log : List β) (b : β) :
    ofLog events (log ++ [b]) = (events b).foldl next (ofLog events log) := by
  simp [ofLog]

section

variable {p : Past τ α} {t : τ} {outcome : Option α}

@[simp]
theorem next_began (p : Past τ α) (t : τ) :
    p.next (.began t) = { p with starts := p.starts ++ [t], stage := some (.running t) } := rfl

theorem next_settled (h : p.stage = some (.running t)) (outcome : Option α) :
    p.next (.settled outcome) =
      { p with produced := p.produced ++ (outcome.map (·, t)).toList, stage := some (.settled t outcome) } := by
  simp [next, h]

theorem next_ended (h : p.stage = some (.settled t outcome)) :
    p.next .ended = { p with stage := some (.ended t outcome) } := by
  simp [next, h]

end

/-- Nothing was started after the last task, which was started by the time `now`. -/
structure Timely [Preorder τ] (now : τ) (p : Past τ α) : Prop where
  starts : ∀ t ∈ p.starts, ∃ stage, p.stage = some stage ∧ t ≤ stage.began
  began : ∀ stage, p.stage = some stage → stage.began ≤ now ∧ stage.began ∈ p.starts
  produced : ∀ r ∈ p.produced, r.2 ∈ p.starts

namespace Timely

variable [Preorder τ] {now now' t : τ} {p : Past τ α} {outcome : Option α}

theorem empty (now : τ) : Timely now (empty : Past τ α) := by
  constructor <;> simp [Past.empty]

theorem later (h : Timely now p) (hle : now ≤ now') : Timely now' p :=
  { h with began := fun stage hstage => ⟨(h.began stage hstage).1.trans hle, (h.began stage hstage).2⟩ }

theorem start_le (h : Timely now p) (ht : t ∈ p.starts) : t ≤ now := by
  obtain ⟨stage, hstage, hle⟩ := h.starts t ht
  exact hle.trans (h.began stage hstage).1

theorem next_began (h : Timely now p) : Timely now (p.next (.began now)) := by
  constructor
  case starts =>
    intro t ht
    refine ⟨.running now, rfl, ?_⟩
    rcases List.mem_append.mp ht with ht | ht
    · exact h.start_le ht
    · exact (List.mem_singleton.mp ht).le
  case began =>
    rintro _ ⟨⟩
    exact ⟨le_rfl, by simp [Stage.began]⟩
  case produced => exact fun r hr => List.mem_append_left _ (h.produced r hr)

/-- The last task gets further. -/
theorem restage (h : Timely now p) {stage : Stage τ α} (hstage : p.stage = some stage) (stage' : Stage τ α)
    (hbegan : stage'.began = stage.began) {produced : List (α × τ)}
    (hproduced : ∀ r ∈ produced, r ∈ p.produced ∨ r.2 = stage.began) :
    Timely now { p with produced := produced, stage := some stage' } := by
  constructor
  case starts =>
    intro t ht
    obtain ⟨last, hlast, hle⟩ := h.starts t ht
    cases hstage.symm.trans hlast
    exact ⟨stage', rfl, hbegan ▸ hle⟩
  case began =>
    rintro _ ⟨⟩
    exact hbegan ▸ h.began stage hstage
  case produced =>
    intro r hr
    rcases hproduced r hr with hr | hr
    · exact h.produced r hr
    · exact hr ▸ (h.began stage hstage).2

theorem next_settled (h : Timely now p) (hstage : p.stage = some (.running t)) (outcome : Option α) :
    Timely now (p.next (.settled outcome)) := by
  rw [Past.next_settled hstage]
  refine h.restage hstage (.settled t outcome) rfl fun r hr => ?_
  rcases List.mem_append.mp hr with hr | hr
  · exact .inl hr
  · cases outcome with
    | none => simp at hr
    | some a =>
        cases List.mem_singleton.mp hr
        exact .inr rfl

theorem next_ended (h : Timely now p) (hstage : p.stage = some (.settled t outcome)) : Timely now (p.next .ended) := by
  rw [Past.next_ended hstage]
  exact h.restage hstage (.ended t outcome) rfl fun r hr => .inl hr

end Timely

end Past

/-! ## The field against the history -/

variable {τ α ρ : Type}

/-- At most one task has not ended; the field holds it, it is the last one of the history, and once it has a result
that is `answer`. -/
inductive Single (answer : ρ) : Flights τ ρ → Option (Stage τ α) → Prop
  | fresh (n : ℕ) : Single answer ⟨none, [], n⟩ none
  | running (id : ℕ) (t : τ) (n : ℕ) : Single answer ⟨some id, [⟨id, t, none⟩], n⟩ (some (.running t))
  | settled (id : ℕ) (t : τ) (outcome : Option α) (n : ℕ) :
      Single answer ⟨some id, [⟨id, t, some answer⟩], n⟩ (some (.settled t outcome))
  | ended (t : τ) (outcome : Option α) (n : ℕ) : Single answer ⟨none, [], n⟩ (some (.ended t outcome))

namespace Single

variable {f : Flights τ ρ} {stage : Option (Stage τ α)} {answer : ρ} {id : ℕ}

theorem length_le (h : Single answer f stage) : f.running.length ≤ 1 := by
  cases h <;> simp

/-- The field is empty where no task has been started since the last one ended. -/
theorem inflight_eq_none (h : Single answer f stage) :
    f.inflight = none ↔ stage = none ∨ ∃ t outcome, stage = some (.ended t outcome) := by
  cases h <;> simp

/-- The field holds a task that runs, or one that has come back and not ended. -/
theorem inflight_eq_some (h : Single answer f stage) (hid : f.inflight = some id) :
    (f.find? id).isSome = true ∧ ∃ t, stage = some (.running t) ∨ ∃ outcome, stage = some (.settled t outcome) := by
  cases h with
  | fresh n => cases hid
  | ended t outcome n => cases hid
  | running id' t n =>
      cases hid
      exact ⟨by simp [Flights.find?], t, .inl rfl⟩
  | settled id' t outcome n =>
      cases hid
      exact ⟨by simp [Flights.find?], t, .inr ⟨outcome, rfl⟩⟩

/-- A task that has not ended is in the field. -/
theorem inflight_of_find (h : Single answer f stage) {flight : Flight τ ρ} (hfind : f.find? id = some flight) :
    f.inflight = some id := by
  cases h with
  | fresh n => cases hfind
  | ended t outcome n => cases hfind
  | running id' t n =>
      obtain ⟨rfl, -⟩ : id' = id ∧ ⟨id', t, none⟩ = flight := by simpa [Flights.find?] using hfind
      rfl
  | settled id' t outcome n =>
      obtain ⟨rfl, -⟩ : id' = id ∧ ⟨id', t, some answer⟩ = flight := by simpa [Flights.find?] using hfind
      rfl

theorem start (h : Single answer f stage) (hidle : f.inflight = none) (t : τ) (answer' : ρ) :
    Single answer' (f.start t) (some (.running t) : Option (Stage τ α)) := by
  cases h with
  | fresh n => exact .running n t (n + 1)
  | ended t' outcome n => exact .running n t (n + 1)
  | running id t' n => cases hidle
  | settled id t' outcome n => cases hidle

/-- A task without a result is the one that the history has running. -/
theorem find_running (h : Single answer f stage) {k : ℕ} {t : τ} (hfind : f.find? id = some ⟨k, t, none⟩) :
    stage = some (.running t) ∧ f.inflight = some id ∧
      ∀ (answer' : ρ) (outcome : Option α), Single answer' (f.settle id answer') (some (.settled t outcome)) := by
  cases h with
  | fresh n => cases hfind
  | ended t' outcome n => cases hfind
  | running id' t' n =>
      obtain ⟨rfl, rfl, rfl⟩ : id' = id ∧ id' = k ∧ t' = t := by simpa [Flights.find?] using hfind
      exact ⟨rfl, rfl, fun answer' outcome => by simpa [Flights.settle] using .settled id' t' outcome n⟩
  | settled id' t' outcome n => simp [Flights.find?] at hfind

/-- A task with a result is the one that the history has settled, and its end leaves none. -/
theorem find_settled (h : Single answer f stage) {k : ℕ} {t : τ} {result : ρ}
    (hfind : f.find? id = some ⟨k, t, some result⟩) :
    ∃ outcome, stage = some (.settled t outcome) ∧ f.inflight = some id ∧ result = answer ∧
      ∀ answer' : ρ, Single answer' (f.release id) (some (.ended t outcome)) := by
  cases h with
  | fresh n => cases hfind
  | ended t' outcome n => cases hfind
  | running id' t' n => simp [Flights.find?] at hfind
  | settled id' t' outcome n =>
      obtain ⟨rfl, rfl, rfl, rfl⟩ : id' = id ∧ id' = k ∧ t' = t ∧ answer = result := by
        simpa [Flights.find?] using hfind
      exact ⟨outcome, rfl, rfl, rfl, fun answer' => by simpa [Flights.release] using .ended t' outcome n⟩

end Single

end BullsUnicorns.SingleFlight

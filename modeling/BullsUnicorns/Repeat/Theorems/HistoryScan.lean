import BullsUnicorns.Lib.History
import BullsUnicorns.Repeat.HistoryScan

/-!
# What the scan has read when it stops

The misses that it counts are those of the run of absences that its reads end with. It stops only on such a
run, less than a batch after the run was long enough.
-/

namespace BullsUnicorns.Repeat

variable {σ : Type} {read : ℤ → RoundRead σ} {guaranteed newest : ℤ} {w : RoundLogWalk σ}

def RoundRead.summary? : RoundRead σ → Option σ
  | .summary s => some s
  | _ => none

def RoundRead.error? : RoundRead σ → Option String
  | .rejected message => some message
  | _ => none

def RoundRead.isNull : RoundRead σ → Bool
  | .null => true
  | _ => false

/-- A null counts, a rejection does not. -/
def RoundRead.resolved : RoundRead σ → Bool
  | .rejected _ => false
  | _ => true

/-- The absences that a list of reads ends with. -/
def lastAbsences (read : ℤ → RoundRead σ) (asked : List ℤ) : List ℤ := History.since (fun n => !(read n).isNull) asked

/-- Those of them that are misses. -/
def missesIn (read : ℤ → RoundRead σ) (guaranteed : ℤ) (asked : List ℤ) : ℕ :=
  (lastAbsences read asked).countP fun n => n < guaranteed

/-! ## One read -/

/-- What the loop has in hand is what it has read. -/
structure Tallied (read : ℤ → RoundRead σ) (guaranteed : ℤ) (w : RoundLogWalk σ) : Prop where
  summaries : w.summaries = w.asked.filterMap fun n => (read n).summary?
  succeeded : w.succeeded = w.asked.countP fun n => (read n).resolved
  firstError : w.firstError = w.asked.findSome? fun n => (read n).error?
  misses : w.misses = missesIn read guaranteed w.asked

theorem lastAbsences_other {asked : List ℤ} {n : ℤ} (h : (read n).isNull = false) :
    lastAbsences read (asked ++ [n]) = [] :=
  History.since_mark (by simp [h])

theorem lastAbsences_null {asked : List ℤ} {n : ℤ} (h : (read n).isNull = true) :
    lastAbsences read (asked ++ [n]) = lastAbsences read asked ++ [n] :=
  History.since_other (by simp [h])

theorem Tallied.fold (h : Tallied read guaranteed w) (n : ℤ) : Tallied read guaranteed (foldRead read guaranteed w n) := by
  unfold foldRead
  cases hread : read n with
  | rejected message =>
      constructor
      case summaries => simp [h.summaries, hread, RoundRead.summary?]
      case succeeded => simp [h.succeeded, hread, RoundRead.resolved]
      case firstError =>
          have herror : (read n).error? = some message := by rw [hread]; rfl
          simp only [h.firstError, List.findSome?_append, List.findSome?_cons, herror]
          cases w.asked.findSome? fun n => (read n).error? <;> rfl
      case misses => simp [missesIn, lastAbsences_other, hread, RoundRead.isNull]
  | summary s =>
      constructor
      case summaries => simp [h.summaries, hread, RoundRead.summary?]
      case succeeded => simp [h.succeeded, hread, RoundRead.resolved]
      case firstError => simp [h.firstError, hread, RoundRead.error?]
      case misses => simp [missesIn, lastAbsences_other, hread, RoundRead.isNull]
  | null =>
      constructor
      case summaries => simp [h.summaries, hread, RoundRead.summary?]
      case succeeded => simp [h.succeeded, hread, RoundRead.resolved]
      case firstError => simp [h.firstError, hread, RoundRead.error?]
      case misses =>
          have hnull : (read n).isNull = true := by rw [hread]; rfl
          simp only [missesIn, lastAbsences_null hnull, List.countP_append, List.countP_cons, List.countP_nil,
            decide_eq_true_eq]
          have hmisses := h.misses
          rw [missesIn] at hmisses
          split <;> omega

theorem foldRead_asked (w : RoundLogWalk σ) (n : ℤ) : (foldRead read guaranteed w n).asked = w.asked ++ [n] := by
  unfold foldRead
  cases read n <;> rfl

theorem Tallied.batch (h : Tallied read guaranteed w) (ns : List ℤ) :
    Tallied read guaranteed (ns.foldl (foldRead read guaranteed) w) ∧
      (ns.foldl (foldRead read guaranteed) w).asked = w.asked ++ ns := by
  induction ns generalizing w with
  | nil => exact ⟨h, (List.append_nil _).symm⟩
  | cons n ns ih =>
      obtain ⟨hwalked, hasked⟩ := ih (h.fold n)
      refine ⟨hwalked, ?_⟩
      rw [List.foldl_cons, hasked, foldRead_asked, List.append_assoc]
      rfl

/-! ## The loop -/

/-- Either everything was asked for, or the walk stopped after a batch, at whose start there were too few
misses to stop. -/
theorem walk_spec {fuel : ℕ} {numbers : List ℤ} (hfuel : numbers.length ≤ fuel) (h : Tallied read guaranteed w)
    (hfew : w.misses < STOP_AFTER_CONSECUTIVE_MISSES) :
    Tallied read guaranteed (walkRounds read (fun _ => false) guaranteed fuel numbers w) ∧
      ((walkRounds read (fun _ => false) guaranteed fuel numbers w).asked = w.asked ++ numbers ∧
          (walkRounds read (fun _ => false) guaranteed fuel numbers w).misses < STOP_AFTER_CONSECUTIVE_MISSES ∨
        ∃ j, (walkRounds read (fun _ => false) guaranteed fuel numbers w).asked = w.asked ++ numbers.take (j + BATCH) ∧
          STOP_AFTER_CONSECUTIVE_MISSES ≤ (walkRounds read (fun _ => false) guaranteed fuel numbers w).misses ∧
          missesIn read guaranteed (w.asked ++ numbers.take j) < STOP_AFTER_CONSECUTIVE_MISSES) := by
  induction fuel generalizing numbers w with
  | zero =>
      obtain rfl := List.eq_nil_of_length_eq_zero (Nat.le_zero.mp hfuel)
      exact ⟨h, .inl ⟨(List.append_nil _).symm, hfew⟩⟩
  | succ fuel ih =>
      rw [walkRounds]
      split
      · next hend =>
          obtain rfl : numbers = [] := by simpa using hend
          exact ⟨h, .inl ⟨(List.append_nil _).symm, hfew⟩⟩
      · next hmore =>
          have hne : numbers ≠ [] := fun hnil => hmore (.inl hnil)
          have hcounted : Tallied read guaranteed { w with batches := w.batches + 1 } :=
            ⟨h.summaries, h.succeeded, h.firstError, h.misses⟩
          obtain ⟨hbatch, hasked⟩ := hcounted.batch (numbers.take BATCH)
          extract_lets w'
          split
          · next hstop =>
              refine ⟨hbatch, .inr ⟨0, ?_, hstop, ?_⟩⟩
              · rw [Nat.zero_add]
                exact hasked
              · rw [List.take_zero, List.append_nil, ← h.misses]
                exact hfew
          · next hgo =>
              have hpos : 0 < numbers.length := List.length_pos_iff.mpr hne
              have hlen : (numbers.drop BATCH).length ≤ fuel := by
                rw [List.length_drop]
                have hb : 0 < BATCH := by decide
                omega
              obtain ⟨hwalked, ⟨hend, hless⟩ | ⟨j, hj, hstop, hbefore⟩⟩ := ih hlen hbatch (not_le.mp hgo)
              · refine ⟨hwalked, .inl ⟨?_, hless⟩⟩
                rw [hend, hasked, List.append_assoc, List.take_append_drop]
              · refine ⟨hwalked, .inr ⟨BATCH + j, ?_, hstop, ?_⟩⟩
                · rw [hj, hasked, List.append_assoc, ← List.take_add, Nat.add_assoc]
                · rw [hasked, List.append_assoc, ← List.take_add] at hbefore
                  exact hbefore

/-! ## The run that ends the walk -/

/-- The reads end with a run of absences, whose misses became enough to stop with `last`. -/
structure StopRun (read : ℤ → RoundRead σ) (guaranteed : ℤ) (asked before run : List ℤ) (last : ℤ)
    (after : List ℤ) : Prop where
  asked_eq : asked = before ++ (run ++ last :: after)
  broken : ∀ n ∈ before.getLast?, (read n).isNull = false
  nulls : ∀ n ∈ run ++ last :: after, (read n).isNull = true
  last_lt : last < guaranteed
  enough : (run ++ [last]).countP (fun n => n < guaranteed) = STOP_AFTER_CONSECUTIVE_MISSES

theorem StopRun.lastAbsences {asked before run after : List ℤ} {last : ℤ}
    (h : StopRun read guaranteed asked before run last after) (m : ℕ) :
    lastAbsences read (before ++ (run ++ last :: after.take m)) = run ++ last :: after.take m := by
  apply History.since_append
  · intro n hn
    simp [h.broken n hn]
  · intro n hn
    have hmem : n ∈ run ++ last :: after := by
      rcases List.mem_append.mp hn with hrun | htail
      · exact List.mem_append_left _ hrun
      · rcases List.mem_cons.mp htail with rfl | hafter
        · simp
        · simp [List.mem_of_mem_take hafter]
    simp [h.nulls n hmem]

theorem StopRun.le_missesIn {asked before run after : List ℤ} {last : ℤ}
    (h : StopRun read guaranteed asked before run last after) (m : ℕ) :
    STOP_AFTER_CONSECUTIVE_MISSES ≤ missesIn read guaranteed (before ++ (run ++ last :: after.take m)) := by
  rw [missesIn, h.lastAbsences, ← h.enough]
  apply List.Sublist.countP_le
  exact (List.Sublist.refl run).append ((List.nil_sublist _).cons_cons last)

theorem stopRun_exists {asked : List ℤ} (h : STOP_AFTER_CONSECUTIVE_MISSES ≤ missesIn read guaranteed asked) :
    ∃ before run last after, StopRun read guaranteed asked before run last after := by
  obtain ⟨before, hasked, hbroken, hnulls⟩ := History.split_since (fun n => !(read n).isNull) asked
  obtain ⟨run, last, after, hrun, hlast, hcount⟩ :=
    History.exists_countP_prefix (p := fun n => decide (n < guaranteed)) (by decide) h
  refine ⟨before, run, last, after, ⟨?_, ?_, ?_, of_decide_eq_true hlast, hcount⟩⟩
  · rw [← hrun]
    exact hasked
  · intro n hn
    simpa using hbroken n hn
  · intro n hn
    rw [← hrun] at hn
    simpa using hnulls n hn

/-! ## The rounds there are -/

theorem length_roundNumbers (newest : ℤ) : (roundNumbers newest).length = (min newest MAX_ROUNDS).toNat := by
  rw [roundNumbers, List.length_map, List.length_range, oldestRound, MAX_ROUNDS]
  split <;> omega

theorem take_roundNumbers (newest : ℤ) (m : ℕ) :
    (roundNumbers newest).take m =
      (List.range (min m (min newest MAX_ROUNDS).toNat)).map fun i : ℕ => newest - (i : ℤ) := by
  rw [← length_roundNumbers, roundNumbers, ← List.map_take, List.take_range, List.length_map, List.length_range]

theorem mem_downFrom {newest n : ℤ} {k : ℕ} :
    n ∈ (List.range k).map (fun i : ℕ => newest - (i : ℤ)) ↔ n ≤ newest ∧ newest < n + k := by
  simp only [List.mem_map, List.mem_range]
  constructor
  · rintro ⟨i, hi, rfl⟩
    omega
  · intro h
    exact ⟨(newest - n).toNat, by omega, by omega⟩

theorem downFrom_decreasing (newest : ℤ) (k : ℕ) :
    ((List.range k).map fun i : ℕ => newest - (i : ℤ)).Pairwise (· > ·) := by
  rw [List.pairwise_map]
  apply List.pairwise_lt_range.imp
  intro i j hij
  omega

/-! ## The scan -/

/-- What a scan that was not cancelled has asked for and what it answers. -/
structure ReadsEnough (newest : ℤ) (read : ℤ → RoundRead σ) (scan : RoundLogWalk σ) : Prop where
  contiguous : ∃ k : ℕ, (k : ℤ) ≤ MAX_ROUNDS ∧ k ≤ newest.toNat ∧
    scan.asked = (List.range k).map fun i : ℕ => newest - (i : ℤ)
  once : scan.asked.Pairwise (· > ·)
  summaries : scan.summaries = scan.asked.filterMap fun n => (read n).summary?
  decreasing : ∀ roundOf : σ → ℤ, (∀ n s, read n = .summary s → roundOf s = n) →
    (scan.summaries.map roundOf).Pairwise (· > ·)
  succeeded : scan.succeeded = scan.asked.countP fun n => (read n).resolved
  firstError : scan.firstError = scan.asked.findSome? fun n => (read n).error?
  window : ∀ n, 1 ≤ n → n ≤ newest → newest < n + MIN_RETAINED_ROUNDS → n ∈ scan.asked
  stopped : scan.asked.length < (min newest MAX_ROUNDS).toNat →
    ∃ before run last after, StopRun read (guaranteedFrom newest) scan.asked before run last after
  wasted : ∀ before run last after, StopRun read (guaranteedFrom newest) scan.asked before run last after →
    after.length ≤ BATCH - 1

theorem summaries_decreasing {asked : List ℤ} (hasked : asked.Pairwise (· > ·)) {roundOf : σ → ℤ}
    (hround : ∀ n s, read n = .summary s → roundOf s = n) :
    ((asked.filterMap fun n => (read n).summary?).map roundOf).Pairwise (· > ·) := by
  have hof : ∀ n s, (read n).summary? = some s → roundOf s = n := by
    intro n s hs
    cases hread : read n with
    | summary t =>
        rw [hread] at hs
        cases hs
        exact hround n s hread
    | null => rw [hread] at hs; cases hs
    | rejected message => rw [hread] at hs; cases hs
  rw [List.pairwise_map, List.pairwise_filterMap]
  apply hasked.imp
  intro a b hab s hs t ht
  rw [hof a s hs, hof b t ht]
  exact hab

/-- What is left when the walk ends: all of it was asked for with too few misses, or it stopped at a boundary. -/
theorem scan_ends (newest : ℤ) (read : ℤ → RoundRead σ) :
    Tallied read (guaranteedFrom newest) (scanRoundLog newest read fun _ => false) ∧
      ∃ j, (scanRoundLog newest read fun _ => false).asked = (roundNumbers newest).take (j + BATCH) ∧
        ((roundNumbers newest).length ≤ j + BATCH ∧ missesIn read (guaranteedFrom newest)
            (scanRoundLog newest read fun _ => false).asked < STOP_AFTER_CONSECUTIVE_MISSES ∨
          STOP_AFTER_CONSECUTIVE_MISSES ≤
              missesIn read (guaranteedFrom newest) (scanRoundLog newest read fun _ => false).asked ∧
            missesIn read (guaranteedFrom newest) ((roundNumbers newest).take j) < STOP_AFTER_CONSECUTIVE_MISSES) := by
  have hstart : Tallied read (guaranteedFrom newest) ⟨⟨[], 0, none⟩, 0, [], 0⟩ := ⟨rfl, rfl, rfl, rfl⟩
  obtain ⟨hwalked, hends⟩ := walk_spec (le_refl (roundNumbers newest).length) hstart (Nat.zero_lt_succ 2)
  refine ⟨hwalked, ?_⟩
  rcases hends with ⟨hall, hfew⟩ | ⟨j, hasked, hstop, hbefore⟩
  · refine ⟨(roundNumbers newest).length, ?_, .inl ⟨Nat.le_add_right _ _, ?_⟩⟩
    · rw [List.take_of_length_le (Nat.le_add_right _ _)]
      exact hall
    · rw [scanRoundLog, ← hwalked.misses]
      exact hfew
  · refine ⟨j, hasked, .inr ⟨?_, hbefore⟩⟩
    rw [scanRoundLog, ← hwalked.misses]
    exact hstop

/-- A run that was long enough a whole batch ago would have ended the walk at the boundary before. -/
theorem StopRun.wasted {numbers before run after : List ℤ} {last : ℤ} {j : ℕ}
    (h : StopRun read guaranteed (numbers.take (j + BATCH)) before run last after)
    (hbefore : missesIn read guaranteed (numbers.take j) < STOP_AFTER_CONSECUTIVE_MISSES) :
    after.length ≤ BATCH - 1 := by
  by_contra hlong
  have hlen : (before ++ (run ++ last :: after)).length ≤ j + BATCH := by
    rw [← h.asked_eq]
    exact List.length_take_le _ _
  simp only [List.length_append, List.length_cons] at hlen
  have hb : 0 < BATCH := by decide
  have htake : numbers.take j =
      before ++ (run ++ last :: after.take (j - (before.length + (run.length + 1)))) := by
    have hcut : numbers.take j = (numbers.take (j + BATCH)).take j := by
      rw [List.take_take, min_eq_left (Nat.le_add_right _ _)]
    obtain ⟨m, rfl⟩ : ∃ m, j = before.length + (run.length + (m + 1)) :=
      ⟨j - (before.length + (run.length + 1)), by omega⟩
    rw [hcut, h.asked_eq, List.take_length_add_append, List.take_length_add_append, List.take_succ_cons]
    congr 5
    omega
  have henough := h.le_missesIn (j - (before.length + (run.length + 1)))
  rw [← htake] at henough
  exact absurd hbefore (not_lt.mpr henough)

theorem scan_reads_enough (newest : ℤ) (read : ℤ → RoundRead σ) :
    ReadsEnough newest read (scanRoundLog newest read fun _ => false) := by
  obtain ⟨hwalked, j, hasked, hends⟩ := scan_ends newest read
  set scan := scanRoundLog newest read fun _ => false
  have hrange := hasked
  rw [take_roundNumbers] at hrange
  have honce : scan.asked.Pairwise (· > ·) := by
    rw [hrange]
    exact downFrom_decreasing _ _
  constructor
  case contiguous =>
      refine ⟨_, ?_, ?_, hrange⟩
      · rw [MAX_ROUNDS]
        omega
      · omega
  case once => exact honce
  case summaries => exact hwalked.summaries
  case decreasing =>
      intro roundOf hround
      rw [hwalked.summaries]
      exact summaries_decreasing honce hround
  case succeeded => exact hwalked.succeeded
  case firstError => exact hwalked.firstError
  case window =>
      intro n hpos hle hnew
      rw [hrange, mem_downFrom]
      refine ⟨hle, ?_⟩
      rcases hends with ⟨hall, -⟩ | ⟨hstop, -⟩
      · rw [length_roundNumbers] at hall
        rw [min_eq_right hall]
        rw [MIN_RETAINED_ROUNDS] at hnew
        rw [MAX_ROUNDS]
        omega
      · obtain ⟨before, run, last, after, hrun⟩ := stopRun_exists hstop
        have hlast : last ∈ scan.asked := by
          rw [hrun.asked_eq]
          simp
        rw [hrange, mem_downFrom] at hlast
        have hbelow := hrun.last_lt
        rw [guaranteedFrom] at hbelow
        split at hbelow <;> omega
  case stopped =>
      intro hshort
      rcases hends with ⟨hall, -⟩ | ⟨hstop, -⟩
      · rw [hasked, List.take_of_length_le hall, length_roundNumbers] at hshort
        exact absurd hshort (lt_irrefl _)
      · exact stopRun_exists hstop
  case wasted =>
      intro before run last after hrun
      rcases hends with ⟨-, hfew⟩ | ⟨-, hbefore⟩
      · have henough := hrun.le_missesIn after.length
        rw [List.take_length, ← hrun.asked_eq] at henough
        exact absurd hfew (not_lt.mpr henough)
      · rw [hasked] at hrun
        exact hrun.wasted hbefore

end BullsUnicorns.Repeat

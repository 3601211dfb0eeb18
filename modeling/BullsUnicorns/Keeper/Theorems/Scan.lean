import BullsUnicorns.Keeper.Lemmas.Scan

/-!
# The oldest living round

What a scan returns is one run of consecutive rounds answered absent, read off its own probes, whatever the
network answers.
-/

namespace BullsUnicorns.Keeper

variable {ε : Type}

/-- The answers of a read that are believed: the prefix that the rounds asked about and the reply share. -/
def Probed.believed (p : Probed ε) : List (ℤ × Bool) :=
  match p.2 with
  | .error _ => []
  | .ok existing => p.1.zip existing

def believedAnswers (probes : List (Probed ε)) : List (ℤ × Bool) := probes.flatMap Probed.believed

/-- `count` rounds from `start` on, all absent. -/
def absences (start : ℤ) (count : ℕ) : List (ℤ × Bool) := (List.range count).map fun i : ℕ => (start + i, false)

@[simp]
theorem absences_length (start : ℤ) (count : ℕ) : (absences start count).length = count := by simp [absences]

theorem mem_absences {start n : ℤ} {count : ℕ} {present : Bool} :
    (n, present) ∈ absences start count ↔ start ≤ n ∧ n < start + count ∧ present = false := by
  simp only [absences, List.mem_map, List.mem_range, Prod.mk.injEq]
  constructor
  · rintro ⟨i, hi, rfl, rfl⟩
    exact ⟨by omega, by omega, rfl⟩
  · rintro ⟨hfrom, hto, rfl⟩
    obtain ⟨i, rfl⟩ := Int.le.dest hfrom
    exact ⟨i, by omega, rfl, rfl⟩

theorem absences_append (start : ℤ) (count more : ℕ) :
    absences start count ++ absences (start + count) more = absences start (count + more) := by
  simp [absences, List.range_add, add_assoc]

theorem absences_nodup (start : ℤ) (count : ℕ) : ((absences start count).map Prod.fst).Nodup := by
  rw [absences, List.map_map]
  exact List.nodup_range.map fun i j hij => by simpa using hij

@[simp]
theorem believedAnswers_nil : believedAnswers ([] : List (Probed ε)) = [] := rfl

@[simp]
theorem believedAnswers_append (probes probes' : List (Probed ε)) :
    believedAnswers (probes ++ probes') = believedAnswers probes ++ believedAnswers probes' :=
  List.flatMap_append

@[simp]
theorem believedAnswers_singleton (p : Probed ε) : believedAnswers [p] = p.believed := by simp [believedAnswers]

namespace CloseCursorScanOptions

variable {opts : CloseCursorScanOptions ε} {cursor : ℤ} {existing : List Bool} {probes : List (Probed ε)}

theorem window_length_le (hbatch : 1 ≤ opts.batch) : ((opts.window cursor).length : ℤ) ≤ opts.batch := by
  simp only [window, List.length_map, List.length_range]
  omega

/-- A read without a living round extends the run of absences. -/
theorem believed_of_find_none (h : ((opts.window cursor).zip existing).find? Prod.snd = none) :
    (opts.window cursor).zip existing = absences cursor ((opts.window cursor).zip existing).length := by
  refine List.ext_getElem (by simp) fun j hj hj' => ?_
  have hsnd := (List.find?_eq_none.mp h) _ (List.getElem_mem hj)
  have hpair : ((opts.window cursor).zip existing)[j] = (cursor + j, false) :=
    Prod.ext (believed_fst hj) (Bool.eq_false_of_not_eq_true hsnd)
  rw [hpair]
  simp [absences]

/-- A read with one ends the run there, and what it says of later rounds is past it. -/
theorem believed_of_find_some {living : ℤ × Bool}
    (h : ((opts.window cursor).zip existing).find? Prod.snd = some living) :
    ∃ count later, (opts.window cursor).zip existing = absences cursor count ++ (cursor + count, true) :: later ∧
      living.1 = cursor + count ∧ (∀ answer ∈ later, living.1 < answer.1) ∧ (later.map Prod.fst).Nodup := by
  obtain ⟨hliving, before, later, hsplit, hbefore⟩ := List.find?_eq_some_iff_append.mp h
  have hfst {j : ℕ} {answer : ℤ × Bool} (hj : ((opts.window cursor).zip existing)[j]? = some answer) :
      answer.1 = cursor + j := by
    obtain ⟨hlt, rfl⟩ := List.getElem?_eq_some_iff.mp hj
    exact believed_fst hlt
  have hround : living.1 = cursor + before.length := hfst (by simp [hsplit])
  have hfirst : before = absences cursor before.length := by
    refine List.ext_getElem (by simp) fun j hj hj' => ?_
    have hdead := hbefore _ (List.getElem_mem hj)
    have hat : before[j].1 = cursor + j := hfst (by simp [hsplit, List.getElem?_append_left hj])
    have hpair : before[j] = (cursor + j, false) := Prod.ext hat (by simpa using hdead)
    rw [hpair]
    simp [absences]
  have hlater {j : ℕ} (hj : j < later.length) : later[j].1 = cursor + ((before.length + 1 + j : ℕ) : ℤ) := by
    apply hfst
    rw [hsplit, List.getElem?_append_right (by omega)]
    simp [show before.length + 1 + j - before.length = j + 1 by omega, hj]
  refine ⟨before.length, later, ?_, hround, fun answer hmem => ?_, ?_⟩
  · have hpair : living = (cursor + before.length, true) := Prod.ext hround hliving
    rw [hsplit, ← hfirst, hpair]
  · obtain ⟨j, hj, rfl⟩ := List.getElem_of_mem hmem
    rw [hlater hj, hround]
    omega
  · refine List.nodup_iff_injective_getElem.mpr fun i j hij => Fin.ext ?_
    simp only [List.getElem_map] at hij
    rw [hlater (by simpa using i.2), hlater (by simpa using j.2)] at hij
    omega

/-- What the loop keeps: the reads made are within their bounds, and what they say is that every round up to
the cursor is absent. -/
structure Reading (opts : CloseCursorScanOptions ε) (cursor : ℤ) (probes : List (Probed ε)) : Prop where
  start : opts.start ≤ cursor
  capped : (probes.length : ℤ) ≤ max 0 opts.maxBatches
  narrow : ∀ p ∈ probes, (p.1.length : ℤ) ≤ opts.batch
  replies : ∀ i p, probes[i]? = some p → p.2 = opts.probe i p.1
  answers : believedAnswers probes = absences opts.start (cursor - opts.start).toNat

/-- What a scan leaves behind. -/
structure Scanned (opts : CloseCursorScanOptions ε) (s : CloseCursorScan ε) : Prop where
  batches : s.batches = s.probes.length
  capped : (s.probes.length : ℤ) ≤ max 0 opts.maxBatches
  narrow : ∀ p ∈ s.probes, (p.1.length : ℤ) ≤ opts.batch
  replies : ∀ i p, s.probes[i]? = some p → p.2 = opts.probe i p.1
  absent : s.stoppedBecause ≠ .found →
    believedAnswers s.probes = absences opts.start (s.cursor - opts.start).toNat
  found : s.stoppedBecause = .found → ∃ later,
    believedAnswers s.probes = absences opts.start (s.cursor - opts.start).toNat ++ (s.cursor, true) :: later ∧
      (∀ answer ∈ later, s.cursor < answer.1) ∧ (later.map Prod.fst).Nodup

theorem Reading.done (h : Reading opts cursor probes) (looks : ℕ) {stop : CloseCursorStop}
    (error : Option (ProbeError ε)) (hstop : stop ≠ .found) :
    Scanned opts (opts.done probes looks cursor stop error) where
  batches := rfl
  capped := h.capped
  narrow := h.narrow
  replies := h.replies
  absent _ := h.answers
  found hfound := absurd hfound hstop

/-- One more read is within the bounds. -/
theorem Reading.read (h : Reading opts cursor probes) (hbatch : 1 ≤ opts.batch)
    (hleft : (probes.length : ℤ) < opts.maxBatches) :
    (((probes ++ [(opts.window cursor, opts.probe probes.length (opts.window cursor))]).length : ℤ) ≤
      max 0 opts.maxBatches) ∧
    (∀ p ∈ probes ++ [(opts.window cursor, opts.probe probes.length (opts.window cursor))],
      (p.1.length : ℤ) ≤ opts.batch) ∧
    ∀ i p, (probes ++ [(opts.window cursor, opts.probe probes.length (opts.window cursor))])[i]? = some p →
      p.2 = opts.probe i p.1 := by
  refine ⟨?_, fun p hp => ?_, fun i p hp => ?_⟩
  · rw [List.length_append, List.length_singleton]
    omega
  · rcases List.mem_append.mp hp with hp | hp
    · exact h.narrow p hp
    · cases List.mem_singleton.mp hp
      exact window_length_le hbatch
  · rcases Nat.lt_or_ge i probes.length with hi | hi
    · rw [List.getElem?_append_left hi] at hp
      exact h.replies i p hp
    · rw [List.getElem?_append_right hi] at hp
      rcases Nat.eq_zero_or_pos (i - probes.length) with hzero | hpos
      · rw [hzero, List.getElem?_cons_zero] at hp
        cases hp
        rw [show i = probes.length by omega]
      · rw [List.getElem?_eq_none (by simp; omega)] at hp
        cases hp

/-- A read that extends the run of absences, by nothing or by some rounds. -/
theorem Reading.extend (h : Reading opts cursor probes) (hbatch : 1 ≤ opts.batch)
    (hleft : (probes.length : ℤ) < opts.maxBatches) {count : ℕ}
    (hread : Probed.believed (opts.window cursor, opts.probe probes.length (opts.window cursor)) =
      absences cursor count) :
    Reading opts (cursor + count)
      (probes ++ [(opts.window cursor, opts.probe probes.length (opts.window cursor))]) := by
  obtain ⟨hcapped, hnarrow, hreplies⟩ := h.read hbatch hleft
  have hstart := h.start
  refine ⟨by omega, hcapped, hnarrow, hreplies, ?_⟩
  have hcursor : opts.start + ((cursor - opts.start).toNat : ℕ) = cursor := by omega
  have hlength : (cursor + count - opts.start).toNat = (cursor - opts.start).toNat + count := by omega
  rw [believedAnswers_append, believedAnswers_singleton, h.answers, hread, hlength, ← absences_append, hcursor]

theorem scan_scanned (turns : ℕ) (hbatch : 1 ≤ opts.batch) (h : Reading opts cursor probes) :
    Scanned opts (opts.scan turns cursor probes) := by
  induction turns generalizing cursor probes with
  | zero => exact h.done _ _ (by simp)
  | succ turns ih =>
      unfold scan
      split
      · split
        · exact h.done _ _ (by simp)
        · rename_i hleft
          have hleft : (probes.length : ℤ) < opts.maxBatches := not_le.mp hleft
          split
          · exact h.done _ _ (by simp)
          · have hread {count : ℕ} := @Reading.extend _ _ _ _ h hbatch hleft count
            have hbounds := h.read hbatch hleft
            generalize hanswer : opts.probe probes.length (opts.window cursor) = answer at hread hbounds ⊢
            simp only
            cases answer with
            | error reason =>
                have hsame := @hread 0 rfl
                rw [Nat.cast_zero, add_zero] at hsame
                exact hsame.done _ _ (by simp)
            | ok existing =>
                simp only
                split
                · rename_i living hfind
                  obtain ⟨count, later, hzip, hround, hlater, hnodup⟩ := believed_of_find_some hfind
                  have hstart := h.start
                  refine ⟨rfl, hbounds.1, hbounds.2.1, hbounds.2.2, by simp [CloseCursorScanOptions.done], ?_⟩
                  refine fun _ => ⟨later, ?_, hlater, hnodup⟩
                  have hcursor : opts.start + ((cursor - opts.start).toNat : ℕ) = cursor := by omega
                  have hlength : (cursor + count - opts.start).toNat = (cursor - opts.start).toNat + count := by
                    omega
                  simp only [CloseCursorScanOptions.done, hround]
                  rw [believedAnswers_append, believedAnswers_singleton, h.answers, hlength, ← absences_append,
                    hcursor, List.append_assoc]
                  exact congrArg _ hzip
                · rename_i hnone
                  have hmore := hread (believed_of_find_none hnone)
                  split
                  · rename_i hempty
                    rw [hempty, Nat.cast_zero, add_zero] at hmore
                    exact hmore.done _ _ (by simp)
                  · exact ih hmore
      · exact h.done _ _ (by simp)

end CloseCursorScanOptions

theorem findOldestLivingRound_scanned (opts : CloseCursorScanOptions ε) :
    opts.Scanned (findOldestLivingRound opts) := by
  have hnothing : opts.Reading opts.start [] := ⟨le_refl _, by simp, by simp, by simp, by simp [absences]⟩
  unfold findOldestLivingRound
  split
  · exact hnothing.done _ _ (by simp)
  · split
    · exact hnothing.done _ _ (by simp)
    · exact CloseCursorScanOptions.scan_scanned _ (by omega) hnothing

/-- In either case the run of absences comes first, and no round is answered twice. -/
theorem CloseCursorScanOptions.Scanned.run {opts : CloseCursorScanOptions ε} {s : CloseCursorScan ε}
    (h : opts.Scanned s) (hstart : opts.start ≤ s.cursor) :
    ∃ later, believedAnswers s.probes = absences opts.start (s.cursor - opts.start).toNat ++ later ∧
      ((believedAnswers s.probes).map Prod.fst).Nodup ∧ (s.stoppedBecause ≠ .found → later = []) ∧
      (s.stoppedBecause = .found → (s.cursor, true) ∈ later) ∧ ∀ answer ∈ later, s.cursor ≤ answer.1 := by
  rcases eq_or_ne s.stoppedBecause .found with hfound | hfound
  · obtain ⟨later, hanswers, hlater, hnodup⟩ := h.found hfound
    refine ⟨_, hanswers, ?_, fun hnot => absurd hfound hnot, fun _ => List.mem_cons_self, fun answer hmem => ?_⟩
    · rw [hanswers, List.map_append, List.nodup_append]
      refine ⟨absences_nodup _ _, ?_, fun n hn m hm => ?_⟩
      · rw [List.map_cons, List.nodup_cons]
        refine ⟨fun hmem => ?_, hnodup⟩
        obtain ⟨answer, hanswer, heq⟩ := List.mem_map.mp hmem
        exact absurd heq (ne_of_gt (hlater answer hanswer))
      · obtain ⟨⟨n, present⟩, hin, rfl⟩ := List.mem_map.mp hn
        obtain ⟨answer, hanswer, rfl⟩ := List.mem_map.mp hm
        have hlt := (mem_absences.mp hin).2.1
        rcases List.mem_cons.mp hanswer with rfl | hanswer
        · simp only; omega
        · have hlt' := hlater answer hanswer
          simp only; omega
    · rcases List.mem_cons.mp hmem with rfl | hmem
      · exact le_refl _
      · exact le_of_lt (hlater answer hmem)
  · have hanswers := h.absent hfound
    refine ⟨[], by rw [hanswers, List.append_nil], ?_, fun _ => rfl, fun hnot => absurd hnot hfound, by simp⟩
    rw [hanswers]
    exact absences_nodup _ _

/-- Every answer that is kept once, by a list without two answers about one round. -/
theorem filter_fst_of_nodup {answers : List (ℤ × Bool)} (hnodup : (answers.map Prod.fst).Nodup) {n : ℤ}
    {present : Bool} (hmem : (n, present) ∈ answers) : answers.filter (·.1 = n) = [(n, present)] := by
  induction answers with
  | nil => cases hmem
  | cons answer answers ih =>
      rw [List.map_cons, List.nodup_cons] at hnodup
      have hothers (other : ℤ × Bool) (hother : other ∈ answers) : answer.1 ≠ other.1 := fun heq =>
        hnodup.1 (heq ▸ List.mem_map_of_mem hother)
      rcases List.mem_cons.mp hmem with rfl | hmem
      · have hnone : answers.filter (·.1 = n) = [] :=
          List.filter_eq_nil_iff.mpr fun other hother => by simpa using (hothers other hother).symm
        simp [hnone]
      · rw [List.filter_cons_of_neg (by simpa using hothers _ hmem), ih hnodup.2 hmem]

/-- Whatever is answered, the cursor is where the run of absences that its own reads proved ends, and
`found`, `caughtUp` and `catchUpAhead` say what those reads said. -/
theorem scan_finds_the_oldest_living_round (opts : CloseCursorScanOptions ε) (s : CloseCursorScan ε)
    (hs : s = findOldestLivingRound opts) :
    (s.batches = s.probes.length ∧ (s.batches : ℤ) ≤ max 0 opts.maxBatches ∧
      (∀ p ∈ s.probes, (p.1.length : ℤ) ≤ opts.batch) ∧
      ∀ i p, s.probes[i]? = some p → p.2 = opts.probe i p.1) ∧
    (opts.start ≤ s.cursor ∧ s.cursor ≤ max opts.start (opts.through + 1)) ∧
    (∀ n, opts.start ≤ n → n < s.cursor → (believedAnswers s.probes).filter (·.1 = n) = [(n, false)]) ∧
    (s.stoppedBecause = .found → s.cursor ≤ opts.through ∧
      (believedAnswers s.probes).filter (·.1 = s.cursor) = [(s.cursor, true)] ∧
      ∀ n, (n, true) ∈ believedAnswers s.probes → s.cursor ≤ n) ∧
    (s.stoppedBecause = .caughtUp → ∀ n, opts.start ≤ n → n ≤ opts.through →
      (believedAnswers s.probes).filter (·.1 = n) = [(n, false)]) ∧
    (s.catchUpAhead = true ↔
      s.stoppedBecause ≠ .found ∧ (∃ n, (n, false) ∈ believedAnswers s.probes) ∧ s.cursor ≤ opts.through) := by
  have hscan := hs ▸ findOldestLivingRound_scanned opts
  have hbounds : opts.start ≤ s.cursor ∧ s.cursor ≤ max opts.start (opts.through + 1) := by
    rcases lt_or_ge opts.through opts.start with hempty | hsome
    · rw [hs, findOldestLivingRound_empty opts hempty]
      exact ⟨le_refl _, le_max_left _ _⟩
    · have hproved := hs ▸ findOldestLivingRound_proved opts (by omega)
      exact ⟨hproved.forward, le_trans hproved.bounded (le_max_right _ _)⟩
  obtain ⟨later, hanswers, hnodup, hnone, hliving, hlater⟩ := hscan.run hbounds.1
  have habsent (n : ℤ) (hfrom : opts.start ≤ n) (hto : n < s.cursor) :
      (believedAnswers s.probes).filter (·.1 = n) = [(n, false)] := by
    refine filter_fst_of_nodup hnodup ?_
    rw [hanswers]
    exact List.mem_append_left _ (mem_absences.mpr ⟨hfrom, by omega, rfl⟩)
  refine ⟨⟨hscan.batches, ?_, hscan.narrow, hscan.replies⟩, hbounds, habsent, ?_, ?_, ?_⟩
  · rw [hscan.batches]
    exact hscan.capped
  · intro hfound
    refine ⟨?_, filter_fst_of_nodup hnodup ?_, fun n hmem => ?_⟩
    · rcases lt_or_ge opts.through opts.start with hempty | hsome
      · rw [hs, findOldestLivingRound_empty opts hempty] at hfound
        cases hfound
      · have hproved := hs ▸ findOldestLivingRound_proved opts (by omega)
        exact (hproved.found hfound).1
    · rw [hanswers]
      exact List.mem_append_right _ (hliving hfound)
    · rw [hanswers] at hmem
      rcases List.mem_append.mp hmem with hmem | hmem
      · cases (mem_absences.mp hmem).2.2
      · exact hlater _ hmem
  · intro hcaught n hfrom hto
    rcases lt_or_ge opts.through opts.start with hempty | hsome
    · omega
    · have hproved := hs ▸ findOldestLivingRound_proved opts (by omega)
      have hend := hproved.caughtUp hcaught
      exact habsent n hfrom (by omega)
  · rcases lt_or_ge opts.through opts.start with hempty | hsome
    · rw [hs, findOldestLivingRound_empty opts hempty]
      simp [CloseCursorScanOptions.done]
    · have hproved := hs ▸ findOldestLivingRound_proved opts (by omega)
      rw [hproved.ahead]
      refine and_congr_right fun hfound => and_congr_left fun _ => ?_
      rw [hanswers, hnone hfound, List.append_nil]
      constructor
      · intro hahead
        exact ⟨opts.start, mem_absences.mpr ⟨le_refl _, by omega, rfl⟩⟩
      · rintro ⟨n, hmem⟩
        have hn := mem_absences.mp hmem
        omega

/-- A short reply about rounds 1 to 3, then round 4 alive. -/
def shortReplies : CloseCursorScanOptions Unit where
  start := 1
  through := 6
  probe i _ := .ok (if i = 0 then [false, false] else [false, true, false])
  nowMs _ := 0
  budgetMs := none
  maxBatches := 5
  batch := 3

theorem scan_finds_the_oldest_living_round_witness :
    (believedAnswers (findOldestLivingRound shortReplies).probes).filter (·.1 = 4) = [(4, true)] :=
  ((scan_finds_the_oldest_living_round shortReplies _ rfl).2.2.2.1 (by decide)).2.1

end BullsUnicorns.Keeper

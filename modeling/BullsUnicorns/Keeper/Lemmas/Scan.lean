import BullsUnicorns.Keeper.Closer

/-!
# What a scan has proved

Every round that a scan moves past was answered absent in one of its own reads.
-/

namespace BullsUnicorns.Keeper

variable {ε : Type}

def AbsentIn (probes : List (Probed ε)) (n : ℤ) : Prop :=
  ∃ p ∈ probes, ∃ existing, p.2 = .ok existing ∧ (n, false) ∈ p.1.zip existing

def PresentIn (probes : List (Probed ε)) (n : ℤ) : Prop :=
  ∃ p ∈ probes, ∃ existing, p.2 = .ok existing ∧ (n, true) ∈ p.1.zip existing

theorem AbsentIn.mono {probes probes' : List (Probed ε)} {n : ℤ} (h : AbsentIn probes n)
    (hp : probes <+: probes') : AbsentIn probes' n := by
  obtain ⟨p, hmem, hx⟩ := h
  exact ⟨p, hp.subset hmem, hx⟩

namespace CloseCursorScanOptions

variable {opts : CloseCursorScanOptions ε} {cursor : ℤ} {existing : List Bool}

theorem believed_fst {j : ℕ} (hj : j < ((opts.window cursor).zip existing).length) :
    (((opts.window cursor).zip existing)[j]).1 = cursor + j := by
  simp [window]

theorem believed_length_le : ((((opts.window cursor).zip existing).length : ℕ) : ℤ) ≤
    max 0 (min opts.batch (opts.through - cursor + 1)) := by
  simp only [List.length_zip, window, List.length_map, List.length_range]
  omega

/-- All believed answers said absent. -/
theorem absent_of_find_none (h : ((opts.window cursor).zip existing).find? Prod.snd = none) {n : ℤ}
    (hn : cursor ≤ n) (hlt : n < cursor + ((opts.window cursor).zip existing).length) :
    (n, false) ∈ (opts.window cursor).zip existing := by
  obtain ⟨j, rfl⟩ := Int.le.dest hn
  have hj : j < ((opts.window cursor).zip existing).length := by omega
  have hsnd := (List.find?_eq_none.mp h) _ (List.getElem_mem hj)
  have hpair : ((opts.window cursor).zip existing)[j] = (cursor + j, false) :=
    Prod.ext (believed_fst hj) (Bool.eq_false_of_not_eq_true hsnd)
  exact hpair ▸ List.getElem_mem hj

/-- The answers before the first living round said absent. -/
theorem absent_of_find_some {living : ℤ × Bool}
    (h : ((opts.window cursor).zip existing).find? Prod.snd = some living) :
    (living.1, true) ∈ (opts.window cursor).zip existing ∧ cursor ≤ living.1 ∧
      living.1 < cursor + ((opts.window cursor).zip existing).length ∧
      ∀ n, cursor ≤ n → n < living.1 → (n, false) ∈ (opts.window cursor).zip existing := by
  obtain ⟨hliving, as, bs, hsplit, hbefore⟩ := List.find?_eq_some_iff_append.mp h
  have hlen : as.length < ((opts.window cursor).zip existing).length := by
    rw [hsplit]
    simp
  have hget : ((opts.window cursor).zip existing)[as.length] = living := by
    simp only [hsplit, List.getElem_append_right (Nat.le_refl _), Nat.sub_self, List.getElem_cons_zero]
  have hround : living.1 = cursor + as.length := by
    rw [← hget]
    exact believed_fst hlen
  refine ⟨?_, by omega, by omega, fun n hn hlt => ?_⟩
  · have hmem : living ∈ (opts.window cursor).zip existing := hget ▸ List.getElem_mem hlen
    rwa [show living = (living.1, true) from Prod.ext rfl hliving] at hmem
  · obtain ⟨j, rfl⟩ := Int.le.dest hn
    have hj : j < as.length := by omega
    have hj' : j < ((opts.window cursor).zip existing).length := by omega
    have hgetj : ((opts.window cursor).zip existing)[j] = as[j] := by
      simp only [hsplit, List.getElem_append_left hj]
    have hdead := hbefore _ (List.getElem_mem hj)
    have hpair : ((opts.window cursor).zip existing)[j] = (cursor + j, false) :=
      Prod.ext (believed_fst hj') (by rw [hgetj]; simpa using hdead)
    exact hpair ▸ List.getElem_mem hj'

/-- What the loop has established when it stops, from a cursor not past the end on. -/
structure Proved (opts : CloseCursorScanOptions ε) (cursor : ℤ) (probes : List (Probed ε))
    (s : CloseCursorScan ε) : Prop where
  forward : cursor ≤ s.cursor
  bounded : s.cursor ≤ opts.through + 1
  reads : probes <+: s.probes
  absent : ∀ n, cursor ≤ n → n < s.cursor → AbsentIn s.probes n
  found : s.stoppedBecause = .found → s.cursor ≤ opts.through ∧ PresentIn s.probes s.cursor
  caughtUp : s.stoppedBecause = .caughtUp → s.cursor = opts.through + 1
  ahead : s.catchUpAhead = true ↔
    s.stoppedBecause ≠ .found ∧ opts.start < s.cursor ∧ s.cursor ≤ opts.through

theorem done_proved {probes : List (Probed ε)} {looks stop error} (hc : cursor ≤ opts.through + 1)
    (hf : stop ≠ .found) (hu : stop = .caughtUp → cursor = opts.through + 1) :
    Proved opts cursor probes (opts.done probes looks cursor stop error) where
  forward := le_refl _
  bounded := hc
  reads := List.prefix_refl _
  absent n h h' := absurd (lt_of_le_of_lt h h') (lt_irrefl _)
  found h := absurd h hf
  caughtUp := hu
  ahead := by simp [done]

theorem Proved.after {probes probes' : List (Probed ε)} {s : CloseCursorScan ε}
    (h : Proved opts cursor probes' s) (hp : probes <+: probes') : Proved opts cursor probes s :=
  { h with reads := hp.trans h.reads }

theorem scan_proved (turns : ℕ) (probes : List (Probed ε)) (hc : cursor ≤ opts.through + 1)
    (hturns : opts.through + 1 - cursor ≤ turns) :
    Proved opts cursor probes (opts.scan turns cursor probes) := by
  induction turns generalizing cursor probes with
  | zero => exact done_proved hc (by simp) fun _ => by omega
  | succ turns ih =>
      unfold scan
      split
      · rename_i hle
        split
        · exact done_proved hc (by simp) (by simp)
        · split
          · exact done_proved hc (by simp) (by simp)
          · generalize hanswer : opts.probe probes.length (opts.window cursor) = answer
            have hread : probes <+: probes ++ [(opts.window cursor, answer)] := List.prefix_append _ _
            have hlast : (opts.window cursor, answer) ∈ probes ++ [(opts.window cursor, answer)] := by
              simp
            simp only
            cases answer with
            | error reason =>
                exact (done_proved hc (by simp) (by simp)).after hread
            | ok existing =>
                have hlen := @believed_length_le ε opts cursor existing
                simp only
                split
                · rename_i living hfind
                  obtain ⟨hmem, hfrom, hto, hbefore⟩ := absent_of_find_some hfind
                  exact {
                    forward := hfrom
                    bounded := by simp only [done]; omega
                    reads := hread
                    absent := fun n hn hlt => ⟨_, hlast, existing, rfl, hbefore n hn hlt⟩
                    found := fun _ => ⟨by simp only [done]; omega, _, hlast, existing, rfl, hmem⟩
                    caughtUp := fun h => by simp [done] at h
                    ahead := by simp [done] }
                · rename_i hnone
                  split
                  · exact (done_proved hc (by simp) (by simp)).after hread
                  · rename_i hsome
                    have hn := @ih (cursor + ((opts.window cursor).zip existing).length)
                      (probes ++ [(opts.window cursor, .ok existing)]) (by omega) (by omega)
                    refine { hn with
                      forward := by have := hn.forward; omega
                      reads := hread.trans hn.reads
                      absent := fun n hfrom hto => ?_ }
                    by_cases hnew : n < cursor + ((opts.window cursor).zip existing).length
                    · have hnow : AbsentIn (probes ++ [(opts.window cursor, .ok existing)]) n :=
                        ⟨_, hlast, existing, rfl, absent_of_find_none hnone hfrom hnew⟩
                      exact hnow.mono hn.reads
                    · exact hn.absent n (by omega) hto
      · exact done_proved hc (by simp) fun _ => by omega

end CloseCursorScanOptions

theorem findOldestLivingRound_proved (opts : CloseCursorScanOptions ε)
    (h : opts.start ≤ opts.through + 1) :
    opts.Proved opts.start [] (findOldestLivingRound opts) := by
  unfold findOldestLivingRound
  split
  · exact CloseCursorScanOptions.done_proved h (by simp) (by simp)
  · split
    · exact CloseCursorScanOptions.done_proved h (by simp) (by simp)
    · exact CloseCursorScanOptions.scan_proved _ _ h (by omega)

/-- A scan that begins past its end stays where it began. -/
theorem findOldestLivingRound_empty (opts : CloseCursorScanOptions ε) (h : opts.through < opts.start) :
    findOldestLivingRound opts = opts.done [] 1 opts.start .noRounds none := if_pos h

end BullsUnicorns.Keeper

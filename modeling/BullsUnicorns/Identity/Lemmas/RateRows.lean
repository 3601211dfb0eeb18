import BullsUnicorns.Lib.FixedWindow
import BullsUnicorns.Identity.Ceremony

/-!
# What a hit does to the rate rows

The same of both stores: the two rows are touched, each answer is its own row's count, and no other row
changes.
-/

namespace BullsUnicorns.Identity

open FixedWindow

variable {σ : Type}

/-- A write store, read as its rate rows. -/
structure RateLaws (W : WriteStore σ) where
  row : σ → String → Option (ℤ × ℕ)
  /-- The buckets that the schema admits. -/
  accepts : String → Bool
  empty : ∀ bucket, row W.empty bucket = none
  hit : ∀ a b window s, a ≠ b → accepts a = true → accepts b = true →
    (W.rate.hit [a, b] window s).1 = .ok [(touch (row s a) window).2, (touch (row s b) window).2] ∧
    ∀ k, row (W.rate.hit [a, b] window s).2 k = if k = a ∨ k = b then some (touch (row s k) window) else row s k

/-! ## Postgres -/

namespace PgWriteStore

def rowOf (rate : List RateRow) (bucket : String) : Option (ℤ × ℕ) :=
  (Table.lookup RateRow.bucket rate bucket).map fun r => (r.windowStart, r.hits)

/-- One row of the upsert. -/
def countOne (window : ℤ) (rate : List RateRow) (bucket : String) : List RateRow :=
  Table.upsert RateRow.bucket ⟨bucket, window, 1⟩ (fun r =>
    { r with hits := if r.windowStart = window then r.hits + 1 else 1
             windowStart := window }) rate

theorem rowOf_countOne (window : ℤ) (rate : List RateRow) (bucket k : String) :
    rowOf (countOne window rate bucket) k =
      if k = bucket then some (touch (rowOf rate bucket) window) else rowOf rate k := by
  have hkey (r : RateRow) : RateRow.bucket
      { r with hits := if r.windowStart = window then r.hits + 1 else 1, windowStart := window } = r.bucket := rfl
  rw [rowOf, countOne, Table.lookup_upsert hkey]
  by_cases hk : k = bucket
  · simp only [hk, if_true, Option.map_some, rowOf]
    cases Table.lookup RateRow.bucket rate bucket with
    | none => rfl
    | some r =>
        simp only [Option.elim, Option.map_some, touch]
        split <;> rfl
  · simp [hk, rowOf]

theorem hit_two {a b : String} (hab : a ≠ b) (ha : ofClass isLowerHex 64 64 a = true)
    (hb : ofClass isLowerHex 64 64 b = true) (window : ℤ) (db : PgDb) :
    (hit [a, b] window db).1 =
      .ok [(touch (rowOf db.xLinkRate a) window).2, (touch (rowOf db.xLinkRate b) window).2] ∧
    (hit [a, b] window db).2.xLinkRate = countOne window (countOne window db.xLinkRate a) b := by
  have hcount (bucket : String) {counted : ℤ × ℕ}
      (h : rowOf (countOne window (countOne window db.xLinkRate a) b) bucket = some counted) :
      (Table.lookup RateRow.bucket (countOne window (countOne window db.xLinkRate a) b) bucket).map RateRow.hits =
        some counted.2 := by
    obtain ⟨r, hr, rfl⟩ := Option.map_eq_some_iff.mp h
    simp [hr]
  have hfirst := hcount a (by rw [rowOf_countOne, if_neg hab, rowOf_countOne, if_pos rfl])
  have hsecond := hcount b (by rw [rowOf_countOne, if_pos rfl, rowOf_countOne, if_neg hab.symm])
  have hcounts : [a, b].mapM (fun bucket =>
      (Table.lookup RateRow.bucket (countOne window (countOne window db.xLinkRate a) b) bucket).map RateRow.hits) =
      some [(touch (rowOf db.xLinkRate a) window).2, (touch (rowOf db.xLinkRate b) window).2] := by
    simp [List.mapM_cons, hfirst, hsecond]
  have hnodup : [a, b].Nodup := by simp [hab]
  have hhex : [a, b].all (ofClass isLowerHex 64 64) = true := by simp [ha, hb]
  unfold hit
  rw [if_neg (by simp), if_neg (not_not.mpr hnodup), if_neg (not_not.mpr hhex)]
  simp only [List.foldl_cons, List.foldl_nil, countOne] at hcounts ⊢
  rw [hcounts]
  exact ⟨rfl, rfl⟩

end PgWriteStore

def pgRateLaws : RateLaws pgWriteStore where
  row db := PgWriteStore.rowOf db.xLinkRate
  accepts := ofClass isLowerHex 64 64
  empty _ := rfl
  hit a b window db hab ha hb := by
    obtain ⟨hcounts, hrate⟩ := PgWriteStore.hit_two hab ha hb window db
    refine ⟨hcounts, fun k => ?_⟩
    change PgWriteStore.rowOf (PgWriteStore.hit [a, b] window db).2.xLinkRate k = _
    rw [hrate, PgWriteStore.rowOf_countOne, PgWriteStore.rowOf_countOne, PgWriteStore.rowOf_countOne]
    by_cases hkb : k = b
    · subst hkb
      simp [hab.symm]
    · by_cases hka : k = a
      · simp [hka, hab]
      · simp [hka, hkb]

/-! ## The in-memory store -/

namespace MemoryRateCounter

def rowOf (s : MemoryRateCounter) (bucket : String) : Option (ℤ × ℕ) :=
  (s.buckets.get bucket).map fun c => (c.windowStart, c.hits)

theorem count_eq (window : ℤ) (s : MemoryRateCounter) (bucket : String) :
    (count window s bucket).1 = (touch (rowOf s bucket) window).2 ∧
    ∀ k, rowOf (count window s bucket).2 k =
      if k = bucket then some (touch (rowOf s bucket) window) else rowOf s k := by
  have hcount : count window s bucket = ((touch (rowOf s bucket) window).2,
      ⟨s.buckets.set bucket ⟨(touch (rowOf s bucket) window).1, (touch (rowOf s bucket) window).2⟩⟩) := by
    cases h : s.buckets.get bucket with
    | none => simp [count, rowOf, h, touch]
    | some current =>
        by_cases hw : current.windowStart = window
        · simp [count, rowOf, h, touch, hw]
        · simp [count, rowOf, h, touch, hw]
  rw [hcount]
  refine ⟨rfl, fun k => ?_⟩
  simp only [rowOf, OrderedMap.get_set]
  split <;> rfl

end MemoryRateCounter

def memoryRateLaws : RateLaws memoryWriteStore where
  row s := MemoryRateCounter.rowOf s.rate
  accepts _ := true
  empty _ := rfl
  hit a b window s hab _ _ := by
    obtain ⟨hfirst, hrow⟩ := MemoryRateCounter.count_eq window s.rate a
    obtain ⟨hsecond, hrow'⟩ := MemoryRateCounter.count_eq window (MemoryRateCounter.count window s.rate a).2 b
    have hnodup : [a, b].Nodup := by simp [hab]
    have hhit : memoryRateCounter.hit [a, b] window s.rate =
        (.ok [(MemoryRateCounter.count window s.rate a).1,
            (MemoryRateCounter.count window (MemoryRateCounter.count window s.rate a).2 b).1],
          (MemoryRateCounter.count window (MemoryRateCounter.count window s.rate a).2 b).2) := by
      change MemoryRateCounter.hit [a, b] window s.rate = _
      rw [MemoryRateCounter.hit, if_neg (not_not.mpr hnodup)]
      rfl
    change (memoryRateCounter.hit [a, b] window s.rate).1 = _ ∧
      ∀ k, MemoryRateCounter.rowOf (memoryRateCounter.hit [a, b] window s.rate).2 k = _
    rw [hhit]
    refine ⟨?_, fun k => ?_⟩
    · rw [hfirst, hsecond, hrow, if_neg hab.symm]
    · rw [hrow', hrow, hrow]
      by_cases hkb : k = b
      · subst hkb
        simp [hab.symm]
      · by_cases hka : k = a
        · simp [hka, hab]
        · simp [hka, hkb]

end BullsUnicorns.Identity

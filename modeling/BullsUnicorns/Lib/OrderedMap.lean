import BullsUnicorns.Lib.Table
import Mathlib.Tactic.Ring
import Mathlib.Algebra.Order.BigOperators.Group.List

/-!
# Maps over values, and maps that forget

Every value of an insertion-ordered map may be changed in place, and a sum over some keys taken key by key. A map
that must not grow is cut when a new key is one too many: the oldest keys go.
-/

namespace BullsUnicorns.OrderedMap

variable {κ ν : Type*}

theorem keyed_map (m : OrderedMap κ ν) (g : ν → ν) : Table.Keyed Prod.fst (m.entries.map fun e => (e.1, g e.2)) := by
  have hfst : (m.entries.map fun e => (e.1, g e.2)).map Prod.fst = m.entries.map Prod.fst := by
    rw [List.map_map]
    rfl
  rw [Table.Keyed, hfst]
  exact m.keyed

/-- Change every value, each key in its place. -/
def map (m : OrderedMap κ ν) (g : ν → ν) : OrderedMap κ ν := ⟨m.entries.map fun e => (e.1, g e.2), m.keyed_map g⟩

variable {m : OrderedMap κ ν} {g h : ν → ν}

@[simp]
theorem values_map (m : OrderedMap κ ν) (g : ν → ν) : (m.map g).values = m.values.map g := by
  simp [map, values]

theorem map_congr (hgh : ∀ v ∈ m.values, g v = h v) : m.map g = m.map h := by
  simp only [map, mk.injEq]
  exact List.map_congr_left fun e he => by rw [hgh e.2 (List.mem_map_of_mem he)]

@[simp]
theorem map_id (m : OrderedMap κ ν) : m.map (fun v => v) = m := by
  simp [map]

theorem map_eq_self (hg : ∀ v ∈ m.values, g v = v) : m.map g = m :=
  (map_congr hg).trans m.map_id

/-! ## Sums by keys -/

section
variable [DecidableEq κ]

/-- A sum over the entries of one key. -/
theorem sum_key {M : Type*} [AddCommMonoid M] (m : OrderedMap κ ν) (k : κ) (g : ν → M) :
    (m.sum fun k' v => if k' = k then g v else 0) = ((m.get k).map g).getD 0 := by
  have hone : ∀ (t : List (κ × ν)), Table.Keyed Prod.fst t →
      (t.map fun e => if e.1 = k then g e.2 else 0).sum = ((Table.lookup Prod.fst t k).map fun e => g e.2).getD 0 := by
    intro t ht
    induction t with
    | nil => rfl
    | cons e t ih =>
        obtain ⟨he, ht⟩ := List.nodup_cons.mp ht
        rw [List.map_cons, List.sum_cons, ih ht]
        by_cases hk : e.1 = k
        · have hnone : Table.lookup Prod.fst t k = none :=
            Table.lookup_eq_none.mpr fun r hr hr' => he (List.mem_map.mpr ⟨r, hr, hr'.trans hk.symm⟩)
          have hfound : Table.lookup Prod.fst (e :: t) k = some e := by simp [Table.lookup, hk]
          rw [hnone, hfound, if_pos hk]
          simp
        · have hrest : Table.lookup Prod.fst (e :: t) k = Table.lookup Prod.fst t k := by simp [Table.lookup, hk]
          rw [hrest, if_neg hk, zero_add]
  rw [sum, hone m.entries m.keyed, get, Option.map_map]
  rfl

/-- A sum over the entries of some keys, key by key. -/
theorem sum_keys {M : Type*} [AddCommMonoid M] (m : OrderedMap κ ν) {ks : List κ} (hks : ks.Nodup) (g : ν → M) :
    (m.sum fun k v => if k ∈ ks then g v else 0) = (ks.map fun k => ((m.get k).map g).getD 0).sum := by
  induction ks with
  | nil => simp [sum]
  | cons k ks ih =>
      obtain ⟨hk, hks⟩ := List.nodup_cons.mp hks
      rw [List.map_cons, List.sum_cons, ← ih hks, ← sum_key m k g, sum, sum, sum, ← List.sum_map_add]
      refine congrArg List.sum (List.map_congr_left fun e _ => ?_)
      by_cases he : e.1 = k
      · simp [he, hk]
      · simp [he]

end

/-! ## Forgetting the oldest keys -/

section
variable [DecidableEq κ] {keep forget : ℕ} {k k' : κ} {v v' : ν}

/-- Set a key; when there are then more than `keep`, the `forget` oldest go. -/
def setBounded (m : OrderedMap κ ν) (keep forget : ℕ) (k : κ) (v : ν) : OrderedMap κ ν :=
  let m := m.set k v
  if keep < m.entries.length then m.drop forget else m

/-- Where a new key goes, and what goes for it. -/
theorem entries_setBounded_new (hnew : m.get k = none) (hle : forget ≤ keep) :
    (m.setBounded keep forget k v).entries =
      (if keep ≤ m.entries.length then m.entries.drop forget else m.entries) ++ [(k, v)] := by
  have hentries := entries_set_new (v := v) hnew
  have hlong : keep < (m.set k v).entries.length ↔ keep ≤ m.entries.length := by
    rw [hentries, List.length_append, List.length_singleton]
    omega
  rw [setBounded]
  by_cases hfull : keep ≤ m.entries.length
  · rw [if_pos (hlong.mpr hfull), if_pos hfull]
    change (m.set k v).entries.drop forget = _
    rw [hentries, List.drop_append_of_le_length (by omega)]
  · rw [if_neg fun h => hfull (hlong.mp h), if_neg hfull, hentries]

/-- The keys, in their order: a new one comes last, and no other changes its place. -/
theorem keys_set (h : m.get k = some v) : (m.set k v').entries.map Prod.fst = m.entries.map Prod.fst := by
  have hfound : Table.lookup Prod.fst m.entries k ≠ none := by
    intro hnone
    rw [get, hnone] at h
    cases h
  have hentries : (m.set k v').entries = Table.modify Prod.fst k (fun e => (e.1, v')) m.entries :=
    if_pos (Option.isSome_iff_ne_none.mpr hfound)
  rw [hentries]
  exact Table.map_modify fun _ => rfl

theorem keys_setBounded_new (hnew : m.get k = none) (hle : forget ≤ keep) :
    (m.setBounded keep forget k v).entries.map Prod.fst =
      (if keep ≤ m.entries.length then (m.entries.map Prod.fst).drop forget else m.entries.map Prod.fst) ++ [k] := by
  rw [entries_setBounded_new hnew hle, List.map_append]
  split
  · rw [List.map_drop]
    rfl
  · rfl

/-- A new key is the newest, and stays. -/
theorem get_setBounded_self (hnew : m.get k = none) (hle : forget ≤ keep) :
    (m.setBounded keep forget k v).get k = some v := by
  rw [get_eq_some, entries_setBounded_new hnew hle]
  exact List.mem_append_right _ (List.mem_singleton_self _)

/-- Nothing else is there that was not there before. -/
theorem of_get_setBounded (hnew : m.get k = none) (hle : forget ≤ keep) (hne : k' ≠ k)
    (h : (m.setBounded keep forget k v).get k' = some v') : m.get k' = some v' := by
  rw [get_eq_some, entries_setBounded_new hnew hle] at h
  rw [get_eq_some]
  rcases List.mem_append.mp h with hkept | hlast
  · split at hkept
    · exact List.mem_of_mem_drop hkept
    · exact hkept
  · cases List.mem_singleton.mp hlast
    exact absurd rfl hne

/-- A key stays that is not among the oldest of a full map. -/
theorem get_setBounded_of_kept (hnew : m.get k = none) (hle : forget ≤ keep) (h : m.get k' = some v')
    (hkept : keep ≤ m.entries.length → (k', v') ∉ m.entries.take forget) :
    (m.setBounded keep forget k v).get k' = some v' := by
  rw [get_eq_some] at h
  rw [get_eq_some, entries_setBounded_new hnew hle]
  apply List.mem_append_left
  split
  · next hfull =>
      rw [← List.take_append_drop forget m.entries] at h
      rcases List.mem_append.mp h with hold | hrest
      · exact absurd hold (hkept hfull)
      · exact hrest
  · exact h

/-- A key that is among the oldest of a full map goes. -/
theorem get_setBounded_of_dropped (hnew : m.get k = none) (hle : forget ≤ keep) (hfull : keep ≤ m.entries.length)
    (h : (k', v') ∈ m.entries.take forget) : (m.setBounded keep forget k v).get k' = none := by
  have hne : k' ≠ k := by
    rintro rfl
    have hget := get_eq_some.mpr (List.mem_of_mem_take h)
    rw [hnew] at hget
    cases hget
  cases hget : (m.setBounded keep forget k v).get k' with
  | none => rfl
  | some v₁ =>
      rw [get_eq_some, entries_setBounded_new hnew hle, if_pos hfull] at hget
      rcases List.mem_append.mp hget with hdrop | hlast
      · -- its key would stand twice
        have hkeyed : ((m.entries.take forget ++ m.entries.drop forget).map Prod.fst).Nodup := by
          rw [List.take_append_drop]
          exact m.keyed
        rw [List.map_append] at hkeyed
        exact absurd rfl ((List.nodup_append.mp hkeyed).2.2 k' (List.mem_map_of_mem h) k' (List.mem_map_of_mem hdrop))
      · cases List.mem_singleton.mp hlast
        exact absurd rfl hne

end

end BullsUnicorns.OrderedMap

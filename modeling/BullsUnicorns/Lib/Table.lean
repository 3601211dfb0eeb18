import Mathlib.Algebra.BigOperators.Group.List.Basic
import Mathlib.Data.List.Nodup
import Mathlib.Tactic.Abel

/-!
# Tables and insertion-ordered maps

A table is a list of rows with a key column. `upsert` is an insert with an update on conflict,
`modify` an update of one key, and `List.filter` a delete. An insertion-ordered map is a table of
entries keyed by their first component.
-/

namespace BullsUnicorns.Table

variable {ρ κ : Type*} [DecidableEq κ] (key : ρ → κ)

/-- The key column has no value twice. -/
def Keyed (t : List ρ) : Prop := (t.map key).Nodup

instance (t : List ρ) : Decidable (Keyed key t) := inferInstanceAs (Decidable (List.Nodup _))

def lookup (t : List ρ) (k : κ) : Option ρ := t.find? (fun r => key r = k)

def modify (k : κ) (f : ρ → ρ) (t : List ρ) : List ρ := t.map (fun r => if key r = k then f r else r)

def upsert (new : ρ) (update : ρ → ρ) (t : List ρ) : List ρ :=
  if (lookup key t (key new)).isSome then modify key (key new) update t else t ++ [new]

variable {key} {t : List ρ} {k k' : κ} {r new : ρ} {f : ρ → ρ}

theorem mem_of_lookup (h : lookup key t k = some r) : r ∈ t ∧ key r = k :=
  ⟨List.mem_of_find?_eq_some h, by simpa using List.find?_some h⟩

theorem lookup_eq_none : lookup key t k = none ↔ ∀ r ∈ t, key r ≠ k := by
  simp [lookup]

/-- In a keyed table, a row is what its key looks up. -/
theorem lookup_eq_some (ht : Keyed key t) : lookup key t k = some r ↔ r ∈ t ∧ key r = k := by
  refine ⟨mem_of_lookup, fun ⟨hr, hk⟩ => ?_⟩
  cases h : lookup key t k with
  | none => exact absurd hk (lookup_eq_none.mp h r hr)
  | some r' =>
      obtain ⟨hr', hk'⟩ := mem_of_lookup h
      rw [List.inj_on_of_nodup_map ht hr' hr (hk'.trans hk.symm)]

@[simp]
theorem lookup_nil : lookup key [] k = none := rfl

theorem lookup_append_single (h : lookup key t (key new) = none) :
    lookup key (t ++ [new]) k = if k = key new then some new else lookup key t k := by
  simp only [lookup, List.find?_append, List.find?_cons, List.find?_nil] at h ⊢
  by_cases hk : k = key new
  · simp [hk, h]
  · have hk' : key new ≠ k := fun he => hk he.symm
    simp [hk, hk']

/-- An update that keeps the key changes one row's answer. -/
theorem lookup_modify (hf : ∀ r, key (f r) = key r) :
    lookup key (modify key k f t) k' = if k' = k then (lookup key t k).map f else lookup key t k' := by
  have hkey : ∀ r, key (if key r = k then f r else r) = key r := by
    intro r
    split
    · exact hf r
    · rfl
  simp only [lookup, modify, List.find?_map, Function.comp_def, hkey]
  cases h : t.find? (fun r => decide (key r = k')) with
  | none =>
      by_cases hk : k' = k
      · subst hk; simp [h]
      · simp [hk]
  | some r =>
      have hr : key r = k' := by simpa using List.find?_some h
      by_cases hk : k' = k
      · subst hk; simp [h, hr]
      · simp [hk, hr]

theorem lookup_upsert (hf : ∀ r, key (f r) = key r) :
    lookup key (upsert key new f t) k =
      if k = key new then some ((lookup key t (key new)).elim new f) else lookup key t k := by
  unfold upsert
  cases h : lookup key t (key new) with
  | none => simpa using lookup_append_single h
  | some r => simp [lookup_modify hf, h]

/-- A delete by any condition on rows, in a keyed table. -/
theorem lookup_filter (ht : Keyed key t) (p : ρ → Bool) :
    lookup key (t.filter p) k = (lookup key t k).filter p := by
  have hp : Keyed key (t.filter p) := ht.sublist (List.filter_sublist.map key)
  cases h : lookup key t k with
  | none =>
      rw [Option.filter_none, lookup_eq_none]
      exact fun r hr => lookup_eq_none.mp h r (List.mem_filter.mp hr).1
  | some r =>
      obtain ⟨hr, hk⟩ := mem_of_lookup h
      by_cases hpr : p r = true
      · rw [Option.filter_some_pos hpr, lookup_eq_some hp]
        exact ⟨List.mem_filter.mpr ⟨hr, hpr⟩, hk⟩
      · rw [Option.filter_some_neg (by simpa using hpr), lookup_eq_none]
        intro r' hr' hk'
        have he := List.inj_on_of_nodup_map ht (List.mem_filter.mp hr').1 hr (hk'.trans hk.symm)
        exact hpr (he ▸ (List.mem_filter.mp hr').2)

/-- A read by key and condition. -/
theorem find_key_and (ht : Keyed key t) (p : ρ → Bool) :
    t.find? (fun r => p r && decide (key r = k)) = (lookup key t k).filter p := by
  rw [← lookup_filter ht, lookup, List.find?_filter]
  simp only [Bool.decide_and, Bool.decide_eq_true]

/-- At most one row has a key. -/
theorem filter_key (ht : Keyed key t) : t.filter (fun r => key r = k) = (lookup key t k).toList := by
  induction t with
  | nil => rfl
  | cons r t ih =>
      obtain ⟨hr, ht⟩ := List.nodup_cons.mp ht
      by_cases hk : key r = k
      · have hnone : t.filter (fun r => key r = k) = [] := by
          rw [List.filter_eq_nil_iff]
          intro r' hr' hk'
          exact hr (List.mem_map.mpr ⟨r', hr', (of_decide_eq_true hk').trans hk.symm⟩)
        simp [lookup, hk, hnone]
      · simpa [lookup, hk] using ih ht

/-- A delete or a read of what one key and a condition select. -/
theorem filter_key_and (ht : Keyed key t) (p : ρ → Bool) :
    t.filter (fun r => decide (key r = k) && p r) = ((lookup key t k).filter p).toList := by
  have hboth : t.filter (fun r => decide (key r = k) && p r) = (t.filter p).filter fun r => key r = k := by
    rw [List.filter_filter]
  rw [hboth, filter_key (ht.sublist (List.filter_sublist.map key)), lookup_filter ht]

omit [DecidableEq κ] in
theorem Keyed.nil : Keyed key [] := List.nodup_nil

omit [DecidableEq κ] in
theorem Keyed.filter (ht : Keyed key t) (p : ρ → Bool) : Keyed key (t.filter p) :=
  ht.sublist (List.filter_sublist.map key)

theorem map_modify {γ : Type*} {g : ρ → γ} (hf : ∀ r, g (f r) = g r) :
    (modify key k f t).map g = t.map g := by
  rw [modify, List.map_map]
  refine List.map_congr_left fun r _ => ?_
  rw [Function.comp_apply]
  split
  · exact hf r
  · rfl

theorem Keyed.modify (ht : Keyed key t) (hf : ∀ r, key (f r) = key r) :
    Keyed key (Table.modify key k f t) := by
  rw [Keyed, map_modify hf]
  exact ht

omit [DecidableEq κ] in
theorem Keyed.append_single (ht : Keyed key t) (h : ∀ r ∈ t, key r ≠ key new) :
    Keyed key (t ++ [new]) := by
  rw [Keyed, List.map_append, List.map_cons, List.map_nil]
  refine List.Nodup.append ht (List.nodup_singleton _) ?_
  intro k hk hnew
  obtain ⟨r, hr, rfl⟩ := List.mem_map.mp hk
  exact h r hr (List.mem_singleton.mp hnew)

theorem Keyed.upsert (ht : Keyed key t) (hf : ∀ r, key (f r) = key r) :
    Keyed key (Table.upsert key new f t) := by
  unfold Table.upsert
  cases h : lookup key t (key new) with
  | none => exact ht.append_single (lookup_eq_none.mp h)
  | some r => exact ht.modify hf

/-- A second unique column after an update that gives one row a value no other row has. -/
theorem Keyed.modify_other {γ : Type*} {g : ρ → γ} {v : γ} (ht : Keyed key t) (hg : Keyed g t)
    (hf : ∀ r ∈ t, key r = k → g (f r) = v) (hfree : ∀ r ∈ t, g r = v → key r = k) :
    Keyed g (Table.modify key k f t) := by
  rw [Keyed, Table.modify, List.map_map]
  refine List.Nodup.map_on ?_ (List.Nodup.of_map key ht)
  intro r hr r' hr' h
  simp only [Function.comp_apply] at h
  by_cases hk : key r = k
  · by_cases hk' : key r' = k
    · exact List.inj_on_of_nodup_map ht hr hr' (hk.trans hk'.symm)
    · rw [if_pos hk, if_neg hk', hf r hr hk] at h
      exact absurd (hfree r' hr' h.symm) hk'
  · by_cases hk' : key r' = k
    · rw [if_neg hk, if_pos hk', hf r' hr' hk'] at h
      exact absurd (hfree r hr h) hk
    · rw [if_neg hk, if_neg hk'] at h
      exact List.inj_on_of_nodup_map hg hr hr' h

theorem Keyed.upsert_other {γ : Type*} {g : ρ → γ} (ht : Keyed key t) (hg : Keyed g t)
    (hf : ∀ r ∈ t, key r = key new → g (f r) = g new)
    (hfree : ∀ r ∈ t, g r = g new → key r = key new) : Keyed g (Table.upsert key new f t) := by
  unfold Table.upsert
  cases h : lookup key t (key new) with
  | none => exact hg.append_single fun r hr he => lookup_eq_none.mp h r hr (hfree r hr he)
  | some r => exact ht.modify_other hg hf hfree

theorem mem_modify (hr : r ∈ modify key k f t) :
    ∃ r' ∈ t, r = if key r' = k then f r' else r' := by
  obtain ⟨r', hr', rfl⟩ := List.mem_map.mp hr
  exact ⟨r', hr', rfl⟩

/-- In a keyed table, the row at an index is the one row its key updates. -/
theorem modify_eq_set (ht : Keyed key t) {i : ℕ} (hi : i < t.length) :
    modify key (key t[i]) f t = t.set i (f t[i]) := by
  refine List.ext_getElem (by simp [modify]) fun j hj hj' => ?_
  have hj : j < t.length := by simpa [modify] using hj
  rw [List.getElem_set]
  simp only [modify, List.getElem_map]
  by_cases hij : i = j
  · subst hij
    simp
  · have hne : key t[j] ≠ key t[i] := by
      intro h
      have hrow : t[i] = t[j] :=
        List.inj_on_of_nodup_map ht (List.getElem_mem hi) (List.getElem_mem hj) h.symm
      exact hij ((List.Nodup.of_map key ht).getElem_inj_iff.mp hrow)
    rw [if_neg hij, if_neg hne]

/-- A sum over the rows after an update of one key. -/
theorem sum_modify {M : Type*} [AddCommGroup M] (ht : Keyed key t) (hr : r ∈ t) (hk : key r = k) (g : ρ → M) :
    ((modify key k f t).map g).sum = (t.map g).sum - g r + g (f r) := by
  induction t with
  | nil => cases hr
  | cons r' t ih =>
      obtain ⟨hnot, ht⟩ := List.nodup_cons.mp ht
      rcases List.mem_cons.mp hr with rfl | hmem
      · have hrest : modify key k f t = t := by
          rw [modify]
          refine (List.map_congr_left fun r' hr' => ?_).trans (List.map_id t)
          have hne : key r' ≠ k := fun h => hnot (List.mem_map.mpr ⟨r', hr', h.trans hk.symm⟩)
          rw [if_neg hne, id_eq]
        have hcons : modify key k f (r :: t) = f r :: modify key k f t := by
          rw [modify, List.map_cons, if_pos hk, modify]
        rw [hcons, hrest]
        simp only [List.map_cons, List.sum_cons]
        abel
      · have hne : key r' ≠ k := fun h => hnot (List.mem_map.mpr ⟨r, hmem, hk.trans h.symm⟩)
        have hcons : modify key k f (r' :: t) = r' :: modify key k f t := by
          rw [modify, List.map_cons, if_neg hne, modify]
        rw [hcons]
        simp only [List.map_cons, List.sum_cons, ih ht hmem]
        abel

theorem mem_upsert (hr : r ∈ upsert key new f t) :
    r = new ∨ ∃ r' ∈ t, r = if key r' = key new then f r' else r' := by
  unfold upsert at hr
  cases h : lookup key t (key new) with
  | some r' => exact Or.inr (mem_modify (by simpa [h] using hr))
  | none =>
      have hr : r ∈ t ∨ r = new := by simpa [h] using hr
      rcases hr with hr | rfl
      · exact Or.inr ⟨r, hr, by rw [if_neg (lookup_eq_none.mp h r hr)]⟩
      · exact Or.inl rfl

end BullsUnicorns.Table

namespace BullsUnicorns

/-- An insertion-ordered map: setting a present key keeps its place. -/
structure OrderedMap (κ ν : Type*) where
  entries : List (κ × ν)
  keyed : Table.Keyed Prod.fst entries

namespace OrderedMap

variable {κ ν : Type*} [DecidableEq κ]

def empty : OrderedMap κ ν := ⟨[], Table.Keyed.nil⟩

def get (m : OrderedMap κ ν) (k : κ) : Option ν := (Table.lookup Prod.fst m.entries k).map Prod.snd

def set (m : OrderedMap κ ν) (k : κ) (v : ν) : OrderedMap κ ν :=
  ⟨Table.upsert Prod.fst (k, v) (fun e => (e.1, v)) m.entries, m.keyed.upsert fun _ => rfl⟩

def delete (m : OrderedMap κ ν) (k : κ) : OrderedMap κ ν :=
  ⟨m.entries.filter (fun e => e.1 ≠ k), m.keyed.filter _⟩

/-- Delete the `n` oldest keys. -/
def drop (m : OrderedMap κ ν) (n : ℕ) : OrderedMap κ ν :=
  ⟨m.entries.drop n, m.keyed.sublist ((List.drop_sublist n m.entries).map Prod.fst)⟩

def values (m : OrderedMap κ ν) : List ν := m.entries.map Prod.snd

variable {m : OrderedMap κ ν} {k k' : κ} {v : ν}

@[simp]
theorem get_empty : (empty : OrderedMap κ ν).get k = none := rfl

omit [DecidableEq κ] in
@[simp]
theorem values_empty : (empty : OrderedMap κ ν).values = [] := rfl

theorem get_eq_some : m.get k = some v ↔ (k, v) ∈ m.entries := by
  rw [get, Option.map_eq_some_iff]
  constructor
  · rintro ⟨⟨k', v'⟩, h, rfl⟩
    obtain ⟨he, rfl⟩ := Table.mem_of_lookup h
    exact he
  · intro h
    exact ⟨(k, v), (Table.lookup_eq_some m.keyed).mpr ⟨h, rfl⟩, rfl⟩

theorem get_set : (m.set k v).get k' = if k' = k then some v else m.get k' := by
  have h : Table.lookup Prod.fst (m.set k v).entries k' =
      if k' = k then some ((Table.lookup Prod.fst m.entries k).elim (k, v) fun e => (e.1, v))
      else Table.lookup Prod.fst m.entries k' := Table.lookup_upsert fun _ => rfl
  rw [get, h]
  split
  · cases Table.lookup Prod.fst m.entries k <;> rfl
  · rfl

theorem entries_set_new (h : m.get k = none) : (m.set k v).entries = m.entries ++ [(k, v)] := by
  have hnone : Table.lookup Prod.fst m.entries k = none := by simpa [get] using h
  simp [set, Table.upsert, hnone]

theorem get_delete : (m.delete k).get k' = if k' = k then none else m.get k' := by
  simp only [get, delete, Table.lookup_filter m.keyed]
  cases h : Table.lookup Prod.fst m.entries k' with
  | none => simp
  | some e =>
      have hk := (Table.mem_of_lookup h).2
      by_cases hne : k' = k
      · simp [Option.filter, hk, hne]
      · simp [Option.filter, hk, hne]

/-- A sum over the entries. -/
def sum {M : Type*} [AddMonoid M] (m : OrderedMap κ ν) (g : κ → ν → M) : M := (m.entries.map fun e => g e.1 e.2).sum

omit [DecidableEq κ] in
@[simp]
theorem sum_empty {M : Type*} [AddMonoid M] (g : κ → ν → M) : (empty : OrderedMap κ ν).sum g = 0 := rfl

theorem sum_set_new {M : Type*} [AddMonoid M] (h : m.get k = none) (g : κ → ν → M) :
    (m.set k v).sum g = m.sum g + g k v := by
  simp [sum, entries_set_new h]

theorem sum_set {M : Type*} [AddCommGroup M] {v₀ : ν} (h : m.get k = some v₀) (g : κ → ν → M) :
    (m.set k v).sum g = m.sum g - g k v₀ + g k v := by
  have hmem : (k, v₀) ∈ m.entries := get_eq_some.mp h
  have hlookup : Table.lookup Prod.fst m.entries k = some (k, v₀) :=
    (Table.lookup_eq_some m.keyed).mpr ⟨hmem, rfl⟩
  have hentries : (m.set k v).entries = Table.modify Prod.fst k (fun e => (e.1, v)) m.entries := by
    simp [set, Table.upsert, hlookup]
  rw [sum, hentries, Table.sum_modify m.keyed hmem rfl (fun e => g e.1 e.2)]
  rfl

theorem mem_values : v ∈ m.values ↔ ∃ k, m.get k = some v := by
  simp only [values, List.mem_map, get_eq_some]
  exact ⟨fun ⟨e, he, hv⟩ => ⟨e.1, hv ▸ he⟩, fun ⟨k, hk⟩ => ⟨(k, v), hk, rfl⟩⟩

/-! ## A map made from a list -/

section
variable {α : Type*} {key : α → κ} {val : α → ν}

/-- A list with different keys is set as it stands. -/
theorem entries_foldl_set {l : List α} (hl : (l.map key).Nodup) :
    (l.foldl (fun m x => m.set (key x) (val x)) empty).entries = l.map fun x => (key x, val x) := by
  have hfold : ∀ (l : List α) (m : OrderedMap κ ν), (l.map key).Nodup → (∀ x ∈ l, m.get (key x) = none) →
      (l.foldl (fun m x => m.set (key x) (val x)) m).entries = m.entries ++ l.map fun x => (key x, val x) := by
    intro l
    induction l with
    | nil => simp
    | cons x l ih =>
        intro m hnd hnone
        obtain ⟨hx, hnd⟩ := List.nodup_cons.mp hnd
        rw [List.foldl_cons, ih _ hnd, entries_set_new (hnone x List.mem_cons_self)]
        · simp
        · intro y hy
          have hne : key y ≠ key x := fun he => hx (List.mem_map.mpr ⟨y, hy, he⟩)
          rw [get_set, if_neg hne]
          exact hnone y (List.mem_cons_of_mem x hy)
  simpa [empty] using hfold l empty hl fun x _ => rfl

/-- Nothing is in it but what was set. -/
theorem get_foldl_set {l : List α} (h : (l.foldl (fun m x => m.set (key x) (val x)) empty).get k = some v) :
    ∃ x ∈ l, key x = k ∧ val x = v := by
  have hfold : ∀ (l done : List α) (m : OrderedMap κ ν), (∀ k v, m.get k = some v → ∃ x ∈ done, key x = k ∧ val x = v) →
      (l.foldl (fun m x => m.set (key x) (val x)) m).get k = some v → ∃ x ∈ done ++ l, key x = k ∧ val x = v := by
    intro l
    induction l with
    | nil => exact fun done m hm hget => by simpa using hm k v hget
    | cons x l ih =>
        intro done m hm hget
        rw [List.foldl_cons] at hget
        have h1 := ih (done ++ [x]) (m.set (key x) (val x)) ?_ hget
        · simpa using h1
        · intro k' v' hget'
          rw [get_set] at hget'
          split at hget'
          · next hk => exact ⟨x, by simp, hk.symm, Option.some.inj hget'⟩
          · obtain ⟨y, hy, he⟩ := hm k' v' hget'
            exact ⟨y, List.mem_append_left _ hy, he⟩
  simpa using hfold l [] empty (by simp) h

theorem mem_foldl_set {l : List α} (h : v ∈ (l.foldl (fun m x => m.set (key x) (val x)) empty).values) :
    ∃ x ∈ l, val x = v := by
  obtain ⟨k, hk⟩ := mem_values.mp h
  obtain ⟨x, hx, -, hv⟩ := get_foldl_set hk
  exact ⟨x, hx, hv⟩

end

end OrderedMap

end BullsUnicorns

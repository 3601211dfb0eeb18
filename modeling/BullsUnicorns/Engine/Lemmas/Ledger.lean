import BullsUnicorns.Engine.Process

/-!
# What the operations of the ledger move

Only balances change, except where an account is opened or marked. What the pool gives or takes is a shift:
it leaves the other accounts alone, and the sum over any part of the ledger that holds the pool changes by
that amount.
-/

namespace BullsUnicorns.Engine

open Battle

/-! ## Accounts -/

/-- An account without its balances. -/
def Account.skeleton (a : Account) : Account := { a with bal := fun _ => 0 }

@[simp]
theorem Account.add_skeleton (a : Account) (f : Field) (x : ℚ) : (a.add f x).skeleton = a.skeleton := rfl

/-- The same accounts, but for their balances. -/
def Ledger.Same (l l' : Ledger) : Prop := ∀ id, (l'.get id).map Account.skeleton = (l.get id).map Account.skeleton

def Ledger.Nonneg (l : Ledger) : Prop := ∀ id f, 0 ≤ l.bal id f

/-- The balances of the accounts that `p` is about. -/
def Ledger.NonnegOf (p : String → Prop) (l : Ledger) : Prop := ∀ id, p id → ∀ f, 0 ≤ l.bal id f

theorem Ledger.nonnegOf_all {l : Ledger} : l.NonnegOf (fun _ => True) ↔ l.Nonneg :=
  ⟨fun h id f => h id trivial f, fun h id _ f => h id f⟩

/-- A part of the ledger, by id and whether the account is the house's. -/
abbrev Part := String → Bool → Bool

section
variable {l l' l'' : Ledger} {id k : String} {a : Account} {f g : Field} {x : ℚ}

theorem Ledger.Same.refl (l : Ledger) : l.Same l := fun _ => rfl

theorem Ledger.Same.trans (h : l.Same l') (h' : l'.Same l'') : l.Same l'' := fun id => (h' id).trans (h id)

/-- An account that is there before is there after, changed in its balances only. -/
theorem Ledger.Same.get (h : l.Same l') (ha : l.get id = some a) :
    ∃ a', l'.get id = some a' ∧ a'.skeleton = a.skeleton := by
  have h1 := h id
  rw [ha, Option.map_some, Option.map_eq_some_iff] at h1
  exact h1

theorem Ledger.Same.symm (h : l.Same l') : l'.Same l := fun id => (h id).symm

theorem Ledger.Same.isSome (h : l.Same l') (id : String) : (l'.get id).isSome = (l.get id).isSome := by
  have h1 := congrArg Option.isSome (h id)
  simpa using h1

theorem Ledger.bal_of_get (h : l.get id = some a) : l.bal id f = a.bal f := by
  simp [Ledger.bal, h]

theorem Ledger.bal_of_none (h : l.get id = none) : l.bal id f = 0 := by
  simp [Ledger.bal, h]

theorem Ledger.get_modify (u : Account → Account) :
    (l.modify id u).get k = if k = id then (l.get id).map u else l.get k := by
  unfold Ledger.modify
  cases h : l.get id with
  | none =>
      by_cases hk : k = id
      · simp [hk, h]
      · simp [hk]
  | some a => simp [OrderedMap.get_set]

theorem Ledger.get_add : (l.add id f x).get k = if k = id then (l.get id).map (·.add f x) else l.get k :=
  Ledger.get_modify _

theorem Ledger.Same.add : l.Same (l.add id f x) := by
  intro k
  rw [Ledger.get_add]
  by_cases hk : k = id
  · subst hk
    cases l.get k <;> simp
  · simp [hk]

theorem Account.bal_add : (a.add f x).bal g = a.bal g + if g = f then x else 0 := by
  by_cases hg : g = f
  · simp [Account.add, hg]
  · simp [Account.add, hg]

theorem Ledger.bal_add (h : (l.get id).isSome) :
    (l.add id f x).bal k g = l.bal k g + if k = id ∧ g = f then x else 0 := by
  obtain ⟨a, ha⟩ := Option.isSome_iff_exists.mp h
  by_cases hk : k = id
  · subst hk
    have hget : (l.add k f x).get k = some (a.add f x) := by simp [Ledger.get_add, ha]
    rw [bal_of_get hget, bal_of_get ha, Account.bal_add]
    simp
  · simp [Ledger.bal, Ledger.get_add, hk]

/-! ## Sums -/

/-- What a part of the ledger holds of a field. -/
def total (w : Part) (l : Ledger) (f : Field) : ℚ := l.sum fun id a => if w id a.isBot then a.bal f else 0

theorem total_modify (w : Part) {u : Account → Account} (ha : l.get id = some a) (hu : (u a).isBot = a.isBot) :
    total w (l.modify id u) f = total w l f + if w id a.isBot then (u a).bal f - a.bal f else 0 := by
  have hset : l.modify id u = l.set id (u a) := by simp [Ledger.modify, ha]
  rw [hset, total, OrderedMap.sum_set ha, hu]
  split
  · rw [total]
    ring
  · rw [total]
    ring

theorem total_add (w : Part) (ha : l.get id = some a) :
    total w (l.add id f x) g = total w l g + if w id a.isBot ∧ g = f then x else 0 := by
  rw [Ledger.add, total_modify w ha rfl, Account.bal_add, add_sub_cancel_left]
  by_cases hw : w id a.isBot <;> simp [hw]

theorem total_set_new (w : Part) (h : l.get id = none) :
    total w (l.set id a) f = total w l f + if w id a.isBot then a.bal f else 0 := by
  rw [total, OrderedMap.sum_set_new h]
  rfl

end

/-! ## The pool -/

/-- Everybody. -/
def everybody : Part := fun _ _ => true

/-- The house: its wallets and its bots. -/
def house (pool : List String) : Part := fun id isBot => isBot || pool.contains id

/-- The pool gets `x` of a field, or gives it. -/
structure Shift (pool : List String) (f : Field) (x : ℚ) (l l' : Ledger) : Prop where
  same : l.Same l'
  bears : ∀ p : String → Prop, (∀ id ∈ pool, p id) → l.NonnegOf p → l'.NonnegOf p
  total : ∀ w : Part, (∀ id ∈ pool, ∀ b, w id b = true) → ∀ g, total w l' g = total w l g + if g = f then x else 0
  others : ∀ id g, id ∉ pool ∨ g ≠ f → l'.bal id g = l.bal id g

/-- A pool wallet has an account. -/
def PoolReady (pool : List String) (l : Ledger) : Prop := ∃ id ∈ pool, (l.get id).isSome

section
variable {pool : List String} {l l' l'' : Ledger} {f g : Field} {x y : ℚ}

theorem Shift.refl (pool : List String) (f : Field) (l : Ledger) : Shift pool f 0 l l :=
  ⟨Ledger.Same.refl l, fun _ _ hl => hl, fun w _ g => by simp, fun _ _ _ => rfl⟩

theorem Shift.nonneg (h : Shift pool f x l l') (hl : l.Nonneg) : l'.Nonneg :=
  Ledger.nonnegOf_all.mp (h.bears _ (fun _ _ => trivial) (Ledger.nonnegOf_all.mpr hl))

theorem Shift.trans (h : Shift pool f x l l') (h' : Shift pool f y l' l'') : Shift pool f (x + y) l l'' where
  same := h.same.trans h'.same
  bears := fun p hp hl => h'.bears p hp (h.bears p hp hl)
  total := fun w hw g => by
    rw [h'.total w hw, h.total w hw]
    split <;> ring
  others := fun id g hid => (h'.others id g hid).trans (h.others id g hid)

/-- One wallet gets `x`, which it can bear. -/
theorem Shift.add {id : String} (hid : id ∈ pool) (hget : (l.get id).isSome)
    (h0 : 0 ≤ l.bal id f → 0 ≤ l.bal id f + x) : Shift pool f x l (l.add id f x) where
  same := Ledger.Same.add
  bears := by
    intro p hp hl k hk g
    rw [Ledger.bal_add hget]
    split
    · next hkg =>
        rw [hkg.1, hkg.2]
        exact h0 (hl id (hp id hid) f)
    · simpa using hl k hk g
  total := by
    intro w hw g
    obtain ⟨a, ha⟩ := Option.isSome_iff_exists.mp hget
    rw [total_add w ha, hw id hid]
    simp
  others := by
    intro k g hk
    rw [Ledger.bal_add hget, if_neg, add_zero]
    rintro ⟨rfl, rfl⟩
    rcases hk with hk | hk
    · exact hk hid
    · exact hk rfl

theorem mem_poolAccounts {id : String} : id ∈ poolAccounts pool l ↔ id ∈ pool ∧ (l.get id).isSome := by
  simp [poolAccounts]

theorem poolAccounts_ne_nil : poolAccounts pool l ≠ [] ↔ PoolReady pool l := by
  constructor
  · intro h
    obtain ⟨id, hid⟩ := List.exists_mem_of_ne_nil _ h
    exact ⟨id, mem_poolAccounts.mp hid⟩
  · rintro ⟨id, hid⟩
    exact List.ne_nil_of_mem (mem_poolAccounts.mpr hid)

theorem PoolReady.of_same (h : PoolReady pool l) (hs : l.Same l') : PoolReady pool l' := by
  obtain ⟨id, hid, hget⟩ := h
  exact ⟨id, hid, (hs.isSome id).trans hget⟩

/-- What is taken goes from the wallets, each down to nothing at most. -/
theorem takeFromPool_shift (f : Field) {ids : List String} (hids : ∀ id ∈ ids, id ∈ pool ∧ (l.get id).isSome)
    (left : ℚ) (h0 : 0 ≤ left) :
    Shift pool f (-(left - (takeFromPool f ids left l).2)) l (takeFromPool f ids left l).1 ∧
      0 ≤ (takeFromPool f ids left l).2 ∧ (takeFromPool f ids left l).2 ≤ left := by
  induction ids generalizing l left with
  | nil =>
      rw [takeFromPool]
      exact ⟨by simpa using Shift.refl pool f l, h0, le_refl _⟩
  | cons id ids ih =>
      obtain ⟨hid, hrest⟩ := List.forall_mem_cons.mp hids
      rw [takeFromPool]
      split
      · exact ⟨by simpa using Shift.refl pool f l, h0, le_refl _⟩
      extract_lets take
      split
      · exact ih hrest left h0
      · next htake =>
          have hle : take ≤ left := min_le_right _ _
          have hbal : take ≤ l.bal id f := min_le_left _ _
          have hstep : Shift pool f (-take) l (l.add id f (-take)) :=
            Shift.add hid.1 hid.2 fun _ => by linarith
          have hrest' : ∀ k ∈ ids, k ∈ pool ∧ ((l.add id f (-take)).get k).isSome := by
            intro k hk
            exact ⟨(hrest k hk).1, (hstep.same.isSome k).trans (hrest k hk).2⟩
          obtain ⟨h1, h2, h3⟩ := ih hrest' (left - take) (by linarith)
          refine ⟨?_, h2, by linarith⟩
          have h4 := hstep.trans h1
          have hsum : -take + -(left - take - (takeFromPool f ids (left - take) (l.add id f (-take))).2) =
              -(left - (takeFromPool f ids (left - take) (l.add id f (-take))).2) := by ring
          rwa [hsum] at h4

theorem drawBank_shift (pool : List String) (f : Field) (want spread : ℚ) (l : Ledger) :
    Shift pool f (-(drawBank pool l f want spread).2) l (drawBank pool l f want spread).1 ∧
      0 ≤ (drawBank pool l f want spread).2 := by
  have hnone : Shift pool f (-0) l l ∧ (0 : ℚ) ≤ 0 := ⟨by simpa using Shift.refl pool f l, le_refl 0⟩
  unfold drawBank
  split
  · exact hnone
  extract_lets share target
  split
  · exact hnone
  · next htarget =>
      have hids : ∀ id ∈ poolAccounts pool l, id ∈ pool ∧ (l.get id).isSome := fun id hid => mem_poolAccounts.mp hid
      obtain ⟨h1, h2, h3⟩ := takeFromPool_shift f hids target (not_le.mp htarget).le
      rcases htaken : takeFromPool f (poolAccounts pool l) target l with ⟨l', left⟩
      rw [htaken] at h1 h2 h3
      exact ⟨h1, sub_nonneg.mpr h3⟩

theorem poorest_mem {ids : List String} {target : String} (h : poorest l f ids = some target) : target ∈ ids := by
  cases ids with
  | nil => cases h
  | cons id ids =>
      have hfold : ∀ (ids : List String) (t : String),
          ids.foldl (fun t a => if l.bal a f < l.bal t f then a else t) t = t ∨
            ids.foldl (fun t a => if l.bal a f < l.bal t f then a else t) t ∈ ids := by
        intro ids
        induction ids with
        | nil => exact fun t => Or.inl rfl
        | cons k ids ih =>
            intro t
            rw [List.foldl_cons]
            split
            · rcases ih k with he | hm
              · rw [he]
                exact Or.inr List.mem_cons_self
              · exact Or.inr (List.mem_cons_of_mem _ hm)
            · exact (ih t).imp_right (List.mem_cons_of_mem _)
      rw [poorest, Option.some_inj] at h
      rcases hfold ids id with he | hm
      · rw [← h, he]
        exact List.mem_cons_self
      · rw [← h]
        exact List.mem_cons_of_mem _ hm

/-- What comes back goes to a pool wallet; without one it is gone. -/
theorem returnBank_shift (pool : List String) (f : Field) {amount : ℚ} (h0 : 0 ≤ amount) (l : Ledger) :
    ∃ x, Shift pool f x l (returnBank pool l f amount) ∧ (PoolReady pool l → x = amount) := by
  unfold returnBank
  split
  · next hle =>
      have hzero : amount = 0 := le_antisymm hle h0
      exact ⟨0, Shift.refl pool f l, fun _ => hzero.symm⟩
  split
  · next hnone =>
      refine ⟨0, Shift.refl pool f l, fun hready => ?_⟩
      cases hids : poolAccounts pool l with
      | nil => exact absurd hids (poolAccounts_ne_nil.mpr hready)
      | cons id ids => simp [hids, poorest] at hnone
  · next target htarget =>
      obtain ⟨hid, hget⟩ := mem_poolAccounts.mp (poorest_mem htarget)
      exact ⟨amount, Shift.add hid hget fun hl => by linarith, fun _ => rfl⟩

end

end BullsUnicorns.Engine

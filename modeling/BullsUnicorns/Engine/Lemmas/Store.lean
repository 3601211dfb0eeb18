import BullsUnicorns.Engine.Host
import BullsUnicorns.Engine.Lemmas.Boot

/-!
# What the store keeps

A transaction that throws leaves the rows as they were, wherever it throws. One that does not leaves the accounts
that have activity, and a new process finds these and the counters, unless there is none.
-/

namespace BullsUnicorns.Engine

variable {throws : ℕ → Bool} {db : Database} {snap : Snapshot}

/-! ## A transaction -/

theorem execute_throws {statements : List Statement} {n k : ℕ} (hk : k ≤ statements.length) (h : throws (n + k) = true)
    (db : Database) : execute throws n statements db = .error () := by
  induction statements generalizing n k db with
  | nil =>
      obtain rfl := Nat.le_zero.mp hk
      rw [Nat.add_zero] at h
      rw [execute, if_pos h]
  | cons statement rest ih =>
      rw [execute]
      cases k with
      | zero =>
          rw [Nat.add_zero] at h
          rw [if_pos h]
      | succ k =>
          split
          · rfl
          · apply ih (Nat.le_of_succ_le_succ hk)
            rwa [Nat.add_assoc, Nat.add_comm 1 k]

theorem execute_ok {statements : List Statement} (h : ∀ n, throws n = false) (n : ℕ) (db : Database) :
    execute throws n statements db = .ok (statements.foldl Statement.run db) := by
  induction statements generalizing n db with
  | nil => rw [execute, if_neg (by simp [h n]), List.foldl_nil]
  | cons statement rest ih => rw [execute, if_neg (by simp [h n]), ih, List.foldl_cons]

/-- A write that throws leaves the rows that were there. -/
theorem writeSnapshot_throws {n : ℕ} (hn : n ≤ snap.statements.length) (h : throws n = true) :
    writeSnapshot throws snap db = db := by
  have herror : execute throws 0 snap.statements db = .error () := by
    apply execute_throws hn
    rwa [Nat.zero_add]
  rw [writeSnapshot, herror]

theorem putAccounts (accounts : List Account) (db : Database) :
    (accounts.map Statement.putAccount).foldl Statement.run db =
      { db with accounts := accounts.foldl (fun m a => m.set a.id a) db.accounts } := by
  induction accounts generalizing db with
  | nil => rfl
  | cons a accounts ih =>
      rw [List.map_cons, List.foldl_cons, ih]
      rfl

/-- What a write leaves in the tables. -/
theorem writeSnapshot_ok (h : ∀ n, throws n = false) (hids : (snap.accounts.map (·.id)).Nodup) :
    (writeSnapshot throws snap db).accounts.values = snap.accounts ∧
      (writeSnapshot throws snap db).roundsByArena = snap.roundsByArena.or db.roundsByArena := by
  have hrows : (snap.accounts.foldl (fun m a => m.set a.id a) OrderedMap.empty).values = snap.accounts := by
    rw [OrderedMap.values, OrderedMap.entries_foldl_set hids, List.map_map]
    exact List.map_id _
  rw [writeSnapshot, execute_ok h, Snapshot.statements, List.cons_append, List.foldl_cons, List.foldl_append, putAccounts]
  cases hcounters : snap.roundsByArena with
  | none => exact ⟨hrows, rfl⟩
  | some counters => exact ⟨hrows, rfl⟩

/-! ## The last save -/

section
variable {h : Host}

/-- The references of a snapshot lead to the accounts that it was made of. -/
theorem filterMap_get {l : Ledger} (hk : Keyed l) {accounts : List Account} (hmem : ∀ a ∈ accounts, a ∈ l.values) :
    (accounts.map (·.id)).filterMap l.get = accounts := by
  rw [List.filterMap_map]
  have hget : ∀ a ∈ accounts, (l.get ∘ fun a => a.id) a = some a := by
    intro a ha
    obtain ⟨k, hget⟩ := OrderedMap.mem_values.mp (hmem a ha)
    rw [Function.comp_apply, hk k a hget]
    exact hget
  rw [List.filterMap_congr hget]
  exact List.filterMap_some

theorem saved_rows (hk : Keyed h.engine.ledger) : h.saved.db.accounts.values = snapshot h.engine ∧
    h.saved.db.roundsByArena = some h.engine.roundsByArena := by
  have hrefs : ((snapshot h.engine).map (·.id)).filterMap h.engine.ledger.get = snapshot h.engine :=
    filterMap_get hk fun a ha => (List.mem_filter.mp ha).1
  have hids : ((snapshot h.engine).map (·.id)).Nodup := ids_nodup hk hasActivity
  have hwritten : h.saved.db = writeSnapshot (fun _ => false)
      ⟨((snapshot h.engine).map (·.id)).filterMap h.engine.ledger.get, some h.engine.roundsByArena⟩ h.db := rfl
  rw [hwritten, hrefs]
  exact writeSnapshot_ok (fun _ => rfl) hids

/-- Nobody has activity. -/
def Host.Idle (h : Host) : Prop := ∀ id a, h.engine.ledger.get id = some a → hasActivity a = false

theorem idle_iff : h.Idle ↔ snapshot h.engine = [] := by
  rw [snapshot, List.filter_eq_nil_iff]
  constructor
  case mp =>
      intro hidle a ha
      obtain ⟨id, hget⟩ := OrderedMap.mem_values.mp ha
      simp [hidle id a hget]
  case mpr =>
      intro hnone id a hget
      simpa using hnone a (OrderedMap.mem_values.mpr ⟨id, hget⟩)

/-- A new process finds the accounts that have activity. -/
theorem restored_accounts (hk : Keyed h.engine.ledger) : (restored h.saved.db).1 = restore (snapshot h.engine) := by
  rw [restored, loadSnapshot, (saved_rows hk).1]
  by_cases hnone : snapshot h.engine = []
  · rw [if_pos hnone, hnone]
    rfl
  · rw [if_neg hnone]

/-- It finds the counters only when it finds an account. -/
theorem restored_counters (hk : Keyed h.engine.ledger) :
    (h.Idle → (restored h.saved.db).2 = fun _ => 0) ∧ (¬h.Idle → (restored h.saved.db).2 = h.engine.roundsByArena) := by
  obtain ⟨hrows, hcounters⟩ := saved_rows hk
  rw [restored, loadSnapshot, hrows, hcounters, idle_iff]
  constructor
  case left =>
      intro hnone
      rw [if_pos hnone]
  case right =>
      intro hsome
      rw [if_neg hsome]
      rfl

end

end BullsUnicorns.Engine

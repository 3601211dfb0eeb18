import BullsUnicorns.Identity.Ceremony

/-!
# What the statements of the write path do

The same of both stores: a challenge is stored once, a redemption takes it, and only the two link
statements touch the register.
-/

namespace BullsUnicorns.Identity

variable {σ : Type}

/-- A write store, read as its stored challenges and a register. -/
structure WriteLaws (W : WriteStore σ) where
  stored : σ → String → Option Challenge
  register : σ → Register
  empty : stored W.empty = (fun _ => none) ∧ register W.empty = Register.empty
  rows : ∀ s, (register s).Sound → ∀ r, r ∈ W.rows s ↔ ∃ x, (register s).row x = some r
  nonces : ∀ s n, n ∈ W.nonces s → (stored s n).isSome
  /-- Challenges and counts live beside the register. -/
  beside : ∀ (o : Outside) (c : Call) (s : σ), (∀ w identity t, c ≠ .link w identity t) → (∀ w, c ≠ .unlink w) →
    W.rows (W.serve o c s).2 = W.rows s ∧ register (W.serve o c s).2 = register s
  hit : ∀ buckets start s n c, stored (W.rate.hit buckets start s).2 n = some c → stored s n = some c
  put : ∀ c s,
    ((W.challenges.put c s).1 = .ok () ∧ stored s c.nonce = none ∧
      stored (W.challenges.put c s).2 = Function.update (stored s) c.nonce (some c)) ∨
    ((∃ e, (W.challenges.put c s).1 = .error e) ∧ stored (W.challenges.put c s).2 = stored s)
  consume : ∀ n t s,
    (∃ c, stored s n = some c ∧ t < c.expiresAtSec ∧ (W.challenges.consume n t s).1 = .ok (some c) ∧
      stored (W.challenges.consume n t s).2 = Function.update (stored s) n none) ∨
    ((∀ c, stored s n = some c → c.expiresAtSec ≤ t) ∧ (W.challenges.consume n t s).1 = .ok none ∧
      stored (W.challenges.consume n t s).2 = stored s)
  link : ∀ w identity t s, (register s).Sound → stored (W.links.link w identity t s).2 = stored s ∧
    (((W.links.link w identity t s).1 = .ok .linked ∧ ¬ (register s).Taken w identity.xId ∧
        register (W.links.link w identity t s).2 = (register s).link w identity t) ∨
      ((W.links.link w identity t s).1 ≠ .ok .linked ∧ register (W.links.link w identity t s).2 = register s))
  unlink : ∀ w s, (register s).Sound → stored (W.links.unlink w s).2 = stored s ∧
    register (W.links.unlink w s).2 = (register s).unlink w

/-! ## The register side, of any store that refines a register -/

theorem answerOf_linked {r : Except StoreError LinkWriteOutcome} : answerOf .outcome r = .outcome .linked ↔ r = .ok .linked := by
  cases r with
  | error e => simp [answerOf]
  | ok o => simp [answerOf]

theorem Refinement.link_law {S : RegisterStore σ} {p : Register.Policy} (ref : Refinement S p) (w : String)
    (identity : XIdentity) (t : ℤ) (s : σ) (h : (ref.view s).Sound) :
    ((S.writer.link w identity t s).1 = .ok .linked ∧ ¬ (ref.view s).Taken w identity.xId ∧
        ref.view (S.writer.link w identity t s).2 = (ref.view s).link w identity t) ∨
      ((S.writer.link w identity t s).1 ≠ .ok .linked ∧ ref.view (S.writer.link w identity t s).2 = ref.view s) := by
  obtain ⟨hanswer, hview⟩ := ref.step s (.link w identity t) h
  rcases Register.step_link p (ref.view s) w identity t with ⟨hlinked, hfree, hlink⟩ | ⟨hrefused, hsame⟩
  · exact .inl ⟨answerOf_linked.mp (hanswer.trans hlinked), hfree, hview.trans hlink⟩
  · exact .inr ⟨fun hok => hrefused (hanswer.symm.trans (answerOf_linked.mpr hok)), hview.trans hsame⟩

theorem Refinement.unlink_law {S : RegisterStore σ} {p : Register.Policy} (ref : Refinement S p) (w : String) (s : σ)
    (h : (ref.view s).Sound) (huntaken : p.takes (.unlink w) = false → (ref.view s).unlink w = ref.view s) :
    ref.view (S.writer.unlink w s).2 = (ref.view s).unlink w := by
  have hview : ref.view (S.writer.unlink w s).2 = _ := (ref.step s (.unlink w) h).2
  rw [hview]
  cases htakes : p.takes (.unlink w) with
  | true => exact congrArg Prod.snd (Register.step_taken htakes)
  | false => exact (congrArg Prod.snd (Register.step_untaken htakes)).trans (huntaken htakes).symm

/-! ## Postgres -/

namespace PgWriteStore

def stored (db : PgDb) (n : String) : Option Challenge :=
  (Table.lookup ChallengeRow.nonce db.xLinkChallenge.rows n).bind fun r => (challengeOf r).toOption

theorem challengeOf_challengeRow (c : Challenge) : challengeOf (challengeRow c) = .ok c := by
  obtain ⟨nonce, wallet, message, issuedAtSec, expiresAtSec, ceremony⟩ := c
  cases ceremony with
  | link identity => rfl
  | unlink => rfl

/-- The constraints leave no row that is not a challenge. -/
theorem challengeOf_checked {r : ChallengeRow} (h : firstViolated r.checks = none) :
    ∃ c, challengeOf r = .ok c ∧ c.expiresAtSec = r.expiresAt := by
  have hmatch : r.identityMatchesPurpose = true :=
    firstViolated_eq_none.mp h ("x_link_challenge_identity_matches_purpose", r.identityMatchesPurpose)
      (by simp [ChallengeRow.checks])
  obtain ⟨nonce, purpose, wallet, xId, handle, displayName, avatarUrl, message, issuedAt, expiresAt⟩ := r
  simp only [ChallengeRow.identityMatchesPurpose, Bool.or_eq_true, Bool.and_eq_true, beq_iff_eq] at hmatch
  rcases hmatch with ⟨⟨⟨rfl, hx⟩, hh⟩, hd⟩ | ⟨⟨⟨⟨rfl, _⟩, _⟩, _⟩, _⟩
  · obtain ⟨x, rfl⟩ := Option.isSome_iff_exists.mp hx
    obtain ⟨handle, rfl⟩ := Option.isSome_iff_exists.mp hh
    obtain ⟨name, rfl⟩ := Option.isSome_iff_exists.mp hd
    exact ⟨_, rfl, rfl⟩
  · exact ⟨_, rfl, rfl⟩

theorem stored_eq_some {db : PgDb} {n : String} {r : ChallengeRow}
    (h : Table.lookup ChallengeRow.nonce db.xLinkChallenge.rows n = some r) :
    ∃ c, stored db n = some c ∧ challengeOf r = .ok c ∧ c.expiresAtSec = r.expiresAt := by
  obtain ⟨c, hc, hexp⟩ := challengeOf_checked (db.xLinkChallenge.checked r (Table.mem_of_lookup h).1)
  exact ⟨c, by simp [stored, h, hc, Except.toOption], hc, hexp⟩

theorem insert_ok {t t' : ChallengeTable} {new : ChallengeRow} (h : t.insert new = .ok t') :
    Table.lookup ChallengeRow.nonce t.rows new.nonce = none ∧ t'.rows = t.rows ++ [new] := by
  unfold ChallengeTable.insert at h
  split at h
  · cases h
  · split at h
    · rename_i hn
      cases h
      exact ⟨Table.lookup_eq_none.mpr hn, rfl⟩
    · cases h

/-- A challenge is refused, or the insert decides. -/
theorem put_cases (c : Challenge) (db : PgDb) :
    (∃ e, put c db = (.error e, db)) ∨
    ∃ table, db.xLinkChallenge.insert (challengeRow c) = .ok table ∧ put c db = (.ok (), { db with
      xLinkChallenge := table
      xLinkRate := db.xLinkRate.filter fun r => decide (c.issuedAtSec - rateRowTtlSeconds ≤ r.windowStart) }) := by
  rw [put]
  rcases PgRefinement.execute_cases _ _ _ db with heq | ⟨e, heq⟩
  · rw [heq]
    split
    · exact .inl ⟨_, rfl⟩
    · rename_i table htable
      exact .inr ⟨table, htable, rfl⟩
  · exact .inl ⟨e, heq⟩

theorem put_law (c : Challenge) (db : PgDb) :
    ((put c db).1 = .ok () ∧ stored db c.nonce = none ∧
      stored (put c db).2 = Function.update (stored db) c.nonce (some c)) ∨
    ((∃ e, (put c db).1 = .error e) ∧ stored (put c db).2 = stored db) := by
  have hnonce : (challengeRow c).nonce = c.nonce := by
    unfold challengeRow
    split <;> rfl
  rcases put_cases c db with ⟨e, hput⟩ | ⟨table, htable, hput⟩
  · rw [hput]
    exact .inr ⟨⟨e, rfl⟩, rfl⟩
  · obtain ⟨hfree, hrows⟩ := insert_ok htable
    rw [hput]
    refine .inl ⟨rfl, by simp [stored, ← hnonce, hfree], ?_⟩
    funext n
    have hlookup : Table.lookup ChallengeRow.nonce table.rows n =
        if n = c.nonce then some (challengeRow c) else Table.lookup ChallengeRow.nonce db.xLinkChallenge.rows n := by
      rw [hrows, Table.lookup_append_single hfree, hnonce]
    by_cases hn : n = c.nonce
    · subst hn
      simp [stored, hlookup, challengeOf_challengeRow, Except.toOption]
    · simp [stored, hlookup, hn]

/-- The row that a redemption selects, if any. -/
theorem consume_selects (n : String) (t : ℤ) (db : PgDb) :
    db.xLinkChallenge.rows.filter (fun r => r.nonce == n && decide (t < r.expiresAt)) =
      ((Table.lookup ChallengeRow.nonce db.xLinkChallenge.rows n).filter fun r => t < r.expiresAt).toList :=
  Table.filter_key_and db.xLinkChallenge.primaryKey _

theorem consume_none {n : String} {t : ℤ} {db : PgDb}
    (h : db.xLinkChallenge.rows.filter (fun r => r.nonce == n && decide (t < r.expiresAt)) = []) :
    (consume n t db).1 = .ok none ∧ stored (consume n t db).2 = stored db := by
  have hrows : (db.xLinkChallenge.deleteWhere fun r => r.nonce == n && decide (t < r.expiresAt)).rows =
      db.xLinkChallenge.rows := by
    refine List.filter_eq_self.mpr fun r hr => ?_
    rw [Bool.not_eq_true', Bool.eq_false_iff]
    exact List.filter_eq_nil_iff.mp h r hr
  constructor
  · simp [consume, h]
  · funext m
    simp [consume, h, stored, hrows]

theorem consume_some {n : String} {t : ℤ} {db : PgDb} {r : ChallengeRow} {c : Challenge} (hof : challengeOf r = .ok c)
    (hl : Table.lookup ChallengeRow.nonce db.xLinkChallenge.rows n = some r) (ht : t < r.expiresAt) :
    (consume n t db).1 = .ok (some c) ∧ stored (consume n t db).2 = Function.update (stored db) n none := by
  have hselects : db.xLinkChallenge.rows.filter (fun r => r.nonce == n && decide (t < r.expiresAt)) = [r] := by
    simp [consume_selects, hl, Option.filter, ht]
  constructor
  · simp [consume, hselects, hof, Except.map]
  · have hleft (m : String) : Table.lookup ChallengeRow.nonce
        (db.xLinkChallenge.deleteWhere fun r => r.nonce == n && decide (t < r.expiresAt)).rows m =
        (Table.lookup ChallengeRow.nonce db.xLinkChallenge.rows m).filter
          fun r => !(r.nonce == n && decide (t < r.expiresAt)) := Table.lookup_filter db.xLinkChallenge.primaryKey _
    funext m
    simp only [consume, hselects, stored, hleft]
    by_cases hm : m = n
    · subst hm
      simp [hl, Option.filter, (Table.mem_of_lookup hl).2, ht]
    · rw [Function.update_of_ne hm, stored]
      cases hother : Table.lookup ChallengeRow.nonce db.xLinkChallenge.rows m with
      | none => rfl
      | some r' =>
          have hne : r'.nonce ≠ n := (Table.mem_of_lookup hother).2 ▸ hm
          simp [Option.filter, hne]

theorem consume_law (n : String) (t : ℤ) (db : PgDb) :
    (∃ c, stored db n = some c ∧ t < c.expiresAtSec ∧ (consume n t db).1 = .ok (some c) ∧
      stored (consume n t db).2 = Function.update (stored db) n none) ∨
    ((∀ c, stored db n = some c → c.expiresAtSec ≤ t) ∧ (consume n t db).1 = .ok none ∧
      stored (consume n t db).2 = stored db) := by
  have hselects := consume_selects n t db
  cases hl : Table.lookup ChallengeRow.nonce db.xLinkChallenge.rows n with
  | none =>
      rw [hl, Option.filter_none, Option.toList_none] at hselects
      exact .inr ⟨by simp [stored, hl], consume_none hselects⟩
  | some r =>
      obtain ⟨c, hc, hof, hexp⟩ := stored_eq_some hl
      by_cases ht : t < r.expiresAt
      · obtain ⟨hanswer, hstored⟩ := consume_some hof hl ht
        exact .inl ⟨c, hc, hexp ▸ ht, hanswer, hstored⟩
      · rw [hl, Option.filter_some_neg (by simpa using ht), Option.toList_none] at hselects
        refine .inr ⟨fun c' hc' => ?_, consume_none hselects⟩
        rw [hc] at hc'
        cases hc'
        exact hexp ▸ not_lt.mp ht

/-- A sweep only takes challenges away. -/
theorem hit_law (buckets : List String) (start : ℤ) (db : PgDb) (n : String) (c : Challenge)
    (h : stored (hit buckets start db).2 n = some c) : stored db n = some c := by
  have hswept {db' : PgDb} (hdb' : db'.xLinkChallenge = db.xLinkChallenge.deleteWhere fun r => decide (r.expiresAt < start))
      (h : stored db' n = some c) : stored db n = some c := by
    have hleft : Table.lookup ChallengeRow.nonce
        (db.xLinkChallenge.deleteWhere fun r => decide (r.expiresAt < start)).rows n =
        (Table.lookup ChallengeRow.nonce db.xLinkChallenge.rows n).filter fun r => !decide (r.expiresAt < start) :=
      Table.lookup_filter db.xLinkChallenge.primaryKey _
    simp only [stored, hdb', hleft, Option.bind_eq_some_iff, Option.filter_eq_some_iff] at h
    obtain ⟨r, ⟨hr, _⟩, hc⟩ := h
    simp [stored, hr, hc]
  unfold hit at h
  split at h
  · exact h
  · split at h
    · exact h
    · split at h
      · exact h
      · simp only at h
        split at h
        · exact hswept rfl h
        · exact hswept rfl h

/-- The other statements of the path leave the register alone. -/
theorem put_beside (c : Challenge) (db : PgDb) : (put c db).2.xLink = db.xLink ∧
    (put c db).2.xLinkSuppressed = db.xLinkSuppressed := by
  rcases put_cases c db with ⟨e, hput⟩ | ⟨table, -, hput⟩
  · rw [hput]
    exact ⟨rfl, rfl⟩
  · rw [hput]
    exact ⟨rfl, rfl⟩

theorem consume_beside (n : String) (t : ℤ) (db : PgDb) : (consume n t db).2.xLink = db.xLink ∧
    (consume n t db).2.xLinkSuppressed = db.xLinkSuppressed := by
  unfold consume
  simp only
  split
  · exact ⟨rfl, rfl⟩
  · exact ⟨rfl, rfl⟩

theorem hit_beside (buckets : List String) (start : ℤ) (db : PgDb) : (hit buckets start db).2.xLink = db.xLink ∧
    (hit buckets start db).2.xLinkSuppressed = db.xLinkSuppressed := by
  unfold hit
  split
  · exact ⟨rfl, rfl⟩
  · split
    · exact ⟨rfl, rfl⟩
    · split
      · exact ⟨rfl, rfl⟩
      · simp only
        split
        · exact ⟨rfl, rfl⟩
        · exact ⟨rfl, rfl⟩

/-- The two link statements leave the challenges alone. -/
theorem writeLinks_challenges {α : Type} (rows : List XLink) (answer : α) (db : PgDb) :
    (db.writeLinks rows answer id).2.xLinkChallenge = db.xLinkChallenge := by
  unfold PgDb.writeLinks
  split
  · rfl
  · rfl

theorem link_challenges (w : String) (identity : XIdentity) (t : ℤ) (db : PgDb) :
    (link w identity t db).2.xLinkChallenge = db.xLinkChallenge := by
  rcases PgRefinement.execute_cases _ _ _ db with heq | ⟨e, heq⟩
  · unfold link
    rw [heq]
    split
    · rfl
    · exact writeLinks_challenges _ _ db
  · unfold link
    rw [heq]

theorem unlink_challenges (w : String) (db : PgDb) : (unlink w db).2.xLinkChallenge = db.xLinkChallenge := by
  unfold unlink
  rcases PgRefinement.execute_cases _ _ _ db with heq | ⟨e, heq⟩
  · rw [heq]
    exact writeLinks_challenges _ _ db
  · rw [heq]

end PgWriteStore

def pgWriteLaws : WriteLaws pgWriteStore where
  stored := PgWriteStore.stored
  register := PgDb.register
  empty := ⟨rfl, pgRefinement.empty⟩
  rows s h := (pgRefinement.rows s h).2
  nonces s n hn := by
    obtain ⟨r, hr, hkey⟩ := List.mem_map.mp hn
    obtain ⟨c, hc, _⟩ := PgWriteStore.stored_eq_some
      ((Table.lookup_eq_some s.xLinkChallenge.primaryKey).mpr ⟨hr, hkey⟩)
    exact Option.isSome_iff_exists.mpr ⟨c, hc⟩
  beside o c s hlink hunlink := by
    have hsame {db : PgDb} (hlinks : db.xLink = s.xLink ∧ db.xLinkSuppressed = s.xLinkSuppressed) :
        pgWriteStore.rows db = pgWriteStore.rows s ∧ db.register = s.register := by
      simp [pgWriteStore, pgRegister, PgDb.register, hlinks.1, hlinks.2]
    unfold WriteStore.serve
    split
    · exact ⟨rfl, rfl⟩
    · cases c with
      | hit buckets start => exact hsame (PgWriteStore.hit_beside buckets start s)
      | verify token nowSec => exact ⟨rfl, rfl⟩
      | put challenge => exact hsame (PgWriteStore.put_beside challenge s)
      | consume nonce nowSec => exact hsame (PgWriteStore.consume_beside nonce nowSec s)
      | house => exact ⟨rfl, rfl⟩
      | link wallet identity t => exact absurd rfl (hlink wallet identity t)
      | unlink wallet => exact absurd rfl (hunlink wallet)
  hit := PgWriteStore.hit_law
  put := PgWriteStore.put_law
  consume := PgWriteStore.consume_law
  link w identity t s h := by
    refine ⟨?_, pgRefinement.link_law w identity t s h⟩
    funext n
    simp [pgWriteStore, pgLinkWriter, PgWriteStore.stored, PgWriteStore.link_challenges]
  unlink w s h := by
    refine ⟨?_, pgRefinement.unlink_law w s h (PgRefinement.unlink_untaken s)⟩
    funext n
    simp [pgWriteStore, pgLinkWriter, PgWriteStore.stored, PgWriteStore.unlink_challenges]

/-! ## Memory -/

namespace MemoryChallengeStore

theorem put_law (c : Challenge) (s : MemoryChallengeStore) :
    ((put c s).1 = .ok () ∧ s.rows.get c.nonce = none ∧
      (put c s).2.rows.get = Function.update s.rows.get c.nonce (some c)) ∨
    ((∃ e, (put c s).1 = .error e) ∧ (put c s).2 = s) := by
  unfold put
  split
  · exact .inr ⟨⟨_, rfl⟩, rfl⟩
  · split
    · exact .inr ⟨⟨_, rfl⟩, rfl⟩
    · rename_i hfree
      refine .inl ⟨rfl, by simpa using hfree, ?_⟩
      funext n
      rw [OrderedMap.get_set, Function.update_apply]

theorem consume_law (n : String) (t : ℤ) (s : MemoryChallengeStore) :
    (∃ c, s.rows.get n = some c ∧ t < c.expiresAtSec ∧ (consume n t s).1 = .ok (some c) ∧
      (consume n t s).2.rows.get = Function.update s.rows.get n none) ∨
    ((∀ c, s.rows.get n = some c → c.expiresAtSec ≤ t) ∧ (consume n t s).1 = .ok none ∧ (consume n t s).2 = s) := by
  unfold consume
  split
  · rename_i hnone
    refine .inr ⟨?_, rfl, rfl⟩
    intro c hc
    rw [hnone] at hc
    cases hc
  · rename_i row hrow
    split
    · rename_i hle
      refine .inr ⟨?_, rfl, rfl⟩
      intro c hc
      rw [hrow] at hc
      cases hc
      exact hle
    · rename_i hlt
      refine .inl ⟨row, hrow, not_le.mp hlt, rfl, ?_⟩
      funext m
      rw [OrderedMap.get_delete, Function.update_apply]

end MemoryChallengeStore

def memoryWriteLaws : WriteLaws memoryWriteStore where
  stored s := s.challenges.rows.get
  register s := s.links.register
  empty := ⟨rfl, memoryRefinement.empty⟩
  rows s h := (memoryRefinement.rows s.links h).2
  nonces s n hn := by
    obtain ⟨⟨m, c⟩, he, rfl⟩ := List.mem_map.mp hn
    exact Option.isSome_iff_exists.mpr ⟨c, OrderedMap.get_eq_some.mpr he⟩
  beside o c s hlink hunlink := by
    unfold WriteStore.serve
    split
    · exact ⟨rfl, rfl⟩
    · cases c with
      | link wallet identity t => exact absurd rfl (hlink wallet identity t)
      | unlink wallet => exact absurd rfl (hunlink wallet)
      | _ => exact ⟨rfl, rfl⟩
  hit _ _ _ _ _ h := h
  put c s := by
    rcases MemoryChallengeStore.put_law c s.challenges with h | ⟨herror, hsame⟩
    · exact .inl h
    · exact .inr ⟨herror, congrArg (fun st => st.rows.get) hsame⟩
  consume n t s := by
    rcases MemoryChallengeStore.consume_law n t s.challenges with h | ⟨hexpired, hnone, hsame⟩
    · exact .inl h
    · exact .inr ⟨hexpired, hnone, congrArg (fun st => st.rows.get) hsame⟩
  link w identity t s h := ⟨rfl, memoryRefinement.link_law w identity t s.links h⟩
  unlink w s h := ⟨rfl, memoryRefinement.unlink_law w s.links h fun huntaken => by cases huntaken⟩

end BullsUnicorns.Identity

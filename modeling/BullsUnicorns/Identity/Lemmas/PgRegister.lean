import BullsUnicorns.Identity.PgStore
import BullsUnicorns.Identity.Register

/-!
# The Postgres store refines the register
-/

namespace BullsUnicorns.Identity

def pgRegister : RegisterStore PgDb where
  empty := PgDb.empty
  rows db := db.xLink.rows.map XLink.toRegisterRow
  links := pgStore
  writer := pgLinkWriter

/-- The identities that the columns of `x_link` admit for a wallet. -/
def pgStorable (wallet : String) (identity : XIdentity) : Bool :=
  xIdRe identity.xId && walletRe wallet && handleRe identity.handle &&
    decide (charLength identity.displayName ≤ 100) && avatarUrlOk identity.avatarUrl

/-- The parameters that the column types hold. -/
def pgTakes (a : RegisterAct) : Bool := a.texts.all pgText && a.times.all pgTime

def pgPolicy : Register.Policy where
  takes := pgTakes
  link taken wallet identity :=
    if taken then .outcome .walletTaken else if pgStorable wallet identity then .outcome .linked else .refused
  picture hash bytes := avatarHashRe hash && avatarBytesOk bytes
  taken_refused := by simp

def PgDb.register (db : PgDb) : Register where
  row x := (Table.lookup (fun r : XLink => r.xId) db.xLink.rows x).map XLink.toRegisterRow
  takenDown x := x ∈ db.xLinkSuppressed

namespace PgRefinement

/-! ## What the types and the constraints let through -/

theorem execute_taken {α : Type} {texts : List String} {times : List ℤ} (statement : Statement PgDb α) (db : PgDb)
    (h : (texts.all pgText && times.all pgTime) = true) : PgDb.execute texts times statement db = statement db := by
  rw [Bool.and_eq_true] at h
  rw [PgDb.execute, if_neg (by simp [h.1]), if_neg (by simp [h.2])]

theorem execute_refused {α : Type} {texts : List String} {times : List ℤ} (statement : Statement PgDb α) (db : PgDb)
    (h : (texts.all pgText && times.all pgTime) = false) :
    ∃ e, PgDb.execute texts times statement db = (.error e, db) := by
  unfold PgDb.execute
  split
  · exact ⟨_, rfl⟩
  split
  · exact ⟨_, rfl⟩
  · rename_i htexts htimes
    simp only [Bool.not_eq_true', Bool.not_eq_false] at htexts htimes
    rw [htexts, htimes] at h
    cases h

/-- What follows of every statement whose parameters are taken follows of all of them. -/
theorem execute_cases {α : Type} (texts : List String) (times : List ℤ) (statement : Statement PgDb α) (db : PgDb) :
    PgDb.execute texts times statement db = statement db ∨
      ∃ e, PgDb.execute texts times statement db = (.error e, db) := by
  cases h : texts.all pgText && times.all pgTime with
  | true => exact .inl (execute_taken statement db h)
  | false => exact .inr (execute_refused statement db h)

theorem commit_ok {rows : List XLink} (hp : Table.Keyed (fun r : XLink => r.xId) rows)
    (hw : Table.Keyed (fun r : XLink => r.wallet) rows) (hc : ∀ r ∈ rows, firstViolated r.checks = none) :
    XLinkTable.commit rows = .ok ⟨rows, hp, hw, hc⟩ := by
  unfold XLinkTable.commit
  rw [dif_pos hp, dif_pos hw]
  split
  · rename_i c h
    obtain ⟨r, hr, hrc⟩ := List.exists_of_findSome?_eq_some h
    rw [hc r hr] at hrc
    cases hrc
  · rfl

theorem commit_refused {rows : List XLink} {r : XLink} (hr : r ∈ rows) (hc : firstViolated r.checks ≠ none) :
    ∃ e, XLinkTable.commit rows = .error e := by
  unfold XLinkTable.commit
  split
  · split
    · split
      · exact ⟨_, rfl⟩
      · rename_i h
        exact absurd (by simpa using List.findSome?_eq_none_iff.mp h r hr) hc
    · exact ⟨_, rfl⟩
  · exact ⟨_, rfl⟩

theorem writeLinks_ok {α : Type} {rows : List XLink} (answer : α) (beside : PgDb → PgDb) (db : PgDb)
    (hp : Table.Keyed (fun r : XLink => r.xId) rows) (hw : Table.Keyed (fun r : XLink => r.wallet) rows)
    (hc : ∀ r ∈ rows, firstViolated r.checks = none) :
    PgDb.writeLinks rows answer beside db = (.ok answer, beside { db with xLink := ⟨rows, hp, hw, hc⟩ }) := by
  unfold PgDb.writeLinks
  rw [commit_ok hp hw hc]

theorem writeLinks_refused {α : Type} {rows : List XLink} (answer : α) (beside : PgDb → PgDb) (db : PgDb)
    {r : XLink} (hr : r ∈ rows) (hc : firstViolated r.checks ≠ none) :
    ∃ e, PgDb.writeLinks rows answer beside db = (.error e, db) := by
  obtain ⟨e, he⟩ := commit_refused hr hc
  exact ⟨e, by rw [PgDb.writeLinks, he]⟩

theorem checks_iff (r : XLink) : firstViolated r.checks = none ↔
    (xIdRe r.xId ∧ walletRe r.wallet ∧ handleRe r.handle ∧ charLength r.displayName ≤ 100 ∧
      avatarUrlOk r.avatarUrl) ∧
    (r.avatarHash.all avatarHashRe ∧ r.avatarBytes.all avatarBytesOk ∧ r.toRegisterRow.avatarAllOrNothing) := by
  rw [firstViolated_eq_none]
  simp [XLink.checks, and_assoc]

/-! ## The view -/

variable {db : PgDb}

theorem register_row (x : String) : db.register.row x =
    (Table.lookup (fun r : XLink => r.xId) db.xLink.rows x).map XLink.toRegisterRow := rfl

theorem row_eq_some {x : String} {r : RegisterRow} :
    db.register.row x = some r ↔ ∃ r' ∈ db.xLink.rows, r'.xId = x ∧ r'.toRegisterRow = r := by
  simp [PgDb.register, Option.map_eq_some_iff, Table.lookup_eq_some db.xLink.primaryKey, and_assoc]

theorem taken_iff (w x : String) :
    (db.xLink.rows.any fun r => r.wallet == w && r.xId != x) = true ↔ db.register.Taken w x := by
  simp only [List.any_eq_true, Bool.and_eq_true, beq_iff_eq, bne_iff_ne, Register.Taken, Register.Wears,
    row_eq_some]
  constructor
  · rintro ⟨r, hr, hw, hx⟩
    exact ⟨r.xId, hx, r.toRegisterRow, ⟨r, hr, rfl, rfl⟩, hw⟩
  · rintro ⟨x', hx, _, ⟨r, hr, rfl, rfl⟩, hw⟩
    exact ⟨r, hr, hw, hx⟩

/-! ## `link` -/

def excludedRow (db : PgDb) (w : String) (identity : XIdentity) (t : ℤ) : XLink :=
  { toRegisterRow := Register.freshRow w identity t (decide (identity.xId ∈ db.xLinkSuppressed))
    refreshedAt := t }

def movedRow (w : String) (identity : XIdentity) (t : ℤ) (r : XLink) : XLink :=
  { toRegisterRow := Register.linkedRow w identity t r.toRegisterRow
    refreshedAt := t }

/-- The rows that a link leaves. -/
def linkedRows (db : PgDb) (w : String) (identity : XIdentity) (t : ℤ) : List XLink :=
  Table.upsert (fun r : XLink => r.xId) (excludedRow db w identity t) (movedRow w identity t) db.xLink.rows

theorem link_eq {w : String} {identity : XIdentity} {t : ℤ} (htaken : pgTakes (.link w identity t) = true)
    (hfree : ¬ db.register.Taken w identity.xId) :
    PgWriteStore.link w identity t db = db.writeLinks (linkedRows db w identity t) .linked id := by
  have h : (db.xLink.rows.any fun r => r.wallet == w && r.xId != identity.xId) ≠ true :=
    fun h => hfree ((taken_iff w identity.xId).mp h)
  refine (execute_taken _ db htaken).trans ((if_neg h).trans ?_)
  unfold linkedRows movedRow excludedRow Register.linkedRow Register.freshRow
  simp only [Option.isNone_iff_eq_none]

theorem linkedRows_keyed (w : String) (identity : XIdentity) (t : ℤ) :
    Table.Keyed (fun r : XLink => r.xId) (linkedRows db w identity t) :=
  db.xLink.primaryKey.upsert fun _ => rfl

theorem linkedRows_wallets {w : String} {identity : XIdentity} (t : ℤ)
    (hfree : ¬ db.register.Taken w identity.xId) :
    Table.Keyed (fun r : XLink => r.wallet) (linkedRows db w identity t) := by
  refine db.xLink.primaryKey.upsert_other db.xLink.walletUnique (fun _ _ _ => rfl) fun r hr hw => ?_
  by_contra hx
  exact hfree ⟨r.xId, hx, r.toRegisterRow, row_eq_some.mpr ⟨r, hr, rfl, rfl⟩, hw⟩

theorem excludedRow_checks (w : String) (identity : XIdentity) (t : ℤ) :
    firstViolated (excludedRow db w identity t).checks = none ↔ pgStorable w identity = true := by
  rw [checks_iff]
  simp [excludedRow, Register.freshRow, pgStorable, RegisterRow.avatarAllOrNothing, and_assoc]

theorem movedRow_checks {w : String} {identity : XIdentity} (t : ℤ) {r : XLink} (hx : r.xId = identity.xId)
    (hr : firstViolated r.checks = none) :
    firstViolated (movedRow w identity t r).checks = none ↔ pgStorable w identity = true := by
  rw [checks_iff] at hr ⊢
  by_cases hu : identity.avatarUrl = none
  · simp [movedRow, Register.linkedRow, pgStorable, hu, hx, RegisterRow.avatarAllOrNothing, and_assoc]
  · have picture := hr.2
    simp only [RegisterRow.avatarAllOrNothing] at picture
    simp only [movedRow, Register.linkedRow, pgStorable, RegisterRow.avatarAllOrNothing, if_neg hu, hx, picture]
    simp [and_assoc]

theorem linkedRows_checked {w : String} {identity : XIdentity} (t : ℤ) (hs : pgStorable w identity = true) :
    ∀ r ∈ linkedRows db w identity t, firstViolated r.checks = none := by
  intro r hr
  rcases Table.mem_upsert hr with rfl | ⟨r', hr', rfl⟩
  · exact (excludedRow_checks w identity t).mpr hs
  · split
    · rename_i hx
      exact (movedRow_checks t hx (db.xLink.checked r' hr')).mpr hs
    · exact db.xLink.checked r' hr'

theorem lookup_linkedRows (db : PgDb) (w : String) (identity : XIdentity) (t : ℤ) (x : String) :
    Table.lookup (fun r : XLink => r.xId) (linkedRows db w identity t) x =
      if x = identity.xId then
        some ((Table.lookup (fun r : XLink => r.xId) db.xLink.rows identity.xId).elim
          (excludedRow db w identity t) (movedRow w identity t))
      else Table.lookup (fun r : XLink => r.xId) db.xLink.rows x :=
  Table.lookup_upsert fun _ => rfl

/-- A link that the columns do not admit leaves a row that violates a check. -/
theorem linkedRows_violation (db : PgDb) {w : String} {identity : XIdentity} (t : ℤ) (hs : pgStorable w identity ≠ true) :
    ∃ r ∈ linkedRows db w identity t, firstViolated r.checks ≠ none := by
  have hl := lookup_linkedRows db w identity t identity.xId
  rw [if_pos rfl] at hl
  refine ⟨_, (Table.mem_of_lookup hl).1, ?_⟩
  cases h : Table.lookup (fun r : XLink => r.xId) db.xLink.rows identity.xId with
  | none => exact fun hc => hs ((excludedRow_checks w identity t).mp hc)
  | some r =>
      obtain ⟨hr, hx⟩ := Table.mem_of_lookup h
      exact fun hc => hs ((movedRow_checks t hx (db.xLink.checked r hr)).mp hc)

theorem linkedRows_view (w : String) (identity : XIdentity) (t : ℤ) (table : XLinkTable)
    (ht : table.rows = linkedRows db w identity t) :
    ({ db with xLink := table } : PgDb).register = db.register.link w identity t := by
  refine Register.ext ?_ rfl
  rw [Register.link_row_eq w identity t (b := decide (identity.xId ∈ db.xLinkSuppressed)) decide_eq_true_iff]
  funext x
  rw [register_row, ht, lookup_linkedRows db]
  by_cases hx : x = identity.xId
  · subst hx
    rw [if_pos rfl, Function.update_self, register_row]
    cases Table.lookup (fun r : XLink => r.xId) db.xLink.rows identity.xId with
    | none => rfl
    | some r => rfl
  · rw [if_neg hx, Function.update_of_ne hx, register_row]

theorem link_step {w : String} {identity : XIdentity} {t : ℤ} (htakes : pgTakes (.link w identity t) = true) :
    answerOf .outcome (PgWriteStore.link w identity t db).1 =
        (db.register.act pgPolicy (.link w identity t)).1 ∧
      (PgWriteStore.link w identity t db).2.register =
        (db.register.act pgPolicy (.link w identity t)).2 := by
  by_cases htaken : db.register.Taken w identity.xId
  · have h := (taken_iff w identity.xId).mpr htaken
    have htakes' : PgWriteStore.link w identity t db = (.ok .walletTaken, db) :=
      (execute_taken _ db htakes).trans (if_pos h)
    simp [htakes', Register.act, Register.answered, Register.taken_eq_true.mpr htaken, pgPolicy,
      answerOf]
  · have hfree := Register.taken_eq_false.mpr htaken
    rw [link_eq htakes htaken]
    by_cases hs : pgStorable w identity = true
    · rw [writeLinks_ok LinkWriteOutcome.linked id db (linkedRows_keyed w identity t) (linkedRows_wallets t htaken)
        (linkedRows_checked t hs)]
      simp only [Register.act, Register.answered, hfree, pgPolicy, hs, if_true, Bool.false_eq_true, if_false]
      exact ⟨rfl, linkedRows_view w identity t _ rfl⟩
    · obtain ⟨r, hr, hc⟩ := linkedRows_violation db t hs
      obtain ⟨e, he⟩ := writeLinks_refused LinkWriteOutcome.linked id db hr hc
      rw [he]
      simp [Register.act, Register.answered, hfree, pgPolicy, hs, answerOf]

/-! ## `unlink` -/

theorem wearer_eq (w : String) (h : db.register.Sound) :
    db.register.wearer w = (Table.lookup (fun r : XLink => r.wallet) db.xLink.rows w).map fun r => r.xId := by
  ext x
  rw [Register.wearer_eq_some h]
  simp only [Register.Wears, row_eq_some, Option.map_eq_some_iff, Table.lookup_eq_some db.xLink.walletUnique]
  constructor
  · rintro ⟨_, ⟨r, hr, hx, rfl⟩, hw⟩
    exact ⟨r, ⟨hr, hw⟩, hx⟩
  · rintro ⟨r, ⟨hr, hw⟩, hx⟩
    exact ⟨r.toRegisterRow, ⟨r, hr, hx, rfl⟩, hw⟩

theorem unlink_eq {w : String} (htakes : pgTakes (.unlink w) = true) : PgWriteStore.unlink w db =
    db.writeLinks (db.xLink.rows.filter fun r => r.wallet != w)
      (if (db.xLink.rows.filter fun r => r.wallet == w).length = 1 then
        (db.xLink.rows.filter fun r => r.wallet == w).head?.map fun r => r.xId
      else none) id :=
  execute_taken _ db htakes

theorem unlink_step {w : String} (htakes : pgTakes (.unlink w) = true) (h : db.register.Sound) :
    answerOf .removed (PgWriteStore.unlink w db).1 = (db.register.act pgPolicy (.unlink w)).1 ∧
      (PgWriteStore.unlink w db).2.register = (db.register.act pgPolicy (.unlink w)).2 := by
  have hreturning : db.xLink.rows.filter (fun r => r.wallet == w) =
      (Table.lookup (fun r : XLink => r.wallet) db.xLink.rows w).toList :=
    Table.filter_key db.xLink.walletUnique
  rw [unlink_eq htakes, hreturning]
  rw [writeLinks_ok _ id db (db.xLink.primaryKey.filter _) (db.xLink.walletUnique.filter _)
    fun r hr => db.xLink.checked r (List.mem_filter.mp hr).1]
  constructor
  · simp only [Register.act, wearer_eq w h, answerOf]
    cases Table.lookup (fun r : XLink => r.wallet) db.xLink.rows w <;> simp
  · simp only [Register.act, PgDb.register, Register.unlink, Register.mk.injEq, id_eq, and_true]
    funext x
    rw [Table.lookup_filter db.xLink.primaryKey]
    cases Table.lookup (fun r : XLink => r.xId) db.xLink.rows x with
    | none => rfl
    | some r => by_cases hw : r.wallet = w <;> simp [Option.filter, hw]

/-! ## `setSuppressed` and `putAvatar` -/

theorem lookup_modifyRow {x : String} {f : XLink → XLink} (hf : ∀ r, (f r).xId = r.xId) (y : String) :
    Table.lookup (fun r : XLink => r.xId) (Table.modify (fun r : XLink => r.xId) x f db.xLink.rows) y =
      if y = x then (Table.lookup (fun r : XLink => r.xId) db.xLink.rows x).map f
      else Table.lookup (fun r : XLink => r.xId) db.xLink.rows y :=
  Table.lookup_modify hf

theorem view_modify {x : String} {f : XLink → XLink} {g : RegisterRow → RegisterRow}
    (hf : ∀ r, (f r).xId = r.xId) (hg : ∀ r, (f r).toRegisterRow = g r.toRegisterRow) :
    (fun y => (Table.lookup (fun r : XLink => r.xId)
      (Table.modify (fun r : XLink => r.xId) x f db.xLink.rows) y).map XLink.toRegisterRow) =
        Function.update db.register.row x ((db.register.row x).map g) := by
  funext y
  rw [lookup_modifyRow hf]
  by_cases hy : y = x
  · subst hy
    rw [if_pos rfl, Function.update_self, register_row]
    cases Table.lookup (fun r : XLink => r.xId) db.xLink.rows y with
    | none => rfl
    | some r => exact congrArg some (hg r)
  · rw [if_neg hy, Function.update_of_ne hy, register_row]

theorem returning_length (x : String) :
    ((db.xLink.rows.filter fun r => r.xId == x).length == 1) = (db.register.row x).isSome := by
  have h : db.xLink.rows.filter (fun r => r.xId == x) =
      (Table.lookup (fun r : XLink => r.xId) db.xLink.rows x).toList :=
    Table.filter_key db.xLink.primaryKey
  rw [h, register_row]
  cases Table.lookup (fun r : XLink => r.xId) db.xLink.rows x <;> rfl

/-- An update of one row that the checks admit is written. -/
theorem modify_ok (db : PgDb) {α : Type} {x : String} {f : XLink → XLink} (answer : α) (beside : PgDb → PgDb)
    (hx : ∀ r, (f r).xId = r.xId) (hw : ∀ r, (f r).wallet = r.wallet)
    (hc : ∀ r ∈ db.xLink.rows, r.xId = x → firstViolated (f r).checks = none) :
    ∃ table : XLinkTable, table.rows = Table.modify (fun r : XLink => r.xId) x f db.xLink.rows ∧
      db.writeLinks (Table.modify (fun r : XLink => r.xId) x f db.xLink.rows) answer beside =
        (.ok answer, beside { db with xLink := table }) := by
  have hwallets : Table.Keyed (fun r : XLink => r.wallet)
      (Table.modify (fun r : XLink => r.xId) x f db.xLink.rows) := by
    rw [Table.Keyed, Table.map_modify hw]
    exact db.xLink.walletUnique
  refine ⟨⟨_, db.xLink.primaryKey.modify hx, hwallets, ?_⟩, rfl, writeLinks_ok answer beside db _ _ _⟩
  intro r hr
  obtain ⟨r', hr', rfl⟩ := Table.mem_modify hr
  split
  · rename_i hk
    exact hc r' hr' hk
  · exact db.xLink.checked r' hr'

def suppressedRow (b : Bool) (r : XLink) : XLink := { r with suppressed := b }

theorem setSuppressed_eq {x : String} {b : Bool} (htakes : pgTakes (.setSuppressed x b) = true) :
    PgStore.setSuppressed x b db =
    db.writeLinks (Table.modify (fun r : XLink => r.xId) x (suppressedRow b) db.xLink.rows)
      ((db.xLink.rows.filter fun r => r.xId == x).length == 1) fun db' =>
        if b then
          { db' with xLinkSuppressed := db'.xLinkSuppressed ++
              ((db.xLink.rows.filter fun r => r.xId == x).map fun r => r.xId).filter fun x =>
                decide (x ∉ db'.xLinkSuppressed) }
        else { db' with xLinkSuppressed := db'.xLinkSuppressed.filter fun y => y != x } :=
  execute_taken _ db htakes

theorem tombstones_true (x y : String) :
    y ∈ db.xLinkSuppressed ++ ((db.xLink.rows.filter fun r => r.xId == x).map fun r => r.xId).filter
        (fun x => decide (x ∉ db.xLinkSuppressed)) ↔
      y ∈ db.xLinkSuppressed ∨ y = x ∧ (db.register.row x).isSome := by
  have hrow : (db.register.row x).isSome ↔ ∃ r ∈ db.xLink.rows, r.xId = x := by
    rw [Option.isSome_iff_exists]
    simp only [row_eq_some]
    exact ⟨fun ⟨_, r, hr, hx, _⟩ => ⟨r, hr, hx⟩, fun ⟨r, hr, hx⟩ => ⟨_, r, hr, hx, rfl⟩⟩
  rw [hrow]
  simp only [List.mem_append, List.mem_filter, List.mem_map, beq_iff_eq, decide_eq_true_eq]
  constructor
  · rintro (h | ⟨⟨r, ⟨hr, hx⟩, rfl⟩, -⟩)
    · exact Or.inl h
    · exact Or.inr ⟨hx, r, hr, hx⟩
  · rintro (h | ⟨rfl, r, hr, hx⟩)
    · exact Or.inl h
    · by_cases hy : y ∈ db.xLinkSuppressed
      · exact Or.inl hy
      · exact Or.inr ⟨⟨r, ⟨hr, hx⟩, hx⟩, hy⟩

theorem setSuppressed_step {x : String} {b : Bool} (htakes : pgTakes (.setSuppressed x b) = true) :
    answerOf .found (PgStore.setSuppressed x b db).1 = (db.register.act pgPolicy (.setSuppressed x b)).1 ∧
      (PgStore.setSuppressed x b db).2.register = (db.register.act pgPolicy (.setSuppressed x b)).2 := by
  rw [setSuppressed_eq htakes]
  obtain ⟨table, ht, hwrite⟩ := modify_ok db (x := x) (f := suppressedRow b)
    ((db.xLink.rows.filter fun r => r.xId == x).length == 1) _ (fun _ => rfl) (fun _ => rfl)
    fun r hr _ => db.xLink.checked r hr
  rw [hwrite, returning_length]
  refine ⟨rfl, ?_⟩
  have hrow : (fun y => (Table.lookup (fun r : XLink => r.xId) table.rows y).map XLink.toRegisterRow) =
      (db.register.setSuppressed x b).row := by
    rw [ht]
    exact view_modify (fun _ => rfl) fun _ => rfl
  have htombs : ∀ db' : PgDb, db'.xLink = table →
      (∀ y, y ∈ db'.xLinkSuppressed ↔ (db.register.setSuppressed x b).takenDown y) →
        db'.register = db.register.setSuppressed x b := by
    rintro db' rfl h
    exact Register.ext hrow (funext fun y => propext (h y))
  cases b with
  | true =>
      refine htombs _ rfl fun y => ?_
      simp only [if_true, tombstones_true]
      by_cases hy : y = x
      · subst hy
        simp [Register.setSuppressed, PgDb.register, or_comm]
      · simp [Register.setSuppressed, PgDb.register, hy]
  | false =>
      refine htombs _ rfl fun y => ?_
      by_cases hy : y = x
      · subst hy
        simp [Register.setSuppressed]
      · simp [Register.setSuppressed, PgDb.register, hy]

def picturedRow (hash : String) (bytes : List UInt8) (atSec : ℤ) (r : XLink) : XLink :=
  { r with toRegisterRow := Register.withPicture hash bytes atSec r.toRegisterRow }

theorem picturedRow_checks {hash : String} {bytes : List UInt8} (atSec : ℤ) {r : XLink}
    (hr : firstViolated r.checks = none) :
    firstViolated (picturedRow hash bytes atSec r).checks = none ↔
      (avatarHashRe hash && avatarBytesOk bytes) = true := by
  rw [checks_iff] at hr ⊢
  have h := hr.1
  simp [picturedRow, Register.withPicture, RegisterRow.avatarAllOrNothing, h]

theorem putAvatar_eq {x hash : String} {bytes : List UInt8} {atSec : ℤ}
    (htakes : pgTakes (.putAvatar x hash bytes atSec) = true) : PgStore.putAvatar x hash bytes atSec db =
    db.writeLinks (Table.modify (fun r : XLink => r.xId) x (picturedRow hash bytes atSec) db.xLink.rows)
      ((db.xLink.rows.filter fun r => r.xId == x).length == 1) id :=
  execute_taken _ db htakes

theorem putAvatar_step {x hash : String} {bytes : List UInt8} {atSec : ℤ}
    (htakes : pgTakes (.putAvatar x hash bytes atSec) = true) :
    answerOf .found (PgStore.putAvatar x hash bytes atSec db).1 =
        (db.register.act pgPolicy (.putAvatar x hash bytes atSec)).1 ∧
      (PgStore.putAvatar x hash bytes atSec db).2.register =
        (db.register.act pgPolicy (.putAvatar x hash bytes atSec)).2 := by
  rw [putAvatar_eq htakes]
  simp only [Register.act]
  by_cases hadmit : db.register.row x = none ∨ (avatarHashRe hash && avatarBytesOk bytes) = true
  · obtain ⟨table, ht, hwrite⟩ := modify_ok db (x := x) (f := picturedRow hash bytes atSec)
      ((db.xLink.rows.filter fun r => r.xId == x).length == 1) id (fun _ => rfl) (fun _ => rfl) (by
        intro r hr hx
        rcases hadmit with hnone | hok
        · have := row_eq_some.mpr ⟨r, hr, hx, rfl⟩
          rw [hnone] at this
          cases this
        · exact (picturedRow_checks atSec (db.xLink.checked r hr)).mpr hok)
    have hview : ({ db with xLink := table } : PgDb).register = db.register.putAvatar x hash bytes atSec := by
      simp only [PgDb.register, Register.putAvatar, Register.mk.injEq, and_true]
      rw [ht]
      exact view_modify (fun _ => rfl) fun _ => rfl
    rw [hwrite, returning_length, id, hview]
    cases hrow : db.register.row x with
    | none =>
        have hsame : db.register.putAvatar x hash bytes atSec = db.register := by
          simp only [Register.putAvatar, hrow, Option.map_none]
          rw [← hrow, Function.update_eq_self]
        simp [answerOf, hsame]
    | some r =>
        have hok : (avatarHashRe hash && avatarBytesOk bytes) = true := by simpa [hrow] using hadmit
        simp only [pgPolicy, hok]
        exact ⟨rfl, rfl⟩
  · rw [not_or] at hadmit
    obtain ⟨r, hr⟩ := Option.ne_none_iff_exists'.mp hadmit.1
    obtain ⟨r', hr', hx, -⟩ := row_eq_some.mp hr
    have hmem : picturedRow hash bytes atSec r' ∈
        Table.modify (fun r : XLink => r.xId) x (picturedRow hash bytes atSec) db.xLink.rows :=
      List.mem_map.mpr ⟨r', hr', by rw [if_pos hx]⟩
    have hviolated : firstViolated (picturedRow hash bytes atSec r').checks ≠ none :=
      fun hc => hadmit.2 ((picturedRow_checks atSec (db.xLink.checked r' hr')).mp hc)
    obtain ⟨e, he⟩ := writeLinks_refused
      ((db.xLink.rows.filter fun r => r.xId == x).length == 1) id db hmem hviolated
    rw [he, if_neg hadmit.1, if_neg (by simpa [pgPolicy] using hadmit.2)]
    exact ⟨rfl, rfl⟩

/-! ## Parameters that are not taken -/

theorem pgText_of_wallet {w : String} (h : walletRe w = true) : pgText w = true := by
  rw [pgText, List.all_eq_true]
  intro c hc
  have hclass := char_of_ofClass h hc
  rw [bne_iff_ne]
  intro hzero
  obtain rfl : c = Char.ofNat 0 := Char.toNat_inj.mp hzero
  cases hclass

theorem perform_untaken (db : PgDb) {a : RegisterAct} (htakes : pgTakes a = false) :
    (pgRegister.perform db a).1 = .refused ∧ (pgRegister.perform db a).2.register = db.register := by
  cases a with
  | link w identity t =>
      obtain ⟨e, he⟩ : ∃ e, PgWriteStore.link w identity t db = (.error e, db) := execute_refused _ db htakes
      simp [RegisterStore.perform, pgRegister, pgLinkWriter, he, answerOf]
  | unlink w =>
      obtain ⟨e, he⟩ : ∃ e, PgWriteStore.unlink w db = (.error e, db) := execute_refused _ db htakes
      simp [RegisterStore.perform, pgRegister, pgLinkWriter, he, answerOf]
  | setSuppressed x b =>
      obtain ⟨e, he⟩ : ∃ e, PgStore.setSuppressed x b db = (.error e, db) := execute_refused _ db htakes
      simp [RegisterStore.perform, pgRegister, pgStore, he, answerOf]
  | putAvatar x hash bytes t =>
      obtain ⟨e, he⟩ : ∃ e, PgStore.putAvatar x hash bytes t db = (.error e, db) := execute_refused _ db htakes
      simp [RegisterStore.perform, pgRegister, pgStore, he, answerOf]

/-- A wallet that Postgres does not take is worn by no row. -/
theorem unlink_untaken (db : PgDb) {w : String} (htakes : pgTakes (.unlink w) = false) :
    db.register.unlink w = db.register := by
  refine Register.ext (funext fun x => ?_) rfl
  cases hrow : db.register.row x with
  | none => simp [Register.unlink, hrow]
  | some r =>
      obtain ⟨r', hr', -, rfl⟩ := row_eq_some.mp hrow
      have hwallet := ((checks_iff r').mp (db.xLink.checked r' hr')).1.2.1
      have hne : r'.wallet ≠ w := by
        rintro rfl
        simp [pgTakes, RegisterAct.texts, RegisterAct.times, pgText_of_wallet hwallet] at htakes
      simp [Register.unlink, hrow, Option.filter, hne]

end PgRefinement

/-- Every statement of the Postgres store answers and acts as the register does. -/
def pgRefinement : Refinement pgRegister pgPolicy where
  view := PgDb.register
  empty := Register.ext rfl (funext fun x => propext (by simp [pgRegister, PgDb.empty, PgDb.register, Register.empty]))
  step db a h := by
    cases htakes : pgPolicy.takes a with
    | true =>
        rw [Register.step_taken htakes]
        cases a with
        | link w identity t => exact PgRefinement.link_step htakes
        | unlink w => exact PgRefinement.unlink_step htakes h
        | setSuppressed x b => exact PgRefinement.setSuppressed_step htakes
        | putAvatar x hash bytes atSec => exact PgRefinement.putAvatar_step htakes
    | false =>
        rw [Register.step_untaken htakes]
        exact PgRefinement.perform_untaken db htakes
  rows db _ := by
    refine ⟨?_, fun r => ?_⟩
    · rw [pgRegister, List.map_map]
      exact db.xLink.primaryKey
    · simp only [pgRegister, List.mem_map, PgRefinement.row_eq_some]
      exact ⟨fun ⟨r', hr', he⟩ => ⟨r'.xId, r', hr', rfl, he⟩, fun ⟨_, r', hr', _, he⟩ => ⟨r', hr', he⟩⟩
  findByWallets db wallets _ := by
    simp only [pgRegister, pgStore, PgStore.findByWallets, List.filter_map, List.map_map]
    rfl
  findAvatar db x hash _ := by
    have hread := Table.find_key_and (k := x) db.xLink.primaryKey fun r =>
      r.avatarHash == some hash && r.avatarBytes.isSome && !r.suppressed
    have hwhere : PgStore.findAvatar x hash db = ((db.xLink.rows.find? fun r =>
        (r.avatarHash == some hash && r.avatarBytes.isSome && !r.suppressed) && decide (r.xId = x)).bind
          fun r => r.avatarBytes) := by
      unfold PgStore.findAvatar
      congr 2
      funext r
      rw [Bool.eq_iff_iff]
      simp only [Bool.and_eq_true, beq_iff_eq, decide_eq_true_eq]
      exact ⟨fun ⟨⟨⟨hx, hh⟩, hb⟩, hs⟩ => ⟨⟨⟨hh, hb⟩, hs⟩, hx⟩, fun ⟨⟨⟨hh, hb⟩, hs⟩, hx⟩ => ⟨⟨⟨hx, hh⟩, hb⟩, hs⟩⟩
    rw [show pgRegister.links.findAvatar x hash db = PgStore.findAvatar x hash db from rfl, hwhere, hread,
      PgRefinement.register_row]
    cases Table.lookup (fun r : XLink => r.xId) db.xLink.rows x with
    | none => rfl
    | some r =>
        by_cases hh : r.avatarHash = some hash
        · by_cases hs : r.suppressed = true
          · simp [Option.filter, hs]
          · cases hb : r.avatarBytes with
            | none => simp [Option.filter, hh, hs, hb]
            | some bytes => simp [Option.filter, hh, hs, hb]
        · simp [Option.filter, hh]
  findForIngest db x _ := by
    simp only [pgRegister, pgStore, PgStore.findForIngest, PgRefinement.register_row, Option.map_map]
    rfl

end BullsUnicorns.Identity

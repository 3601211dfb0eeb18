import BullsUnicorns.Lib.Table
import BullsUnicorns.Identity.WriteStore

/-!
# The Postgres stores

`pgStore.ts`, `pgWriteStore.ts` and the tables of the three migrations. Each statement runs against
tables that meet their constraints, and one whose result would break a constraint, or whose parameters
no column type can hold, is refused whole. The nonces, buckets and times that `consume` and `hit` are
handed are the server's own shapes and clock, and a read is asked with texts that Postgres takes.
-/

namespace BullsUnicorns.Identity

/-! ## Parameters -/

/-- No `text` holds U+0000. -/
def pgText (s : String) : Bool := s.toList.all fun c => c.toNat != 0

/-- The seconds that `timestamptz` holds, from 4713 BC to the end of 294276 AD. -/
def pgTime (t : ℤ) : Bool := decide (-210866803200 ≤ t) && decide (t < 9224318016000)

/-! ## `x_link` and `x_link_suppressed` -/

structure XLink extends RegisterRow where
  refreshedAt : ℤ
deriving DecidableEq, Repr

/-- The three avatar columns are one fact: all present or all absent. -/
def RegisterRow.avatarAllOrNothing (r : RegisterRow) : Bool :=
  (r.avatarHash.isNone && r.avatarBytes.isNone && r.avatarAt.isNone) ||
    (r.avatarHash.isSome && r.avatarBytes.isSome && r.avatarAt.isSome)

def avatarBytesOk (bytes : List UInt8) : Bool := decide (1 ≤ bytes.length) && decide (bytes.length ≤ 65536)

def XLink.checks (r : XLink) : List (String × Bool) :=
  [("x_link_x_id_check", xIdRe r.xId),
   ("x_link_wallet_check", walletRe r.wallet),
   ("x_link_handle_check", handleRe r.handle),
   ("x_link_display_name_check", decide (charLength r.displayName ≤ 100)),
   ("x_link_avatar_url_check", avatarUrlOk r.avatarUrl),
   ("x_link_avatar_hash_check", r.avatarHash.all avatarHashRe),
   ("x_link_avatar_bytes_check", r.avatarBytes.all avatarBytesOk),
   ("x_link_avatar_all_or_nothing", r.avatarAllOrNothing)]

structure XLinkTable where
  rows : List XLink
  primaryKey : Table.Keyed (fun r : XLink => r.xId) rows
  walletUnique : Table.Keyed (fun r : XLink => r.wallet) rows
  checked : ∀ r ∈ rows, firstViolated r.checks = none

def XLinkTable.empty : XLinkTable := ⟨[], Table.Keyed.nil, Table.Keyed.nil, by simp⟩

/-- What the database does with the rows a statement would leave. -/
def XLinkTable.commit (rows : List XLink) : Except StoreError XLinkTable :=
  if hp : Table.Keyed (fun r : XLink => r.xId) rows then
    if hw : Table.Keyed (fun r : XLink => r.wallet) rows then
      match hc : rows.findSome? (fun r => firstViolated r.checks) with
      | some c => .error ⟨c⟩
      | none => .ok ⟨rows, hp, hw, by simpa using hc⟩
    else .error ⟨"x_link_wallet_key"⟩
  else .error ⟨"x_link_pkey"⟩

/-! ## `x_link_challenge` and `x_link_rate` -/

structure ChallengeRow where
  nonce : String
  purpose : String
  wallet : String
  xId : Option String
  handle : Option String
  displayName : Option String
  avatarUrl : Option String
  message : String
  issuedAt : ℤ
  expiresAt : ℤ
deriving DecidableEq, Repr

def ChallengeRow.identityMatchesPurpose (r : ChallengeRow) : Bool :=
  (r.purpose == "link" && r.xId.isSome && r.handle.isSome && r.displayName.isSome) ||
    (r.purpose == "unlink" && r.xId.isNone && r.handle.isNone && r.displayName.isNone && r.avatarUrl.isNone)

def ChallengeRow.checks (r : ChallengeRow) : List (String × Bool) :=
  [("x_link_challenge_nonce_check", nonceRe r.nonce),
   ("x_link_challenge_purpose_check", r.purpose == "link" || r.purpose == "unlink"),
   ("x_link_challenge_wallet_check", walletRe r.wallet),
   ("x_link_challenge_x_id_check", r.xId.all xIdRe),
   ("x_link_challenge_handle_check", r.handle.all handleRe),
   ("x_link_challenge_display_name_check", r.displayName.all fun n => decide (charLength n ≤ 100)),
   ("x_link_challenge_avatar_url_check", avatarUrlOk r.avatarUrl),
   ("x_link_challenge_message_check", decide (1 ≤ charLength r.message ∧ charLength r.message ≤ 2000)),
   ("x_link_challenge_identity_matches_purpose", r.identityMatchesPurpose),
   ("x_link_challenge_expires_after_issue", decide (r.issuedAt < r.expiresAt))]

structure ChallengeTable where
  rows : List ChallengeRow
  primaryKey : Table.Keyed ChallengeRow.nonce rows
  checked : ∀ r ∈ rows, firstViolated r.checks = none

def ChallengeTable.empty : ChallengeTable := ⟨[], Table.Keyed.nil, by simp⟩

/-- A delete breaks no constraint. -/
def ChallengeTable.deleteWhere (t : ChallengeTable) (p : ChallengeRow → Bool) : ChallengeTable :=
  ⟨t.rows.filter fun r => !p r, t.primaryKey.filter _, fun r hr => t.checked r (List.mem_filter.mp hr).1⟩

def ChallengeTable.insert (t : ChallengeTable) (new : ChallengeRow) : Except StoreError ChallengeTable :=
  match hc : firstViolated new.checks with
  | some c => .error ⟨c⟩
  | none =>
      if hn : ∀ r ∈ t.rows, r.nonce ≠ new.nonce then
        .ok ⟨t.rows ++ [new], t.primaryKey.append_single hn, fun r hr => by
          rcases List.mem_append.mp hr with h | h
          · exact t.checked r h
          · rw [List.mem_singleton.mp h]
            exact hc⟩
      else .error ⟨"x_link_challenge_pkey"⟩

structure RateRow where
  bucket : String
  windowStart : ℤ
  hits : ℕ
deriving DecidableEq, Repr

structure PgDb where
  xLink : XLinkTable
  xLinkSuppressed : List String
  xLinkChallenge : ChallengeTable
  xLinkRate : List RateRow

def PgDb.empty : PgDb := ⟨XLinkTable.empty, [], ChallengeTable.empty, []⟩

/-- Parameters are converted before a statement looks at any row. -/
def PgDb.execute {α : Type} (texts : List String) (times : List ℤ) (statement : Statement PgDb α) :
    Statement PgDb α := fun db =>
  if !texts.all pgText then (.error ⟨"invalid byte sequence for encoding UTF8: 0x00"⟩, db)
  else if !times.all pgTime then (.error ⟨"timestamp out of range"⟩, db)
  else statement db

/-! ## `pgStore.ts` -/

/-- A statement that leaves `rows` in `x_link`, with what it does beside it. -/
def PgDb.writeLinks {α : Type} (rows : List XLink) (answer : α) (beside : PgDb → PgDb) : Statement PgDb α :=
  fun db =>
    match XLinkTable.commit rows with
    | .ok table => (.ok answer, beside { db with xLink := table })
    | .error e => (.error e, db)

namespace PgStore

def findByWallets (wallets : List String) (db : PgDb) : List LinkRow :=
  (db.xLink.rows.filter fun r => decide (r.wallet ∈ wallets) && !r.suppressed).map fun r =>
    r.toRegisterRow.linkRow

def findAvatar (xId avatarHash : String) (db : PgDb) : Option (List UInt8) :=
  (db.xLink.rows.find? fun r =>
    r.xId == xId && r.avatarHash == some avatarHash && r.avatarBytes.isSome && !r.suppressed).bind
      fun r => r.avatarBytes

def findForIngest (xId : String) (db : PgDb) : Option IngestTarget :=
  (Table.lookup (fun r : XLink => r.xId) db.xLink.rows xId).map fun r => r.toRegisterRow.ingestTarget

/-- `UPDATE`, never an upsert: an ingest cannot create a link. -/
def putAvatar (xId avatarHash : String) (bytes : List UInt8) (atSec : ℤ) : Statement PgDb Bool :=
  PgDb.execute [avatarHash, xId] [atSec] fun db =>
  let returning := db.xLink.rows.filter fun r => r.xId == xId
  let rows := Table.modify (fun r : XLink => r.xId) xId (fun r =>
    { r with avatarHash := some avatarHash, avatarBytes := some bytes, avatarAt := some atSec }) db.xLink.rows
  db.writeLinks rows (returning.length == 1) id

def setSuppressed (xId : String) (suppressed : Bool) : Statement PgDb Bool :=
  PgDb.execute [xId] [] fun db =>
  let updated := db.xLink.rows.filter fun r => r.xId == xId
  let rows := Table.modify (fun r : XLink => r.xId) xId (fun r => { r with suppressed := suppressed }) db.xLink.rows
  db.writeLinks rows (updated.length == 1) fun db =>
    if suppressed then
      -- the tombstone only for an id that was updated: `SELECT x_id FROM updated ON CONFLICT DO NOTHING`
      { db with xLinkSuppressed := db.xLinkSuppressed ++
          (updated.map fun r => r.xId).filter fun x => decide (x ∉ db.xLinkSuppressed) }
    else { db with xLinkSuppressed := db.xLinkSuppressed.filter fun x => x != xId }

end PgStore

def pgStore : LinkStore PgDb where
  findByWallets := PgStore.findByWallets
  findAvatar := PgStore.findAvatar
  findForIngest := PgStore.findForIngest
  putAvatar := PgStore.putAvatar
  setSuppressed := PgStore.setSuppressed

/-! ## `pgWriteStore.ts` -/

namespace PgWriteStore

def rateRowTtlSeconds : ℤ := 86400

def challengeRow (c : Challenge) : ChallengeRow :=
  match c.ceremony with
  | .link identity =>
      ⟨c.nonce, "link", c.wallet, some identity.xId, some identity.handle, some identity.displayName,
        identity.avatarUrl, c.message, c.issuedAtSec, c.expiresAtSec⟩
  | .unlink =>
      ⟨c.nonce, "unlink", c.wallet, none, none, none, none, c.message, c.issuedAtSec, c.expiresAtSec⟩

def challengeTexts (c : Challenge) : List String :=
  [c.nonce, c.wallet, c.message] ++
    match c.ceremony with
    | .link identity => [identity.xId, identity.handle, identity.displayName] ++ identity.avatarUrl.toList
    | .unlink => []

/-- The insert; stale rate rows are swept in the same statement. -/
def put (c : Challenge) : Statement PgDb Unit :=
  PgDb.execute (challengeTexts c) [c.issuedAtSec - rateRowTtlSeconds, c.issuedAtSec, c.expiresAtSec] fun db =>
  match db.xLinkChallenge.insert (challengeRow c) with
  | .error e => (.error e, db)
  | .ok table =>
      (.ok (), { db with
        xLinkChallenge := table
        xLinkRate := db.xLinkRate.filter fun r => decide (c.issuedAtSec - rateRowTtlSeconds ≤ r.windowStart) })

/-- `str`: a column that must hold a string. -/
def str (column : String) : Option String → Except StoreError String
  | some v => .ok v
  | none => .error ⟨"x_link_challenge." ++ column ++ ": expected string, got object"⟩

/-- A stored row back as a challenge. -/
def challengeOf (r : ChallengeRow) : Except StoreError Challenge := do
  if r.purpose = "unlink" then
    return ⟨r.nonce, r.wallet, r.message, r.issuedAt, r.expiresAt, .unlink⟩
  if r.purpose ≠ "link" then throw ⟨"x_link_challenge.purpose: unknown purpose " ++ r.purpose⟩
  let xId ← str "x_id" r.xId
  let handle ← str "handle" r.handle
  let displayName ← str "display_name" r.displayName
  return ⟨r.nonce, r.wallet, r.message, r.issuedAt, r.expiresAt, .link ⟨xId, handle, displayName, r.avatarUrl⟩⟩

/-- `DELETE … WHERE nonce AND expires_at > now RETURNING`: single use and expiry are one predicate. -/
def consume (nonce : String) (nowSec : ℤ) : Statement PgDb (Option Challenge) := fun db =>
  let redeemed (r : ChallengeRow) : Bool := r.nonce == nonce && decide (nowSec < r.expiresAt)
  let db' := { db with xLinkChallenge := db.xLinkChallenge.deleteWhere redeemed }
  match db.xLinkChallenge.rows.filter redeemed with
  | [] => (.ok none, db')
  | r :: _ => ((challengeOf r).map some, db')

/-- `INSERT … WHERE NOT EXISTS … ON CONFLICT (x_id) DO UPDATE`. -/
def link (wallet : String) (identity : XIdentity) (linkedAtSec : ℤ) : Statement PgDb LinkWriteOutcome :=
  PgDb.execute ([identity.xId, wallet, identity.handle, identity.displayName] ++ identity.avatarUrl.toList)
    [linkedAtSec] fun db =>
  if db.xLink.rows.any fun r => r.wallet == wallet && r.xId != identity.xId then (.ok .walletTaken, db)
  else
    let excluded : XLink :=
      { xId := identity.xId, wallet := wallet, handle := identity.handle, displayName := identity.displayName,
        avatarUrl := identity.avatarUrl, avatarHash := none, avatarBytes := none, avatarAt := none,
        linkedAt := linkedAtSec, refreshedAt := linkedAtSec,
        -- the kill switch is inherited, not reset
        suppressed := decide (identity.xId ∈ db.xLinkSuppressed) }
    let rows := Table.upsert (fun r : XLink => r.xId) excluded (fun r =>
      { r with
        wallet := excluded.wallet
        handle := excluded.handle
        displayName := excluded.displayName
        avatarUrl := excluded.avatarUrl
        avatarHash := if excluded.avatarUrl.isNone then none else r.avatarHash
        avatarBytes := if excluded.avatarUrl.isNone then none else r.avatarBytes
        avatarAt := if excluded.avatarUrl.isNone then none else r.avatarAt
        linkedAt := if r.wallet = excluded.wallet then r.linkedAt else excluded.linkedAt
        refreshedAt := excluded.refreshedAt }) db.xLink.rows
    db.writeLinks rows .linked id

/-- A delete, not a flag. -/
def unlink (wallet : String) : Statement PgDb (Option String) := PgDb.execute [wallet] [] fun db =>
  let returning := db.xLink.rows.filter fun r => r.wallet == wallet
  let rows := db.xLink.rows.filter fun r => r.wallet != wallet
  db.writeLinks rows (if returning.length = 1 then returning.head?.map fun r => r.xId else none) id

/-- One multi-row upsert; expired challenges are swept in the same statement. -/
def hit (buckets : List String) (windowStartSec : ℤ) : Statement PgDb (List ℕ) := fun db =>
  if buckets = [] then (.ok [], db)
  else if ¬ buckets.Nodup then
    (.error ⟨"ON CONFLICT DO UPDATE command cannot affect row a second time"⟩, db)
  else if ¬ buckets.all (ofClass isLowerHex 64 64) then (.error ⟨"x_link_rate_bucket_check"⟩, db)
  else
    let rate := buckets.foldl (fun t b =>
      Table.upsert RateRow.bucket ⟨b, windowStartSec, 1⟩ (fun r =>
        { r with hits := if r.windowStart = windowStartSec then r.hits + 1 else 1
                 windowStart := windowStartSec }) t) db.xLinkRate
    let db' := { db with
      xLinkChallenge := db.xLinkChallenge.deleteWhere fun r => decide (r.expiresAt < windowStartSec)
      xLinkRate := rate }
    -- the order of the argument is restored: `RETURNING` has none
    let counts := buckets.mapM fun b => (Table.lookup RateRow.bucket rate b).map RateRow.hits
    match counts with
    | some counts => (.ok counts, db')
    | none => (.error ⟨"x_link_rate: no count returned for a bucket that was counted"⟩, db')

end PgWriteStore

def pgChallengeStore : ChallengeStore PgDb := ⟨PgWriteStore.put, PgWriteStore.consume⟩

def pgLinkWriter : LinkWriter PgDb := ⟨PgWriteStore.link, PgWriteStore.unlink⟩

def pgRateCounter : RateCounter PgDb := ⟨PgWriteStore.hit⟩

end BullsUnicorns.Identity

import BullsUnicorns.Lib.Table
import BullsUnicorns.Identity.WriteStore

/-!
# The in-memory stores

`memoryStore.ts` and `memoryWriteStore.ts`: the same questions answered from insertion-ordered maps,
with the schema's checks transcribed.
-/

namespace BullsUnicorns.Identity

structure MemoryLinkStore where
  rows : OrderedMap String RegisterRow
  suppressedXIds : List String

namespace MemoryLinkStore

def empty : MemoryLinkStore := ⟨OrderedMap.empty, []⟩

def rowChecks (wallet : String) (identity : XIdentity) : List (String × Bool) :=
  [("x_link_x_id_check: " ++ identity.xId, xIdRe identity.xId),
   ("x_link_handle_check: " ++ identity.handle, handleRe identity.handle),
   ("x_link_wallet_check: " ++ wallet, walletRe wallet),
   ("x_link_display_name_check", decide (utf16Length identity.displayName ≤ 100)),
   ("x_link_avatar_url_check", avatarUrlOk identity.avatarUrl)]

/-- `assertRowIsStorable` throws what Postgres would refuse. -/
def assertRowIsStorable (wallet : String) (identity : XIdentity) : Except StoreError Unit :=
  match firstViolated (rowChecks wallet identity) with
  | some message => .error ⟨message⟩
  | none => .ok ()

def findByWallets (wallets : List String) (s : MemoryLinkStore) : List LinkRow :=
  (s.rows.values.filter fun r => decide (r.wallet ∈ wallets) && !r.suppressed).map RegisterRow.linkRow

def findAvatar (xId avatarHash : String) (s : MemoryLinkStore) : Option (List UInt8) :=
  match s.rows.get xId with
  | none => none
  | some r =>
      if r.suppressed then none
      else if r.avatarHash = none ∨ r.avatarHash ≠ some avatarHash ∨ r.avatarBytes = none then none
      else r.avatarBytes

def findForIngest (xId : String) (s : MemoryLinkStore) : Option IngestTarget :=
  (s.rows.get xId).map RegisterRow.ingestTarget

def putAvatar (xId avatarHash : String) (bytes : List UInt8) (atSec : ℤ) : Statement MemoryLinkStore Bool :=
  fun s =>
    match s.rows.get xId with
    | none => (.ok false, s)
    | some r =>
        let r' := { r with avatarHash := some avatarHash, avatarBytes := some bytes, avatarAt := some atSec }
        (.ok true, { s with rows := s.rows.set xId r' })

def setSuppressed (xId : String) (suppressed : Bool) : Statement MemoryLinkStore Bool := fun s =>
  let s := if suppressed then s
    else { s with suppressedXIds := s.suppressedXIds.filter fun x => x != xId }
  match s.rows.get xId with
  | none => (.ok false, s)
  | some r =>
      let s := if suppressed ∧ xId ∉ s.suppressedXIds then
          { s with suppressedXIds := s.suppressedXIds ++ [xId] }
        else s
      (.ok true, { s with rows := s.rows.set xId { r with suppressed := suppressed } })

def link (wallet : String) (identity : XIdentity) (linkedAtSec : ℤ) :
    Statement MemoryLinkStore LinkWriteOutcome := fun s =>
  match assertRowIsStorable wallet identity with
  | .error e => (.error e, s)
  | .ok () =>
      if s.rows.values.any fun existing => existing.wallet == wallet && existing.xId != identity.xId then
        (.ok .walletTaken, s)
      else
        match s.rows.get identity.xId with
        | none =>
            let row : RegisterRow :=
              { xId := identity.xId, wallet := wallet, handle := identity.handle,
                displayName := identity.displayName, avatarUrl := identity.avatarUrl, avatarHash := none,
                avatarBytes := none, avatarAt := none, linkedAt := linkedAtSec,
                suppressed := decide (identity.xId ∈ s.suppressedXIds) }
            (.ok .linked, { s with rows := s.rows.set identity.xId row })
        | some current =>
            let walletChanged := current.wallet ≠ wallet
            let pictureGone := identity.avatarUrl = none
            let row : RegisterRow :=
              { current with
                wallet := wallet
                handle := identity.handle
                displayName := identity.displayName
                avatarUrl := identity.avatarUrl
                avatarHash := if pictureGone then none else current.avatarHash
                avatarBytes := if pictureGone then none else current.avatarBytes
                avatarAt := if pictureGone then none else current.avatarAt
                linkedAt := if walletChanged then linkedAtSec else current.linkedAt }
            (.ok .linked, { s with rows := s.rows.set identity.xId row })

/-- The first entry of this wallet goes, whatever account wears it. -/
def unlink (wallet : String) : Statement MemoryLinkStore (Option String) := fun s =>
  match s.rows.entries.find? fun e => e.2.wallet == wallet with
  | some (xId, _) => (.ok (some xId), { s with rows := s.rows.delete xId })
  | none => (.ok none, s)

end MemoryLinkStore

def memoryLinkStore : LinkStore MemoryLinkStore where
  findByWallets := MemoryLinkStore.findByWallets
  findAvatar := MemoryLinkStore.findAvatar
  findForIngest := MemoryLinkStore.findForIngest
  putAvatar := MemoryLinkStore.putAvatar
  setSuppressed := MemoryLinkStore.setSuppressed

def memoryLinkWriter : LinkWriter MemoryLinkStore := ⟨MemoryLinkStore.link, MemoryLinkStore.unlink⟩

/-! ## `memoryWriteStore.ts` -/

structure MemoryChallengeStore where
  rows : OrderedMap String Challenge

namespace MemoryChallengeStore

def empty : MemoryChallengeStore := ⟨OrderedMap.empty⟩

def challengeChecks (c : Challenge) : List (String × Bool) :=
  [("x_link_challenge_nonce_check: " ++ c.nonce, nonceRe c.nonce),
   ("x_link_challenge_wallet_check: " ++ c.wallet, walletRe c.wallet),
   ("x_link_challenge_message_check", !(c.message == "" || decide (2000 < utf16Length c.message))),
   ("x_link_challenge_expires_after_issue", !decide (c.expiresAtSec ≤ c.issuedAtSec))] ++
  match c.ceremony with
  | .link identity =>
      [("x_link_challenge_x_id_check: " ++ identity.xId, xIdRe identity.xId),
       ("x_link_challenge_handle_check: " ++ identity.handle, handleRe identity.handle),
       ("x_link_challenge_display_name_check", !decide (100 < utf16Length identity.displayName)),
       ("x_link_challenge_avatar_url_check", avatarUrlOk identity.avatarUrl)]
  | .unlink => []

def put (c : Challenge) : Statement MemoryChallengeStore Unit := fun s =>
  match firstViolated (challengeChecks c) with
  | some message => (.error ⟨message⟩, s)
  | none =>
      if (s.rows.get c.nonce).isSome then (.error ⟨"x_link_challenge_pkey"⟩, s)
      else (.ok (), ⟨s.rows.set c.nonce c⟩)

def consume (nonce : String) (nowSec : ℤ) : Statement MemoryChallengeStore (Option Challenge) := fun s =>
  match s.rows.get nonce with
  | none => (.ok none, s)
  | some row =>
      -- an expired row stays where it is
      if row.expiresAtSec ≤ nowSec then (.ok none, s)
      else (.ok (some row), ⟨s.rows.delete nonce⟩)

end MemoryChallengeStore

def memoryChallengeStore : ChallengeStore MemoryChallengeStore :=
  ⟨MemoryChallengeStore.put, MemoryChallengeStore.consume⟩

structure Counted where
  windowStart : ℤ
  hits : ℕ
deriving DecidableEq, Repr

structure MemoryRateCounter where
  buckets : OrderedMap String Counted

namespace MemoryRateCounter

def empty : MemoryRateCounter := ⟨OrderedMap.empty⟩

def count (windowStartSec : ℤ) (s : MemoryRateCounter) (b : String) : ℕ × MemoryRateCounter :=
  let next : Counted :=
    match s.buckets.get b with
    | none => ⟨windowStartSec, 1⟩
    | some current =>
        if current.windowStart ≠ windowStartSec then ⟨windowStartSec, 1⟩
        else ⟨windowStartSec, current.hits + 1⟩
  (next.hits, ⟨s.buckets.set b next⟩)

def countAll (windowStartSec : ℤ) (s : MemoryRateCounter) : List String → List ℕ × MemoryRateCounter
  | [] => ([], s)
  | b :: bs =>
      let (hits, s) := count windowStartSec s b
      let (rest, s) := countAll windowStartSec s bs
      (hits :: rest, s)

def hit (buckets : List String) (windowStartSec : ℤ) : Statement MemoryRateCounter (List ℕ) := fun s =>
  if ¬ buckets.Nodup then
    (.error ⟨"x_link_rate: ON CONFLICT DO UPDATE cannot affect row a second time"⟩, s)
  else
    let (counts, s) := countAll windowStartSec s buckets
    (.ok counts, s)

end MemoryRateCounter

def memoryRateCounter : RateCounter MemoryRateCounter := ⟨MemoryRateCounter.hit⟩

end BullsUnicorns.Identity

import Mathlib.Tactic

/-!
# The storage seams of the identity API

`store.ts` and `writeStore.ts`: what the handlers ask of their storage, and the values that cross.
A statement is one atomic act on the stored state; it answers or throws.
-/

namespace BullsUnicorns.Identity

/-! ## Shapes shared by the schema and its in-memory transcription -/

/-- A string of `lo` to `hi` characters of one class. -/
def ofClass (p : Char → Bool) (lo hi : ℕ) (s : String) : Bool :=
  decide (lo ≤ s.toList.length) && decide (s.toList.length ≤ hi) && s.toList.all p

def isLowerHex (c : Char) : Bool := ('0' ≤ c && c ≤ '9') || ('a' ≤ c && c ≤ 'f')

/-- The base58 alphabet: no `0`, `O`, `I` or `l`. -/
def isBase58Char (c : Char) : Bool :=
  ('1' ≤ c && c ≤ '9') || ('A' ≤ c && c ≤ 'H') || ('J' ≤ c && c ≤ 'N') || ('P' ≤ c && c ≤ 'Z') ||
    ('a' ≤ c && c ≤ 'k') || ('m' ≤ c && c ≤ 'z')

def isHandleChar (c : Char) : Bool :=
  ('A' ≤ c && c ≤ 'Z') || ('a' ≤ c && c ≤ 'z') || ('0' ≤ c && c ≤ '9') || c == '_'

def nonceRe : String → Bool := ofClass isLowerHex 64 64

def walletRe : String → Bool := ofClass isBase58Char 32 44

def xIdRe : String → Bool := ofClass (fun c => '0' ≤ c && c ≤ '9') 1 20

def handleRe : String → Bool := ofClass isHandleChar 1 15

def avatarHashRe : String → Bool := ofClass isLowerHex 64 64

def avatarUrlPrefix : String := "https://pbs.twimg.com/"

def avatarUrlOk : Option String → Bool
  | none => true
  | some url => avatarUrlPrefix.toList.isPrefixOf url.toList

/-- `char_length` counts code points. -/
def charLength (s : String) : ℕ := s.toList.length

/-- `.length` counts UTF-16 units: two for a character beyond the basic plane. -/
def utf16Length (s : String) : ℕ := (s.toList.map fun c => if c.toNat < 0x10000 then 1 else 2).sum

/-! ## Values -/

structure XIdentity where
  xId : String
  handle : String
  displayName : String
  avatarUrl : Option String
deriving DecidableEq, Repr

/-- What a challenge is for: only a link carries an identity. -/
inductive Ceremony where
  | link (identity : XIdentity)
  | unlink
deriving DecidableEq, Repr

inductive ChallengePurpose where
  | link
  | unlink
deriving DecidableEq, Repr

def Ceremony.purpose : Ceremony → ChallengePurpose
  | .link _ => .link
  | .unlink => .unlink

structure Challenge where
  nonce : String
  wallet : String
  message : String
  issuedAtSec : ℤ
  expiresAtSec : ℤ
  ceremony : Ceremony
deriving DecidableEq, Repr

inductive LinkWriteOutcome where
  | linked
  | walletTaken
deriving DecidableEq, Repr

/-- One row of the register. -/
structure RegisterRow where
  xId : String
  wallet : String
  handle : String
  displayName : String
  avatarUrl : Option String
  avatarHash : Option String
  avatarBytes : Option (List UInt8)
  avatarAt : Option ℤ
  linkedAt : ℤ
  suppressed : Bool
deriving DecidableEq, Repr

structure LinkRow where
  xId : String
  wallet : String
  handle : String
  displayName : String
  avatarHash : Option String
  linkedAt : ℤ
deriving DecidableEq, Repr

def RegisterRow.linkRow (r : RegisterRow) : LinkRow :=
  ⟨r.xId, r.wallet, r.handle, r.displayName, r.avatarHash, r.linkedAt⟩

structure IngestTarget where
  xId : String
  avatarUrl : Option String
  suppressed : Bool
deriving DecidableEq, Repr

def RegisterRow.ingestTarget (r : RegisterRow) : IngestTarget := ⟨r.xId, r.avatarUrl, r.suppressed⟩

/-! ## Statements and seams -/

structure StoreError where
  message : String
deriving DecidableEq, Repr

abbrev Statement (σ α : Type) := σ → Except StoreError α × σ

/-- The first of a list of named checks that fails. -/
def firstViolated (checks : List (String × Bool)) : Option String :=
  (checks.find? (fun c => !c.2)).map Prod.fst

structure ChallengeStore (σ : Type) where
  put : Challenge → Statement σ Unit
  consume : String → ℤ → Statement σ (Option Challenge)

structure LinkWriter (σ : Type) where
  link : String → XIdentity → ℤ → Statement σ LinkWriteOutcome
  unlink : String → Statement σ (Option String)

structure RateCounter (σ : Type) where
  hit : List String → ℤ → Statement σ (List ℕ)

structure LinkStore (σ : Type) where
  findByWallets : List String → σ → List LinkRow
  findAvatar : String → String → σ → Option (List UInt8)
  findForIngest : String → σ → Option IngestTarget
  putAvatar : String → String → List UInt8 → ℤ → Statement σ Bool
  setSuppressed : String → Bool → Statement σ Bool

theorem firstViolated_eq_none {checks : List (String × Bool)} :
    firstViolated checks = none ↔ ∀ c ∈ checks, c.2 = true := by
  simp [firstViolated]

theorem charLength_le_utf16Length (s : String) : charLength s ≤ utf16Length s := by
  unfold charLength utf16Length
  induction s.toList with
  | nil => simp
  | cons c cs ih =>
      have hc : 1 ≤ if c.toNat < 0x10000 then 1 else 2 := by split <;> omega
      simp only [List.length_cons, List.map_cons, List.sum_cons]
      omega

section
variable {p : Char → Bool} {lo hi : ℕ} {s : String} {c : Char}

theorem char_of_ofClass (h : ofClass p lo hi s = true) (hc : c ∈ s.toList) : p c = true := by
  rw [ofClass, Bool.and_eq_true] at h
  exact List.all_eq_true.mp h.2 c hc

theorem ofClass_clean (h : ofClass p lo hi s = true) (hc : p c = false) : c ∉ s.toList := by
  intro hmem
  rw [char_of_ofClass h hmem] at hc
  cases hc

end

end BullsUnicorns.Identity

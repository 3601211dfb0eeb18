import BullsUnicorns.Lib.Text
import BullsUnicorns.Identity.WriteStore

/-!
# The words that are signed

`challenge.ts`: the message of a challenge, and its nonce.
-/

namespace BullsUnicorns.Identity

def challengeTtlSeconds : ℤ := 300

def nonceBytes : ℕ := 32

def defaultOrigin : String := "bullsvsunicorns.fun"

def isHostChar (c : Char) : Bool :=
  ('A' ≤ c && c ≤ 'Z') || ('a' ≤ c && c ≤ 'z') || ('0' ≤ c && c ≤ '9') || c == '.' || c == '-'

/-- A host name of 1 to 80 characters with at most one port. -/
def hostRe (s : String) : Bool :=
  let (name, port) := s.toList.span (· ≠ ':')
  ofClass isHostChar 1 80 (String.ofList name) &&
    match port with
    | [] => true
    | _ :: digits => ofClass (fun c => '0' ≤ c && c ≤ '9') 1 5 (String.ofList digits)

/-- The host that a request arrived at, where it is safe to print. -/
def originFrom : Option String → String
  | none => defaultOrigin
  | some host => if hostRe (Text.trim host) then Text.trim host else defaultOrigin

/-! ## Dates -/

/-- Year, month and day of a day counted from 1970-01-01, in the proleptic Gregorian calendar. Years are
counted from March in eras of 400, so that the leap day is the last of its year. -/
def civilFromDays (days : ℤ) : ℤ × ℤ × ℤ :=
  let era := (days + 719468) / 146097
  let dayOfEra := (days + 719468) % 146097
  let yearOfEra := (dayOfEra - dayOfEra / 1460 + dayOfEra / 36524 - dayOfEra / 146096) / 365
  let dayOfYear := dayOfEra - (365 * yearOfEra + yearOfEra / 4 - yearOfEra / 100)
  let month := (5 * dayOfYear + 2) / 153
  let day := dayOfYear - (153 * month + 2) / 5 + 1
  let year := yearOfEra + 400 * era
  if month < 10 then (year, month + 3, day) else (year + 1, month - 9, day)

/-- Years beyond four digits carry a sign and six digits. -/
def isoYear (year : ℤ) : String :=
  if 0 ≤ year ∧ year ≤ 9999 then Text.padded 10 4 year.toNat
  else (if year < 0 then "-" else "+") ++ Text.padded 10 6 year.natAbs

/-- `toISOString` without its milliseconds; an instant that no date can hold is thrown. -/
def isoSecond (unixSec : ℤ) : Except StoreError String :=
  if 8640000000000 < unixSec ∨ unixSec < -8640000000000 then .error ⟨"Invalid time value"⟩
  else
    let (year, month, day) := civilFromDays (unixSec / 86400)
    let second := (unixSec % 86400).toNat
    .ok (isoYear year ++ "-" ++ Text.padded 10 2 month.toNat ++ "-" ++ Text.padded 10 2 day.toNat ++ "T" ++
      Text.padded 10 2 (second / 3600) ++ ":" ++ Text.padded 10 2 (second / 60 % 60) ++ ":" ++
      Text.padded 10 2 (second % 60) ++ "Z")

example : isoSecond 1800000000 = .ok "2027-01-15T08:00:00Z" := by decide +kernel

/-! ## The message and the nonce -/

structure ChallengeMessageInput where
  purpose : ChallengePurpose
  origin : String
  wallet : String
  handle : Option String
  xId : Option String
  nonce : String
  issuedAtSec : ℤ
  expiresAtSec : ℤ

/-- What a template makes of an absent value. -/
def printed (value : Option String) : String := value.getD "undefined"

def linkLines : List String :=
  ["Signing this proves you control this wallet. It is not a",
   "transaction, it moves no funds, and it costs nothing.",
   "",
   "Anyone will then be able to see that this wallet belongs to",
   "your X account, including its entire on-chain history."]

def unlinkLines : List String :=
  ["Signing this removes your X account from this wallet. It is",
   "not a transaction, it moves no funds, and it costs nothing.",
   "",
   "It cannot undo what anyone has already seen or copied."]

def challengeMessage (input : ChallengeMessageInput) : Except StoreError String := do
  let issued ← isoSecond input.issuedAtSec
  let expires ← isoSecond input.expiresAtSec
  let dated := ["Nonce:   " ++ input.nonce, "Issued:  " ++ issued, "Expires: " ++ expires, ""]
  let lines :=
    match input.purpose with
    | .link =>
        [input.origin ++ " wants to link your X account.", "", "Wallet:  " ++ input.wallet,
          "X:       @" ++ printed input.handle ++ "  (id " ++ printed input.xId ++ ")"] ++ dated ++ linkLines
    | .unlink =>
        [input.origin ++ " wants to unlink your X account.", "", "Wallet:  " ++ input.wallet] ++ dated ++ unlinkLines
  return "\n".intercalate lines

/-- Random bytes as lowercase hex. -/
def newNonce (random : Vector UInt8 nonceBytes) : String :=
  String.join (random.toList.map fun b => Text.padded 16 2 b.toNat)

end BullsUnicorns.Identity

import BullsUnicorns.Identity.Lemmas.WriteLaws

/-!
# What one request keeps to

The order of the calls of a request, and what each call presupposes, whatever the calls before it answered.
-/

namespace BullsUnicorns.Identity

variable {d : WriteDeps}

/-- The one count of a request, before anything else. -/
def AfterCount (past : List (Reply StoreError Call.Answer)) : Prop :=
  ∃ buckets start counts, past = [⟨.hit buckets start, .ok counts⟩]

/-- What a link write asks for, where it is well formed. -/
def redemptionOf (d : WriteDeps) (request : Request) : Option (ChallengePurpose × Redemption) :=
  match wantedBy request.method, readJsonBody request with
  | some wanted, .ok body => (parseRedemption d body).toOption.map fun parsed => (wanted, parsed)
  | _, _ => none

/-- A challenge answers to a request: purpose, wallet and signature are right. -/
def Accepts (d : WriteDeps) (request : Request) (c : Challenge) : Prop :=
  ∃ parsed, redemptionOf d request = some (c.ceremony.purpose, parsed) ∧ c.wallet = parsed.wallet ∧
    signatureVerifies d c parsed.signature = true

/-- The identity is not one that the register may never hold. -/
def Allowed (d : WriteDeps) (identity : XIdentity) : Prop :=
  isReservedXId d identity.xId = false ∧ isReservedHandle d identity.handle = false

/-- The calls of a challenge request. -/
def ChallengeCalls (d : WriteDeps) (v : Visit) (past : List (Reply StoreError Call.Answer)) : Call → Prop
  | .hit _ _ => past = []
  | .verify _ nowSec => AfterCount past ∧ nowSec = v.nowSec
  | .put c => c.nonce = newNonce v.random ∧ c.issuedAtSec = v.nowSec ∧ c.expiresAtSec = v.nowSec + challengeTtlSeconds ∧
      match c.ceremony with
      | .link identity => Allowed d identity ∧
          ∃ token before, AfterCount before ∧ past = before ++ [⟨.verify token v.nowSec, .ok (.ok identity)⟩]
      | .unlink => AfterCount past
  | _ => False

/-- The redemption of a challenge that the request then is held to. -/
def Redeemed (d : WriteDeps) (v : Visit) (c : Challenge) (past : List (Reply StoreError Call.Answer)) : Prop :=
  Accepts d v.request c ∧
    ∃ nonce before, AfterCount before ∧ past = before ++ [⟨.consume nonce v.nowSec, .ok (some c)⟩]

/-- The calls of a link write. -/
def LinkCalls (d : WriteDeps) (v : Visit) (past : List (Reply StoreError Call.Answer)) : Call → Prop
  | .hit _ _ => past = []
  | .consume nonce nowSec => AfterCount past ∧ nowSec = v.nowSec ∧
      ∃ wanted parsed, redemptionOf d v.request = some (wanted, parsed) ∧ parsed.nonce = nonce
  | .house => ∃ c, Redeemed d v c past
  | .link wallet identity nowSec => nowSec = v.nowSec ∧ Allowed d identity ∧
      ∃ c house before, Redeemed d v c before ∧ past = before ++ [⟨.house, .ok house⟩] ∧
        house.unknown = false ∧ wallet ∉ house.wallets ∧ c.ceremony = .link identity ∧ c.wallet = wallet
  | .unlink wallet => ∃ c house before, Redeemed d v c before ∧ past = before ++ [⟨.house, .ok house⟩] ∧
      house.unknown = false ∧ c.ceremony = .unlink ∧ c.wallet = wallet
  | _ => False

def Calls (d : WriteDeps) (a : Arrival) : List (Reply StoreError Call.Answer) → Call → Prop :=
  match a.route with
  | .challenge => ChallengeCalls d a.visit
  | .link => LinkCalls d a.visit

/-- Any response. -/
def AnyResponse (_ : List (Reply StoreError Call.Answer)) (_ : Response) : Prop := True

variable {P : List (Reply StoreError Call.Answer) → Call → Prop}

theorem enforceRateLimit_obeys (hhit : ∀ buckets start, P [] (.hit buckets start)) (wallet network : String)
    (nowSec : ℤ) : Task.Obeys P (fun past _ => AfterCount past) [] (enforceRateLimit d wallet network nowSec) := by
  unfold enforceRateLimit
  refine Task.Obeys.call (hhit _ _) fun counts => ?_
  split
  · split
    · exact ⟨_, _, _, rfl⟩
    · exact ⟨_, _, _, rfl⟩
  · trivial

theorem issue_obeys {v : Visit} {wallet : String} {ceremony : Ceremony} {past : List (Reply StoreError Call.Answer)}
    (h : ∀ message, ChallengeCalls d v past (.put ⟨newNonce v.random, wallet, message, v.nowSec,
      v.nowSec + challengeTtlSeconds, ceremony⟩)) :
    Task.Obeys (ChallengeCalls d v) AnyResponse past (issue v wallet ceremony) := by
  unfold issue
  refine Task.Obeys.bind (R := fun past' _ => past' = past) ?_ ?_
  · cases challengeMessage _ with
    | ok message => rfl
    | error e => trivial
  · rintro _ message rfl
    exact Task.Obeys.call (h message) fun _ => trivial

theorem prove_obeys {v : Visit} {past : List (Reply StoreError Call.Answer)} (h : AfterCount past) (wallet : String)
    (proof : Option Json) : Task.Obeys (ChallengeCalls d v) AnyResponse past (prove d v wallet proof) := by
  unfold prove
  split
  · trivial
  · split
    · trivial
    · refine Task.Obeys.call ⟨h, rfl⟩ fun verified => ?_
      split
      · trivial
      · rename_i identity
        split
        · trivial
        · split
          · trivial
          · rename_i hxId hhandle
            refine issue_obeys fun message => ⟨rfl, rfl, rfl, ⟨?_, ?_⟩, _, past, h, rfl⟩
            · simpa using hxId
            · simpa using hhandle

theorem handleChallenge_obeys (v : Visit) :
    Task.Obeys (ChallengeCalls d v) AnyResponse [] (handleChallenge d v) := by
  unfold handleChallenge
  split
  · trivial
  split
  · trivial
  split
  · trivial
  split
  · trivial
  refine Task.Obeys.bind (enforceRateLimit_obeys (fun _ _ => rfl) _ _ _) fun past verdict hcounted => ?_
  split
  · trivial
  · split
    · exact prove_obeys hcounted _ _
    · split
      · trivial
      · exact issue_obeys fun message => ⟨rfl, rfl, rfl, hcounted⟩

theorem write_obeys {v : Visit} {c : Challenge} {past : List (Reply StoreError Call.Answer)} (h : Redeemed d v c past) :
    Task.Obeys (LinkCalls d v) AnyResponse past (write d v.nowSec c) := by
  unfold write
  refine Task.Obeys.call ⟨c, h⟩ fun house => ?_
  split
  · trivial
  rename_i hknown
  have hknown : house.unknown = false := by simpa using hknown
  split
  · rename_i hunlink
    exact Task.Obeys.call ⟨c, house, past, h, rfl, hknown, hunlink, rfl⟩ fun _ => trivial
  · rename_i identity hlink
    split
    · trivial
    split
    · trivial
    split
    · trivial
    rename_i hhouse hxId hhandle
    refine Task.Obeys.call ⟨rfl, ⟨?_, ?_⟩, c, house, past, h, rfl, hknown, ?_, hlink, rfl⟩ fun outcome => ?_
    · simpa using hxId
    · simpa using hhandle
    · simpa using hhouse
    · split
      · trivial
      · trivial

theorem redeem_obeys {v : Visit} {wanted : ChallengePurpose} {parsed : Redemption}
    (h : redemptionOf d v.request = some (wanted, parsed)) :
    Task.Obeys (LinkCalls d v) AnyResponse [] (redeem d v wanted parsed) := by
  unfold redeem
  refine Task.Obeys.bind (enforceRateLimit_obeys (fun _ _ => rfl) _ _ _) fun past verdict hcounted => ?_
  split
  · trivial
  refine Task.Obeys.call ⟨hcounted, rfl, wanted, parsed, h, rfl⟩ fun challenge => ?_
  split
  · trivial
  rename_i c
  split
  · trivial
  split
  · trivial
  split
  · trivial
  rename_i hpurpose hwallet hverifies
  refine write_obeys ⟨⟨parsed, ?_, not_not.mp hwallet, by simpa using hverifies⟩, _, past, hcounted, rfl⟩
  rw [h, not_not.mp hpurpose]

theorem handleLinkWrite_obeys (v : Visit) : Task.Obeys (LinkCalls d v) AnyResponse [] (handleLinkWrite d v) := by
  unfold handleLinkWrite
  split
  · trivial
  rename_i wanted hwanted
  split
  · trivial
  rename_i body hbody
  split
  · trivial
  rename_i parsed hparsed
  exact redeem_obeys (by simp [redemptionOf, hwanted, hbody, hparsed, Except.toOption])

theorem guarded_obeys {run : Handler Response} (h : Task.Obeys P AnyResponse [] run) :
    Task.Obeys P AnyResponse [] (guarded run) := by
  unfold guarded
  exact Task.Obeys.tryCatch h fun _ _ => trivial

theorem endpoint_obeys (a : Arrival) : Task.Obeys (Calls d a) AnyResponse [] (endpoint d a) := by
  obtain ⟨route, visit⟩ := a
  cases route with
  | challenge => exact guarded_obeys (handleChallenge_obeys visit)
  | link => exact guarded_obeys (handleLinkWrite_obeys visit)

end BullsUnicorns.Identity

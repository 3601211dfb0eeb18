import BullsUnicorns.Identity.Lemmas.Attest

/-!
# An attestation is believed exactly while it is what was signed
-/

namespace BullsUnicorns.Identity

open JsString

/-! ## A row and its record -/

/-- The record says what the row says. -/
structure RecordsRow (row : LinkRow) (t : Whole) (record : LinkRecord) : Prop where
  wallet : record.wallet = ofString row.wallet
  xId : record.xId = ofString row.xId
  handle : record.handle = ofString row.handle
  displayName : record.displayName = if row.displayName = "" then none else some ⟨ofString row.displayName⟩
  avatarPath : record.avatarPath =
    row.avatarHash.map fun avatarHash => avatarPathFor (ofString row.xId) (ofString avatarHash)
  linkedAt : record.linkedAt.val = row.linkedAt
  issuedAt : record.issuedAt = t
  expiresAt : record.expiresAt.val = t.val + ATTESTATION_TTL_SECONDS

section
variable {c : Curve} {key : AttestationKey} {t : Whole}

theorem recordsRow_attestRow {row : LinkRow} (hlinked : Number.ofInt row.linkedAt = row.linkedAt)
    (ht : t.val.natAbs + 604800 ≤ 2 ^ 53) : RecordsRow row t (recordOf (attestRow c row key t)) where
  wallet := rfl
  xId := rfl
  handle := rfl
  displayName := by simp [recordOf, attestRow, signAttestation, unsigned, rowPayload]
  avatarPath := by
    cases h : row.avatarHash <;>
      simp [recordOf, attestRow, signAttestation, unsigned, rowPayload, avatarPathFor, avatarFolder, h]
  linkedAt := hlinked
  issuedAt := rfl
  expiresAt := Whole.nearest_val (by rw [ATTESTATION_TTL_SECONDS]; omega)

/-- A row's attestation passes for its time, where the key is trusted. -/
theorem verify_attestRow {r : XLink} (hr : firstViolated r.checks = none)
    (hs : SignsExactly c key (canonicalBytes (unsigned (rowPayload r.toRegisterRow.linkRow) key t)))
    (ht : t.val.natAbs + 604800 ≤ 2 ^ 53) (trustedKeys : List JsString) (nowSec : Whole) (record : LinkRecord) :
    verifyAttestation c (attestRow c r.toRegisterRow.linkRow key t).toJson trustedKeys nowSec = .ok record ↔
      (key.publicKey ∈ trustedKeys ∧ t.val - CLOCK_SKEW_GRACE_SECONDS ≤ nowSec.val ∧
        nowSec.val < t.val + ATTESTATION_TTL_SECONDS) ∧
        record = recordOf (attestRow c r.toRegisterRow.linkRow key t) := by
  rw [verifyAttestation_eq_ok]
  simp only [asWireShape_toJson, Option.some.injEq, exists_eq_left', fieldRejection_attestRow hr, true_and]
  rw [attestRow, clockRejection_signed ht, signatureRejection_signed hs rfl rfl]
  tauto

/-- No other bytes pass under the same signature. -/
theorem verify_changed {r : XLink} (hr : firstViolated r.checks = none)
    (hs : SignsExactly c key (canonicalBytes (unsigned (rowPayload r.toRegisterRow.linkRow) key t)))
    {raw : JsValue} {changed : LinkAttestation} (hshape : asWireShape raw = some changed)
    (hsig : changed.sig = (attestRow c r.toRegisterRow.linkRow key t).sig)
    (hkey : changed.keyId = (attestRow c r.toRegisterRow.linkRow key t).keyId)
    (hdiffers : ¬SameSigned changed (attestRow c r.toRegisterRow.linkRow key t)) (trustedKeys : List JsString)
    (nowSec : Whole) : ∃ reason, verifyAttestation c raw trustedKeys nowSec = .rejected reason := by
  cases hverify : verifyAttestation c raw trustedKeys nowSec with
  | rejected reason => exact ⟨reason, rfl⟩
  | ok record =>
      obtain ⟨a, ha, hfield, -, hsignature, -⟩ := verifyAttestation_eq_ok.mp hverify
      obtain rfl : a = changed := Option.some.inj (ha.symm.trans hshape)
      have hbytes := ((signatureRejection_signed hs hsig hkey trustedKeys).mp hsignature).2
      exact absurd (sameSigned_of_canonicalBytes hfield (fieldRejection_attestRow hr c key t) hbytes) hdiffers

end

/-! ## A batch -/

def Verification.record? : Verification → Option LinkRecord
  | .ok record => some record
  | .rejected _ => none

/-- The first record among the verifications that is about a wallet. -/
def firstFor (wallet : JsString) (verifications : List Verification) : Option LinkRecord :=
  (verifications.filterMap Verification.record?).find? fun record => record.wallet == wallet

/-- A batch holds the first record of each wallet, and a reason for every entry without a record of its own. -/
structure LinkBatch.Holds (batch : LinkBatch) (verifications : List Verification) : Prop where
  oneEach : (batch.links.map Prod.fst).Nodup
  first : ∀ wallet record, (wallet, record) ∈ batch.links ↔ firstFor wallet verifications = some record
  count : batch.links.length + batch.rejected.length = verifications.length

theorem LinkBatch.holds_nil : LinkBatch.Holds ⟨[], []⟩ [] := ⟨List.nodup_nil, by simp [firstFor], rfl⟩

theorem firstFor_rejected (wallet : JsString) (verifications : List Verification) (reason : LinkRejection) :
    firstFor wallet (verifications ++ [.rejected reason]) = firstFor wallet verifications := by
  simp [firstFor, Verification.record?]

theorem firstFor_ok (wallet : JsString) (verifications : List Verification) (record : LinkRecord) :
    firstFor wallet (verifications ++ [.ok record]) =
      (firstFor wallet verifications).or (if record.wallet = wallet then some record else none) := by
  rw [firstFor, List.filterMap_append, List.find?_append, firstFor]
  congr 1
  by_cases h : record.wallet = wallet <;> simp [Verification.record?, h]

theorem has_iff {links : List (JsString × LinkRecord)} {wallet : JsString} :
    (links.lookup wallet).isSome = true ↔ ∃ record, (wallet, record) ∈ links := by
  rw [List.lookup_isSome_iff]
  constructor
  · rintro ⟨⟨key, record⟩, hmem, hkey⟩
    rw [eq_of_beq hkey]
    exact ⟨record, hmem⟩
  · rintro ⟨record, hmem⟩
    exact ⟨(wallet, record), hmem, beq_self_eq_true wallet⟩

/-- One entry more. -/
theorem LinkBatch.Holds.read {batch : LinkBatch} {verifications : List Verification}
    (h : batch.Holds verifications) (v : Verification) : (batch.read v).Holds (verifications ++ [v]) := by
  have hcount := h.count
  cases v with
  | rejected reason =>
      refine ⟨h.oneEach, fun wallet record => ?_, ?_⟩
      · rw [firstFor_rejected]
        exact h.first wallet record
      · simp only [LinkBatch.read, List.length_append, List.length_singleton]
        omega
  | ok new =>
      rw [LinkBatch.read]
      split
      · rename_i hhas
        obtain ⟨old, hold⟩ := has_iff.mp hhas
        refine ⟨h.oneEach, fun wallet record => ?_, ?_⟩
        · rw [firstFor_ok, h.first wallet record]
          by_cases hwallet : new.wallet = wallet
          · rw [← hwallet, (h.first _ _).mp hold, Option.some_or]
          · rw [if_neg hwallet, Option.or_none]
        · simp only [List.length_append, List.length_singleton]
          omega
      · rename_i hnew
        have hnone : firstFor new.wallet verifications = none := by
          cases hfirst : firstFor new.wallet verifications with
          | none => rfl
          | some old => exact absurd (has_iff.mpr ⟨old, (h.first _ _).mpr hfirst⟩) hnew
        refine ⟨?_, fun wallet record => ?_, ?_⟩
        · rw [List.map_append, List.map_singleton, List.nodup_append]
          refine ⟨h.oneEach, List.nodup_singleton _, ?_⟩
          intro wallet hmem other hother hsame
          rw [hsame, List.mem_singleton.mp hother] at hmem
          obtain ⟨⟨wallet, old⟩, hold, hwallet⟩ := List.mem_map.mp hmem
          obtain rfl : wallet = new.wallet := hwallet
          exact hnew (has_iff.mpr ⟨old, hold⟩)
        · rw [firstFor_ok, List.mem_append, List.mem_singleton, Prod.mk.injEq, h.first wallet record]
          by_cases hwallet : new.wallet = wallet
          · subst hwallet
            simp [hnone, eq_comm]
          · rw [if_neg hwallet, Option.or_none]
            constructor
            · rintro (hfirst | ⟨rfl, -⟩)
              · exact hfirst
              · exact absurd rfl hwallet
            · exact Or.inl
        · simp only [List.length_append, List.length_singleton]
          omega

theorem LinkBatch.Holds.foldl {batch : LinkBatch} {verifications : List Verification}
    (h : batch.Holds verifications) (vs : List Verification) :
    (vs.foldl LinkBatch.read batch).Holds (verifications ++ vs) := by
  induction vs generalizing batch verifications with
  | nil => simpa using h
  | cons v vs ih =>
      rw [List.foldl_cons, List.append_cons]
      exact ih (h.read v)

theorem linkMapFrom_holds (c : Curve) {raw : JsValue} {list : List JsValue} (h : linksOf raw = some list)
    (trustedKeys : List JsString) (nowSec : Whole) :
    (linkMapFrom c raw trustedKeys nowSec).Holds
      ((list.take MAX_WALLETS_PER_QUERY).map fun entry => verifyAttestation c entry trustedKeys nowSec) := by
  rw [linkMapFrom, h]
  simp only
  rw [← List.foldl_map]
  simpa using LinkBatch.holds_nil.foldl _

/-! ## A row signed with a fixed key -/

/-- A row whose name is the replacement character. -/
def aliceRow : XLink where
  xId := "44196397"
  wallet := "4wBqpZM9xaSheZzJSMawUKKwhdpChKbZ5eu5ky4Vigw"
  handle := "alice"
  displayName := "\ufffd"
  avatarUrl := none
  avatarHash := none
  avatarBytes := none
  avatarAt := none
  linkedAt := 1699990000
  suppressed := false
  refreshedAt := 1699990000

/-- 32 bytes of seven. -/
def aliceKey : AttestationKey := ⟨List.replicate 32 7, ofString "GmaDrppBC7P5ARKV8g3djiwP89vz1jLK23V2GBjuAEGB"⟩

def aliceKeyBytes : List UInt8 :=
  [234, 74, 108, 99, 226, 156, 82, 10, 190, 245, 80, 123, 19, 46, 197, 249, 149, 71, 118, 174, 190, 190, 123, 146,
    66, 30, 234, 105, 20, 70, 210, 44]

/-- The curve on one message, its signature under the key and the key's text. -/
def curveAt (message signature : List UInt8) : Curve where
  sign m secret := if m = message ∧ secret = aliceKey.secret then signature else []
  verify sig m keyBytes := some (decide (sig = signature ∧ m = message ∧ keyBytes = aliceKeyBytes))
  publicKey v := if v = aliceKey.publicKey then some aliceKeyBytes else none

def aliceMessage (t : ℤ) : List UInt8 :=
  canonicalBytes (unsigned (rowPayload aliceRow.toRegisterRow.linkRow) aliceKey (Whole.nearest t))

theorem signsExactly_curveAt {message signature : List UInt8} (h : signature.length = 64) :
    SignsExactly (curveAt message signature) aliceKey message where
  length := by simpa [curveAt] using h
  exact := ⟨aliceKeyBytes, by simp [curveAt], by decide, fun message' => by simp [curveAt]⟩

/-- The signature of the row issued at 1700000000. -/
def aliceSignature : List UInt8 :=
  [69, 221, 179, 53, 142, 63, 4, 52, 213, 247, 214, 248, 42, 161, 121, 61, 244, 77, 27, 144, 67, 151, 88, 78, 207,
    155, 83, 99, 135, 153, 168, 135, 117, 203, 72, 8, 52, 127, 207, 123, 225, 211, 205, 64, 166, 108, 25, 228, 247,
    158, 155, 91, 59, 75, 172, 181, 241, 54, 252, 106, 0, 136, 75, 12]

def aliceCurve : Curve := curveAt (aliceMessage 1700000000) aliceSignature

def aliceAttestation : LinkAttestation :=
  attestRow aliceCurve aliceRow.toRegisterRow.linkRow aliceKey (Whole.nearest 1700000000)

example : aliceMessage 1700000000 = Text.utf8 ("11:bvu.link.v1,43:4wBqpZM9xaSheZzJSMawUKKwhdpChKbZ5eu5ky4Vigw," ++
    "8:44196397,5:alice,3:\ufffd,0:,10:1699990000,10:1700000000,10:1700604800,") := by
  decide +kernel

/-- The same signature under another name of the same bytes. -/
def aliceLoneSurrogate : LinkAttestation := { aliceAttestation with displayName := [0xd800] }

def aliceRenamed : LinkAttestation := { aliceAttestation with handle := ofString "mallory" }

/-- The signature of the row issued at `2 ^ 63`, where doubles are 2048 apart. -/
def lateSignature : List UInt8 :=
  [216, 152, 169, 241, 76, 202, 187, 159, 36, 15, 59, 95, 131, 187, 213, 119, 145, 245, 223, 50, 1, 131, 58, 91, 38,
    150, 217, 5, 31, 62, 214, 250, 210, 191, 156, 218, 159, 207, 245, 86, 232, 173, 113, 72, 68, 45, 123, 250, 222,
    131, 89, 183, 67, 113, 115, 49, 35, 1, 6, 59, 30, 142, 150, 4]

def lateCurve : Curve := curveAt (aliceMessage (2 ^ 63)) lateSignature

def lateAttestation : LinkAttestation :=
  attestRow lateCurve aliceRow.toRegisterRow.linkRow aliceKey (Whole.nearest (2 ^ 63))

theorem aliceRow_checks : firstViolated aliceRow.checks = none := by decide +kernel

/-! ## Signer and verifier -/

/-- The bytes of accepted attestations tell their signed fields apart. A row's attestation, signed at a time whose
end is exact, is accepted as that row exactly where its key is trusted and from the grace before the issue up to the
end, and is rejected once a signed field differs, the display name in its bytes. A batch keeps the first verifying
entry of each wallet among those it reads, and every entry read is accepted or rejected. -/
theorem signer_and_verifier_agree (c : Curve) :
    (∀ a b : LinkAttestation, fieldRejection a = none → fieldRejection b = none →
      canonicalBytes a = canonicalBytes b → SameSigned a b) ∧
    (∀ (r : XLink) (key : AttestationKey) (t : Whole), firstViolated r.checks = none →
      Number.ofInt r.linkedAt = r.linkedAt → t.val.natAbs + 604800 ≤ 2 ^ 53 →
      SignsExactly c key (canonicalBytes (unsigned (rowPayload r.toRegisterRow.linkRow) key t)) →
      let attestation := attestRow c r.toRegisterRow.linkRow key t
      (∀ trustedKeys nowSec,
        ((∃ record, verifyAttestation c attestation.toJson trustedKeys nowSec = .ok record) ↔
          key.publicKey ∈ trustedKeys ∧ t.val - CLOCK_SKEW_GRACE_SECONDS ≤ nowSec.val ∧
            nowSec.val < t.val + ATTESTATION_TTL_SECONDS) ∧
        ∀ record, verifyAttestation c attestation.toJson trustedKeys nowSec = .ok record →
          RecordsRow r.toRegisterRow.linkRow t record) ∧
      ∀ raw changed trustedKeys nowSec, asWireShape raw = some changed → changed.sig = attestation.sig →
        changed.keyId = attestation.keyId → ¬SameSigned changed attestation →
        ∃ reason, verifyAttestation c raw trustedKeys nowSec = .rejected reason) ∧
    (∀ raw trustedKeys nowSec,
      match linksOf raw with
      | none => linkMapFrom c raw trustedKeys nowSec = ⟨[], [.malformed]⟩
      | some list => (linkMapFrom c raw trustedKeys nowSec).Holds
          ((list.take MAX_WALLETS_PER_QUERY).map fun entry => verifyAttestation c entry trustedKeys nowSec)) := by
  refine ⟨fun a b ha hb h => sameSigned_of_canonicalBytes ha hb h, ?_, ?_⟩
  · intro r key t hr hlinked ht hs
    refine ⟨fun trustedKeys nowSec => ⟨?_, fun record hok => ?_⟩, ?_⟩
    · simp only [verify_attestRow hr hs ht, exists_and_left, exists_eq, and_true]
    · rw [((verify_attestRow hr hs ht trustedKeys nowSec record).mp hok).2]
      exact recordsRow_attestRow hlinked ht
    · intro raw changed trustedKeys nowSec hshape hsig hkey hdiffers
      exact verify_changed hr hs hshape hsig hkey hdiffers trustedKeys nowSec
  · intro raw trustedKeys nowSec
    cases h : linksOf raw with
    | none => simp only [linkMapFrom, h]
    | some list => exact linkMapFrom_holds c h trustedKeys nowSec

theorem signer_and_verifier_agree_witness :
    SameSigned aliceLoneSurrogate aliceAttestation ∧
    (∃ record, verifyAttestation aliceCurve aliceAttestation.toJson [aliceKey.publicKey] (Whole.nearest 1700604799) =
      .ok record) ∧
    (∃ reason, verifyAttestation aliceCurve aliceRenamed.toJson [aliceKey.publicKey] (Whole.nearest 1700000000) =
      .rejected reason) := by
  have hs : SignsExactly aliceCurve aliceKey (aliceMessage 1700000000) := signsExactly_curveAt (by decide)
  obtain ⟨hbytes, hrow, -⟩ := signer_and_verifier_agree aliceCurve
  obtain ⟨hok, hchanged⟩ := hrow aliceRow aliceKey (Whole.nearest 1700000000) aliceRow_checks (by decide +kernel)
    (by decide +kernel) hs
  refine ⟨hbytes _ _ (by decide +kernel) (by decide +kernel) (by decide +kernel), ?_, ?_⟩
  · exact (hok _ _).1.mpr ⟨List.mem_singleton_self _, by decide +kernel, by decide +kernel⟩
  · have hsig : aliceRenamed.sig = aliceAttestation.sig := by rw [aliceRenamed]
    have hkey : aliceRenamed.keyId = aliceAttestation.keyId := by rw [aliceRenamed]
    apply hchanged aliceRenamed.toJson aliceRenamed _ _ (asWireShape_toJson _) hsig hkey
    intro hsame
    exact absurd hsame.handle (by decide +kernel)

/-- A name that is a lone surrogate is verified by the signature of the replacement character, and an attestation
issued at `2 ^ 63` expires 640 seconds early. -/
theorem attestation_collides_and_rounds :
    (firstViolated aliceRow.checks = none ∧ SignsExactly aliceCurve aliceKey (aliceMessage 1700000000) ∧
      aliceLoneSurrogate = { aliceAttestation with displayName := [0xd800] } ∧
      aliceAttestation.displayName = [0xfffd] ∧
      verifyAttestation aliceCurve aliceLoneSurrogate.toJson [aliceKey.publicKey] (Whole.nearest 1700000000) =
        .ok (recordOf aliceLoneSurrogate)) ∧
    SignsExactly lateCurve aliceKey (aliceMessage (2 ^ 63)) ∧
      (Whole.nearest (2 ^ 63)).val - CLOCK_SKEW_GRACE_SECONDS ≤ (Whole.nearest (2 ^ 63 + 604160)).val ∧
      (Whole.nearest (2 ^ 63 + 604160)).val < (Whole.nearest (2 ^ 63)).val + ATTESTATION_TTL_SECONDS ∧
      verifyAttestation lateCurve lateAttestation.toJson [aliceKey.publicKey] (Whole.nearest (2 ^ 63 + 604160)) =
        .rejected .expired := by
  have hs : SignsExactly aliceCurve aliceKey (aliceMessage 1700000000) := signsExactly_curveAt (by decide)
  have hsig : aliceLoneSurrogate.sig = aliceAttestation.sig := by rw [aliceLoneSurrogate]
  have hkey : aliceLoneSurrogate.keyId = aliceKey.publicKey := by rfl
  have hbytes : canonicalBytes aliceLoneSurrogate = canonicalBytes aliceAttestation := by decide +kernel
  refine ⟨⟨aliceRow_checks, hs, rfl, by decide +kernel, verifyAttestation_eq_ok.mpr ?_⟩,
    signsExactly_curveAt (by decide), by decide +kernel, by decide +kernel, by decide +kernel⟩
  exact ⟨aliceLoneSurrogate, asWireShape_toJson _, by decide +kernel, by decide +kernel,
    (signatureRejection_signed hs hsig hkey _).mpr ⟨List.mem_singleton_self _, hbytes⟩, rfl⟩

end BullsUnicorns.Identity

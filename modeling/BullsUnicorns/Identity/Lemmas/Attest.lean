import BullsUnicorns.Identity.PgStore
import BullsUnicorns.Identity.XLink

/-!
# What an attestation commits to

The signed bytes are the bytes of the signed fields, each told apart from its neighbours; a row that meets the
schema passes every check of the verifier.
-/

namespace BullsUnicorns.Identity

open JsString

/-! ## The signed fields -/

/-- The same in every signed field, in the display name as far as its bytes go. -/
structure SameSigned (a b : LinkAttestation) : Prop where
  wallet : a.wallet = b.wallet
  xId : a.xId = b.xId
  handle : a.handle = b.handle
  displayName : encode a.displayName = encode b.displayName
  avatarPath : a.avatarPath = b.avatarPath
  linkedAt : a.linkedAt = b.linkedAt
  issuedAt : a.issuedAt = b.issuedAt
  expiresAt : a.expiresAt = b.expiresAt

theorem canonicalBytes_eq_iff {a b : LinkAttestation} :
    canonicalBytes a = canonicalBytes b ↔ (canonicalFields a).map encode = (canonicalFields b).map encode := by
  have hframes : ∀ a : LinkAttestation,
      canonicalBytes a = ((canonicalFields a).map encode).flatMap Netstring.frame := by
    intro a
    rw [List.flatMap_map]
    rfl
  rw [hframes, hframes]
  exact Netstring.flatMap_frame_injective.eq_iff

theorem fieldRejection_eq_none {a : LinkAttestation} :
    fieldRejection a = none ↔
      test walletRe a.wallet = true ∧ test handleRe a.handle = true ∧ test xIdRe a.xId = true ∧
        (a.avatarPath = [] ∨ test avatarPathRe a.avatarPath = true ∧
          startsWith a.avatarPath (avatarFolder a.xId) = true) := by
  rw [fieldRejection, isWalletString]
  cases test walletRe a.wallet <;> cases test handleRe a.handle <;> cases test xIdRe a.xId <;>
    cases test avatarPathRe a.avatarPath <;> cases startsWith a.avatarPath (avatarFolder a.xId) <;>
    by_cases h : a.avatarPath = [] <;> simp [h]

theorem wellFormed_avatarPath {a : LinkAttestation} (h : fieldRejection a = none) : WellFormed a.avatarPath := by
  rcases (fieldRejection_eq_none.mp h).2.2.2 with hempty | ⟨hpath, -⟩
  · exact ⟨"", hempty⟩
  · exact WellFormed.of_test hpath

/-- Attestations with the same signed bytes say the same. -/
theorem sameSigned_of_canonicalBytes {a b : LinkAttestation} (ha : fieldRejection a = none)
    (hb : fieldRejection b = none) (h : canonicalBytes a = canonicalBytes b) : SameSigned a b := by
  rw [canonicalBytes_eq_iff] at h
  simp only [canonicalFields, List.map_cons, List.map_nil, List.cons.injEq, and_true, encode_ofString] at h
  obtain ⟨-, hwallet, hxId, hhandle, hname, hpath, hlinked, hissued, hexpires⟩ := h
  obtain ⟨hwallet_a, hhandle_a, hxId_a, -⟩ := fieldRejection_eq_none.mp ha
  obtain ⟨hwallet_b, hhandle_b, hxId_b, -⟩ := fieldRejection_eq_none.mp hb
  exact
    { wallet := (WellFormed.of_test hwallet_a).encode_inj (WellFormed.of_test hwallet_b) hwallet
      xId := (WellFormed.of_test hxId_a).encode_inj (WellFormed.of_test hxId_b) hxId
      handle := (WellFormed.of_test hhandle_a).encode_inj (WellFormed.of_test hhandle_b) hhandle
      displayName := hname
      avatarPath := (wellFormed_avatarPath ha).encode_inj (wellFormed_avatarPath hb) hpath
      linkedAt := Whole.toText_injective (Text.utf8_injective hlinked)
      issuedAt := Whole.toText_injective (Text.utf8_injective hissued)
      expiresAt := Whole.toText_injective (Text.utf8_injective hexpires) }

theorem SameSigned.canonicalBytes_eq {a b : LinkAttestation} (h : SameSigned a b) :
    canonicalBytes a = canonicalBytes b := by
  rw [canonicalBytes_eq_iff]
  simp only [canonicalFields, List.map_cons, List.map_nil, h.wallet, h.xId, h.handle, h.displayName, h.avatarPath,
    h.linkedAt, h.issuedAt, h.expiresAt]

/-! ## What passes -/

@[simp]
theorem asWireShape_toJson (a : LinkAttestation) : asWireShape a.toJson = some a := by
  simp [asWireShape, LinkAttestation.toJson, JsValue.isRecord, JsValue.isString]

theorem verifyAttestation_eq_ok {c : Curve} {raw : JsValue} {trustedKeys : List JsString} {nowSec : Whole}
    {record : LinkRecord} :
    verifyAttestation c raw trustedKeys nowSec = .ok record ↔
      ∃ a, asWireShape raw = some a ∧ fieldRejection a = none ∧ clockRejection a nowSec = none ∧
        signatureRejection c a trustedKeys = none ∧ record = recordOf a := by
  rw [verifyAttestation]
  cases asWireShape raw with
  | none => simp
  | some a =>
      cases hfield : fieldRejection a <;> cases hclock : clockRejection a nowSec <;>
        cases hsignature : signatureRejection c a trustedKeys <;> simp [hfield, hclock, hsignature, eq_comm]

theorem signatureRejection_eq_none {c : Curve} {a : LinkAttestation} {trustedKeys : List JsString} :
    signatureRejection c a trustedKeys = none ↔
      a.keyId ∈ trustedKeys ∧ ∃ keyBytes sig, attestationKeyBytes c a.keyId = some keyBytes ∧
        test sigRe a.sig = true ∧ decodeBase64 a.sig = some sig ∧ sig.length = 64 ∧
          c.verify sig (canonicalBytes a) keyBytes = some true := by
  rw [signatureRejection]
  by_cases hkey : a.keyId ∈ trustedKeys
  · cases hbytes : attestationKeyBytes c a.keyId with
    | none => simp [hkey]
    | some keyBytes =>
        cases hsig : decodeBase64 a.sig with
        | none => simp [hkey]
        | some sig => simp [hkey, ite_eq_iff]
  · simp [hkey]

/-! ## Rows of the register -/

theorem isAscii_of_le {c d : Char} (h : c ≤ d) (hd : d.toNat < 128) : c.toNat < 128 := Nat.lt_of_le_of_lt h hd

theorem isAscii_of_all {l : List Char} (h : l.all (fun c => decide (c.toNat < 128)) = true) :
    ∀ c ∈ l, c.toNat < 128 := fun c hc => of_decide_eq_true (List.all_eq_true.mp h c hc)

theorem isAscii_of_ofClass {p : Char → Bool} {lo hi : ℕ} {s : String} (hp : ∀ c, p c = true → c.toNat < 128)
    (h : ofClass p lo hi s = true) : ∀ c ∈ s.toList, c.toNat < 128 := fun c hc => hp c (char_of_ofClass h hc)

theorem isAscii_of_isBase58Char (c : Char) (h : isBase58Char c = true) : c.toNat < 128 := by
  simp only [isBase58Char, Bool.or_eq_true, Bool.and_eq_true, decide_eq_true_eq] at h
  rcases h with ((((h | h) | h) | h) | h) | h <;> exact isAscii_of_le h.2 (by decide)

theorem isAscii_of_isHandleChar (c : Char) (h : isHandleChar c = true) : c.toNat < 128 := by
  simp only [isHandleChar, Bool.or_eq_true, Bool.and_eq_true, decide_eq_true_eq, beq_iff_eq] at h
  rcases h with ((h | h) | h) | rfl
  · exact isAscii_of_le h.2 (by decide)
  · exact isAscii_of_le h.2 (by decide)
  · exact isAscii_of_le h.2 (by decide)
  · decide

theorem isAscii_of_isDecimal (c : Char) (h : ('0' ≤ c && c ≤ '9') = true) : c.toNat < 128 := by
  simp only [Bool.and_eq_true, decide_eq_true_eq] at h
  exact isAscii_of_le h.2 (by decide)

theorem isAscii_of_isLowerHex (c : Char) (h : isLowerHex c = true) : c.toNat < 128 := by
  simp only [isLowerHex, Bool.or_eq_true, Bool.and_eq_true, decide_eq_true_eq] at h
  rcases h with h | h <;> exact isAscii_of_le h.2 (by decide)

/-- The path of a row's avatar has its shape. -/
theorem avatarPathRe_join {xId avatarHash : String} (hxId : xIdRe xId = true)
    (hhash : avatarHashRe avatarHash = true) :
    avatarPathRe (Text.join '/' ["", "api", "avatar", xId, Text.join '.' [avatarHash, "webp"]]) = true := by
  have hslash : '/' ∉ xId.toList := ofClass_clean hxId (by decide)
  have hslash' : '/' ∉ avatarHash.toList := ofClass_clean hhash (by decide)
  have hdot : '.' ∉ avatarHash.toList := ofClass_clean hhash (by decide)
  have hparts : Text.split '/' (Text.join '/' ["", "api", "avatar", xId, Text.join '.' [avatarHash, "webp"]]) =
      ["", "api", "avatar", xId, Text.join '.' [avatarHash, "webp"]] := by
    apply Text.split_join _ (List.cons_ne_nil _ _)
    simp [Text.join, hslash, hslash']
  have hfile : Text.split '.' (Text.join '.' [avatarHash, "webp"]) = [avatarHash, "webp"] := by
    apply Text.split_join _ (List.cons_ne_nil _ _)
    simp [hdot]
  rw [avatarPathRe, hparts]
  simp only [hxId, hfile, hhash, Bool.and_self]

theorem test_avatarPathFor {xId avatarHash : String} (hxId : xIdRe xId = true)
    (hhash : avatarHashRe avatarHash = true) : test avatarPathRe (avatarPathFor (ofString xId) (ofString avatarHash)) = true := by
  have htext : avatarPathFor (ofString xId) (ofString avatarHash) =
      ofString ("/api/avatar/" ++ xId ++ "/" ++ avatarHash ++ ".webp") := by
    simp only [avatarPathFor, avatarFolder, ← ofString_append]
  have hjoin : "/api/avatar/" ++ xId ++ "/" ++ avatarHash ++ ".webp" =
      Text.join '/' ["", "api", "avatar", xId, Text.join '.' [avatarHash, "webp"]] := by
    apply String.toList_injective
    simp [Text.join]
  rw [htext]
  apply test_ofString
  · intro c hc
    simp only [String.toList_append, List.mem_append] at hc
    rcases hc with (((hc | hc) | hc) | hc) | hc
    · exact isAscii_of_all (l := "/api/avatar/".toList) (by decide) c hc
    · exact isAscii_of_ofClass isAscii_of_isDecimal hxId c hc
    · exact isAscii_of_all (l := "/".toList) (by decide) c hc
    · exact isAscii_of_ofClass isAscii_of_isLowerHex hhash c hc
    · exact isAscii_of_all (l := ".webp".toList) (by decide) c hc
  · rw [hjoin]
    exact avatarPathRe_join hxId hhash

theorem fieldRejection_attestRow {r : XLink} (h : firstViolated r.checks = none) (c : Curve) (key : AttestationKey)
    (t : Whole) : fieldRejection (attestRow c r.toRegisterRow.linkRow key t) = none := by
  rw [firstViolated_eq_none] at h
  simp only [XLink.checks, List.forall_mem_cons] at h
  obtain ⟨hxId, hwallet, hhandle, -, -, hhash, -⟩ := h
  rw [fieldRejection_eq_none]
  refine ⟨test_ofString (isAscii_of_ofClass isAscii_of_isBase58Char hwallet) hwallet,
    test_ofString (isAscii_of_ofClass isAscii_of_isHandleChar hhandle) hhandle,
    test_ofString (isAscii_of_ofClass isAscii_of_isDecimal hxId) hxId, ?_⟩
  cases hr : r.avatarHash with
  | none =>
      left
      simp [attestRow, signAttestation, unsigned, rowPayload, RegisterRow.linkRow, hr]
  | some avatarHash =>
      right
      rw [hr] at hhash
      have hpath : (attestRow c r.toRegisterRow.linkRow key t).avatarPath =
          avatarPathFor (ofString r.xId) (ofString avatarHash) := by
        simp [attestRow, signAttestation, unsigned, rowPayload, RegisterRow.linkRow, hr]
      rw [hpath]
      refine ⟨test_avatarPathFor hxId (by simpa using hhash), ?_⟩
      rw [startsWith, List.isPrefixOf_iff_prefix, avatarPathFor, List.append_assoc]
      exact List.prefix_append _ _

/-! ## The signature of a row -/

/-- What the code relies on of a key and a curve: the key is read as 32 bytes, and the signature of one message
verifies for that message and no other. -/
structure SignsExactly (c : Curve) (key : AttestationKey) (message : List UInt8) : Prop where
  length : (c.sign message key.secret).length = 64
  exact : ∃ keyBytes, c.publicKey key.publicKey = some keyBytes ∧ keyBytes.length = 32 ∧
    ∀ message', c.verify (c.sign message key.secret) message' keyBytes = some true ↔ message' = message

theorem sigRe_btoa {data : List UInt8} (h : data.length = 64) : sigRe (Base64.btoa data) = true := by
  have hlength : ((Base64.encode data).toList.map Base64.toStandard).length = 86 := by
    rw [List.length_map, Base64.length_encode, h]
  have hchars : ∀ c ∈ (Base64.encode data).toList.map Base64.toStandard, isBase64Char c = true := by
    intro c hc
    obtain ⟨d, hd, rfl⟩ := List.mem_map.mp hc
    have hall : Base64.alphabet.all (fun d => isBase64Char (Base64.toStandard d)) = true := by
      delta Base64.alphabet
      rw [String.toList_ofList]
      decide +kernel
    exact List.all_eq_true.mp hall d (Base64.mem_encode hd)
  rw [sigRe, Base64.btoa, String.toList_ofList, hlength, List.take_left' hlength, List.drop_left' hlength, ofClass,
    String.toList_ofList, hlength]
  simp only [List.all_eq_true.mpr hchars]
  rfl

theorem isAscii_btoa (data : List UInt8) : ∀ c ∈ (Base64.btoa data).toList, c.toNat < 128 := by
  intro c hc
  rw [Base64.btoa, String.toList_ofList, List.mem_append] at hc
  rcases hc with hc | hc
  · obtain ⟨d, hd, rfl⟩ := List.mem_map.mp hc
    have hall : (Base64.alphabet.map Base64.toStandard).all (fun c => decide (c.toNat < 128)) = true := by
      delta Base64.alphabet
      rw [String.toList_ofList]
      decide +kernel
    exact isAscii_of_all hall _ (List.mem_map_of_mem (Base64.mem_encode hd))
  · rw [List.eq_of_mem_replicate hc]
    decide

theorem decodeBase64_btoa (data : List UInt8) : decodeBase64 (ofString (Base64.btoa data)) = some data := by
  rw [decodeBase64, ascii?_eq_some.mpr ⟨rfl, isAscii_btoa data⟩, Option.map_some, Base64.decode_btoa]

section
variable {c : Curve} {payload : AttestationPayload} {key : AttestationKey} {t : Whole}

theorem canonicalBytes_signAttestation (c : Curve) (payload : AttestationPayload) (key : AttestationKey) (t : Whole) :
    canonicalBytes (signAttestation c payload key t) = canonicalBytes (unsigned payload key t) :=
  SameSigned.canonicalBytes_eq
    { wallet := rfl, xId := rfl, handle := rfl, displayName := rfl, avatarPath := rfl, linkedAt := rfl,
      issuedAt := rfl, expiresAt := rfl }

/-- A signature of the key lets an attestation through only over the bytes it was made for. -/
theorem signatureRejection_signed (hs : SignsExactly c key (canonicalBytes (unsigned payload key t)))
    {a : LinkAttestation} (hsig : a.sig = (signAttestation c payload key t).sig) (hkey : a.keyId = key.publicKey)
    (trustedKeys : List JsString) :
    signatureRejection c a trustedKeys = none ↔
      key.publicKey ∈ trustedKeys ∧ canonicalBytes a = canonicalBytes (signAttestation c payload key t) := by
  obtain ⟨keyBytes, hbytes, h32, hexact⟩ := hs.exact
  have hkeyBytes : attestationKeyBytes c key.publicKey = some keyBytes := by
    rw [attestationKeyBytes, hbytes]
    simp [h32]
  rw [signatureRejection_eq_none, hsig, hkey, hkeyBytes, canonicalBytes_signAttestation, signAttestation]
  simp only [decodeBase64_btoa, test_ofString (isAscii_btoa _) (sigRe_btoa hs.length)]
  constructor
  · rintro ⟨htrusted, bytes, sig, hb, -, hs', -, hverify⟩
    obtain rfl := Option.some.inj hb
    obtain rfl := Option.some.inj hs'
    exact ⟨htrusted, (hexact _).mp hverify⟩
  · rintro ⟨htrusted, hmessage⟩
    exact ⟨htrusted, keyBytes, _, rfl, trivial, rfl, hs.length, (hexact _).mpr hmessage⟩

/-- Of times that are exact, the clock lets through those from the grace before the issue up to the end. -/
theorem clockRejection_signed (ht : t.val.natAbs + 604800 ≤ 2 ^ 53) (nowSec : Whole) :
    clockRejection (signAttestation c payload key t) nowSec = none ↔
      t.val - CLOCK_SKEW_GRACE_SECONDS ≤ nowSec.val ∧ nowSec.val < t.val + ATTESTATION_TTL_SECONDS := by
  have hend : (Whole.nearest (t.val + ATTESTATION_TTL_SECONDS)).val = t.val + ATTESTATION_TTL_SECONDS :=
    Whole.nearest_val (by rw [ATTESTATION_TTL_SECONDS]; omega)
  have hstart : (Whole.nearest (nowSec.val + CLOCK_SKEW_GRACE_SECONDS)).val < t.val ↔
      nowSec.val + CLOCK_SKEW_GRACE_SECONDS < t.val := Number.ofInt_lt_iff (by omega)
  rw [clockRejection, signAttestation, unsigned]
  simp only [hend, hstart]
  by_cases hexpired : t.val + ATTESTATION_TTL_SECONDS ≤ nowSec.val
  · rw [if_pos hexpired]
    constructor
    · intro h
      cases h
    · rintro ⟨-, h⟩
      omega
  · rw [if_neg hexpired]
    by_cases hearly : nowSec.val + CLOCK_SKEW_GRACE_SECONDS < t.val
    · rw [if_pos hearly]
      constructor
      · intro h
        cases h
      · rintro ⟨h, -⟩
        omega
    · rw [if_neg hearly]
      constructor
      · intro
        constructor <;> omega
      · intro
        rfl

end

end BullsUnicorns.Identity

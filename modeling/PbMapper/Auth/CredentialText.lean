import PbMapper.Auth.AdminKey
import PbMapper.Foundation.Base64Url
import PbMapper.Foundation.BigEndian

/-!
# The text of a credential

An administrator key is its own text; a temporary credential is a version byte,
a key id, a key and a truncated hash of them in base64 behind a prefix.  Texts
are their UTF-8 bytes; base64 and the hash are parameters.
-/

namespace PbMapper.Auth

open BigEndian PbMapper.Core

inductive Credential where
  | admin (key : AesKeyType)
  | temporary (keyId : UInt64) (key : AesKeyType)
deriving DecidableEq

/-- URL-safe base64 without padding, which decodes canonically: a text decodes
to the bytes it is the encoding of, and no other text decodes. -/
structure Base64 where
  encode : List UInt8 → List UInt8
  decode : List UInt8 → Option (List UInt8)
  length_encode : ∀ bytes, (encode bytes).length = (4 * bytes.length + 2) / 3
  decode_eq_some : ∀ text bytes, decode text = some bytes ↔ encode bytes = text

def adminKeyLen : ℕ := 32

def keyLenError (raw : List UInt8) : String :=
  "`MSG_HEADER_KEY` administrator key must be exactly 32 bytes; " ++
    s!"received {raw.length} bytes"

variable (base64 : Base64) (sha256 : List UInt8 → Vector UInt8 32)

/-- The first four bytes of the hash. -/
def credentialChecksum (payload : List UInt8) : List UInt8 :=
  (sha256 payload).toList.take 4

/-- Version, key id and key. -/
def credentialBody (keyId : UInt64) (key : AesKeyType) : List UInt8 :=
  1 :: (toBeBytes 8 keyId.toNat ++ key.toList)

def encodeTemporaryCredential (keyId : UInt64) (key : AesKeyType) : List UInt8 :=
  let payload := credentialBody keyId key
  tempCredentialPrefix ++
    base64.encode (payload ++ credentialChecksum sha256 payload)

/-- The part of `parse_credential` behind the prefix. -/
def parseTemporaryCredential (encoded : List UInt8) : Except String Credential :=
  match base64.decode encoded with
  | none => .error "temporary credential is not valid base64url"
  | some payload =>
      if hlength : payload.length = 45 then
        let version := payload[0]
        if version ≠ 1 then
          .error s!"unsupported temporary credential version {version}"
        else if credentialChecksum sha256 (payload.take 41) ≠ payload.drop 41 then
          .error "temporary credential checksum mismatch"
        else
          let keyId := UInt64.ofNat (fromBeBytes ((payload.drop 1).take 8))
          if keyId = 0 then
            .error "temporary credential key id must not be zero"
          else
            .ok (.temporary keyId
              ⟨((payload.drop 9).take 32).toArray, by simp [hlength]⟩)
      else
        .error s!"temporary credential payload must be 45 bytes, got {payload.length}"

def parseCredential (raw : List UInt8) : Except String Credential :=
  if tempCredentialPrefix.isPrefixOf raw then
    parseTemporaryCredential base64 sha256 (raw.drop tempCredentialPrefix.length)
  else if hlength : raw.length = adminKeyLen then
    let key : AesKeyType := ⟨raw.toArray, hlength⟩
    if isEnvSafeAdminKey key then .ok (.admin key) else .error envSafeAdminKeyError
  else .error (keyLenError raw)

section Texts

variable {base64 sha256} {keyId : UInt64} {key : AesKeyType} {raw : List UInt8}

theorem length_credentialBody (keyId : UInt64) (key : AesKeyType) :
    (credentialBody keyId key).length = 41 := by
  simp [credentialBody]

theorem length_credentialChecksum (payload : List UInt8) :
    (credentialChecksum sha256 payload).length = 4 := by
  simp [credentialChecksum]

theorem length_encodeTemporaryCredential (keyId : UInt64) (key : AesKeyType) :
    (encodeTemporaryCredential base64 sha256 keyId key).length = 66 := by
  simp only [encodeTemporaryCredential, List.length_append, base64.length_encode,
    length_credentialBody, length_credentialChecksum]
  rfl

/-- What an accepted payload begins with. -/
theorem credentialBody_of_payload {payload : List UInt8}
    (hlength : payload.length = 45) (hversion : payload[0] = 1)
    (hkeyId : UInt64.ofNat (fromBeBytes ((payload.drop 1).take 8)) = keyId)
    (hkey : key.toList = (payload.drop 9).take 32) :
    credentialBody keyId key = payload.take 41 := by
  have hwidth : ((payload.drop 1).take 8).length = 8 := by simp [hlength]
  have hbytes := toBeBytes_fromBeBytes ((payload.drop 1).take 8)
  have hlt := fromBeBytes_lt ((payload.drop 1).take 8)
  rw [hwidth] at hbytes hlt
  have htoNat : keyId.toNat = fromBeBytes ((payload.drop 1).take 8) := by
    rw [← hkeyId, UInt64.toNat_ofNat']
    exact Nat.mod_eq_of_lt hlt
  have hhead : payload.take 41 = payload[0] :: (payload.drop 1).take 40 := by
    rw [← List.take_succ_cons, ← List.drop_eq_getElem_cons, List.drop_zero]
  have htail : (payload.drop 1).take 40 =
      (payload.drop 1).take 8 ++ ((payload.drop 1).drop 8).take 32 := by
    rw [← List.take_add]
  rw [credentialBody, htoNat, hbytes, hkey, hhead, hversion, htail,
    List.drop_drop]

/-- A payload that passes every check is accepted. -/
theorem parseTemporaryCredential_of_payload {encoded payload : List UInt8}
    (hdecode : base64.decode encoded = some payload)
    (hlength : payload.length = 45) (hversion : payload[0] = 1)
    (hchecksum : credentialChecksum sha256 (payload.take 41) = payload.drop 41)
    (hread : UInt64.ofNat (fromBeBytes ((payload.drop 1).take 8)) = keyId)
    (hkeyId : keyId ≠ 0) (hkey : (payload.drop 9).take 32 = key.toList) :
    parseTemporaryCredential base64 sha256 encoded =
      .ok (.temporary keyId key) := by
  rw [parseTemporaryCredential, hdecode]
  simp only [dif_pos hlength]
  rw [if_neg (not_not.mpr hversion), if_neg (not_not.mpr hchecksum)]
  simp only [hread]
  rw [if_neg hkeyId]
  simp only [Except.ok.injEq, Credential.temporary.injEq, true_and]
  exact Vector.toList_inj.mp hkey

/-- Every temporary credential is read back from its text. -/
theorem parseCredential_encodeTemporaryCredential (hkeyId : keyId ≠ 0) :
    parseCredential base64 sha256
        (encodeTemporaryCredential base64 sha256 keyId key) =
      .ok (.temporary keyId key) := by
  let body := credentialBody keyId key
  let checksum := credentialChecksum sha256 body
  have hbody : body.length = 41 := length_credentialBody keyId key
  have hchecksum : checksum.length = 4 := length_credentialChecksum body
  have hlength : (body ++ checksum).length = 45 := by
    rw [List.length_append, hbody, hchecksum]
  have hversion : (body ++ checksum)[0] = 1 := rfl
  have htake : (body ++ checksum).take 41 = body := List.take_left' hbody
  have hdrop : (body ++ checksum).drop 41 = checksum := List.drop_left' hbody
  have hid : ((body ++ checksum).drop 1).take 8 = toBeBytes 8 keyId.toNat := by
    rw [List.drop_append_of_le_length (by omega)]
    simp only [body, credentialBody, List.drop_succ_cons, List.drop_zero,
      List.append_assoc]
    exact List.take_left' (length_toBeBytes _ _)
  have hread : UInt64.ofNat (fromBeBytes (((body ++ checksum).drop 1).take 8)) =
      keyId := by
    rw [hid, fromBeBytes_toBeBytes keyId.toNat_lt, UInt64.ofNat_toNat]
  have hkey : ((body ++ checksum).drop 9).take 32 = key.toList := by
    rw [List.drop_append_of_le_length (by omega)]
    simp only [body, credentialBody, List.drop_succ_cons]
    rw [List.drop_left' (length_toBeBytes _ _)]
    exact List.take_left' Vector.length_toList
  have hstarts : tempCredentialPrefix.isPrefixOf
      (encodeTemporaryCredential base64 sha256 keyId key) = true := by
    rw [List.isPrefixOf_iff_prefix]
    exact List.prefix_append _ _
  rw [parseCredential, if_pos hstarts, encodeTemporaryCredential, List.drop_left]
  apply parseTemporaryCredential_of_payload _ hlength hversion _ hread hkeyId hkey
  · exact (base64.decode_eq_some _ _).mpr rfl
  · rw [htake, hdrop]

/-- Only the text of a credential is read as it. -/
theorem encodeTemporaryCredential_of_parseCredential
    (hparse : parseCredential base64 sha256 raw = .ok (.temporary keyId key)) :
    keyId ≠ 0 ∧ encodeTemporaryCredential base64 sha256 keyId key = raw := by
  rw [parseCredential] at hparse
  split at hparse
  · rename_i hstarts
    obtain ⟨encoded, rfl⟩ := List.isPrefixOf_iff_prefix.mp hstarts
    rw [List.drop_left, parseTemporaryCredential] at hparse
    split at hparse
    · cases hparse
    rename_i payload hdecode
    split at hparse
    · rename_i hlength
      dsimp only at hparse
      split at hparse
      · cases hparse
      rename_i hversion
      split at hparse
      · cases hparse
      rename_i hchecksum
      split at hparse
      · cases hparse
      rename_i hkeyId
      simp only [Except.ok.injEq, Credential.temporary.injEq] at hparse
      obtain ⟨rfl, rfl⟩ := hparse
      refine ⟨hkeyId, ?_⟩
      let key : AesKeyType := ⟨((payload.drop 9).take 32).toArray, by simp [hlength]⟩
      have hkey : key.toList = (payload.drop 9).take 32 := rfl
      have hbody := credentialBody_of_payload hlength (not_not.mp hversion) rfl hkey
      rw [encodeTemporaryCredential, hbody, not_not.mp hchecksum,
        List.take_append_drop, (base64.decode_eq_some _ _).mp hdecode]
    · cases hparse
  · split at hparse
    · dsimp only at hparse
      split at hparse <;> cases hparse
    · cases hparse

/-- Credentials with an id other than zero and their texts correspond one to
one, and no such text is as long as an administrator key. -/
theorem credentialText_bijective (base64 : Base64)
    (sha256 : List UInt8 → Vector UInt8 32) :
    (∀ keyId key, keyId ≠ 0 →
      parseCredential base64 sha256
          (encodeTemporaryCredential base64 sha256 keyId key) =
        .ok (.temporary keyId key)) ∧
    (∀ raw keyId key,
      parseCredential base64 sha256 raw = .ok (.temporary keyId key) →
      keyId ≠ 0 ∧ encodeTemporaryCredential base64 sha256 keyId key = raw ∧
        ∀ admin : AesKeyType, admin.toList ≠ raw) := by
  constructor
  · intro keyId key hkeyId
    exact parseCredential_encodeTemporaryCredential hkeyId
  · intro raw keyId key hparse
    obtain ⟨hkeyId, hencode⟩ := encodeTemporaryCredential_of_parseCredential hparse
    refine ⟨hkeyId, hencode, ?_⟩
    intro admin hadmin
    have hlength := congrArg List.length hadmin
    rw [← hencode, length_encodeTemporaryCredential, Vector.length_toList] at hlength
    exact absurd hlength (by decide)

/-- The encoding of the URL-safe alphabet. -/
def Base64.urlSafe : Base64 where
  encode := Base64Url.encode
  decode := Base64Url.decode
  length_encode := Base64Url.length_encode
  decode_eq_some text bytes := by
    constructor
    · exact Base64Url.encode_of_decode
    · rintro rfl
      exact Base64Url.decode_encode bytes

/-- One credential there and back, under a hash that keeps its input's start. -/
theorem credentialText_bijective_sample :
    let sha256 : List UInt8 → Vector UInt8 32 := fun input =>
      .ofFn fun index => input.getD index 0
    let key : AesKeyType := .replicate 32 7
    let text := encodeTemporaryCredential .urlSafe sha256 0x70000002a key
    parseCredential .urlSafe sha256 text = .ok (.temporary 0x70000002a key) ∧
      ∀ admin : AesKeyType, admin.toList ≠ text := by
  intro sha256 key text
  obtain ⟨hread, hwrite⟩ := credentialText_bijective .urlSafe sha256
  have hparse := hread 0x70000002a key (by decide)
  exact ⟨hparse, (hwrite text 0x70000002a key hparse).2.2⟩

end Texts

end PbMapper.Auth

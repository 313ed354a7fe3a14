import PbMapper.Auth.State

/-!
# Checks of a presented credential

The checks that run beside the actor, without its lock step.  Each of them reads
the state at one moment, and what it may change is the lease of the credential,
which it cancels when it finds it past its expiry.
-/

namespace PbMapper.Auth

open PbMapper.Core

def temporaryKeyExpired : AuthFailure :=
  ⟨"temporary_key_expired", "temporary key has expired", false⟩

def temporaryKeyInvalid : AuthFailure :=
  ⟨"temporary_key_invalid",
    "temporary credential does not match the active relay key material", false⟩

def temporaryKeyRotated : AuthFailure :=
  ⟨"temporary_key_rotated",
    "temporary credential was invalidated by administrator root rotation " ++
      "or auth-state reset",
    false⟩

def administratorKeyRotated (message : String) : AuthFailure :=
  ⟨"administrator_key_rotated", message, false⟩

def cancelledLeaseFailure (isAdmin : Bool) (lease : AuthLease) : AuthFailure :=
  if isAdmin then
    administratorKeyRotated "credential lease has been cancelled"
  else
    match lease.cancelReason with
    | .expired => temporaryKeyExpired
    | .rotated => temporaryKeyRotated
    | .revoked => ⟨"temporary_key_revoked", "temporary key was revoked", false⟩
    | .none =>
        ⟨"temporary_key_inactive", "credential lease has been cancelled", false⟩

namespace AuthMemory

variable (crypto : AuthCrypto) (memory : AuthMemory)

/-- `AuthContext::ensure_active`. -/
def ensureActive (context : AuthContext) (now : ℕ) :
    Except AuthFailure LeaseId × AuthMemory :=
  match memory.upgrade (some context.lease), memory.lease? context.lease with
  | some id, some lease =>
      if lease.cancelled then
        (.error (cancelledLeaseFailure context.isAdmin lease), memory)
      else if !context.isAdmin && lease.expiresAt ≤ now then
        (.error temporaryKeyExpired, recordCancel .expired memory id)
      else (.ok id, memory)
  | _, _ =>
      (.error (if context.isAdmin then
          administratorKeyRotated "credential lease is no longer active"
        else ⟨"temporary_key_inactive", "credential lease is no longer active",
          false⟩), memory)

def temporaryKeyMaterialMismatch (keyId : KeyId) : AuthFailure :=
  let index := keyId.slot.asIndex
  let currentGeneration :=
    match memory.slot? index with
    | some slot => some slot.generation
    | none =>
        memory.inner.highSlotGenerations[index - memory.inner.slots.length]?
  let slotIsActive := (memory.slot? index).any fun slot =>
    slot.state = .active && slot.generation = keyId.generation
  if slotIsActive then temporaryKeyInvalid
  else if 0 < memory.inner.rootEpoch ∧ 0 < keyId.generation.asU32 ∧
      currentGeneration.any (keyId.generation.asU32 ≤ ·.asU32) then
    temporaryKeyRotated
  else temporaryKeyInvalid

def countFailure : AuthMemory :=
  memory.updateInner fun inner =>
    { inner with authFailures := inner.authFailures + 1 }

def countSuccess : AuthMemory :=
  memory.updateInner fun inner =>
    { inner with authSuccesses := inner.authSuccesses + 1 }

/-- What the row of a credential says of it at `now`. -/
def rowFailure (slot : SlotHot) (now : ℕ) : Option AuthFailure :=
  match slot.state with
  | .free =>
      some ⟨"temporary_key_not_found", "temporary key does not exist", false⟩
  | .expired => some temporaryKeyExpired
  | .revoked => some ⟨"temporary_key_revoked", "temporary key was revoked", false⟩
  | .active => if slot.expiresAt ≤ now then some temporaryKeyExpired else none

/-- A credential found past its expiry in an active row has its lease cancelled. -/
def noticeExpiry (slot : SlotHot) (now : ℕ) : AuthMemory :=
  if slot.state = .active ∧ slot.expiresAt ≤ now then
    match memory.upgrade slot.lease with
    | some id => recordCancel .expired memory id
    | none => memory
  else memory

/-- The second half of `authenticate_presented`, for a temporary credential that
was presented while the store was not in safe mode. -/
def lookupCredential (keyId : KeyId) (presentedKey : AesKeyType) (now : ℕ) :
    Except AuthFailure AuthContext × AuthMemory :=
  if presentedKey ≠ crypto.deriveTemporaryKey memory.inner.adminKey
      memory.inner.instanceId keyId then
    (.error (memory.temporaryKeyMaterialMismatch keyId), memory.countFailure)
  else
    match memory.slot? keyId.slot.asIndex with
    | none =>
        (.error ⟨"temporary_key_not_found",
          "temporary key id is outside the configured slot table", false⟩,
          memory.countFailure)
    | some slot =>
        if slot.generation ≠ keyId.generation then
          (.error ⟨"temporary_key_generation_mismatch",
            "temporary key generation does not match the current slot", false⟩,
            memory.countFailure)
        else
          match rowFailure slot now with
          | some failure =>
              (.error failure, (memory.noticeExpiry slot now).countFailure)
          | none =>
              match memory.upgrade slot.lease with
              | some lease =>
                  (.ok (.fromLease keyId false lease), memory.countSuccess)
              | none =>
                  (.error ⟨"temporary_key_inactive",
                    "temporary key lease is no longer active", true⟩,
                    memory.countFailure)

def authenticatePresented (keyId : KeyId) (presentedKey : AesKeyType) (now : ℕ) :
    Except AuthFailure AuthContext × AuthMemory :=
  if keyId.isAdmin then
    if presentedKey ≠ memory.inner.adminKey then
      (.error ⟨"administrator_key_invalid",
        "administrator credential does not match the active root key", false⟩,
        memory.countFailure)
    else
      match memory.upgrade (some memory.inner.adminLease) with
      | some lease => (.ok (.fromLease adminKeyId true lease), memory.countSuccess)
      | none =>
          (.error (administratorKeyRotated "administrator credential was rotated"),
            memory)
  else if memory.inner.safeMode then
    (.error (storeUnavailable
      "temporary key state is unavailable; administrator reset is required" false),
      memory.countFailure)
  else memory.lookupCredential crypto keyId presentedKey now

end AuthMemory

/-- A check made by another task while the actor is at work. -/
inductive CredentialCheck where
  | lookup (keyId : KeyId) (presentedKey : AesKeyType) (now : ℕ)
  | ensureActive (context : AuthContext) (now : ℕ)

namespace AuthMemory

def check (crypto : AuthCrypto) (memory : AuthMemory) :
    CredentialCheck → AuthMemory
  | .lookup keyId presentedKey now =>
      (memory.lookupCredential crypto keyId presentedKey now).2
  | .ensureActive context now => (memory.ensureActive context now).2

end AuthMemory

end PbMapper.Auth

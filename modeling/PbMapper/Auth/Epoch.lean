import PbMapper.Auth.AdminKey
import PbMapper.Auth.Lifecycle

/-!
# Reset and root rotation
-/

namespace PbMapper.Auth

open PbMapper.Core MachineWord

variable (crypto : AuthCrypto) (config : AuthConfig)

namespace AuthMemory

variable (memory : AuthMemory)

def rememberPreviousRoot : AuthMemory :=
  memory.updateInner fun inner =>
    { inner with previousRoot := some ⟨inner.adminKey, inner.instanceId⟩ }

/-- `fetch_add`, which wraps. -/
def bumpRootEpoch : AuthMemory :=
  memory.updateInner fun inner =>
    { inner with rootEpoch := wrapAdd u64Max inner.rootEpoch 1 }

def finishReset (newInstanceId : InstanceId) (audit : AuditRecord) (now : ℕ) :
    AuthMemory :=
  (((memory.pushAuditRecord audit).rememberPreviousRoot).wipe now).updateInner
    ({ · with instanceId := newInstanceId, safeMode := false })

/-- The old lease is cancelled and the actor holds the new one. -/
def finishRotation (newKey : AesKeyType) (audit : AuditRecord) (now : ℕ) :
    AuthMemory :=
  let oldLease := memory.inner.adminLease
  let memory := ((memory.pushAuditRecord audit).rememberPreviousRoot).wipe now
  let (memory, lease) := memory.allocateLease (.new adminKeyId u64Max)
  recordCancel .rotated
    (memory.updateInner
      ({ · with adminKey := newKey, adminLease := lease, safeMode := false }))
    oldLease

end AuthMemory

/-- A failure of the files is fatal unless the new files are in place all the
same. -/
def unlessInstalled (program : FileM Unit) (installed : FileM Bool) :
    ActorM Unit := do
  match ← onFiles (attempt program) with
  | .ok () => return ()
  | .error failure =>
      if !(← onFiles installed) then
        modifyMemory AuthMemory.failClosed
        refuse failure

/-- `newInstanceId` is the random id that is drawn. -/
def actorReset (clock : Clock) (newInstanceId : InstanceId) : ActorM Unit := do
  modifyMemory AuthMemory.bumpRootEpoch
  let memory ← getMemory
  let audit : AuditRecord := ⟨clock 0, "auth_state_reset", none, none⟩
  let snapshot := (memory.emptySnapshot newInstanceId
    memory.adminReplayOrder).pushAudit audit
  let adminKey := memory.inner.adminKey
  unlessInstalled
    (do
      stageInstanceId config.stateDir newInstanceId
      writeSnapshotAndTruncateWal config.stateDir adminKey snapshot
      writeInstanceId config.stateDir newInstanceId)
    (resetAlreadyInstalled adminKey newInstanceId)
  onFiles removeNextInstanceId
  modifyMemory (·.finishReset newInstanceId audit (clock 1))

def actorRotateRoot (clock : Clock) (newKey : AesKeyType) : ActorM Unit := do
  if newKey = (← getMemory).inner.adminKey then
    refuse ⟨"administrator_key_unchanged",
      "new administrator key must differ from the current key", false⟩
  if !isEnvSafeAdminKey newKey then
    refuse (administratorKeyInvalid envSafeAdminKeyError)
  modifyMemory AuthMemory.bumpRootEpoch
  let memory ← getMemory
  let audit : AuditRecord := ⟨clock 0, "administrator_key_rotate", none, none⟩
  let snapshot :=
    (memory.emptySnapshot memory.inner.instanceId []).pushAudit audit
  unlessInstalled
    (do
      stageAdminKey config.stateDir newKey
      writeSnapshotAndTruncateWal config.stateDir newKey snapshot
      writeAdminKey config.stateDir newKey)
    (rotationAlreadyInstalled newKey)
  onFiles removeNextAdminKey
  modifyMemory (·.finishRotation newKey audit (clock 1))

def debugPolicy : LegacyProtocolPolicy → String
  | .allow => "Allow"
  | .deny => "Deny"

def actorSetLegacyProtocol (clock : Clock) (policy : LegacyProtocolPolicy) :
    ActorM Unit := do
  orRefuse (ensureStoreAvailable (← getMemory))
  appendMutation crypto config (.legacyProtocol policy)
    ⟨clock 0, "legacy_protocol_update", none, some (debugPolicy policy)⟩
  modifyMemory (·.updateInner
    ({ · with legacyProtocolAllowed := policy.isAllowed }))

end PbMapper.Auth

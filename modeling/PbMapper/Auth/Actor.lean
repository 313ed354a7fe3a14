import PbMapper.Auth.Epoch
import PbMapper.Foundation.Hexadecimal

/-!
# The actor

Commands and ticks.  A command runs only under the administrator lease that is
current when it is executed.
-/

namespace PbMapper.Auth

open PbMapper.Core MachineWord

variable (crypto : AuthCrypto) (config : AuthConfig)

/-! ## Administrator mutations -/

namespace AuthMemory

variable (memory : AuthMemory)

/-- `prune_expired_admin_replays`. -/
def pruneExpiredAdminReplays (now : ℕ) : AuthMemory :=
  { memory with
    adminReplays := (memory.adminReplayOrder.filter
      (!·.withinRetention now)).foldl
        (fun replays record => replays.erase record.fingerprint)
        memory.adminReplays
    adminReplayOrder := memory.adminReplayOrder.filter (·.withinRetention now) }

def admitMutation (record : AdminReplayRecord) : AuthMemory :=
  { memory with
    adminReplays := insert record.fingerprint memory.adminReplays
    adminReplayOrder := memory.adminReplayOrder ++ [record] }

end AuthMemory

/-- `u64::abs_diff`. -/
def absDiff (left right : ℕ) : ℕ := (left - right) + (right - left)

def actorClaimAdminMutation (clock : Clock) (fingerprint : MutationFingerprint)
    (clientTimestamp : ℕ) : ActorM Unit := do
  let now := clock 0
  modifyMemory (·.pruneExpiredAdminReplays now)
  let memory ← getMemory
  if fingerprint ∈ memory.adminReplays then
    refuse ⟨"admin_request_replayed",
      "administrator mutation was already admitted", false⟩
  if adminReplayCapacity ≤ memory.adminReplays.card then
    refuse ⟨"admin_replay_capacity_exhausted",
      "administrator mutation replay window is full; retry after older claims expire",
      true⟩
  if adminReplayRetention / 2 < absDiff now clientTimestamp then
    refuse ⟨"admin_request_timestamp_invalid",
      "administrator mutation timestamp is outside the accepted window", false⟩
  let record : AdminReplayRecord := ⟨fingerprint, clientTimestamp, now⟩
  appendRecord crypto config (.adminReplay record)
  modifyMemory (·.admitMutation record)

/-! ## Status -/

structure AuthStatus where
  schemaVersion : ℕ
  safeMode : Bool
  capacity : ℕ
  activeKeys : ℕ
  expiredKeys : ℕ
  revokedKeys : ℕ
  legacyProtocol : LegacyProtocolPolicy
  activeLegacyConnections : ℕ
  lastLegacyConnectionAt : Option ℕ
  authSuccesses : ℕ
  authFailures : ℕ
  serverInstanceId : String
deriving DecidableEq

def hex (bytes : List UInt8) : String :=
  .ofList (bytes.flatMap fun byte => Hexadecimal.format 2 byte.toNat)

namespace AuthMemory

variable (memory : AuthMemory)

/-- The keys in a state, in the table and above it. -/
def countKeys (state : SlotState) : ℕ :=
  (memory.inner.slots.filter (·.state = state)).length +
    (memory.inner.highSlotEntries.filter (·.state = state)).length

def actorStatus : AuthStatus where
  schemaVersion := 1
  safeMode := memory.inner.safeMode
  capacity := memory.inner.slots.length
  activeKeys := memory.countKeys .active
  expiredKeys := memory.countKeys .expired
  revokedKeys := memory.countKeys .revoked
  legacyProtocol := .ofAllowed memory.inner.legacyProtocolAllowed
  activeLegacyConnections := memory.inner.activeLegacyConnections
  lastLegacyConnectionAt :=
    if memory.inner.lastLegacyConnectionAt ≠ 0 then
      some memory.inner.lastLegacyConnectionAt
    else none
  authSuccesses := memory.inner.authSuccesses
  authFailures := memory.inner.authFailures
  serverInstanceId := hex memory.inner.instanceId.toList

/-- `validate_admin_authority`. -/
def validateAdminAuthority (authority : LeaseId) : Except AuthFailure Unit :=
  match memory.upgrade (some authority) with
  | none =>
      .error (administratorKeyRotated
        "administrator credential lease is no longer active")
  | some presented =>
      if memory.isCancelled presented then
        .error (administratorKeyRotated
          "administrator credential lease has been cancelled")
      else if presented ≠ memory.inner.adminLease then
        .error (administratorKeyRotated
          "administrator request was authenticated before the latest root-key rotation")
      else .ok ()

end AuthMemory

/-! ## Commands -/

inductive AuthCommand where
  | claimAdminMutation (fingerprint : MutationFingerprint) (clientTimestamp : ℕ)
  | issue (ttl : Duration) (label : Option String)
  | list (page pageSize : ℕ)
  | show (keyId : KeyId) (reveal : Bool)
  | renew (keyId : KeyId) (ttl : Duration)
  | revoke (keyId : KeyId)
  | gc
  | reset
  | rotateRoot (newKey : AesKeyType)
  | setLegacyProtocol (policy : LegacyProtocolPolicy)
  | status
  | audit (action : String) (keyId : Option KeyId) (detail : Option String)

inductive AuthResponse where
  | claimed
  | issued (key : IssuedTemporaryKey)
  | listed (page : KeyPage)
  | shown (key : IssuedTemporaryKey)
  | renewed (key : IssuedTemporaryKey)
  | revoked (metadata : TemporaryKeyMetadata)
  | collected (removed : ℕ)
  | reset
  | rotated
  | legacyProtocolSet
  | status (status : AuthStatus)
  | audited
deriving DecidableEq

/-- What the surroundings of a command contribute: the clock, a random instance
id, and what other tasks do during a renewal. -/
structure Surroundings where
  clock : Clock
  newInstanceId : InstanceId
  checks : RenewChecks

def runCommand (env : Surroundings) : AuthCommand → ActorM AuthResponse
  | .claimAdminMutation fingerprint clientTimestamp => do
      actorClaimAdminMutation crypto config env.clock fingerprint clientTimestamp
      return .claimed
  | .issue ttl label =>
      .issued <$> actorIssue crypto config env.clock ttl label
  | .list page pageSize => do
      return .listed ((← getMemory).actorList page pageSize)
  | .show keyId reveal =>
      .shown <$> actorShow crypto config env.clock keyId reveal
  | .renew keyId ttl =>
      .renewed <$> actorRenew crypto config env.clock env.checks keyId ttl
  | .revoke keyId =>
      .revoked <$> actorRevoke crypto config env.clock keyId
  | .gc => .collected <$> actorGc config env.clock
  | .reset => do
      actorReset config env.clock env.newInstanceId
      return .reset
  | .rotateRoot newKey => do
      actorRotateRoot config env.clock newKey
      modifyMemory fun memory =>
        { memory with adminReplays := ∅, adminReplayOrder := [] }
      return .rotated
  | .setLegacyProtocol policy => do
      actorSetLegacyProtocol crypto config env.clock policy
      return .legacyProtocolSet
  | .status => do return .status (← getMemory).actorStatus
  | .audit action keyId detail => do
      appendAudit crypto config ⟨env.clock 0, action, keyId, detail⟩
      return .audited

/-- A command of the channel, sent under `authority`. -/
def actorCommand (env : Surroundings) (authority : LeaseId)
    (command : AuthCommand) : ActorM AuthResponse := do
  orRefuse ((← getMemory).validateAdminAuthority authority)
  runCommand crypto config env command

/-! ## Ticks -/

def compactionIsAllowed (safeMode : Bool) : Bool := !safeMode

def actorTick (now : Seconds) : ActorM Unit := do
  modifyMemory fun memory => (memory.tickLeases now).pruneExpiredAdminReplays now
  let memory ← getMemory
  if compactionIsAllowed memory.inner.safeMode &&
      snapshotCompactionInterval ≤ now - memory.lastSnapshotAt then
    compact config memory.buildSnapshot
    modifyMemory ({ · with lastSnapshotAt := now })

end PbMapper.Auth

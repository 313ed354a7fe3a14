import PbMapper.Auth.Credentials
import PbMapper.Auth.Leases
import PbMapper.Auth.Snapshot

/-!
# Issue, inspect, renew, revoke and collect temporary keys

Commands of the actor are programs on its memory and the state directory.  A
refused command ends with a failure where it stands; what it had done by then
stays done.  Each takes the readings of the clock it makes, in their order.
-/

namespace PbMapper.Auth

open MachineWord

/-! ## Programs of the actor -/

structure ActorWorld where
  memory : AuthMemory
  files : Files

abbrev ActorM := Effect ActorWorld Interruption

/-- The readings of the clock in one command. -/
abbrev Clock := ℕ → Seconds

def getMemory : ActorM AuthMemory := .of fun world => (.ok world.memory, world)

def modifyMemory (change : AuthMemory → AuthMemory) : ActorM Unit :=
  .of fun world => (.ok (), { world with memory := change world.memory })

def onFiles {Value : Type} (program : FileM Value) : ActorM Value :=
  .of fun world =>
    let (result, files) := program.exec world.files
    (result, { world with files := files })

def refuse {Value : Type} (failure : AuthFailure) : ActorM Value :=
  throw (.failed failure)

def orRefuse {Value : Type} : Except AuthFailure Value → ActorM Value
  | .ok value => return value
  | .error failure => refuse failure

/-- Safe mode, with every lease of the table cancelled. -/
def AuthMemory.failClosed (memory : AuthMemory) : AuthMemory :=
  (memory.updateInner ({ · with safeMode := true })).cancelAllTemporaryLeases

variable (crypto : AuthCrypto) (config : AuthConfig)

/-- `append_wal` under `fail_closed_on_uncertain_wal`. -/
def appendRecord (record : WalRecord) : ActorM Unit := do
  let memory ← getMemory
  match ← onFiles (attempt
      (appendWal crypto config.stateDir memory.inner.adminKey record)) with
  | .ok () => return ()
  | .error failure =>
      if !failure.retryable then
        modifyMemory AuthMemory.failClosed
      refuse failure

def appendMutation (mutation : StateMutation) (audit : AuditRecord) :
    ActorM Unit := do
  appendRecord crypto config (.mutation mutation audit)
  modifyMemory (·.pushAuditRecord audit)

def appendAudit (audit : AuditRecord) : ActorM Unit := do
  appendRecord crypto config (.audit audit)
  modifyMemory (·.pushAuditRecord audit)

/-! ## Validation -/

def ensureStoreAvailable (memory : AuthMemory) : Except AuthFailure Unit :=
  if memory.inner.safeMode then
    .error (storeUnavailable
      "temporary key store is in administrator safe mode" false)
  else .ok ()

def keyNotFound (keyId : KeyId) : AuthFailure :=
  ⟨"temporary_key_not_found", s!"temporary key {keyId.asU64} does not exist", false⟩

def keyNotRenewable : AuthFailure :=
  ⟨"temporary_key_not_renewable",
    "only an active, unexpired temporary key can be renewed", false⟩

def keyNotActive : AuthFailure :=
  ⟨"temporary_key_not_active", "temporary key is not active", false⟩

def keyInactive : AuthFailure :=
  ⟨"temporary_key_inactive", "temporary key lease is no longer active", true⟩

def validateTtl (ttl : Duration) (now : ℕ) : Except AuthFailure ℕ :=
  if ttl < minTempKeyTtl then
    .error ⟨"temporary_key_ttl_too_short",
      s!"temporary key TTL must be at least {minTempKeyTtl.asSecs} seconds", false⟩
  else if config.maxTemporaryKeyTtl < ttl then
    .error ⟨"temporary_key_ttl_too_long",
      "temporary key TTL exceeds the configured maximum of " ++
        s!"{config.maxTemporaryKeyTtl.asSecs} seconds",
      false⟩
  else .ok (satAdd u64Max now ttl.asSecs)

/-- `char::is_whitespace`. -/
def isWhitespace (c : Char) : Bool :=
  let code := c.toNat
  (9 ≤ code && code ≤ 13) || code == 0x20 || code == 0x85 || code == 0xA0 ||
    code == 0x1680 || (0x2000 ≤ code && code ≤ 0x200A) || code == 0x2028 ||
    code == 0x2029 || code == 0x202F || code == 0x205F || code == 0x3000

def trim (text : String) : String :=
  .ofList ((text.toList.dropWhile isWhitespace).reverse.dropWhile
    isWhitespace).reverse

def validateLabel (label : Option String) : Except AuthFailure (Option String) :=
  let label := (label.map trim).filter (· ≠ "")
  if label.any (64 < ·.utf8ByteSize) then
    .error ⟨"temporary_key_label_too_long",
      "temporary key label must not exceed 64 UTF-8 bytes", false⟩
  else .ok label

/-! ## Reading a key -/

structure TemporaryKeyMetadata where
  keyId : KeyId
  state : String
  issuedAt : ℕ
  expiresAt : ℕ
  label : Option String
deriving DecidableEq, Repr

structure IssuedTemporaryKey where
  metadata : TemporaryKeyMetadata
  credential : String
deriving DecidableEq, Repr

structure KeyPage where
  schemaVersion : ℕ
  items : List TemporaryKeyMetadata
  nextPage : Option ℕ
deriving DecidableEq, Repr

def slotStateName : SlotState → String
  | .free => "free"
  | .active => "active"
  | .expired => "expired"
  | .revoked => "revoked"

/-- One key's lifecycle, read from wherever that key lives. -/
structure KeyState where
  state : SlotState
  expiresAt : ℕ
  issuedAt : ℕ
  label : Option String

namespace AuthMemory

variable (memory : AuthMemory)

def validateSlotIdentity (slot : SlotHot) (keyId : KeyId) :
    Except AuthFailure Unit :=
  if slot.generation ≠ keyId.generation ∨ slot.state = .free then
    .error (keyNotFound keyId)
  else .ok ()

def highSlotEntry (keyId : KeyId) : Except AuthFailure PersistedEntry :=
  match memory.inner.highSlotEntries.find? (·.keyId = keyId) with
  | some entry => .ok entry
  | none => .error (keyNotFound keyId)

def coldMetadata (keyId : KeyId) : Except AuthFailure ColdMetadata :=
  match memory.inner.cold.lookup keyId with
  | some cold => .ok cold
  | none => .error (keyNotFound keyId)

def keyState (keyId : KeyId) : Except AuthFailure KeyState :=
  match memory.slot? keyId.slot.asIndex with
  | some slot => do
      validateSlotIdentity slot keyId
      let metadata ← memory.coldMetadata keyId
      return ⟨slot.state, slot.expiresAt, metadata.issuedAt, metadata.label⟩
  | none => do
      let entry ← memory.highSlotEntry keyId
      return ⟨entry.state, entry.expiresAt, entry.issuedAt, entry.label⟩

def highSlotMetadata (entry : PersistedEntry) : TemporaryKeyMetadata :=
  ⟨entry.keyId, slotStateName entry.state, entry.issuedAt, entry.expiresAt,
    entry.label⟩

def metadataWithCredential (keyId : KeyId) (reveal : Bool) :
    Except AuthFailure IssuedTemporaryKey :=
  let credential :=
    if reveal then
      crypto.encodeTemporaryCredential keyId
        (crypto.deriveTemporaryKey memory.inner.adminKey memory.inner.instanceId
          keyId)
    else ""
  match memory.slot? keyId.slot.asIndex with
  | some slot => do
      validateSlotIdentity slot keyId
      let cold ← memory.coldMetadata keyId
      return ⟨⟨keyId, slotStateName slot.state, cold.issuedAt, slot.expiresAt,
        cold.label⟩, credential⟩
  | none => do
      let entry ← memory.highSlotEntry keyId
      return ⟨highSlotMetadata entry, credential⟩

/-- The keys of a page before they are cut, latest first. -/
def listed : List TemporaryKeyMetadata :=
  let table := memory.inner.slots.zipIdx.filterMap fun (slot, index) =>
    if slot.state = .free then none
    else
      (memory.inner.cold.lookup (rowKeyId slot index)).map fun cold =>
        (⟨rowKeyId slot index, slotStateName slot.state, cold.issuedAt,
          slot.expiresAt, cold.label⟩ : TemporaryKeyMetadata)
  let high := (memory.inner.highSlotEntries.filter (·.state ≠ .free)).map
    highSlotMetadata
  (table ++ high).mergeSort fun left right => right.issuedAt ≤ left.issuedAt

def actorList (page pageSize : ℕ) : KeyPage :=
  let pageSize := max 1 (min pageSize 1000)
  let start := satMul u64Max page pageSize
  let all := memory.listed
  { schemaVersion := 1
    items := (all.drop start).take pageSize
    nextPage :=
      if satAdd u64Max start pageSize < all.length then
        some (satAdd u32Max page 1)
      else none }

end AuthMemory

/-! ## Issue -/

namespace AuthMemory

/-- The first free row with a generation left, and that generation. -/
def findRow (slots : List SlotHot) : Option (ℕ × Generation) :=
  slots.zipIdx.findSome? fun (slot, index) =>
    if slot.state = .free then slot.generation.next.map (index, ·) else none

/-- What `actor_issue` decides before it persists anything. -/
def planIssue (memory : AuthMemory) (clock : Clock) (ttl : Duration)
    (label : Option String) : Except AuthFailure PersistedEntry := do
  ensureStoreAvailable memory
  let expiresAt ← validateTtl config ttl (clock 0)
  let label ← validateLabel label
  let issuedAt := clock 1
  match findRow memory.inner.slots with
  | none =>
      throw ⟨"temporary_key_capacity_exhausted",
        "temporary key slot table is full", true⟩
  | some (index, generation) =>
      return ⟨.new generation (.fromIndex index), .active, issuedAt, expiresAt,
        label, none⟩

def publishIssue (entry : PersistedEntry) (memory : AuthMemory) : AuthMemory :=
  let (memory, lease) :=
    memory.allocateLease (.new entry.keyId entry.expiresAt)
  let memory := memory.updateSlot entry.keyId.slot.asIndex fun _ =>
    ⟨entry.keyId.generation, .active, entry.expiresAt, some lease⟩
  memory.issueLease entry.keyId lease entry.expiresAt entry.issuedAt entry.label

end AuthMemory

def actorIssue (clock : Clock) (ttl : Duration) (label : Option String) :
    ActorM IssuedTemporaryKey := do
  let entry ← orRefuse ((← getMemory).planIssue config clock ttl label)
  appendMutation crypto config (.issue entry)
    ⟨clock 2, "temporary_key_issue", some entry.keyId, entry.label⟩
  modifyMemory (AuthMemory.publishIssue entry)
  orRefuse ((← getMemory).metadataWithCredential crypto entry.keyId true)

def actorShow (clock : Clock) (keyId : KeyId) (reveal : Bool) :
    ActorM IssuedTemporaryKey := do
  let result ← orRefuse
    ((← getMemory).metadataWithCredential crypto keyId reveal)
  appendAudit crypto config
    ⟨clock 0, if reveal then "temporary_key_reveal" else "temporary_key_show",
      some keyId, result.metadata.label⟩
  return result

/-! ## Renew -/

/-- Checks by other tasks between the steps of a renewal: while the log is
written, and between the look at the old lease and the store of its new expiry,
when the table is locked. -/
structure RenewChecks where
  beforeInstall : List CredentialCheck
  beforeStore : List (AuthContext × ℕ)

namespace AuthMemory

def planRenew (memory : AuthMemory) (clock : Clock) (keyId : KeyId)
    (ttl : Duration) : Except AuthFailure (ℕ × Option String) := do
  ensureStoreAvailable memory
  let expiresAt ← validateTtl config ttl (clock 0)
  let current ← memory.keyState keyId
  if current.state ≠ .active ∨ current.expiresAt ≤ clock 1 then
    throw keyNotRenewable
  return (expiresAt, current.label)

/-- The lease of the row in hand moves on, or is replaced if it was cancelled
meanwhile. -/
def renewRow (memory : AuthMemory) (checks : List (AuthContext × ℕ))
    (keyId : KeyId) (slot : SlotHot) (expiresAt : ℕ) : AuthMemory :=
  let memory := memory.updateSlot keyId.slot.asIndex
    ({ · with expiresAt := expiresAt })
  match (memory.upgrade slot.lease).filter (!memory.isCancelled ·) with
  | some lease =>
      let memory := checks.foldl
        (fun memory (context, now) => (memory.ensureActive context now).2) memory
      let memory := { memory with
        leaseHeap := memory.leaseHeap.modify lease
          ({ · with expiresAt := expiresAt }) }
      memory.renewLease keyId expiresAt
  | none =>
      let (memory, lease) := memory.allocateLease (.new keyId expiresAt)
      let memory := memory.updateSlot keyId.slot.asIndex
        ({ · with lease := some lease })
      memory.watch keyId lease expiresAt

/-- What `actor_renew` does once the renewal is persisted. -/
def publishRenew (memory : AuthMemory) (checks : List (AuthContext × ℕ))
    (keyId : KeyId) (expiresAt : ℕ) : Except AuthFailure AuthMemory :=
  match memory.slot? keyId.slot.asIndex with
  | some slot => do
      validateSlotIdentity slot keyId
      if slot.state ≠ .active then
        throw keyInactive
      return memory.renewRow checks keyId slot expiresAt
  | none => do
      let entry ← memory.highSlotEntry keyId
      if entry.state ≠ .active then
        throw keyInactive
      match updateEntry keyId
          ({ · with expiresAt := expiresAt, tombstonedAt := none })
          memory.inner.highSlotEntries with
      | some entries =>
          return memory.updateInner ({ · with highSlotEntries := entries })
      | none => throw (keyNotFound keyId)

end AuthMemory

def actorRenew (clock : Clock) (checks : RenewChecks) (keyId : KeyId)
    (ttl : Duration) : ActorM IssuedTemporaryKey := do
  let (expiresAt, label) ← orRefuse
    ((← getMemory).planRenew config clock keyId ttl)
  appendMutation crypto config (.renew keyId expiresAt)
    ⟨clock 2, "temporary_key_renew", some keyId, label⟩
  modifyMemory fun memory =>
    checks.beforeInstall.foldl (AuthMemory.check crypto) memory
  let memory ← orRefuse
    ((← getMemory).publishRenew checks.beforeStore keyId expiresAt)
  modifyMemory fun _ => memory
  orRefuse (memory.metadataWithCredential crypto keyId true)

/-! ## Revoke -/

namespace AuthMemory

def planRevoke (memory : AuthMemory) (keyId : KeyId) :
    Except AuthFailure KeyState := do
  ensureStoreAvailable memory
  let current ← memory.keyState keyId
  if current.state ≠ .active then
    throw keyNotActive
  return current

def revokeRow (memory : AuthMemory) (keyId : KeyId) (slot : SlotHot) :
    AuthMemory :=
  let memory := memory.updateSlot keyId.slot.asIndex
    ({ · with state := .revoked })
  let memory :=
    match memory.upgrade slot.lease with
    | some lease => recordCancel .revoked memory lease
    | none => memory
  memory.retireNow keyId

def revokeHigh (memory : AuthMemory) (keyId : KeyId)
    (entries : List PersistedEntry) : AuthMemory :=
  (memory.updateInner ({ · with highSlotEntries := entries })).retireNow keyId

/-- The key in its row or above the table, once the revocation is persisted. -/
def publishRevoke (memory : AuthMemory) (keyId : KeyId) (now : ℕ) :
    Except AuthFailure AuthMemory :=
  match memory.slot? keyId.slot.asIndex with
  | some slot => do
      validateSlotIdentity slot keyId
      return memory.revokeRow keyId slot
  | none => do
      let entry ← memory.highSlotEntry keyId
      if entry.state ≠ .active then
        throw keyNotActive
      match updateEntry keyId (revokedEntry now) memory.inner.highSlotEntries with
      | some entries => return memory.revokeHigh keyId entries
      | none => throw (keyNotFound keyId)

/-- What a revocation reports.  A key above the table is reported as it was
planned. -/
def revokedMetadata (memory : AuthMemory) (keyId : KeyId) (current : KeyState)
    (row : Option SlotHot) : Except AuthFailure TemporaryKeyMetadata :=
  match row with
  | some slot => do
      let metadata ← memory.coldMetadata keyId
      return ⟨keyId, slotStateName .revoked, metadata.issuedAt, slot.expiresAt,
        metadata.label⟩
  | none =>
      .ok ⟨keyId, slotStateName .revoked, current.issuedAt, current.expiresAt,
        current.label⟩

end AuthMemory

def actorRevoke (clock : Clock) (keyId : KeyId) : ActorM TemporaryKeyMetadata := do
  let now := clock 0
  let current ← orRefuse ((← getMemory).planRevoke keyId)
  appendMutation crypto config (.revoke keyId now)
    ⟨clock 1, "temporary_key_revoke", some keyId, current.label⟩
  let before ← getMemory
  let memory ← orRefuse (before.publishRevoke keyId now)
  modifyMemory fun _ => memory
  orRefuse (memory.revokedMetadata keyId current
    (before.slot? keyId.slot.asIndex))

/-! ## Collect -/

/-- `write_snapshot_and_truncate_wal`, failing closed. -/
def compact (snapshot : PersistedSnapshot) : ActorM Unit := do
  let memory ← getMemory
  match ← onFiles (attempt (writeSnapshotAndTruncateWal config.stateDir
      memory.inner.adminKey snapshot)) with
  | .ok () => return ()
  | .error failure =>
      modifyMemory AuthMemory.failClosed
      refuse failure

def actorGc (clock : Clock) : ActorM ℕ := do
  orRefuse (ensureStoreAvailable (← getMemory))
  let (memory, removed) := (← getMemory).collectGarbage (clock 0)
  modifyMemory fun _ => memory
  let audit : AuditRecord :=
    ⟨clock 1, "temporary_key_gc", none, some s!"removed={removed}"⟩
  compact config (memory.buildSnapshot.pushAudit audit)
  modifyMemory (·.pushAuditRecord audit)
  return removed

end PbMapper.Auth

import PbMapper.Auth.Types
import PbMapper.Foundation.MachineWord
import Mathlib.Data.List.Basic

/-!
# Persisted authentication records

What the snapshot and the log of a state directory hold, and how the records of
the log act on a snapshot when it is loaded.
-/

namespace PbMapper.Auth

open PbMapper.Core MachineWord

/-! ## Times and limits -/

/-- A reading of `unix_seconds`. -/
abbrev Seconds := Fin (2 ^ 64)

/-- `std::time::Duration`, in nanoseconds. -/
abbrev Duration := ℕ

namespace Duration

def fromSecs (seconds : ℕ) : Duration := seconds * 10 ^ 9

def asSecs (duration : Duration) : ℕ := duration / 10 ^ 9

end Duration

def maxTempKeyCapacity : ℕ := 1048576

def minTempKeyTtl : Duration := .fromSecs 10

def maxTempKeyTtl : Duration := .fromSecs (365 * 24 * 60 * 60)

/-- `TOMBSTONE_RETENTION`, in seconds. -/
def tombstoneRetention : ℕ := 60

/-- `MAX_SCHEDULABLE_DELAY`, in seconds. -/
def maxSchedulableDelay : ℕ := Duration.asSecs maxTempKeyTtl + tombstoneRetention

/-- `SNAPSHOT_COMPACTION_INTERVAL`, in seconds. -/
def snapshotCompactionInterval : ℕ := 5 * 60

def snapshotSchemaVersion : ℕ := 1

/-- `ADMIN_REPLAY_RETENTION`, in seconds. -/
def adminReplayRetention : ℕ := 10 * 60

def adminReplayCapacity : ℕ := 65536

def auditRecordCapacity : ℕ := 4096

/-! ## Records -/

abbrev InstanceId := Vector UInt8 16

/-- What an administrator mutation is recognised by. -/
abbrev MutationFingerprint := Vector UInt8 32

inductive LegacyProtocolPolicy where
  | allow
  | deny
deriving DecidableEq, Repr

def LegacyProtocolPolicy.isAllowed : LegacyProtocolPolicy → Bool
  | .allow => true
  | .deny => false

/-- The policy an `AtomicBool` stands for. -/
def LegacyProtocolPolicy.ofAllowed (allowed : Bool) : LegacyProtocolPolicy :=
  if allowed then .allow else .deny

/-- The bounds are those the environment variables are read with. -/
structure AuthConfig where
  stateDir : String
  maxTemporaryKeys : ℕ
  maxTemporaryKeyTtl : Duration
  legacyProtocol : LegacyProtocolPolicy
  keys_pos : 0 < maxTemporaryKeys
  keys_le : maxTemporaryKeys ≤ maxTempKeyCapacity
  ttl_ge : minTempKeyTtl ≤ maxTemporaryKeyTtl
  ttl_le : maxTemporaryKeyTtl ≤ maxTempKeyTtl

inductive SlotState where
  | free
  | active
  | expired
  | revoked
deriving DecidableEq, Repr

structure PersistedEntry where
  keyId : KeyId
  state : SlotState
  issuedAt : ℕ
  expiresAt : ℕ
  label : Option String
  tombstonedAt : Option ℕ
deriving DecidableEq, Repr

/-- An `accepted_at` of 0 is that of a record written without the field. -/
structure AdminReplayRecord where
  fingerprint : MutationFingerprint
  clientTimestamp : ℕ
  acceptedAt : ℕ
deriving DecidableEq, Repr

def AdminReplayRecord.withinRetention (record : AdminReplayRecord) (now : ℕ) :
    Bool :=
  let anchor :=
    if record.acceptedAt = 0 then record.clientTimestamp else record.acceptedAt
  now - anchor ≤ adminReplayRetention

structure AuditRecord where
  atTime : ℕ
  action : String
  keyId : Option KeyId
  label : Option String
deriving DecidableEq, Repr

inductive StateMutation where
  | issue (entry : PersistedEntry)
  | renew (keyId : KeyId) (expiresAt : ℕ)
  | revoke (keyId : KeyId) (atTime : ℕ)
  | legacyProtocol (policy : LegacyProtocolPolicy)
deriving DecidableEq, Repr

inductive WalRecord where
  | mutation (mutation : StateMutation) (audit : AuditRecord)
  | audit (audit : AuditRecord)
  | adminReplay (record : AdminReplayRecord)
deriving DecidableEq, Repr

structure PersistedSnapshot where
  schemaVersion : ℕ
  instanceId : InstanceId
  generations : List Generation
  entries : List PersistedEntry
  legacyProtocol : LegacyProtocolPolicy
  adminReplays : List AdminReplayRecord
  auditRecords : List AuditRecord
  rootEpoch : ℕ
deriving DecidableEq, Repr

/-! ## Replay -/

def storeUnavailable (message : String) (retryable : Bool) : AuthFailure :=
  ⟨"temporary_key_store_unavailable", message, retryable⟩

/-- `Vec::resize` with the first generation, to at least `length` rows. -/
def growGenerations (generations : List Generation) (length : ℕ) :
    List Generation :=
  generations ++ List.replicate (length - generations.length) Generation.first

def pushPersistedAudit (records : List AuditRecord) (record : AuditRecord) :
    List AuditRecord :=
  records.drop (records.length + 1 - auditRecordCapacity) ++ [record]

/-- Changes the first entry of a key. -/
def updateEntry (keyId : KeyId) (change : PersistedEntry → PersistedEntry) :
    List PersistedEntry → Option (List PersistedEntry)
  | [] => none
  | entry :: entries =>
      if entry.keyId = keyId then some (change entry :: entries)
      else (updateEntry keyId change entries).map (entry :: ·)

def updateSnapshotEntry (snapshot : PersistedSnapshot) (keyId : KeyId)
    (operation : String) (change : PersistedEntry → PersistedEntry) :
    Except AuthFailure PersistedSnapshot :=
  match updateEntry keyId change snapshot.entries with
  | some entries => .ok { snapshot with entries := entries }
  | none =>
      .error (storeUnavailable
        s!"WAL {operation} record references an unknown key" false)

def renewedEntry (expiresAt : ℕ) (entry : PersistedEntry) : PersistedEntry :=
  { entry with expiresAt := expiresAt, state := .active, tombstonedAt := none }

def revokedEntry (atTime : ℕ) (entry : PersistedEntry) : PersistedEntry :=
  { entry with state := .revoked, tombstonedAt := some atTime }

def applyPersistedMutation (snapshot : PersistedSnapshot) :
    StateMutation → Except AuthFailure PersistedSnapshot
  | .issue entry =>
      let index := entry.keyId.slot.asIndex
      .ok { snapshot with
        generations := (growGenerations snapshot.generations (index + 1)).set
          index entry.keyId.generation
        entries := snapshot.entries.filter (·.keyId.slot.asIndex ≠ index) ++
          [entry] }
  | .renew keyId expiresAt =>
      updateSnapshotEntry snapshot keyId "renew" (renewedEntry expiresAt)
  | .revoke keyId atTime =>
      updateSnapshotEntry snapshot keyId "revoke" (revokedEntry atTime)
  | .legacyProtocol policy => .ok { snapshot with legacyProtocol := policy }

/-- One record of the loop over the log in `try_load_persisted_state`. -/
def applyWalRecord (snapshot : PersistedSnapshot) :
    WalRecord → Except AuthFailure PersistedSnapshot
  | .mutation mutation audit => do
      let snapshot ← applyPersistedMutation snapshot mutation
      return { snapshot with
        auditRecords := pushPersistedAudit snapshot.auditRecords audit }
  | .adminReplay record =>
      .ok { snapshot with adminReplays := snapshot.adminReplays ++ [record] }
  | .audit audit =>
      .ok { snapshot with
        auditRecords := pushPersistedAudit snapshot.auditRecords audit }

/-! ## Loading -/

/-- When a dead entry without a recorded time died. -/
def tombstoneTime (audits : List AuditRecord) (now : ℕ) (entry : PersistedEntry) :
    Option ℕ :=
  match entry.state with
  | .expired => some entry.expiresAt
  | .revoked =>
      some (((audits.reverse.find? fun record =>
        record.action = "temporary_key_revoke" ∧
          record.keyId = some entry.keyId).map (·.atTime)).getD now)
  | .free | .active => none

def normalizeEntry (audits : List AuditRecord) (now : ℕ) (entry : PersistedEntry) :
    PersistedEntry :=
  if entry.tombstonedAt.isSome then entry
  else { entry with tombstonedAt := tombstoneTime audits now entry }

/-- The snapshot with the times filled in, and whether any was. -/
def normalizeTombstoneTimes (snapshot : PersistedSnapshot) (now : ℕ) :
    PersistedSnapshot × Bool :=
  ({ snapshot with
      entries := snapshot.entries.map (normalizeEntry snapshot.auditRecords now) },
    snapshot.entries.any fun entry =>
      entry.tombstonedAt.isNone &&
        (tombstoneTime snapshot.auditRecords now entry).isSome)

/-- The rows a table of `capacity` rows does not cover. -/
def splitHighSlotState (snapshot : PersistedSnapshot) (capacity : ℕ) :
    List Generation × List PersistedEntry :=
  (snapshot.generations.drop capacity,
    snapshot.entries.filter (capacity ≤ ·.keyId.slot.asIndex))

end PbMapper.Auth

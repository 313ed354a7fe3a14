import PbMapper.Auth.State

/-!
# Snapshots of the state in memory
-/

namespace PbMapper.Auth

namespace AuthMemory

variable (memory : AuthMemory)

def pushAuditRecord (record : AuditRecord) : AuthMemory :=
  memory.updateInner fun inner =>
    { inner with auditRecords := pushPersistedAudit inner.auditRecords record }

def snapshotGenerations : List Generation :=
  memory.inner.slots.map (·.generation) ++ memory.inner.highSlotGenerations

def snapshotWith (instanceId : InstanceId) (entries : List PersistedEntry)
    (adminReplays : List AdminReplayRecord) : PersistedSnapshot where
  schemaVersion := snapshotSchemaVersion
  instanceId := instanceId
  generations := memory.snapshotGenerations
  entries := entries
  legacyProtocol := .ofAllowed memory.inner.legacyProtocolAllowed
  adminReplays := adminReplays
  auditRecords := memory.inner.auditRecords
  rootEpoch := memory.inner.rootEpoch

/-- The key id of the row at `index`. -/
def rowKeyId (slot : SlotHot) (index : ℕ) : KeyId :=
  .new slot.generation (.fromIndex index)

/-- The entry of a row in use. -/
def rowEntry (slot : SlotHot) (index : ℕ) : Option PersistedEntry :=
  if slot.state = .free then none
  else
    (memory.inner.cold.lookup (rowKeyId slot index)).map fun cold =>
      { keyId := rowKeyId slot index
        state := slot.state
        issuedAt := cold.issuedAt
        expiresAt := slot.expiresAt
        label := cold.label
        tombstonedAt :=
          if cold.tombstonedAt ≠ 0 then some cold.tombstonedAt else none }

def tableEntries : List PersistedEntry :=
  memory.inner.slots.zipIdx.filterMap fun (slot, index) =>
    memory.rowEntry slot index

def buildSnapshot : PersistedSnapshot :=
  memory.snapshotWith memory.inner.instanceId
    (memory.tableEntries ++ memory.inner.highSlotEntries) memory.adminReplayOrder

def emptySnapshot (instanceId : InstanceId)
    (adminReplays : List AdminReplayRecord) : PersistedSnapshot :=
  memory.snapshotWith instanceId [] adminReplays

end AuthMemory

/-- The snapshot with one audit record more. -/
def PersistedSnapshot.pushAudit (snapshot : PersistedSnapshot)
    (record : AuditRecord) : PersistedSnapshot :=
  { snapshot with
    auditRecords := pushPersistedAudit snapshot.auditRecords record }

end PbMapper.Auth

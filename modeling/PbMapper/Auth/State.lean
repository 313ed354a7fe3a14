import PbMapper.Auth.StateDir
import PbMapper.Auth.TimerBoard
import PbMapper.Foundation.Table

/-!
# The authentication state in memory

The slot table, the rows above it, the leases and the timers.  Leases and timers
are shared objects: the heaps have every one that was allocated, and a weak
handle is an index into a heap.
-/

namespace PbMapper.Auth

open PbMapper.Core MachineWord

/-! ## Leases and rows -/

/-- The row of an index of the slot table, which has at most
`maxTempKeyCapacity` rows. -/
def SlotIndex.fromIndex (index : ℕ) : SlotIndex :=
  ⟨index % 2 ^ 32, Nat.mod_lt _ (Nat.two_pow_pos _)⟩

inductive CancelReason where
  | none
  | expired
  | revoked
  | rotated
deriving DecidableEq, Repr

structure AuthLease where
  keyId : KeyId
  expiresAt : ℕ
  cancelled : Bool
  cancelReason : CancelReason
deriving DecidableEq, Repr

namespace AuthLease

def new (keyId : KeyId) (expiresAt : ℕ) : AuthLease :=
  ⟨keyId, expiresAt, false, .none⟩

/-- The first reason is kept. -/
def recordCancel (reason : CancelReason) (lease : AuthLease) : AuthLease :=
  { lease with
    cancelled := true
    cancelReason :=
      if lease.cancelReason = .none then reason else lease.cancelReason }

end AuthLease

/-- One row of the slot table. -/
structure SlotHot where
  generation : Generation
  state : SlotState
  expiresAt : ℕ
  lease : Option LeaseId
deriving DecidableEq, Repr

namespace SlotHot

def new : SlotHot := ⟨.first, .free, 0, none⟩

/-- Whether this row still belongs to the generation of `keyId`. -/
def holds (slot : SlotHot) (keyId : KeyId) : Bool :=
  slot.generation = keyId.generation && slot.state != .free

def isCollectable (slot : SlotHot) (now : ℕ) : Bool :=
  match slot.state with
  | .expired | .revoked => true
  | .active => slot.expiresAt ≤ now
  | .free => false

/-- Frees the row and keeps its generation. -/
def retire (slot : SlotHot) : SlotHot :=
  { SlotHot.new with generation := slot.generation }

end SlotHot

structure ColdMetadata where
  issuedAt : ℕ
  label : Option String
  tombstonedAt : ℕ
deriving DecidableEq, Repr

/-! ## Timers -/

abbrev TimerId := ℕ

/-- The callback of a timer, with the lease it keeps alive. -/
inductive TimerCallback where
  | retire (keyId : KeyId) (lease : LeaseId)
  | reap (keyId : KeyId) (lease : Option LeaseId)
deriving DecidableEq, Repr

namespace TimerCallback

def keyId : TimerCallback → KeyId
  | .retire keyId _ => keyId
  | .reap keyId _ => keyId

def lease : TimerCallback → Option LeaseId
  | .retire _ lease => some lease
  | .reap _ lease => lease

end TimerCallback

/-- A key's two scheduled stages, as weak handles. -/
structure Stages where
  retire : Option TimerId
  reap : Option TimerId
deriving DecidableEq, Repr

/-- `now` is the second the wheel's current tick corresponds to. -/
structure Leases where
  wheel : TimingWheel TimerId
  now : ℕ
  stages : Table KeyId Stages

def newWheel : TimingWheel TimerId := .new maxSchedulableDelay 64 (by decide)

/-! ## The state -/

structure PreviousRoot where
  adminKey : AesKeyType
  instanceId : InstanceId
deriving DecidableEq

structure AuthStateInner where
  adminKey : AesKeyType
  adminLease : LeaseId
  instanceId : InstanceId
  slots : List SlotHot
  highSlotGenerations : List Generation
  highSlotEntries : List PersistedEntry
  cold : Table KeyId ColdMetadata
  safeMode : Bool
  legacyProtocolAllowed : Bool
  activeLegacyConnections : ℕ
  lastLegacyConnectionAt : ℕ
  authSuccesses : ℕ
  authFailures : ℕ
  rootEpoch : ℕ
  previousRoot : Option PreviousRoot
  auditRecords : List AuditRecord

/-- The shared state and what the actor owns. -/
structure AuthMemory where
  inner : AuthStateInner
  leaseHeap : List AuthLease
  timerHeap : List (Option TimerCallback)
  leases : Leases
  adminReplays : Finset MutationFingerprint
  adminReplayOrder : List AdminReplayRecord
  lastSnapshotAt : ℕ

namespace AuthMemory

variable (memory : AuthMemory)

def updateInner (change : AuthStateInner → AuthStateInner) : AuthMemory :=
  { memory with inner := change memory.inner }

def slot? (index : ℕ) : Option SlotHot := memory.inner.slots[index]?

def updateSlot (index : ℕ) (change : SlotHot → SlotHot) : AuthMemory :=
  memory.updateInner fun inner =>
    { inner with slots := inner.slots.modify index change }

/-- `Weak::upgrade` of a lease.  A timer that has not run owns a temporary lease,
and the actor owns that of the administrator. -/
def upgrade (lease : Option LeaseId) : Option LeaseId :=
  lease.filter fun id =>
    id == memory.inner.adminLease ||
      memory.timerHeap.any fun timer => timer.any (·.lease == some id)

def lease? (id : LeaseId) : Option AuthLease := memory.leaseHeap[id]?

def isCancelled (id : LeaseId) : Bool :=
  (memory.lease? id).all (·.cancelled)

def recordCancel (reason : CancelReason) (memory : AuthMemory) (id : LeaseId) :
    AuthMemory :=
  { memory with
    leaseHeap := memory.leaseHeap.modify id (AuthLease.recordCancel reason) }

def cancelAllTemporaryLeases : AuthMemory :=
  (memory.inner.slots.filterMap fun slot => memory.upgrade slot.lease).foldl
    (recordCancel .rotated) memory

def setCold (keyId : KeyId) (cold : ColdMetadata) : AuthMemory :=
  memory.updateInner fun inner => { inner with cold := inner.cold.insert keyId cold }

def eraseCold (keyId : KeyId) : AuthMemory :=
  memory.updateInner fun inner => { inner with cold := inner.cold.erase keyId }

def modifyCold (keyId : KeyId) (change : ColdMetadata → ColdMetadata) :
    AuthMemory :=
  match memory.inner.cold.lookup keyId with
  | some cold => memory.setCold keyId (change cold)
  | none => memory

/-! ## Callbacks -/

/-- Ends a key's active stage. -/
def retire (keyId : KeyId) (lease : LeaseId) : AuthMemory :=
  let memory := recordCancel .expired memory lease
  match memory.slot? keyId.slot.asIndex with
  | none => memory
  | some slot =>
      if !slot.holds keyId || slot.state != .active then memory
      else
        let memory := memory.updateSlot keyId.slot.asIndex
          ({ · with state := .expired })
        memory.modifyCold keyId ({ · with tombstonedAt := slot.expiresAt })

/-- Frees a dead key's row and forgets it. -/
def reap (keyId : KeyId) : AuthMemory :=
  match memory.slot? keyId.slot.asIndex with
  | some slot =>
      if slot.holds keyId then
        (memory.updateSlot keyId.slot.asIndex SlotHot.retire).eraseCold keyId
      else memory
  | none =>
      (memory.updateInner fun inner =>
        { inner with
          highSlotEntries :=
            inner.highSlotEntries.filter (·.keyId ≠ keyId) }).eraseCold keyId

def runCallback : TimerCallback → AuthMemory
  | .retire keyId lease => memory.retire keyId lease
  | .reap keyId _ => memory.reap keyId

/-- `Timer::fire`, and the drop of the last reference: the callback is taken and
run, if it has not run before. -/
def fire (timer : TimerId) : AuthMemory :=
  match memory.timerHeap[timer]? with
  | some (some callback) =>
      { memory with timerHeap := memory.timerHeap.set timer none }.runCallback
        callback
  | _ => memory

/-- Drops references; the timers without another one fire. -/
def release (dropped : List TimerId) : AuthMemory :=
  (lastReleased memory.leases.wheel.timers dropped).foldl fire memory

end AuthMemory

end PbMapper.Auth

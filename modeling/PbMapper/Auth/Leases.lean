import PbMapper.Auth.State

/-!
# Lifetimes of temporary keys

Every key has two timers: the first retires it at its expiry, the second frees
its row a retention window later.  Everything that ends a key makes these two
run, on schedule or early.
-/

namespace PbMapper.Auth

open MachineWord

def retentionEnds (tombstonedAt : ℕ) : ℕ :=
  satAdd u64Max tombstonedAt tombstoneRetention

namespace AuthMemory

variable (memory : AuthMemory)

def updateLeases (change : Leases → Leases) : AuthMemory :=
  { memory with leases := change memory.leases }

def setStages (keyId : KeyId) (stages : Stages) : AuthMemory :=
  memory.updateLeases fun leases =>
    { leases with stages := leases.stages.insert keyId stages }

def eraseStages (keyId : KeyId) : AuthMemory :=
  memory.updateLeases fun leases =>
    { leases with stages := leases.stages.erase keyId }

/-- `Weak::upgrade` of a timer, which only the wheel keeps alive. -/
def upgradeTimer (timer : Option TimerId) : Option TimerId :=
  timer.filter (· ∈ memory.leases.wheel.timers)

/-- The absolute `deadline` as a delay of the wheel. -/
def scheduleAt (deadline : ℕ) (timer : TimerId) : AuthMemory :=
  let (wheel, dropped) :=
    memory.leases.wheel.schedule (deadline - memory.leases.now) timer
  (memory.updateLeases ({ · with wheel := wheel })).release dropped

/-- A new timer. -/
def allocateTimer (callback : TimerCallback) : AuthMemory × TimerId :=
  ({ memory with timerHeap := memory.timerHeap ++ [some callback] },
    memory.timerHeap.length)

/-- A new lease. -/
def allocateLease (lease : AuthLease) : AuthMemory × LeaseId :=
  ({ memory with leaseHeap := memory.leaseHeap ++ [lease] },
    memory.leaseHeap.length)

/-- Schedules both stages of a live key. -/
def watch (keyId : KeyId) (lease : LeaseId) (expiresAt : ℕ) : AuthMemory :=
  let (memory, retire) := memory.allocateTimer (.retire keyId lease)
  let (memory, reap) := memory.allocateTimer (.reap keyId (some lease))
  let memory := memory.setStages keyId ⟨some retire, some reap⟩
  let memory := memory.scheduleAt expiresAt retire
  memory.scheduleAt (retentionEnds expiresAt) reap

/-- Schedules only the reap, for a key that is already dead. -/
def scheduleReap (keyId : KeyId) (deadline : ℕ) : AuthMemory :=
  let (memory, reap) := memory.allocateTimer (.reap keyId none)
  let memory := memory.setStages keyId ⟨none, some reap⟩
  memory.scheduleAt deadline reap

/-- `Leases::issue`. -/
def issueLease (keyId : KeyId) (lease : LeaseId) (expiresAt issuedAt : ℕ)
    (label : Option String) : AuthMemory :=
  (memory.setCold keyId ⟨issuedAt, label, 0⟩).watch keyId lease expiresAt

/-- `Leases::renew`; a key without live stages is left as it is. -/
def renewLease (keyId : KeyId) (expiresAt : ℕ) : AuthMemory :=
  match memory.leases.stages.lookup keyId with
  | none => memory
  | some stages =>
      match memory.upgradeTimer stages.retire, memory.upgradeTimer stages.reap with
      | some retire, some reap =>
          (memory.scheduleAt expiresAt retire).scheduleAt
            (retentionEnds expiresAt) reap
      | _, _ => memory

/-- One of a key's stages.  A key both of whose timers are gone is forgotten. -/
def stage (keyId : KeyId) (which : Stages → Option TimerId) :
    AuthMemory × Option TimerId :=
  match memory.leases.stages.lookup keyId with
  | none => (memory, none)
  | some stages =>
      let timer := memory.upgradeTimer (which stages)
      if (memory.upgradeTimer stages.retire).isNone &&
          (memory.upgradeTimer stages.reap).isNone then
        (memory.eraseStages keyId, timer)
      else (memory, timer)

def fireStage (keyId : KeyId) (which : Stages → Option TimerId) : AuthMemory :=
  match memory.stage keyId which with
  | (memory, some timer) => memory.fire timer
  | (memory, none) => memory

/-- Retires a key now, leaving its reap on schedule. -/
def retireNow (keyId : KeyId) : AuthMemory := memory.fireStage keyId Stages.retire

/-- Ends a key outright, running both stages. -/
def endKey (keyId : KeyId) : AuthMemory :=
  ((memory.retireNow keyId).fireStage keyId Stages.reap).eraseStages keyId

/-- Replaces the whole schedule, running every callback the old one held. -/
def dropSchedule (now : ℕ) : AuthMemory :=
  let old := memory.leases.wheel
  (lastReleased [] old.timers).foldl fire
    { memory with leases := ⟨newWheel, now, ∅⟩ }

/-- One second of the loop of `tick`. -/
def tickSecond : AuthMemory :=
  let (wheel, dropped) := memory.leases.wheel.tick
  (memory.updateLeases fun leases =>
    { leases with wheel := wheel, now := leases.now + 1 }).release dropped

def tickSeconds : ℕ → AuthMemory → AuthMemory
  | 0, memory => memory
  | count + 1, memory => tickSeconds count memory.tickSecond

/-- Runs every callback whose deadline has passed. -/
def tickLeases (now : ℕ) : AuthMemory :=
  if memory.leases.wheel.maxDelay < now - memory.leases.now then
    memory.dropSchedule now
  else tickSeconds (now - memory.leases.now) memory

/-- Ends every key at once, for a root rotation or state reset. -/
def wipe (now : ℕ) : AuthMemory := memory.cancelAllTemporaryLeases.dropSchedule now

/-- The keys a collection at `now` ends. -/
def collectable (now : ℕ) : List KeyId :=
  memory.inner.slots.zipIdx.filterMap (fun (slot, index) =>
      if slot.isCollectable now then
        some (.new slot.generation (SlotIndex.fromIndex index))
      else none) ++
    (memory.inner.highSlotEntries.filter fun entry =>
      entry.state ≠ .active ∨ entry.expiresAt ≤ now).map (·.keyId)

def collectGarbage (now : ℕ) : AuthMemory × ℕ :=
  ((memory.collectable now).foldl endKey memory, (memory.collectable now).length)

end AuthMemory

end PbMapper.Auth

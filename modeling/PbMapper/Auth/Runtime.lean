import PbMapper.Auth.Actor

/-!
# Starts, runs and stops

A server is started from what the directory holds, serves commands and ticks
beside the checks of credentials, and stops at any moment, also between two file
operations of a command.  A run goes through any number of servers on one
directory, each with its own configuration.
-/

namespace PbMapper.Auth

open PbMapper.Core MachineWord

variable (crypto : AuthCrypto)

/-! ## Restoring the memory -/

/-- The part of the memory that the loaded entries fill. -/
structure RestoredTable where
  slots : List SlotHot
  cold : Table KeyId ColdMetadata
  leaseHeap : List AuthLease

def restoredState (entry : PersistedEntry) (now : ℕ) : SlotState :=
  if entry.state = .active ∧ entry.expiresAt ≤ now then .expired else entry.state

def restoredCold (entry : PersistedEntry) (now : ℕ) : ColdMetadata where
  issuedAt := entry.issuedAt
  label := entry.label
  tombstonedAt :=
    match restoredState entry now with
    | .expired => entry.tombstonedAt.getD entry.expiresAt
    | .revoked => entry.tombstonedAt.getD now
    | .free | .active => 0

/-- One entry of the loop over the loaded entries. -/
def restoreEntry (now : ℕ) (table : RestoredTable) (entry : PersistedEntry) :
    RestoredTable :=
  let index := entry.keyId.slot.asIndex
  match table.slots[index]? with
  | none => table
  | some slot =>
      if slot.generation ≠ entry.keyId.generation then table
      else
        let state := restoredState entry now
        { slots := table.slots.set index
            { slot with
              state := state
              expiresAt := entry.expiresAt
              lease :=
                if state = .active then some table.leaseHeap.length
                else slot.lease }
          cold := table.cold.insert entry.keyId (restoredCold entry now)
          leaseHeap := table.leaseHeap ++
            if state = .active then [.new entry.keyId entry.expiresAt] else [] }

/-- Rows above the table expire where they are. -/
def restoreHighEntry (now : ℕ) (entry : PersistedEntry) : PersistedEntry :=
  if entry.state = .active ∧ entry.expiresAt ≤ now then
    { entry with
      state := .expired
      tombstonedAt := some (entry.tombstonedAt.getD entry.expiresAt) }
  else entry

namespace AuthMemory

variable (memory : AuthMemory)

/-- The live keys of the table with their leases, which the caller still owns. -/
def liveRows : List (KeyId × LeaseId × ℕ) :=
  memory.inner.slots.zipIdx.filterMap fun (slot, index) =>
    if slot.state = .active then
      slot.lease.map fun lease => (rowKeyId slot index, lease, slot.expiresAt)
    else none

def deadKeys : List KeyId :=
  memory.inner.slots.zipIdx.filterMap (fun (slot, index) =>
      if slot.state = .expired ∨ slot.state = .revoked then
        some (rowKeyId slot index)
      else none) ++
    (memory.inner.highSlotEntries.filter (·.state ≠ .active)).map (·.keyId)

/-- When the row of a dead key is to be freed. -/
def reapDeadline (keyId : KeyId) (now : ℕ) : ℕ :=
  retentionEnds (((memory.inner.cold.lookup keyId).map (·.tombstonedAt)).filter
    (· ≠ 0) |>.getD now)

/-- `Leases::restored`. -/
def restoreLeases (now : ℕ) : AuthMemory :=
  let watched := memory.liveRows.foldl
    (fun memory (keyId, lease, expiresAt) => memory.watch keyId lease expiresAt)
    memory
  memory.deadKeys.foldl
    (fun memory keyId => memory.scheduleReap keyId (memory.reapDeadline keyId now))
    watched

end AuthMemory

/-- The table of the generations, without entries. -/
def emptyTable (capacity : ℕ) (generations : List Generation) : List SlotHot :=
  (List.range capacity).map fun index =>
    { SlotHot.new with generation := generations.getD index .first }

def restoredReplays (state : PersistedSnapshot) (now : ℕ) :
    List AdminReplayRecord :=
  let replays := state.adminReplays.filter (·.withinRetention now)
  replays.drop (replays.length - adminReplayCapacity)

/-- The memory of a server before its schedule is rebuilt. -/
def restoredMemory (config : AuthConfig) (adminKey : AesKeyType)
    (instanceId : InstanceId) (loaded : Option PersistedSnapshot) (safeMode : Bool)
    (now lastSnapshotAt : ℕ) : AuthMemory :=
  let generations := loaded.elim [] (·.generations)
  let entries := loaded.elim [] (·.entries)
  let table := entries.foldl (restoreEntry now)
    ⟨emptyTable config.maxTemporaryKeys generations, ∅,
      [.new adminKeyId u64Max]⟩
  let legacyProtocol :=
    if safeMode then .deny
    else loaded.elim config.legacyProtocol (·.legacyProtocol)
  let high := loaded.elim ([], []) (splitHighSlotState · config.maxTemporaryKeys)
  let replays := loaded.elim [] (restoredReplays · now)
  let audits := loaded.elim [] (·.auditRecords)
  { inner :=
      { adminKey := adminKey
        adminLease := 0
        instanceId := instanceId
        slots := table.slots
        highSlotGenerations := high.1
        highSlotEntries := high.2.map (restoreHighEntry now)
        cold := table.cold
        safeMode := safeMode
        legacyProtocolAllowed := legacyProtocol.isAllowed
        activeLegacyConnections := 0
        lastLegacyConnectionAt := 0
        authSuccesses := 0
        authFailures := 0
        rootEpoch := loaded.elim 0 (·.rootEpoch)
        previousRoot := none
        auditRecords := audits.drop (audits.length - auditRecordCapacity) }
    leaseHeap := table.leaseHeap
    timerHeap := []
    leases := ⟨newWheel, now, ∅⟩
    adminReplays := (replays.map (·.fingerprint)).toFinset
    adminReplayOrder := replays
    lastSnapshotAt := lastSnapshotAt }

/-! ## Start -/

/-- The loaded state with its tombstone times, which are persisted first. -/
def normalizeLoaded (config : AuthConfig) (adminKey : AesKeyType) (now : ℕ) :
    Option PersistedSnapshot → FileM (Option PersistedSnapshot)
  | none => return none
  | some state => do
      let (state, changed) := normalizeTombstoneTimes state now
      if changed then
        writeSnapshotAndTruncateWal config.stateDir adminKey state
      return some state

def startLocked (config : AuthConfig) (adminKey : AesKeyType) (clock : Clock)
    (freshInstanceId : InstanceId) : FileM AuthMemory := do
  let instanceId ← loadOrCreateInstanceId config.stateDir freshInstanceId
  let instanceId ←
    recoverInstanceIdAfterReset config.stateDir adminKey instanceId
  let (loaded, safeMode) ← loadPersistedState crypto config adminKey instanceId
  let loaded ← normalizeLoaded config adminKey (clock 0) loaded
  return (restoredMemory config adminKey instanceId loaded safeMode (clock 0)
    (clock 1)).restoreLeases (clock 0)

/-- What the surroundings of a start contribute. -/
structure StartSurroundings where
  clock : Clock
  keySource : KeySource
  freshInstanceId : InstanceId

def startServer (config : AuthConfig) (env : StartSurroundings) :
    FileM AuthMemory := do
  let adminKey ← loadServerAdminCredential crypto config.stateDir env.keySource
  startLocked crypto config adminKey env.clock env.freshInstanceId

/-! ## Runs -/

inductive AuthEvent where
  | start (config : AuthConfig) (env : StartSurroundings)
      (outcomes : List FileOutcome)
  | command (env : Surroundings) (authority : LeaseId) (command : AuthCommand)
      (outcomes : List FileOutcome)
  | tick (now : Seconds) (outcomes : List FileOutcome)
  | authenticate (keyId : KeyId) (presentedKey : AesKeyType) (now : Seconds)
  | check (check : CredentialCheck)
  | stop

/-- A running server. -/
structure AuthServer where
  config : AuthConfig
  memory : AuthMemory

/-- What has happened, as far as it was answered. -/
inductive AuthRecord where
  | started (safeMode : Bool)
  | answered (now : ℕ) (command : AuthCommand)
      (answer : Except AuthFailure AuthResponse)

structure AuthHistory where
  dir : StateDir
  server : Option AuthServer
  records : List AuthRecord

namespace AuthHistory

def initial : AuthHistory := ⟨.empty, none, []⟩

def start (history : AuthHistory) (config : AuthConfig) (env : StartSurroundings)
    (outcomes : List FileOutcome) : AuthHistory :=
  match (startServer crypto config env).exec ⟨history.dir, outcomes⟩ with
  | (.ok memory, files) =>
      { dir := files.dir
        server := some ⟨config, memory⟩
        records := history.records ++ [.started memory.inner.safeMode] }
  | (.error _, files) => { history with dir := files.dir, server := none }

/-- The end of a program of the actor.  A process that stops answers nothing. -/
def finish {Value : Type} (history : AuthHistory) (config : AuthConfig)
    (record : Except AuthFailure Value → List AuthRecord) :
    Except Interruption Value × ActorWorld → AuthHistory
  | (.ok value, world) =>
      ⟨world.files.dir, some ⟨config, world.memory⟩,
        history.records ++ record (.ok value)⟩
  | (.error (.failed failure), world) =>
      ⟨world.files.dir, some ⟨config, world.memory⟩,
        history.records ++ record (.error failure)⟩
  | (.error .stopped, world) => ⟨world.files.dir, none, history.records⟩

def step (history : AuthHistory) : AuthEvent → Option AuthHistory
  | .start config env outcomes =>
      match history.server with
      | none => some (history.start crypto config env outcomes)
      | some _ => none
  | .command env authority command outcomes => do
      let server ← history.server
      return history.finish server.config
        (fun answer => [.answered (env.clock 0) command answer])
        ((actorCommand crypto server.config env authority command).exec
          ⟨server.memory, ⟨history.dir, outcomes⟩⟩)
  | .tick now outcomes => do
      let server ← history.server
      return history.finish server.config (fun _ => [])
        ((actorTick server.config now).exec
          ⟨server.memory, ⟨history.dir, outcomes⟩⟩)
  | .authenticate keyId presentedKey now => do
      let server ← history.server
      return { history with
        server := some { server with
          memory := (server.memory.authenticatePresented crypto keyId
            presentedKey now).2 } }
  | .check check => do
      let server ← history.server
      return { history with
        server := some { server with
          memory := server.memory.check crypto check } }
  | .stop => do
      let _ ← history.server
      return { history with server := none }

end AuthHistory

/-- The histories of one state directory that was empty once. -/
def authSystem : Transition.System AuthHistory AuthEvent :=
  .ofPartial (· = .initial) (AuthHistory.step crypto)

end PbMapper.Auth

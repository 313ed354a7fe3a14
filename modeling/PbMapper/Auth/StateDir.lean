import PbMapper.Auth.Records
import PbMapper.Foundation.Effect

/-!
# The state directory

The durable files of the authentication state and the file operations on them.
Every operation may do its work, report a failure, or be the one the process
stops at; what a failed or interrupted operation left behind is part of its
outcome.  Blobs are sealed ideally: they open under the key they were sealed
with and under no other.
-/

namespace PbMapper.Auth

open PbMapper.Core MachineWord

/-- What the libraries for key derivation, credential texts and JSON compute. -/
structure AuthCrypto where
  deriveTemporaryKey : AesKeyType → InstanceId → KeyId → AesKeyType
  encodeTemporaryCredential : KeyId → AesKeyType → String
  /-- The length of a sealed record of the log. -/
  sealedLength : WalRecord → ℕ

/-! ## Files -/

/-- A blob and the administrator key it is sealed with. -/
structure Sealed (Plain : Type) where
  key : AesKeyType
  plain : Plain
deriving DecidableEq

def openBlob {Plain : Type} (adminKey : AesKeyType) (blob : Sealed Plain) :
    Except AuthFailure Plain :=
  if blob.key = adminKey then .ok blob.plain
  else .error (storeUnavailable "authentication state integrity check failed" false)

/-- The log is a list of records, or of what an append left of one. -/
inductive WalFrame where
  | entire (record : Sealed WalRecord)
  | torn
deriving DecidableEq

structure StateDir where
  adminKey : Option AesKeyType
  adminKeyNext : Option AesKeyType
  instanceId : Option InstanceId
  instanceIdNext : Option InstanceId
  snapshot : Option (Sealed PersistedSnapshot)
  wal : Option (List WalFrame)
deriving DecidableEq

namespace StateDir

def empty : StateDir := ⟨none, none, none, none, none, none⟩

def frames (dir : StateDir) : List WalFrame := dir.wal.getD []

def appendFrame (frame : WalFrame) (dir : StateDir) : StateDir :=
  { dir with wal := some (dir.frames ++ [frame]) }

def truncateWal (dir : StateDir) : StateDir := { dir with wal := some [] }

end StateDir

/-! ## File operations -/

/-- How much of its work an operation did. -/
inductive Extent where
  | nothing
  | part
  | whole
deriving DecidableEq

inductive FileOutcome where
  | done
  | failed (extent : Extent) (error : String)
  | stopped (extent : Extent)
deriving DecidableEq

/-- Why a program on files did not come to its end: it reports a failure, or the
process is gone. -/
inductive Interruption where
  | failed (failure : AuthFailure)
  | stopped
deriving DecidableEq

/-- The directory, and what the coming file operations are going to do.  When
none is listed they all succeed. -/
structure Files where
  dir : StateDir
  outcomes : List FileOutcome

abbrev FileM := Effect Files Interruption

def fileStep (effect : Extent → StateDir → StateDir)
    (report : String → AuthFailure) : FileM Unit :=
  .of fun files =>
    match files.outcomes with
    | [] => (.ok (), { files with dir := effect .whole files.dir })
    | .done :: rest => (.ok (), ⟨effect .whole files.dir, rest⟩)
    | .failed extent error :: rest =>
        (.error (.failed (report error)), ⟨effect extent files.dir, rest⟩)
    | .stopped extent :: rest =>
        (.error .stopped, ⟨effect extent files.dir, rest⟩)

/-- A step that changes none of the files. -/
def bareStep (report : String → AuthFailure) : FileM Unit :=
  fileStep (fun _ dir => dir) report

/-- A step that is done entirely or not at all. -/
def wholeStep (change : StateDir → StateDir) (report : String → AuthFailure) :
    FileM Unit :=
  fileStep (fun extent dir => if extent = .whole then change dir else dir) report

def readDir : FileM StateDir := .of fun files => (.ok files.dir, files)

/-- The failure of a program as a value; a process that stops does not see it. -/
def attempt {Value : Type} (program : FileM Value) :
    FileM (Except AuthFailure Value) :=
  .of fun files =>
    match program.exec files with
    | (.ok value, files) => (.ok (.ok value), files)
    | (.error (.failed failure), files) => (.ok (.error failure), files)
    | (.error .stopped, files) => (.error .stopped, files)

def stateUnavailable (message : String) : AuthFailure :=
  ⟨"auth_state_unavailable", message, false⟩

def internal (message : String) : AuthFailure :=
  ⟨"auth_internal_error", message, false⟩

def syncParentDirectory (path : String) : FileM Unit :=
  bareStep fun error => storeUnavailable s!"failed to sync `{path}`: {error}" false

/-- Replaces the file at `path` by way of a temporary file. -/
def atomicWrite (stateDir path : String) (install : StateDir → StateDir) :
    FileM Unit := do
  bareStep fun error => stateUnavailable s!"failed to create `{stateDir}`: {error}"
  bareStep fun error => stateUnavailable s!"failed to open `{path}.tmp`: {error}"
  bareStep fun error => internal s!"failed to set key permissions: {error}"
  bareStep fun error => stateUnavailable s!"failed to write `{path}.tmp`: {error}"
  wholeStep install fun error =>
    stateUnavailable s!"failed to replace `{path}`: {error}"
  syncParentDirectory path

/-- `let _ = std::fs::remove_file(..)`. -/
def removeFile (remove : StateDir → StateDir) : FileM Unit := do
  let _ ← attempt (wholeStep remove internal)

/-! ## The log -/

def authWalPath (stateDir : String) : String := s!"{stateDir}/auth.wal"

def authSnapshotPath (stateDir : String) : String := s!"{stateDir}/auth.snapshot"

def maxWalRecord : ℕ := 1024 * 1024

def appendReport (path error : String) (rolledBack : Bool) : AuthFailure :=
  storeUnavailable
    (if rolledBack then s!"failed to durably append `{path}`: {error}"
      else s!"failed to durably append `{path}` and could not restore the " ++
        s!"previous WAL length: {error}")
    rolledBack

/-- What an append of `frame` leaves. -/
def appendExtent (frame : WalFrame) (extent : Extent) (dir : StateDir) :
    StateDir :=
  match extent with
  | .nothing => dir
  | .part => dir.appendFrame .torn
  | .whole => dir.appendFrame frame

variable (crypto : AuthCrypto)

def appendWal (stateDir : String) (adminKey : AesKeyType) (record : WalRecord) :
    FileM Unit := do
  if 2 ^ 32 ≤ crypto.sealedLength record then
    throw (.failed (internal "auth WAL record is too large"))
  let path := authWalPath stateDir
  let created := (← readDir).wal.isNone
  wholeStep (fun dir => { dir with wal := some dir.frames }) fun error =>
    storeUnavailable s!"failed to open `{path}`: {error}" true
  bareStep fun error => storeUnavailable s!"failed to secure `{path}`: {error}" false
  bareStep fun error => storeUnavailable s!"failed to inspect `{path}`: {error}" true
  let start := (← readDir).wal
  match ← attempt (fileStep (appendExtent (.entire ⟨adminKey, record⟩))
      (storeUnavailable · true)) with
  | .ok () => if created then syncParentDirectory path
  | .error failure =>
      let rolledBack ← attempt
        (wholeStep (fun dir => { dir with wal := start }) internal)
      throw (.failed (appendReport path failure.message rolledBack.isOk))

/-- The records of a log, up to the first that cannot be read. -/
def readFrames (adminKey : AesKeyType) :
    List WalFrame → Except AuthFailure (List WalRecord)
  | [] => .ok []
  | .torn :: _ => .error (storeUnavailable "truncated auth WAL record" false)
  | .entire blob :: frames => do
      if maxWalRecord < crypto.sealedLength blob.plain then
        throw (storeUnavailable "auth WAL record exceeds 1 MiB" false)
      let record ← openBlob adminKey blob
      let records ← readFrames adminKey frames
      return record :: records

def truncateAuthWal (stateDir : String) : FileM Unit := do
  let path := authWalPath stateDir
  let created := (← readDir).wal.isNone
  wholeStep StateDir.truncateWal fun error =>
    storeUnavailable s!"failed to truncate `{path}`: {error}" true
  bareStep fun error => storeUnavailable s!"failed to sync `{path}`: {error}" true
  if created then syncParentDirectory path

def installSnapshot (adminKey : AesKeyType) (snapshot : PersistedSnapshot)
    (dir : StateDir) : StateDir :=
  { dir with snapshot := some ⟨adminKey, snapshot⟩ }

def writeSnapshotAndTruncateWal (stateDir : String) (adminKey : AesKeyType)
    (snapshot : PersistedSnapshot) : FileM Unit := do
  atomicWrite stateDir (authSnapshotPath stateDir)
    (installSnapshot adminKey snapshot)
  truncateAuthWal stateDir

/-! ## Loading -/

/-- The snapshot a fresh directory stands for. -/
def initialSnapshot (config : AuthConfig) (instanceId : InstanceId) :
    PersistedSnapshot where
  schemaVersion := snapshotSchemaVersion
  instanceId := instanceId
  generations := List.replicate config.maxTemporaryKeys Generation.first
  entries := []
  legacyProtocol := config.legacyProtocol
  adminReplays := []
  auditRecords := []
  rootEpoch := 0

/-- What the files of a directory stand for. -/
def tryLoadPersistedState (config : AuthConfig) (adminKey : AesKeyType)
    (instanceId : InstanceId) (dir : StateDir) :
    Except AuthFailure PersistedSnapshot := do
  let snapshot ←
    match dir.snapshot with
    | some blob => openBlob adminKey blob
    | none => pure (initialSnapshot config instanceId)
  if snapshot.schemaVersion ≠ snapshotSchemaVersion ∨
      snapshot.instanceId ≠ instanceId then
    throw (storeUnavailable
      "auth snapshot schema or server instance id does not match" false)
  let snapshot := { snapshot with
    generations := growGenerations snapshot.generations config.maxTemporaryKeys }
  let records ← readFrames crypto adminKey dir.frames
  records.foldlM applyWalRecord snapshot

/-- The loaded state, or safe mode. -/
def loadPersistedState (config : AuthConfig) (adminKey : AesKeyType)
    (instanceId : InstanceId) : FileM (Option PersistedSnapshot × Bool) := do
  let dir ← readDir
  let read ← attempt do
    if dir.snapshot.isSome then
      bareStep (storeUnavailable · false)
    if dir.wal.isSome then
      bareStep (storeUnavailable · false)
  match read, tryLoadPersistedState crypto config adminKey instanceId dir with
  | .ok (), .ok state => return (some state, false)
  | _, _ => return (none, true)

end PbMapper.Auth

import PbMapper.Auth.StateDir

/-!
# Administrator key and instance id

The two small files that name what the snapshot belongs to, and their recovery
when a rotation or a reset was cut short: each is first staged in a `.next` file,
and the staged value is promoted if the snapshot already belongs to it.
-/

namespace PbMapper.Auth

open PbMapper.Core

/-! ## Administrator credentials -/

def isAsciiGraphic (byte : UInt8) : Bool := 33 ≤ byte.toNat && byte.toNat ≤ 126

def isEnvSafeAdminKey (key : AesKeyType) : Bool := key.toList.all isAsciiGraphic

def envSafeAdminKeyError : String :=
  "`MSG_HEADER_KEY` administrator key must be 32 printable ASCII bytes without " ++
    "whitespace or NUL"

/-- `TEMP_CREDENTIAL_PREFIX`, `pbmt1_`. -/
def tempCredentialPrefix : List UInt8 := [112, 98, 109, 116, 49, 95]

/-- The value of a digit of URL-safe base64. -/
def base64UrlValue (byte : UInt8) : Option ℕ :=
  let code := byte.toNat
  if 65 ≤ code ∧ code ≤ 90 then some (code - 65)
  else if 97 ≤ code ∧ code ≤ 122 then some (code - 97 + 26)
  else if 48 ≤ code ∧ code ≤ 57 then some (code - 48 + 52)
  else if code = 45 then some 62
  else if code = 95 then some 63
  else none

/-- What `parse_credential` says of a text of 32 bytes behind the prefix of
temporary credentials: its 26 digits are 19 bytes at most. -/
def shortCredentialError (key : AesKeyType) : String :=
  let digits := (key.toList.drop tempCredentialPrefix.length).map base64UrlValue
  if digits.all (·.isSome) && (digits.getLast?.join.map (· % 16)) == some 0 then
    "temporary credential payload must be 45 bytes, got 19"
  else "temporary credential is not valid base64url"

/-- `parse_credential` of a text of 32 bytes, which is an administrator key or
nothing. -/
def parseAdminKey (key : AesKeyType) : Except String AesKeyType :=
  if tempCredentialPrefix.isPrefixOf key.toList then
    .error (shortCredentialError key)
  else if isEnvSafeAdminKey key then .ok key
  else .error envSafeAdminKeyError

def administratorKeyInvalid (message : String) : AuthFailure :=
  ⟨"administrator_key_invalid", message, false⟩

/-! ## Key files -/

def adminKeyPath (stateDir : String) : String := s!"{stateDir}/admin.key"

def nextAdminKeyPath (stateDir : String) : String := s!"{stateDir}/admin.key.next"

def writeAdminKey (stateDir : String) (key : AesKeyType) : FileM Unit :=
  atomicWrite stateDir (adminKeyPath stateDir) ({ · with adminKey := some key })

/-- `write_admin_key_file` at `admin.key.next`, replacing what is there. -/
def stageAdminKey (stateDir : String) (key : AesKeyType) : FileM Unit := do
  if let .error message := parseAdminKey key then
    throw (.failed (administratorKeyInvalid message))
  atomicWrite stateDir (nextAdminKeyPath stateDir)
    ({ · with adminKeyNext := some key })

def removeNextAdminKey : FileM Unit := removeFile ({ · with adminKeyNext := none })

def encryptedAuthStateExists (dir : StateDir) : Bool :=
  dir.snapshot.isSome || dir.wal.isSome

/-- Whether a blob opens under the credential `key`. -/
def opensWith {Plain : Type} (key : AesKeyType) (blob : Sealed Plain) : Bool :=
  match parseAdminKey key with
  | .ok adminKey => (openBlob adminKey blob).isOk
  | .error _ => false

def keyMatchesExistingSnapshot (dir : StateDir) (key : AesKeyType) : Bool :=
  dir.snapshot.any (opensWith key)

variable (crypto : AuthCrypto)

def keyMatchesExistingState (dir : StateDir) (key : AesKeyType) : Bool :=
  keyMatchesExistingSnapshot dir key ||
    (dir.snapshot.isNone &&
      match dir.wal, parseAdminKey key with
      | some [], .ok _ => true
      | some (.entire blob :: _), .ok adminKey =>
          crypto.sealedLength blob.plain ≤ maxWalRecord &&
            (openBlob adminKey blob).isOk
      | _, _ => false)

/-- Where the administrator key of a directory without one comes from: it is
generated, or the process or the machine has one. -/
inductive KeySource where
  | generated (key : AesKeyType)
  | configured (key : AesKeyType)

def administratorKeyRequired (message : String) : AuthFailure :=
  ⟨"administrator_key_required", message, false⟩

def seedAdminKey (stateDir : String) : KeySource → FileM AesKeyType
  | .generated key => do
      if encryptedAuthStateExists (← readDir) then
        throw (.failed ⟨"administrator_key_state_exists",
          s!"refusing to create `{adminKeyPath stateDir}` while encrypted auth " ++
            "state exists; use `pb-mapper admin root-key rotate` or " ++
            "`pb-mapper admin auth-state reset --confirm`",
          false⟩)
      writeAdminKey stateDir key
      return key
  | .configured key => do
      if let .error message := parseAdminKey key then
        throw (.failed (administratorKeyInvalid message))
      let dir ← readDir
      if encryptedAuthStateExists dir && !keyMatchesExistingState crypto dir key then
        throw (.failed (administratorKeyInvalid
          ("MSG_HEADER_KEY does not decrypt the existing authentication state; " ++
            "refusing to write admin.key")))
      writeAdminKey stateDir key
      return key

/-- Reads a file that exists. -/
def readExisting {Content : Type} (report : String → AuthFailure) :
    Option Content → FileM (Option Content)
  | none => return none
  | some content => do
      bareStep report
      return some content

def recoverAdminKeyAfterRotation (stateDir : String) (current : AesKeyType) :
    FileM AesKeyType := do
  let some blob ← readExisting
      (fun error => storeUnavailable
        s!"failed to read `{authSnapshotPath stateDir}`: {error}" false)
      (← readDir).snapshot
    | return current
  if opensWith current blob then
    return current
  let some next ← readExisting
      (fun error => administratorKeyRequired
        ("administrator key file " ++
          s!"`{nextAdminKeyPath stateDir}` could not be read: {error}"))
      (← readDir).adminKeyNext
    | return current
  if !opensWith next blob then
    return current
  truncateAuthWal stateDir
  writeAdminKey stateDir next
  removeNextAdminKey
  return next

/-- The administrator key a server starts with. -/
def loadServerAdminCredential (stateDir : String) (source : KeySource) :
    FileM AesKeyType := do
  let raw ←
    match ← readExisting
        (fun error => administratorKeyRequired
          ("administrator key file " ++
            s!"`{adminKeyPath stateDir}` could not be read: {error}"))
        (← readDir).adminKey with
    | some key => pure key
    | none => seedAdminKey crypto stateDir source
  let raw ← recoverAdminKeyAfterRotation stateDir raw
  match parseAdminKey raw with
  | .ok key => return key
  | .error message => throw (.failed (administratorKeyInvalid message))

/-! ## The instance id -/

def instanceIdPath (stateDir : String) : String := s!"{stateDir}/server-instance-id"

def nextInstanceIdPath (stateDir : String) : String :=
  s!"{stateDir}/server-instance-id.next"

def writeInstanceId (stateDir : String) (id : InstanceId) : FileM Unit :=
  atomicWrite stateDir (instanceIdPath stateDir) ({ · with instanceId := some id })

def stageInstanceId (stateDir : String) (id : InstanceId) : FileM Unit :=
  atomicWrite stateDir (nextInstanceIdPath stateDir)
    ({ · with instanceIdNext := some id })

def removeNextInstanceId : FileM Unit :=
  removeFile ({ · with instanceIdNext := none })

def readInstanceIdFile (path : String) (file : Option InstanceId) :
    FileM (Option InstanceId) :=
  readExisting (fun error => stateUnavailable s!"failed to read `{path}`: {error}")
    file

/-- `fresh` is the random id of a directory without one. -/
def loadOrCreateInstanceId (stateDir : String) (fresh : InstanceId) :
    FileM InstanceId := do
  if let some id ← readInstanceIdFile (instanceIdPath stateDir)
      (← readDir).instanceId then
    return id
  writeInstanceId stateDir fresh
  return fresh

def recoverInstanceIdAfterReset (stateDir : String) (adminKey : AesKeyType)
    (current : InstanceId) : FileM InstanceId := do
  let some next ← readInstanceIdFile (nextInstanceIdPath stateDir)
      (← readDir).instanceIdNext
    | return current
  let some blob ← readExisting
      (fun error => storeUnavailable
        s!"failed to read `{authSnapshotPath stateDir}`: {error}" false)
      (← readDir).snapshot
    | do
        removeNextInstanceId
        return current
  match openBlob adminKey blob with
  | .error _ => return current
  | .ok snapshot =>
      if snapshot.instanceId = current then
        removeNextInstanceId
        return current
      else if snapshot.instanceId ≠ next then
        return current
      else
        truncateAuthWal stateDir
        writeInstanceId stateDir next
        removeNextInstanceId
        return next

/-- A check of the files; one that cannot read them fails. -/
def checkFiles (check : StateDir → Bool) : FileM Bool := do
  match ← attempt (bareStep stateUnavailable) with
  | .ok () => return check (← readDir)
  | .error _ => return false

def resetAlreadyInstalled (adminKey : AesKeyType) (newInstanceId : InstanceId) :
    FileM Bool :=
  checkFiles fun dir =>
    dir.instanceId == some newInstanceId &&
      dir.snapshot.any fun blob =>
        match openBlob adminKey blob with
        | .ok snapshot => snapshot.instanceId = newInstanceId
        | .error _ => false

def rotationAlreadyInstalled (newKey : AesKeyType) : FileM Bool :=
  checkFiles fun dir =>
    keyMatchesExistingSnapshot dir newKey && dir.adminKey == some newKey

end PbMapper.Auth

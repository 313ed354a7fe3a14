import PbMapper.Auth.FileWrites
import PbMapper.Auth.Runtime

/-!
# What a command can do

Everything a command of the actor can do to the memory and the state directory,
said once.  Most commands append one record: they are planned, the record is
appended, and what it says is published.
-/

namespace PbMapper.Auth

open PbMapper.Core MachineWord Effect

/-! ## Programs on the memory -/

/-- The memory and the directory are these. -/
def At (memory : AuthMemory) (dir : StateDir) (world : ActorWorld) : Prop :=
  world.memory = memory ∧ world.files.dir = dir

variable {memory : AuthMemory} {dir : StateDir} {Value : Type}
  {cut : Interruption → ActorWorld → Prop}

theorem getMemory_triple :
    Triple (At memory dir) getMemory
      (fun read world => read = memory ∧ At memory dir world) cut :=
  .of fun _ hat => ⟨hat.1, hat⟩

theorem modifyMemory_triple (change : AuthMemory → AuthMemory) :
    Triple (At memory dir) (modifyMemory change)
      (fun _ => At (change memory) dir) cut :=
  .of fun _ hat => ⟨congrArg change hat.1, hat.2⟩

theorem onFiles_triple {program : FileM Value} {done : Value → Files → Prop}
    {filesCut : Interruption → Files → Prop}
    (hprogram : Triple (·.dir = dir) program done filesCut) :
    Triple (At memory dir) (onFiles program)
      (fun value world => world.memory = memory ∧ done value world.files)
      (fun stop world => world.memory = memory ∧ filesCut stop world.files) := by
  rintro ⟨_, files⟩ ⟨rfl, hdir⟩
  have hended := hprogram files hdir
  rw [onFiles, exec_of]
  cases hexec : program.exec files with
  | mk result last =>
      rw [hexec] at hended
      cases result with
      | ok value => exact ⟨rfl, hended⟩
      | error error => exact ⟨rfl, hended⟩

theorem exec_getMemory_bind (next : AuthMemory → ActorM Value)
    (world : ActorWorld) :
    (getMemory >>= next).exec world = (next world.memory).exec world := rfl

theorem exec_modifyMemory_bind (change : AuthMemory → AuthMemory)
    (next : Unit → ActorM Value) (world : ActorWorld) :
    (modifyMemory change >>= next).exec world =
      (next ()).exec { world with memory := change world.memory } := rfl

/-- The answer of a program that refuses what it cannot do. -/
def answer : Except AuthFailure Value → Except Interruption Value :=
  .mapError .failed

theorem exec_orRefuse_pure {Answer : Type} (result : Except AuthFailure Value)
    (change : Value → Answer) (world : ActorWorld) :
    exec (do return change (← orRefuse result)) world =
      (answer (change <$> result), world) := by
  cases result <;> rfl

/-! ## Appending a record -/

/-- An append under `fail_closed_on_uncertain_wal` that did not go well. -/
inductive AppendCut (memory : AuthMemory) (dir : StateDir) (record : WalRecord) :
    Interruption → AuthMemory → StateDir → Prop where
  | retryable {failure : AuthFailure} {dir' : StateDir}
      (hretryable : failure.retryable = true) (hsame : SameLog dir dir') :
      AppendCut memory dir record (.failed failure) memory dir'
  | uncertain {failure : AuthFailure} {dir' : StateDir}
      (hleaves :
        AppendLeaves (.entire ⟨memory.inner.adminKey, record⟩) dir dir') :
      AppendCut memory dir record (.failed failure) memory.failClosed dir'
  | stopped {dir' : StateDir}
      (hleaves :
        AppendLeaves (.entire ⟨memory.inner.adminKey, record⟩) dir dir') :
      AppendCut memory dir record .stopped memory dir'

variable (crypto : AuthCrypto) (config : AuthConfig)

theorem appendRecord_triple (record : WalRecord) :
    Triple (At memory dir) (appendRecord crypto config record)
      (fun _ => At memory
        (dir.appendFrame (.entire ⟨memory.inner.adminKey, record⟩)))
      (fun stop world =>
        AppendCut memory dir record stop world.memory world.files.dir) := by
  unfold appendRecord
  apply Triple.bind _ getMemory_triple
  intro read
  apply Triple.assume
  rintro rfl
  apply Triple.bind _ ((onFiles_triple (attempt_triple
    (appendWal_triple crypto config.stateDir read.inner.adminKey record dir))).mono
      (fun _ => id) (fun _ _ => id) ?_)
  · rintro (failure | _)
    · cases hretryable : failure.retryable with
      | true =>
          simp only [hretryable, Bool.not_true, Bool.false_eq_true, if_false]
          apply Triple.throw
          rintro world ⟨rfl, -, hsame⟩
          exact .retryable hretryable (hsame failure rfl hretryable)
      | false =>
          simp only [hretryable, Bool.not_false, if_true]
          rintro world ⟨rfl, hleaves, -⟩
          exact .uncertain hleaves
    · exact .pure fun world hworld => hworld
  · rintro stop world ⟨hmemory, rfl, hleaves, -⟩
    rw [hmemory]
    exact .stopped hleaves

/-! ## Commands that append a record -/

/-- How a command that appends one record goes: the memory it does so from and
the record, and once that is in the log, the answer and the memory. -/
inductive Appends (env : Surroundings) (memory : AuthMemory) :
    AuthCommand → AuthMemory → WalRecord → Except AuthFailure AuthResponse →
      AuthMemory → Prop where
  | claim {fingerprint : MutationFingerprint} {clientTimestamp : ℕ}
      {pruned : AuthMemory}
      (hpruned : pruned = memory.pruneExpiredAdminReplays (env.clock 0))
      (hfresh : fingerprint ∉ pruned.adminReplays)
      (hroom : pruned.adminReplays.card < adminReplayCapacity)
      (hwindow : absDiff (env.clock 0) clientTimestamp ≤
        adminReplayRetention / 2) :
      Appends env memory (.claimAdminMutation fingerprint clientTimestamp) pruned
        (.adminReplay ⟨fingerprint, clientTimestamp, env.clock 0⟩) (.ok .claimed)
        (pruned.admitMutation ⟨fingerprint, clientTimestamp, env.clock 0⟩)
  | issue {ttl : Duration} {label : Option String} {entry : PersistedEntry}
      {audit : AuditRecord} {published : AuthMemory}
      (hplan : memory.planIssue config env.clock ttl label = .ok entry)
      (haudit : audit =
        ⟨env.clock 2, "temporary_key_issue", some entry.keyId, entry.label⟩)
      (hpublished : published = (memory.pushAuditRecord audit).publishIssue entry) :
      Appends env memory (.issue ttl label) memory (.mutation (.issue entry) audit)
        (.issued <$> published.metadataWithCredential crypto entry.keyId true)
        published
  | show {keyId : KeyId} {reveal : Bool} {shown : IssuedTemporaryKey}
      {audit : AuditRecord}
      (hshown : memory.metadataWithCredential crypto keyId reveal = .ok shown)
      (haudit : audit = ⟨env.clock 0,
        if reveal then "temporary_key_reveal" else "temporary_key_show",
        some keyId, shown.metadata.label⟩) :
      Appends env memory (.show keyId reveal) memory (.audit audit)
        (.ok (.shown shown)) (memory.pushAuditRecord audit)
  | renew {keyId : KeyId} {ttl : Duration} {expiresAt : ℕ} {label : Option String}
      {audit : AuditRecord} {between renewed : AuthMemory}
      (hplan : memory.planRenew config env.clock keyId ttl = .ok (expiresAt, label))
      (haudit : audit = ⟨env.clock 2, "temporary_key_renew", some keyId, label⟩)
      (hbetween : between = env.checks.beforeInstall.foldl
        (AuthMemory.check crypto) (memory.pushAuditRecord audit))
      (hpublish :
        between.publishRenew env.checks.beforeStore keyId expiresAt = .ok renewed) :
      Appends env memory (.renew keyId ttl) memory
        (.mutation (.renew keyId expiresAt) audit)
        (.renewed <$> renewed.metadataWithCredential crypto keyId true) renewed
  | renewLost {keyId : KeyId} {ttl : Duration} {expiresAt : ℕ}
      {label : Option String} {audit : AuditRecord} {between : AuthMemory}
      {failure : AuthFailure}
      (hplan : memory.planRenew config env.clock keyId ttl = .ok (expiresAt, label))
      (haudit : audit = ⟨env.clock 2, "temporary_key_renew", some keyId, label⟩)
      (hbetween : between = env.checks.beforeInstall.foldl
        (AuthMemory.check crypto) (memory.pushAuditRecord audit))
      (hpublish : between.publishRenew env.checks.beforeStore keyId expiresAt =
        .error failure) :
      Appends env memory (.renew keyId ttl) memory
        (.mutation (.renew keyId expiresAt) audit) (.error failure) between
  | revoke {keyId : KeyId} {current : KeyState} {audit : AuditRecord}
      {before revoked : AuthMemory}
      (hplan : memory.planRevoke keyId = .ok current)
      (haudit : audit =
        ⟨env.clock 1, "temporary_key_revoke", some keyId, current.label⟩)
      (hbefore : before = memory.pushAuditRecord audit)
      (hpublish : before.publishRevoke keyId (env.clock 0) = .ok revoked) :
      Appends env memory (.revoke keyId) memory
        (.mutation (.revoke keyId (env.clock 0)) audit)
        (.revoked <$> revoked.revokedMetadata keyId current
          (before.slot? keyId.slot.asIndex)) revoked
  | revokeLost {keyId : KeyId} {current : KeyState} {audit : AuditRecord}
      {before : AuthMemory} {failure : AuthFailure}
      (hplan : memory.planRevoke keyId = .ok current)
      (haudit : audit =
        ⟨env.clock 1, "temporary_key_revoke", some keyId, current.label⟩)
      (hbefore : before = memory.pushAuditRecord audit)
      (hpublish : before.publishRevoke keyId (env.clock 0) = .error failure) :
      Appends env memory (.revoke keyId) memory
        (.mutation (.revoke keyId (env.clock 0)) audit) (.error failure) before
  | setLegacyProtocol {policy : LegacyProtocolPolicy} {audit : AuditRecord}
      (hopen : ensureStoreAvailable memory = .ok ())
      (haudit : audit =
        ⟨env.clock 0, "legacy_protocol_update", none, some (debugPolicy policy)⟩) :
      Appends env memory (.setLegacyProtocol policy) memory
        (.mutation (.legacyProtocol policy) audit) (.ok .legacyProtocolSet)
        ((memory.pushAuditRecord audit).updateInner
          ({ · with legacyProtocolAllowed := policy.isAllowed }))
  | audit {action : String} {keyId : Option KeyId} {detail : Option String}
      {audit : AuditRecord} (haudit : audit = ⟨env.clock 0, action, keyId, detail⟩) :
      Appends env memory (.audit action keyId detail) memory (.audit audit)
        (.ok .audited) (memory.pushAuditRecord audit)

/-! ## All commands -/

/-- A snapshot that was not written, or not with an empty log. -/
inductive CompactCut (memory : AuthMemory) (dir : StateDir)
    (snapshot : PersistedSnapshot) :
    Interruption → AuthMemory → StateDir → Prop where
  | failed {failure : AuthFailure} {made : List (StateDir → StateDir)}
      (hmade : made <+:
        [installSnapshot memory.inner.adminKey snapshot, StateDir.truncateWal]) :
      CompactCut memory dir snapshot (.failed failure) memory.failClosed
        (applyAll made dir)
  | stopped {made : List (StateDir → StateDir)}
      (hmade : made <+:
        [installSnapshot memory.inner.adminKey snapshot, StateDir.truncateWal]) :
      CompactCut memory dir snapshot .stopped memory (applyAll made dir)

/-- The directory once a snapshot is written. -/
def StateDir.compacted (dir : StateDir) (adminKey : AesKeyType)
    (snapshot : PersistedSnapshot) : StateDir :=
  (installSnapshot adminKey snapshot dir).truncateWal

/-- The writes of a reset. -/
def resetWrites (adminKey : AesKeyType) (newInstanceId : InstanceId)
    (snapshot : PersistedSnapshot) : List (StateDir → StateDir) :=
  [({ · with instanceIdNext := some newInstanceId }),
    installSnapshot adminKey snapshot, StateDir.truncateWal,
    ({ · with instanceId := some newInstanceId })]

/-- The writes of a rotation. -/
def rotateWrites (newKey : AesKeyType) (snapshot : PersistedSnapshot) :
    List (StateDir → StateDir) :=
  [({ · with adminKeyNext := some newKey }), installSnapshot newKey snapshot,
    StateDir.truncateWal, ({ · with adminKey := some newKey })]

def resetAudit (env : Surroundings) : AuditRecord :=
  ⟨env.clock 0, "auth_state_reset", none, none⟩

def rotateAudit (env : Surroundings) : AuditRecord :=
  ⟨env.clock 0, "administrator_key_rotate", none, none⟩

/-- The snapshot of a reset, from the memory with the new epoch. -/
def resetSnapshot (env : Surroundings) (memory : AuthMemory) : PersistedSnapshot :=
  (memory.emptySnapshot env.newInstanceId memory.adminReplayOrder).pushAudit
    (resetAudit env)

/-- The snapshot of a rotation, from the memory with the new epoch. -/
def rotateSnapshot (env : Surroundings) (memory : AuthMemory) :
    PersistedSnapshot :=
  (memory.emptySnapshot memory.inner.instanceId []).pushAudit (rotateAudit env)

def gcAudit (env : Surroundings) (removed : ℕ) : AuditRecord :=
  ⟨env.clock 1, "temporary_key_gc", none, some s!"removed={removed}"⟩

/-- A replacement of the root that did not go well. -/
inductive ReplaceCut (memory : AuthMemory) (dir : StateDir)
    (writes : List (StateDir → StateDir)) (installed : StateDir → Prop)
    (remove : StateDir → StateDir) :
    Interruption → AuthMemory → StateDir → Prop where
  | failed {failure : AuthFailure} {made : List (StateDir → StateDir)}
      (hmade : made <+: writes) :
      ReplaceCut memory dir writes installed remove (.failed failure)
        memory.failClosed (applyAll made dir)
  | stopped {made : List (StateDir → StateDir)} (hmade : made <+: writes) :
      ReplaceCut memory dir writes installed remove .stopped memory
        (applyAll made dir)
  | removed {made : List (StateDir → StateDir)} (hmade : made <+: writes)
      (hinstalled : installed (applyAll made dir)) :
      ReplaceCut memory dir writes installed remove .stopped memory
        (remove (applyAll made dir))

/-- Everything a command does: its end, the memory and the directory. -/
inductive CommandMove (env : Surroundings) (memory : AuthMemory) (dir : StateDir) :
    AuthCommand → Except Interruption AuthResponse → AuthMemory → StateDir →
      Prop where
  | refused {command : AuthCommand} {failure : AuthFailure} :
      CommandMove env memory dir command (.error (.failed failure)) memory dir
  | claimRefused {fingerprint : MutationFingerprint} {clientTimestamp : ℕ}
      {failure : AuthFailure} :
      CommandMove env memory dir (.claimAdminMutation fingerprint clientTimestamp)
        (.error (.failed failure))
        (memory.pruneExpiredAdminReplays (env.clock 0)) dir
  | listed {page pageSize : ℕ} :
      CommandMove env memory dir (.list page pageSize)
        (.ok (.listed (memory.actorList page pageSize))) memory dir
  | status :
      CommandMove env memory dir .status (.ok (.status memory.actorStatus)) memory
        dir
  | appended {command : AuthCommand} {base published : AuthMemory}
      {record : WalRecord} {result : Except AuthFailure AuthResponse}
      (happends :
        Appends crypto config env memory command base record result published) :
      CommandMove env memory dir command (answer result) published
        (dir.appendFrame (.entire ⟨base.inner.adminKey, record⟩))
  | appendCut {command : AuthCommand} {base published last : AuthMemory}
      {record : WalRecord} {result : Except AuthFailure AuthResponse}
      {stop : Interruption} {dir' : StateDir}
      (happends :
        Appends crypto config env memory command base record result published)
      (hcut : AppendCut base dir record stop last dir') :
      CommandMove env memory dir command (.error stop) last dir'
  | collected {kept : AuthMemory} {removed : ℕ}
      (hopen : ensureStoreAvailable memory = .ok ())
      (hkept : memory.collectGarbage (env.clock 0) = (kept, removed)) :
      CommandMove env memory dir .gc (.ok (.collected removed))
        (kept.pushAuditRecord (gcAudit env removed))
        (dir.compacted kept.inner.adminKey
          (kept.buildSnapshot.pushAudit (gcAudit env removed)))
  | collectCut {kept last : AuthMemory} {removed : ℕ} {stop : Interruption}
      {dir' : StateDir}
      (hopen : ensureStoreAvailable memory = .ok ())
      (hkept : memory.collectGarbage (env.clock 0) = (kept, removed))
      (hcut : CompactCut kept dir
        (kept.buildSnapshot.pushAudit (gcAudit env removed)) stop last dir') :
      CommandMove env memory dir .gc (.error stop) last dir'
  | reset {bumped : AuthMemory} {made : List (StateDir → StateDir)}
      {dir' : StateDir}
      (hbumped : bumped = memory.bumpRootEpoch)
      (hmade : made <+: resetWrites bumped.inner.adminKey env.newInstanceId
        (resetSnapshot env bumped))
      (hinstalled : (applyAll made dir).instanceId = some env.newInstanceId)
      (hremoved : dir' = applyAll made dir ∨
        dir' = { applyAll made dir with instanceIdNext := none }) :
      CommandMove env memory dir .reset (.ok .reset)
        (bumped.finishReset env.newInstanceId (resetAudit env) (env.clock 1)) dir'
  | resetCut {bumped last : AuthMemory} {stop : Interruption} {dir' : StateDir}
      (hbumped : bumped = memory.bumpRootEpoch)
      (hcut : ReplaceCut bumped dir (resetWrites bumped.inner.adminKey
        env.newInstanceId (resetSnapshot env bumped))
        (·.instanceId = some env.newInstanceId)
        ({ · with instanceIdNext := none }) stop last dir') :
      CommandMove env memory dir .reset (.error stop) last dir'
  | rotated {newKey : AesKeyType} {bumped : AuthMemory}
      {made : List (StateDir → StateDir)} {dir' : StateDir}
      (hnew : newKey ≠ memory.inner.adminKey)
      (hbumped : bumped = memory.bumpRootEpoch)
      (hmade : made <+: rotateWrites newKey (rotateSnapshot env bumped))
      (hinstalled : (applyAll made dir).adminKey = some newKey)
      (hremoved : dir' = applyAll made dir ∨
        dir' = { applyAll made dir with adminKeyNext := none }) :
      CommandMove env memory dir (.rotateRoot newKey) (.ok .rotated)
        { bumped.finishRotation newKey (rotateAudit env) (env.clock 1) with
          adminReplays := ∅
          adminReplayOrder := [] } dir'
  | rotateCut {newKey : AesKeyType} {bumped last : AuthMemory}
      {stop : Interruption} {dir' : StateDir}
      (hnew : newKey ≠ memory.inner.adminKey)
      (hbumped : bumped = memory.bumpRootEpoch)
      (hcut : ReplaceCut bumped dir
        (rotateWrites newKey (rotateSnapshot env bumped))
        (·.adminKey = some newKey) ({ · with adminKeyNext := none }) stop last
        dir') :
      CommandMove env memory dir (.rotateRoot newKey) (.error stop) last dir'

/-! ## The commands make these moves -/

variable {crypto : AuthCrypto} {config : AuthConfig}

/-- A program of the actor whose every end is a move. -/
def MovesTo (memory : AuthMemory) (dir : StateDir) (program : ActorM Value)
    (move : Except Interruption Value → AuthMemory → StateDir → Prop) : Prop :=
  Triple (At memory dir) program
    (fun value world => move (.ok value) world.memory world.files.dir)
    (fun stop world => move (.error stop) world.memory world.files.dir)

theorem compact_triple (snapshot : PersistedSnapshot) :
    Triple (At memory dir) (compact config snapshot)
      (fun _ => At memory (dir.compacted memory.inner.adminKey snapshot))
      (fun stop world =>
        CompactCut memory dir snapshot stop world.memory world.files.dir) := by
  unfold compact
  apply Triple.bind _ getMemory_triple
  intro read
  apply Triple.assume
  rintro rfl
  apply Triple.bind _ ((onFiles_triple (attempt_triple
    (writes_writeSnapshotAndTruncateWal config.stateDir read.inner.adminKey snapshot
      dir))).mono (fun _ => id) (fun _ _ => id) ?_)
  · rintro (failure | _)
    · rintro world ⟨rfl, made, hmade, hdir⟩
      change CompactCut world.memory dir snapshot (.failed failure)
        world.memory.failClosed world.files.dir
      rw [hdir]
      exact .failed hmade
    · exact .pure fun world hworld => hworld
  · rintro stop world ⟨hmemory, rfl, made, hmade, hdir⟩
    rw [hmemory, hdir]
    exact .stopped hmade

theorem checkFiles_triple (check : StateDir → Bool) (dir : StateDir) :
    Triple (·.dir = dir) (checkFiles check)
      (fun value files => files.dir = dir ∧ (value = true → check dir = true))
      (fun stop files => stop = .stopped ∧ files.dir = dir) := by
  unfold checkFiles
  apply Triple.bind _ ((attempt_triple (bareStep_triple stateUnavailable dir)).mono
    (fun _ => id) (fun _ _ => id) fun stop files h => ⟨h.1, h.2.1⟩)
  rintro (failure | _)
  · exact .pure fun files hfiles => ⟨hfiles.1, fun h => nomatch h⟩
  · apply Triple.bind _ ((readDir_triple dir).mono (fun _ => id) (fun _ _ => id)
      fun _ _ => False.elim)
    intro read
    apply Triple.assume
    rintro rfl
    exact .pure fun files hfiles => ⟨hfiles, id⟩

theorem unlessInstalled_triple {program : FileM Unit} {installed : FileM Bool}
    {writes : List (StateDir → StateDir)} {good : StateDir → Prop}
    {remove : StateDir → StateDir} (hwrites : Writes writes program)
    (hinstalled : ∀ dir, Triple (·.dir = dir) installed
      (fun value files => files.dir = dir ∧ (value = true → good dir))
      (fun stop files => stop = .stopped ∧ files.dir = dir))
    (hgood : good (applyAll writes dir)) :
    Triple (At memory dir) (unlessInstalled program installed)
      (fun _ world => ∃ made, (made <+: writes ∧ good (applyAll made dir)) ∧
        At memory (applyAll made dir) world)
      (fun stop world => ReplaceCut memory dir writes good remove stop
        world.memory world.files.dir) := by
  unfold unlessInstalled
  apply Triple.bind _ ((onFiles_triple (attempt_triple (hwrites dir))).mono
    (fun _ => id) (fun _ _ => id) ?_)
  · rintro (failure | _)
    · rintro world ⟨hmemory, made, hmade, hdir⟩
      refine Triple.bind _ ((onFiles_triple (hinstalled (applyAll made dir))).mono
        (fun _ => id) (fun _ _ => id) ?_) ?_ world ⟨hmemory, hdir⟩
      · rintro stop last ⟨hlast, rfl, hfiles⟩
        rw [hlast, hfiles]
        exact .stopped hmade
      · rintro (_ | _)
        · rintro last ⟨rfl, hfiles, -⟩
          change ReplaceCut last.memory dir writes good remove (.failed failure)
            last.memory.failClosed last.files.dir
          rw [hfiles]
          exact .failed hmade
        · exact .pure fun last hlast =>
            ⟨made, ⟨hmade, hlast.2.2 rfl⟩, hlast.1, hlast.2.1⟩
    · exact .pure fun world hworld =>
        ⟨writes, ⟨List.prefix_rfl, hgood⟩, hworld⟩
  · rintro stop world ⟨hmemory, rfl, made, hmade, hdir⟩
    rw [hmemory, hdir]
    exact .stopped hmade

variable {env : Surroundings} {command : AuthCommand}

theorem appended_moves {base published : AuthMemory} {record : WalRecord}
    {result : Except AuthFailure AuthResponse} {rest : Unit → ActorM AuthResponse}
    (happends :
      Appends crypto config env memory command base record result published)
    (hrest : ∀ world, world.memory = base →
      (rest ()).exec world = (answer result, { world with memory := published })) :
    Triple (At base dir) (appendRecord crypto config record >>= rest)
      (fun response world => CommandMove crypto config env memory dir command
        (.ok response) world.memory world.files.dir)
      (fun stop world => CommandMove crypto config env memory dir command
        (.error stop) world.memory world.files.dir) := by
  apply Triple.bind _ ((appendRecord_triple crypto config record).mono
    (fun _ => id) (fun _ _ => id) fun stop world => .appendCut happends)
  rintro ⟨⟩ world ⟨hmemory, hdir⟩
  rw [hrest world hmemory]
  have hmove : CommandMove crypto config env memory dir command (answer result)
      published world.files.dir := by
    rw [hdir]
    exact .appended happends
  cases result with
  | ok response => exact hmove
  | error failure => exact hmove

theorem refuse_moves (failure : AuthFailure) (next : Value → ActorM AuthResponse) :
    MovesTo memory dir (refuse failure >>= next)
      (CommandMove crypto config env memory dir command) := by
  rintro world ⟨rfl, rfl⟩
  exact .refused

theorem refused_moves {next : Value → ActorM AuthResponse}
    (failure : AuthFailure) :
    MovesTo memory dir (orRefuse (.error failure) >>= next)
      (CommandMove crypto config env memory dir command) :=
  refuse_moves failure next

theorem claim_moves (fingerprint : MutationFingerprint) (clientTimestamp : ℕ) :
    MovesTo memory dir
      (runCommand crypto config env
        (.claimAdminMutation fingerprint clientTimestamp))
      (CommandMove crypto config env memory dir
        (.claimAdminMutation fingerprint clientTimestamp)) := by
  rw [runCommand, actorClaimAdminMutation]
  simp only [bind_assoc]
  apply Triple.bind _ (modifyMemory_triple _)
  intro _
  apply Triple.bind _ getMemory_triple
  intro pruned
  apply Triple.assume
  intro hpruned
  have hrefused : ∀ (failure : AuthFailure)
      (next : PUnit → ActorM AuthResponse),
      Triple (At (memory.pruneExpiredAdminReplays (env.clock 0)) dir)
        (refuse failure >>= next)
        (fun response world => CommandMove crypto config env memory dir
          (.claimAdminMutation fingerprint clientTimestamp) (.ok response)
            world.memory world.files.dir)
        (fun stop world => CommandMove crypto config env memory dir
          (.claimAdminMutation fingerprint clientTimestamp) (.error stop)
            world.memory world.files.dir) := by
    rintro failure next world ⟨hmemory, rfl⟩
    change CommandMove crypto config env memory world.files.dir _ _ world.memory _
    rw [hmemory]
    exact .claimRefused
  split
  · exact hrefused _ _
  split
  · exact hrefused _ _
  split
  · exact hrefused _ _
  rw [← hpruned, bind_assoc]
  apply appended_moves (.claim hpruned (by assumption) (by omega) (by omega))
  rintro world rfl
  rfl

theorem issue_moves (ttl : Duration) (label : Option String) :
    MovesTo memory dir (runCommand crypto config env (.issue ttl label))
      (CommandMove crypto config env memory dir (.issue ttl label)) := by
  rw [runCommand, actorIssue]
  simp only [appendMutation, map_eq_pure_bind, bind_assoc]
  apply Triple.bind _ getMemory_triple
  intro read
  apply Triple.assume
  rintro rfl
  cases hplan : read.planIssue config env.clock ttl label with
  | error failure => exact refused_moves failure
  | ok entry =>
      apply appended_moves (.issue hplan rfl rfl)
      rintro world rfl
      rw [exec_modifyMemory_bind, exec_modifyMemory_bind, exec_getMemory_bind,
        exec_orRefuse_pure]

theorem show_moves (keyId : KeyId) (reveal : Bool) :
    MovesTo memory dir (runCommand crypto config env (.show keyId reveal))
      (CommandMove crypto config env memory dir (.show keyId reveal)) := by
  rw [runCommand, actorShow]
  simp only [appendAudit, map_eq_pure_bind, bind_assoc]
  apply Triple.bind _ getMemory_triple
  intro read
  apply Triple.assume
  rintro rfl
  cases hshown : read.metadataWithCredential crypto keyId reveal with
  | error failure => exact refused_moves failure
  | ok shown =>
      apply appended_moves (.show hshown rfl)
      rintro world rfl
      rfl

theorem renew_moves (keyId : KeyId) (ttl : Duration) :
    MovesTo memory dir (runCommand crypto config env (.renew keyId ttl))
      (CommandMove crypto config env memory dir (.renew keyId ttl)) := by
  rw [runCommand, actorRenew]
  simp only [appendMutation, map_eq_pure_bind, bind_assoc]
  apply Triple.bind _ getMemory_triple
  intro read
  apply Triple.assume
  rintro rfl
  cases hplan : read.planRenew config env.clock keyId ttl with
  | error failure => exact refused_moves failure
  | ok planned =>
      obtain ⟨expiresAt, label⟩ := planned
      cases hpublish : (env.checks.beforeInstall.foldl (AuthMemory.check crypto)
          (read.pushAuditRecord ⟨env.clock 2, "temporary_key_renew", some keyId,
            label⟩)).publishRenew env.checks.beforeStore keyId expiresAt with
      | error failure =>
          apply appended_moves (.renewLost hplan rfl rfl hpublish)
          rintro world rfl
          rw [exec_modifyMemory_bind, exec_modifyMemory_bind, exec_getMemory_bind]
          simp only
          rw [hpublish]
          rfl
      | ok renewed =>
          apply appended_moves (.renew hplan rfl rfl hpublish)
          rintro world rfl
          rw [exec_modifyMemory_bind, exec_modifyMemory_bind, exec_getMemory_bind]
          simp only
          rw [hpublish]
          exact exec_orRefuse_pure _ AuthResponse.renewed _

theorem revoke_moves (keyId : KeyId) :
    MovesTo memory dir (runCommand crypto config env (.revoke keyId))
      (CommandMove crypto config env memory dir (.revoke keyId)) := by
  rw [runCommand, actorRevoke]
  simp only [appendMutation, map_eq_pure_bind, bind_assoc]
  apply Triple.bind _ getMemory_triple
  intro read
  apply Triple.assume
  rintro rfl
  cases hplan : read.planRevoke keyId with
  | error failure => exact refused_moves failure
  | ok current =>
      cases hpublish : (read.pushAuditRecord ⟨env.clock 1, "temporary_key_revoke",
          some keyId, current.label⟩).publishRevoke keyId (env.clock 0) with
      | error failure =>
          apply appended_moves (.revokeLost hplan rfl rfl hpublish)
          rintro world rfl
          rw [exec_modifyMemory_bind, exec_getMemory_bind]
          simp only
          rw [hpublish]
          rfl
      | ok revoked =>
          apply appended_moves (.revoke hplan rfl rfl hpublish)
          rintro world rfl
          rw [exec_modifyMemory_bind, exec_getMemory_bind]
          simp only
          rw [hpublish]
          exact exec_orRefuse_pure _ AuthResponse.revoked _

theorem setLegacyProtocol_moves (policy : LegacyProtocolPolicy) :
    MovesTo memory dir (runCommand crypto config env (.setLegacyProtocol policy))
      (CommandMove crypto config env memory dir (.setLegacyProtocol policy)) := by
  rw [runCommand, actorSetLegacyProtocol]
  simp only [appendMutation, bind_assoc]
  apply Triple.bind _ getMemory_triple
  intro read
  apply Triple.assume
  rintro rfl
  cases hopen : ensureStoreAvailable read with
  | error failure => exact refused_moves failure
  | ok value =>
      apply Triple.bind (fun _ => At read dir) (.pure fun _ => id)
      intro _
      apply appended_moves (.setLegacyProtocol hopen rfl)
      rintro world rfl
      rw [exec_modifyMemory_bind, exec_modifyMemory_bind, exec_pure]
      rfl

theorem audit_moves (action : String) (keyId : Option KeyId)
    (detail : Option String) :
    MovesTo memory dir (runCommand crypto config env (.audit action keyId detail))
      (CommandMove crypto config env memory dir (.audit action keyId detail)) := by
  rw [runCommand]
  simp only [appendAudit, bind_assoc]
  apply appended_moves (.audit rfl)
  rintro world rfl
  rfl

theorem gc_moves :
    MovesTo memory dir (runCommand crypto config env .gc)
      (CommandMove crypto config env memory dir .gc) := by
  rw [runCommand, actorGc]
  simp only [map_eq_pure_bind, bind_assoc]
  apply Triple.bind _ getMemory_triple
  intro read
  apply Triple.assume
  rintro rfl
  cases hopen : ensureStoreAvailable read with
  | error failure => exact refused_moves failure
  | ok value =>
      apply Triple.bind (fun _ => At read dir) (.pure fun _ => id)
      intro _
      apply Triple.bind _ getMemory_triple
      intro again
      apply Triple.assume
      rintro rfl
      cases hkept : again.collectGarbage (env.clock 0) with
      | mk kept removed =>
          apply Triple.bind _ (modifyMemory_triple _)
          intro _
          apply Triple.bind _ ((compact_triple _).mono (fun _ => id)
            (fun _ _ => id) fun stop world => .collectCut hopen hkept)
          rintro _ world ⟨hmemory, hdir⟩
          change CommandMove crypto config env again dir .gc (.ok _)
            (world.memory.pushAuditRecord _) world.files.dir
          rw [hmemory, hdir]
          exact .collected hopen hkept

theorem writes_stageAdminKey (stateDir : String) (key : AesKeyType) :
    Writes [({ · with adminKeyNext := some key })] (stageAdminKey stateDir key) := by
  unfold stageAdminKey
  simp only
  split
  · intro dir
    apply Triple.bind (fun _ _ => False) (.throw ?_) fun _ _ => False.elim
    exact fun files hfiles => ⟨[], List.nil_prefix, hfiles⟩
  · exact writes_atomicWrite _ _ _

theorem resetAlreadyInstalled_triple (adminKey : AesKeyType)
    (newInstanceId : InstanceId) (dir : StateDir) :
    Triple (·.dir = dir) (resetAlreadyInstalled adminKey newInstanceId)
      (fun value files => files.dir = dir ∧
        (value = true → dir.instanceId = some newInstanceId))
      (fun stop files => stop = .stopped ∧ files.dir = dir) := by
  apply (checkFiles_triple _ dir).mono (fun _ => id) ?_ (fun _ _ => id)
  rintro value files ⟨hfiles, hcheck⟩
  refine ⟨hfiles, fun hvalue => ?_⟩
  have hid := (Bool.and_eq_true_iff.mp (hcheck hvalue)).1
  exact beq_iff_eq.mp hid

theorem rotationAlreadyInstalled_triple (newKey : AesKeyType) (dir : StateDir) :
    Triple (·.dir = dir) (rotationAlreadyInstalled newKey)
      (fun value files => files.dir = dir ∧
        (value = true → dir.adminKey = some newKey))
      (fun stop files => stop = .stopped ∧ files.dir = dir) := by
  apply (checkFiles_triple _ dir).mono (fun _ => id) ?_ (fun _ _ => id)
  rintro value files ⟨hfiles, hcheck⟩
  refine ⟨hfiles, fun hvalue => ?_⟩
  have hkey := (Bool.and_eq_true_iff.mp (hcheck hvalue)).2
  exact beq_iff_eq.mp hkey

/-- The end of a reset or a rotation: the staged file is removed and the memory
changed. -/
theorem replaced_moves {writes : List (StateDir → StateDir)}
    {good : StateDir → Prop} {remove : StateDir → StateDir}
    {move : Except Interruption AuthResponse → AuthMemory → StateDir → Prop}
    {program : ActorM Unit} {rest : Unit → ActorM AuthResponse}
    {published : AuthMemory} {response : AuthResponse}
    (hrest : ∀ world, world.memory = memory → (rest ()).exec world =
      (.ok response, { world with memory := published }))
    (hprogram : Triple (At memory dir) program
      (fun _ world => ∃ made, (made <+: writes ∧ good (applyAll made dir)) ∧
        At memory (applyAll made dir) world)
      (fun stop world => ReplaceCut memory dir writes good remove stop
        world.memory world.files.dir))
    (hcut : ∀ stop last dir',
      ReplaceCut memory dir writes good remove stop last dir' →
        move (.error stop) last dir')
    (hdone : ∀ made dir', made <+: writes → good (applyAll made dir) →
      (dir' = applyAll made dir ∨ dir' = remove (applyAll made dir)) →
        move (.ok response) published dir') :
    MovesTo memory dir
      (program >>= fun _ => onFiles (removeFile remove) >>= rest) move := by
  apply Triple.bind _ (hprogram.mono (fun _ => id) (fun _ _ => id)
    fun stop world => hcut stop world.memory world.files.dir)
  intro _
  apply Triple.choose
  intro made
  apply Triple.assume
  rintro ⟨hmade, hgood⟩
  apply Triple.bind _ ((onFiles_triple (removeFile_triple remove _)).mono
    (fun _ => id) (fun _ _ => id) ?_)
  · rintro ⟨⟩ world ⟨hmemory, hdir⟩
    rw [hrest world hmemory]
    exact hdone made world.files.dir hmade hgood hdir
  · rintro stop world ⟨hmemory, rfl, hdir⟩
    apply hcut
    rw [hmemory]
    rcases hdir with hdir | hdir
    · rw [hdir]
      exact .stopped hmade
    · rw [hdir]
      exact .removed hmade hgood

theorem reset_moves :
    MovesTo memory dir (runCommand crypto config env .reset)
      (CommandMove crypto config env memory dir .reset) := by
  rw [runCommand, actorReset]
  simp only [bind_assoc]
  apply Triple.bind _ (modifyMemory_triple _)
  intro _
  apply Triple.bind _ getMemory_triple
  intro bumped
  apply Triple.assume
  intro hbumped
  rw [← hbumped]
  have hwrites : Writes (resetWrites bumped.inner.adminKey env.newInstanceId
      (resetSnapshot env bumped)) (do
    stageInstanceId config.stateDir env.newInstanceId
    writeSnapshotAndTruncateWal config.stateDir bumped.inner.adminKey
      (resetSnapshot env bumped)
    writeInstanceId config.stateDir env.newInstanceId) :=
    (writes_atomicWrite _ _ _).bind
      ((writes_writeSnapshotAndTruncateWal _ _ _).bind (writes_atomicWrite _ _ _))
  apply replaced_moves ?_ (unlessInstalled_triple hwrites
    (resetAlreadyInstalled_triple bumped.inner.adminKey env.newInstanceId) rfl)
  · exact fun stop last dir' => .resetCut hbumped
  · exact fun made dir' => .reset hbumped
  · rintro world rfl
    rw [exec_modifyMemory_bind, exec_pure]
    rfl

theorem rotateRoot_moves (newKey : AesKeyType) :
    MovesTo memory dir (runCommand crypto config env (.rotateRoot newKey))
      (CommandMove crypto config env memory dir (.rotateRoot newKey)) := by
  rw [runCommand, actorRotateRoot]
  simp only [bind_assoc]
  apply Triple.bind _ getMemory_triple
  intro read
  apply Triple.assume
  rintro rfl
  split
  · exact refuse_moves _ _
  split
  · exact refuse_moves _ _
  rename_i hnew henvSafe
  simp only [bind_assoc]
  apply Triple.bind _ (modifyMemory_triple _)
  intro _
  apply Triple.bind _ getMemory_triple
  intro bumped
  apply Triple.assume
  intro hbumped
  rw [← hbumped]
  have hwrites : Writes (rotateWrites newKey (rotateSnapshot env bumped)) (do
    stageAdminKey config.stateDir newKey
    writeSnapshotAndTruncateWal config.stateDir newKey (rotateSnapshot env bumped)
    writeAdminKey config.stateDir newKey) :=
    (writes_stageAdminKey _ _).bind
      ((writes_writeSnapshotAndTruncateWal _ _ _).bind (writes_atomicWrite _ _ _))
  apply replaced_moves ?_ (unlessInstalled_triple hwrites
    (rotationAlreadyInstalled_triple newKey) rfl)
  · exact fun stop last dir' => .rotateCut hnew hbumped
  · exact fun made dir' => .rotated hnew hbumped
  · rintro world rfl
    rw [exec_modifyMemory_bind, exec_modifyMemory_bind, exec_pure]
    rfl

variable (crypto config env) in
/-- Everything a command sent under `authority` does. -/
theorem command_moves (authority : LeaseId) (command : AuthCommand) :
    MovesTo memory dir (actorCommand crypto config env authority command)
      (CommandMove crypto config env memory dir command) := by
  unfold actorCommand
  apply Triple.bind _ getMemory_triple
  intro read
  apply Triple.assume
  rintro rfl
  cases hauthority : read.validateAdminAuthority authority with
  | error failure => exact refused_moves failure
  | ok value =>
      apply Triple.bind (fun _ => At read dir) (.pure fun _ => id)
      intro _
      cases command with
      | claimAdminMutation fingerprint clientTimestamp =>
          exact claim_moves fingerprint clientTimestamp
      | issue ttl label => exact issue_moves ttl label
      | list page pageSize =>
          rintro world ⟨rfl, rfl⟩
          exact .listed
      | «show» keyId reveal => exact show_moves keyId reveal
      | renew keyId ttl => exact renew_moves keyId ttl
      | revoke keyId => exact revoke_moves keyId
      | gc => exact gc_moves
      | reset => exact reset_moves
      | rotateRoot newKey => exact rotateRoot_moves newKey
      | setLegacyProtocol policy => exact setLegacyProtocol_moves policy
      | status =>
          rintro world ⟨rfl, rfl⟩
          exact .status
      | audit action keyId detail => exact audit_moves action keyId detail

/-! ## Ticks -/

/-- Everything a tick does. -/
inductive TickMove (now : Seconds) (memory : AuthMemory) (dir : StateDir) :
    Except Interruption Unit → AuthMemory → StateDir → Prop where
  | ticked {pruned : AuthMemory}
      (hpruned : pruned = (memory.tickLeases now).pruneExpiredAdminReplays now) :
      TickMove now memory dir (.ok ()) pruned dir
  | compacted {pruned : AuthMemory}
      (hpruned : pruned = (memory.tickLeases now).pruneExpiredAdminReplays now)
      (hopen : pruned.inner.safeMode = false) :
      TickMove now memory dir (.ok ()) { pruned with lastSnapshotAt := now }
        (dir.compacted pruned.inner.adminKey pruned.buildSnapshot)
  | compactCut {pruned last : AuthMemory} {stop : Interruption} {dir' : StateDir}
      (hpruned : pruned = (memory.tickLeases now).pruneExpiredAdminReplays now)
      (hopen : pruned.inner.safeMode = false)
      (hcut : CompactCut pruned dir pruned.buildSnapshot stop last dir') :
      TickMove now memory dir (.error stop) last dir'

variable (config) in
theorem tick_moves (now : Seconds) :
    MovesTo memory dir (actorTick config now) (TickMove now memory dir) := by
  unfold actorTick
  apply Triple.bind _ (modifyMemory_triple _)
  intro _
  apply Triple.bind _ getMemory_triple
  intro pruned
  apply Triple.assume
  intro hpruned
  rw [← hpruned]
  split
  · rename_i hcompact
    have hopen : pruned.inner.safeMode = false := by
      have hallowed := (Bool.and_eq_true_iff.mp hcompact).1
      exact (Bool.not_eq_true' _).mp hallowed
    apply Triple.bind _ ((compact_triple _).mono (fun _ => id) (fun _ _ => id)
      fun stop world => .compactCut hpruned hopen)
    rintro _ world ⟨hmemory, hdir⟩
    change TickMove now memory dir (.ok ())
      { world.memory with lastSnapshotAt := now } world.files.dir
    rw [hmemory, hdir]
    exact .compacted hpruned hopen
  · rintro world ⟨hmemory, rfl⟩
    change TickMove now memory world.files.dir (.ok ()) world.memory _
    rw [hmemory]
    exact .ticked hpruned

end PbMapper.Auth

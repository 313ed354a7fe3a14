import PbMapper.Auth.Synced

/-!
# No move leaves the directory behind

Commands, ticks and starts keep the directory of a server in step with its memory,
also where they are cut short.
-/

namespace PbMapper.Auth

open PbMapper.Core MachineWord Effect

/-! ## Commands that append a record -/

variable {crypto : AuthCrypto} {config : AuthConfig} {env : Surroundings}
  {memory base published last : AuthMemory} {dir dir' : StateDir}
  {command : AuthCommand} {record : WalRecord} {stop : Interruption}
  {result : Except AuthFailure AuthResponse}

theorem issued_of_not_issue (adminKey : AesKeyType)
    (hother : ∀ entry audit, record ≠ .mutation (.issue entry) audit) (index : ℕ) :
    (WalFrame.entire ⟨adminKey, record⟩).issued index = none := by
  cases record with
  | mutation mutation audit =>
      cases mutation with
      | issue entry => exact absurd rfl (hother entry audit)
      | _ => rfl
  | _ => rfl

/-- An append is of an issue, for which a row was planned, or changes no
generation. -/
theorem Appends.issue_cases
    (happends :
      Appends crypto config env memory command base record result published) :
    (∀ entry audit, record ≠ .mutation (.issue entry) audit) ∨
      ∃ ttl label entry audit, command = .issue ttl label ∧ base = memory ∧
        record = .mutation (.issue entry) audit ∧
          memory.PlannedIssue config env.clock ttl entry ∧
            published = (memory.pushAuditRecord audit).publishIssue entry ∧
              result = .issued <$>
                published.metadataWithCredential crypto entry.keyId true := by
  cases happends with
  | @issue ttl label entry audit _ hplan haudit hpublished =>
      exact .inr ⟨ttl, label, entry, audit, rfl, rfl, rfl,
        AuthMemory.plannedIssue hplan, hpublished, rfl⟩
  | _ => exact .inl fun _ _ => by simp

/-- The memory publishes what replaying the record gives. -/
theorem Appends.generationAt
    (happends :
      Appends crypto config env memory command base record result published)
    (hkept : memory.Kept) (adminKey : AesKeyType) (index : ℕ) :
    published.generationAt index =
      ((WalFrame.entire ⟨adminKey, record⟩).issued index).getD
        (memory.generationAt index) := by
  rcases happends.issue_cases with
    hother | ⟨ttl, label, entry, audit, -, -, rfl, hplanned, hpublished, -⟩
  · rw [(happends.trimmed hother).generationAt,
      issued_of_not_issue adminKey hother, Option.getD_none]
  · have hpushed : AuthMemory.Quiet memory (memory.pushAuditRecord audit) :=
      AuthMemory.quiet_pushAuditRecord audit
    obtain ⟨free, hslot, -, -⟩ := hplanned.slot hkept.owned.size
    rw [← hpushed.slot?] at hslot
    rw [hpublished, AuthMemory.generationAt_publishIssue hslot,
      hpushed.trimmed.generationAt, WalFrame.issued]
    split <;> rfl

/-- No record takes a generation back. -/
theorem Appends.le_issued
    (happends :
      Appends crypto config env memory command base record result published)
    (hkept : memory.Kept) (adminKey : AesKeyType) (index : ℕ) :
    (memory.generationAt index).asU32 ≤
      (((WalFrame.entire ⟨adminKey, record⟩).issued index).getD
        (memory.generationAt index)).asU32 := by
  rcases happends.issue_cases with
    hother | ⟨ttl, label, entry, audit, -, -, rfl, hplanned, -⟩
  · rw [issued_of_not_issue adminKey hother, Option.getD_none]
  · rw [WalFrame.issued]
    split
    · rename_i hrow
      obtain ⟨free, hslot, -, hnext⟩ := hplanned.slot hkept.owned.size
      rw [← hrow, AuthMemory.generationAt_of_slot hslot, Option.getD_some,
        Generation.next_eq_some_iff.mp hnext]
      exact Nat.le_succ _
    · exact le_rfl

theorem Appends.root
    (happends :
      Appends crypto config env memory command base record result published) :
    published.inner.adminKey = memory.inner.adminKey ∧
      published.inner.instanceId = memory.inner.instanceId := by
  rcases happends.issue_cases with
    hother | ⟨ttl, label, entry, audit, -, -, rfl, -, hpublished, -⟩
  · have htrimmed := happends.trimmed hother
    exact ⟨htrimmed.adminKey, htrimmed.instanceId⟩
  · have hpushed : AuthMemory.Quiet memory (memory.pushAuditRecord audit) :=
      AuthMemory.quiet_pushAuditRecord audit
    obtain ⟨hkey, hid⟩ := AuthMemory.root_publishIssue
      (memory.pushAuditRecord audit) entry
    rw [hpublished]
    exact ⟨hkey.trans hpushed.adminKey, hid.trans hpushed.instanceId⟩

theorem Appends.safeMode
    (happends :
      Appends crypto config env memory command base record result published) :
    published.inner.safeMode = memory.inner.safeMode := by
  by_cases hclaim : ∃ claimed, record = .adminReplay claimed
  · obtain ⟨claimed, rfl⟩ := hclaim
    cases happends with
    | claim hpruned =>
        rw [hpruned]
        rfl
  · exact congrArg Settings.safeMode
      (happends.settings fun claimed hclaimed => hclaim ⟨claimed, hclaimed⟩)

namespace AuthMemory

theorem Synced.publish (hsynced : memory.Synced dir) {frame : WalFrame}
    (hgenerations : ∀ index, published.generationAt index =
      (frame.issued index).getD (memory.generationAt index))
    (hroot : published.inner.adminKey = memory.inner.adminKey ∧
      published.inner.instanceId = memory.inner.instanceId)
    (hsettled : (∀ index, frame.issued index = none) ∨
      ∀ blob, dir.snapshot = some blob → memory.Seals blob) :
    published.Synced (dir.appendFrame frame) := by
  have hseals : ∀ blob, published.Seals blob ↔ memory.Seals blob := by
    intro blob
    rw [Seals, Seals, hroot.1, hroot.2]
  constructor
  · intro index
    rw [hgenerations, StateDir.generationAt_appendFrame]
    cases frame.issued index with
    | none => exact hsynced.replayed index
    | some generation => exact le_rfl
  · rw [hroot.1, hroot.2]
    exact hsynced.owned
  · intro blob hblob hother index
    have hforeign : ¬memory.Seals blob := fun hown => hother ((hseals blob).mpr hown)
    rcases hsettled with hnone | hsettled
    · rw [hgenerations, hnone, Option.getD_none]
      exact hsynced.foreign blob hblob hforeign index
    · exact absurd (hsettled blob hblob) hforeign
  · rw [hroot.1]
    exact hsynced.keyNext
  · rw [hroot.2]
    exact hsynced.idNext

theorem Settled.congr {memory' : AuthMemory} (hsettled : memory.Settled dir)
    (hroot : memory'.inner.adminKey = memory.inner.adminKey ∧
      memory'.inner.instanceId = memory.inner.instanceId)
    (hsafe : memory'.inner.safeMode = memory.inner.safeMode)
    (hsnapshot : dir'.snapshot = dir.snapshot) : memory'.Settled dir' := by
  rw [Settled, hsafe, hsnapshot]
  intro hopen blob hblob
  rw [Seals, hroot.1, hroot.2]
  exact hsettled hopen blob hblob

end AuthMemory

theorem Appends.synced
    (happends :
      Appends crypto config env memory command base record result published)
    (hkept : memory.Kept) (hsynced : memory.Synced dir)
    (hsettled : memory.Settled dir) (adminKey : AesKeyType) :
    published.Synced (dir.appendFrame (.entire ⟨adminKey, record⟩)) := by
  refine hsynced.publish (happends.generationAt hkept adminKey) happends.root ?_
  rcases happends.issue_cases with
    hother | ⟨ttl, label, entry, audit, -, -, rfl, hplanned, -⟩
  · exact .inl (issued_of_not_issue adminKey hother)
  · exact .inr (hsettled hplanned.available)

theorem AppendLeaves.snapshot {frame : WalFrame}
    (hleaves : AppendLeaves frame dir dir') :
    dir'.snapshot = dir.snapshot := by
  cases hleaves <;> rfl

/-- An append that did not go well leaves the directory as far as the memory. -/
theorem AppendCut.synced
    (happends :
      Appends crypto config env memory command base record result published)
    (hcut : AppendCut base dir record stop last dir') (hkept : memory.Kept)
    (hsynced : memory.Synced dir) :
    last.Synced dir' ∧
      ∀ index, last.generationAt index = memory.generationAt index := by
  have hbase := happends.trimmed_base
  have hquiet : AuthMemory.Quiet base base.failClosed := AuthMemory.quiet_failClosed
  have hclosed := hbase.trans hquiet.trimmed
  have hleft : AppendLeaves (.entire ⟨base.inner.adminKey, record⟩) dir dir' →
      memory.Synced dir' := hsynced.appendLeaves (happends.le_issued hkept _)
  cases hcut with
  | retryable hretryable hsame =>
      exact ⟨(hleft (hsame.leaves _)).trimmed hbase, hbase.generationAt⟩
  | uncertain hleaves => exact ⟨(hleft hleaves).trimmed hclosed, hclosed.generationAt⟩
  | stopped hleaves => exact ⟨(hleft hleaves).trimmed hbase, hbase.generationAt⟩

theorem AppendCut.settled
    (happends :
      Appends crypto config env memory command base record result published)
    (hcut : AppendCut base dir record stop last dir') (hstop : stop ≠ .stopped)
    (hsettled : memory.Settled dir) : last.Settled dir' := by
  have hbase := happends.trimmed_base
  have hsafe : base.inner.safeMode = memory.inner.safeMode := by
    cases happends with
    | claim hpruned =>
        rw [hpruned]
        rfl
    | _ => rfl
  cases hcut with
  | retryable hretryable hsame =>
      exact hsettled.congr ⟨hbase.adminKey, hbase.instanceId⟩ hsafe
        (hsame.leaves (.entire ⟨base.inner.adminKey, record⟩)).snapshot
  | uncertain => exact AuthMemory.settled_failClosed _
  | stopped => exact absurd rfl hstop

theorem CompactCut.synced {snapshot : PersistedSnapshot}
    (hcut : CompactCut base dir snapshot stop last dir')
    (hsynced : base.Synced dir)
    (hgenerations : ∀ index, snapshot.generationAt index = base.generationAt index) :
    last.Synced dir' ∧
      ∀ index, last.generationAt index = base.generationAt index := by
  have hquiet : AuthMemory.Quiet base base.failClosed := AuthMemory.quiet_failClosed
  have hclosed := hquiet.trimmed
  cases hcut with
  | failed hmade =>
      exact ⟨(hsynced.written hgenerations (.inl rfl) hmade).trimmed hclosed,
        hclosed.generationAt⟩
  | stopped hmade =>
      exact ⟨hsynced.written hgenerations (.inl rfl) hmade, fun _ => rfl⟩

theorem CompactCut.settled {snapshot : PersistedSnapshot}
    (hcut : CompactCut base dir snapshot stop last dir')
    (hstop : stop ≠ .stopped) :
    last.Settled dir' := by
  cases hcut with
  | failed => exact AuthMemory.settled_failClosed _
  | stopped => exact absurd rfl hstop

/-! ## Resets and rotations -/

/-- What a reset or a rotation has in place when it answers. -/
def Reinstalled (env : Surroundings) (memory : AuthMemory) (dir : StateDir) :
    AuthCommand → Prop
  | .reset => ∃ blob, dir.snapshot = some blob ∧ blob.key = memory.inner.adminKey ∧
      blob.plain.instanceId = env.newInstanceId
  | .rotateRoot newKey => ∃ blob, dir.snapshot = some blob ∧ blob.key = newKey
  | _ => True

theorem exec_triple_true {Value : Type} {pre : ActorWorld → Prop}
    (program : ActorM Value) :
    Triple pre program (fun _ _ => True) (fun _ _ => True) := by
  intro world _
  cases program.exec world with
  | mk ended last => cases ended <;> trivial

/-- The removal of the staged file and the rest leave in place what was. -/
theorem replaced_triple {writes : List (StateDir → StateDir)}
    {good : StateDir → Prop} {remove : StateDir → StateDir} {program : ActorM Unit}
    {rest : Unit → ActorM AuthResponse}
    (hrest : ∀ world, ((rest ()).exec world).2.files = world.files)
    (hprogram : Triple (At memory dir) program
      (fun _ world => ∃ made, (made <+: writes ∧ good (applyAll made dir)) ∧
        At memory (applyAll made dir) world)
      (fun stop world => ReplaceCut memory dir writes good remove stop
        world.memory world.files.dir))
    (hremove : ∀ dir, good dir → good (remove dir)) :
    Triple (At memory dir) (program >>= fun _ => onFiles (removeFile remove) >>= rest)
      (fun _ world => good world.files.dir) (fun _ _ => True) := by
  apply Triple.bind _ (hprogram.mono (fun _ => id) (fun _ _ => id)
    fun _ _ _ => trivial)
  intro _
  apply Triple.choose
  intro made
  apply Triple.assume
  rintro ⟨-, hgood⟩
  apply Triple.bind _ ((onFiles_triple (removeFile_triple remove _)).mono
    (fun _ => id) (fun _ _ => id) fun _ _ _ => trivial)
  rintro ⟨⟩ world ⟨-, hdir⟩
  have hkept : good world.files.dir := by
    rcases hdir with hdir | hdir
    · rw [hdir]
      exact hgood
    · rw [hdir]
      exact hremove _ hgood
  rw [← hrest world] at hkept
  cases hexec : (rest ()).exec world with
  | mk ended after =>
      rw [hexec] at hkept
      cases ended with
      | ok response => exact hkept
      | error stop => trivial

theorem opensWith_of_any {key : AesKeyType} {dir : StateDir}
    (hmatches : keyMatchesExistingSnapshot dir key = true) :
    ∃ blob, dir.snapshot = some blob ∧ blob.key = key := by
  obtain ⟨blob, hblob, hopens⟩ := (Option.any_eq_true _ _).mp hmatches
  exact ⟨blob, hblob, StateDir.opensWith_eq_true hopens⟩

theorem reset_installs :
    Triple (At memory dir) (runCommand crypto config env .reset)
      (fun _ world => Reinstalled env memory world.files.dir .reset)
      (fun _ _ => True) := by
  rw [runCommand, actorReset]
  simp only [bind_assoc]
  apply Triple.bind _ (modifyMemory_triple _)
  intro _
  apply Triple.bind _ getMemory_triple
  intro bumped
  apply Triple.assume
  intro hbumped
  rw [← hbumped]
  have hkey : bumped.inner.adminKey = memory.inner.adminKey := by
    rw [hbumped]
    rfl
  have hwrites : Writes (resetWrites bumped.inner.adminKey env.newInstanceId
      (resetSnapshot env bumped)) (do
    stageInstanceId config.stateDir env.newInstanceId
    writeSnapshotAndTruncateWal config.stateDir bumped.inner.adminKey
      (resetSnapshot env bumped)
    writeInstanceId config.stateDir env.newInstanceId) :=
    (writes_atomicWrite _ _ _).bind
      ((writes_writeSnapshotAndTruncateWal _ _ _).bind (writes_atomicWrite _ _ _))
  have hchecked : ∀ dir, Triple (·.dir = dir)
      (resetAlreadyInstalled bumped.inner.adminKey env.newInstanceId)
      (fun value files => files.dir = dir ∧
        (value = true → Reinstalled env memory dir .reset))
      (fun stop files => stop = .stopped ∧ files.dir = dir) := by
    intro dir
    apply (checkFiles_triple _ dir).mono (fun _ => id) ?_ (fun _ _ => id)
    rintro value files ⟨hfiles, hcheck⟩
    refine ⟨hfiles, fun hvalue => ?_⟩
    have hany := (Bool.and_eq_true_iff.mp (hcheck hvalue)).2
    obtain ⟨blob, hblob, hid⟩ := (Option.any_eq_true _ _).mp hany
    by_cases hopens : blob.key = bumped.inner.adminKey
    · have hread : openBlob bumped.inner.adminKey blob = .ok blob.plain := if_pos hopens
      simp only [hread, decide_eq_true_eq] at hid
      exact ⟨blob, hblob, hopens.trans hkey, hid⟩
    · have hread : openBlob bumped.inner.adminKey blob = .error _ := if_neg hopens
      simp only [hread] at hid
      cases hid
  refine replaced_triple (fun _ => rfl)
    (unlessInstalled_triple hwrites hchecked ⟨_, rfl, hkey, rfl⟩) ?_
  rintro dir ⟨blob, hblob, hsealed⟩
  exact ⟨blob, hblob, hsealed⟩

theorem rotateRoot_installs (newKey : AesKeyType) :
    Triple (At memory dir) (runCommand crypto config env (.rotateRoot newKey))
      (fun _ world => Reinstalled env memory world.files.dir (.rotateRoot newKey))
      (fun _ _ => True) := by
  rw [runCommand, actorRotateRoot]
  simp only [bind_assoc]
  apply Triple.bind _ getMemory_triple
  intro read
  apply Triple.assume
  rintro rfl
  split
  · exact .bind (fun _ _ => False) (.throw fun _ _ => trivial) fun _ _ => False.elim
  split
  · exact .bind (fun _ _ => False) (.throw fun _ _ => trivial) fun _ _ => False.elim
  simp only [bind_assoc]
  apply Triple.bind _ (modifyMemory_triple _)
  intro _
  apply Triple.bind _ getMemory_triple
  intro bumped
  apply Triple.assume
  intro hbumped
  rw [← hbumped]
  have hwrites : Writes (rotateWrites newKey (rotateSnapshot env bumped)) (do
    stageAdminKey config.stateDir newKey
    writeSnapshotAndTruncateWal config.stateDir newKey (rotateSnapshot env bumped)
    writeAdminKey config.stateDir newKey) :=
    (writes_stageAdminKey _ _).bind
      ((writes_writeSnapshotAndTruncateWal _ _ _).bind (writes_atomicWrite _ _ _))
  have hchecked : ∀ dir, Triple (·.dir = dir) (rotationAlreadyInstalled newKey)
      (fun value files => files.dir = dir ∧
        (value = true → Reinstalled env read dir (.rotateRoot newKey)))
      (fun stop files => stop = .stopped ∧ files.dir = dir) := by
    intro dir
    apply (checkFiles_triple _ dir).mono (fun _ => id) ?_ (fun _ _ => id)
    rintro value files ⟨hfiles, hcheck⟩
    refine ⟨hfiles, fun hvalue => ?_⟩
    exact opensWith_of_any (Bool.and_eq_true_iff.mp (hcheck hvalue)).1
  refine replaced_triple (fun _ => rfl)
    (unlessInstalled_triple hwrites hchecked ⟨_, rfl, rfl⟩) ?_
  rintro dir ⟨blob, hblob, hsealed⟩
  exact ⟨blob, hblob, hsealed⟩

variable (crypto config env) in
theorem command_installs (authority : LeaseId) (command : AuthCommand) :
    Triple (At memory dir) (actorCommand crypto config env authority command)
      (fun _ world => Reinstalled env memory world.files.dir command)
      (fun _ _ => True) := by
  unfold actorCommand
  apply Triple.bind _ getMemory_triple
  intro read
  apply Triple.assume
  rintro rfl
  cases hauthority : read.validateAdminAuthority authority with
  | error failure =>
      exact .bind (fun _ _ => False) (.throw fun _ _ => trivial) fun _ _ => False.elim
  | ok value =>
      apply Triple.bind (fun _ => At read dir) (.pure fun _ => id)
      intro _
      cases command with
      | reset => exact reset_installs
      | rotateRoot newKey => exact rotateRoot_installs newKey
      | _ => exact exec_triple_true _

/-! ## What moves keep -/

namespace AuthMemory

theorem trimmed_bumpRootEpoch (memory : AuthMemory) :
    Trimmed memory memory.bumpRootEpoch := quiet_bumpRootEpoch.trimmed

theorem trimmed_pushAuditRecord (memory : AuthMemory) (record : AuditRecord) :
    Trimmed memory (memory.pushAuditRecord record) :=
  (quiet_pushAuditRecord record).trimmed

theorem trimmed_collected {now removed : ℕ} {kept : AuthMemory}
    (hcollected : memory.collectGarbage now = (kept, removed)) :
    Trimmed memory kept := by
  have htrimmed : Trimmed memory (memory.collectGarbage now).1 :=
    trimmed_collectGarbage now
  rw [hcollected] at htrimmed
  exact htrimmed

theorem trimmed_wiped (memory : AuthMemory) (audit : AuditRecord) (now : ℕ) :
    Trimmed memory (((memory.pushAuditRecord audit).rememberPreviousRoot).wipe now) :=
  ((memory.trimmed_pushAuditRecord audit).trans
    quiet_rememberPreviousRoot.trimmed).trans (trimmed_wipe now)

variable (memory : AuthMemory) (newInstanceId : InstanceId) (newKey : AesKeyType)
  (audit : AuditRecord) (now index : ℕ)

theorem generationAt_finishReset :
    (memory.finishReset newInstanceId audit now).generationAt index =
      memory.generationAt index := by
  rw [← (memory.trimmed_wiped audit now).generationAt, finishReset]
  rfl

theorem generationAt_finishRotation :
    (memory.finishRotation newKey audit now).generationAt index =
      memory.generationAt index := by
  rw [← (memory.trimmed_wiped audit now).generationAt, finishRotation]
  rfl

theorem adminKey_finishReset :
    (memory.finishReset newInstanceId audit now).inner.adminKey =
      memory.inner.adminKey :=
  (memory.trimmed_wiped audit now).adminKey

theorem instanceId_finishRotation :
    (memory.finishRotation newKey audit now).inner.instanceId =
      memory.inner.instanceId :=
  (memory.trimmed_wiped audit now).instanceId

variable {memory}

/-- A server whose snapshot has its identity. -/
theorem Synced.sealed {memory' : AuthMemory} (hsynced : memory.Synced dir)
    (hgenerations : ∀ index, memory'.generationAt index = memory.generationAt index)
    {blob : Sealed PersistedSnapshot} (hblob : dir.snapshot = some blob)
    (hseals : memory'.Seals blob)
    (hkey : dir.adminKeyNext = some memory'.inner.adminKey →
      dir.adminKey = some memory'.inner.adminKey)
    (hid : dir.instanceIdNext = some memory'.inner.instanceId →
      dir.instanceId = some memory'.inner.instanceId) : memory'.Synced dir := by
  refine ⟨fun index => ?_, ?_, ?_, hkey, hid⟩
  · rw [hgenerations]
    exact hsynced.replayed index
  · intro found hfound
    rw [hblob] at hfound
    cases hfound
    exact .inl hseals.1
  · intro found hfound hother
    rw [hblob] at hfound
    cases hfound
    exact absurd hseals hother

theorem settled_of_seals {blob : Sealed PersistedSnapshot}
    (hblob : dir.snapshot = some blob) (hseals : memory.Seals blob) :
    memory.Settled dir := by
  intro _ found hfound
  rw [hblob] at hfound
  cases hfound
  exact hseals

theorem Synced.finishReset (hsynced : memory.Synced dir)
    {newInstanceId : InstanceId} {blob : Sealed PersistedSnapshot}
    (hid : dir.instanceId = some newInstanceId) (hblob : dir.snapshot = some blob)
    (hkey : blob.key = memory.inner.adminKey)
    (hbelongs : blob.plain.instanceId = newInstanceId) (audit : AuditRecord)
    (now : ℕ) :
    (memory.finishReset newInstanceId audit now).Synced dir ∧
      (memory.finishReset newInstanceId audit now).Settled dir := by
  have hseals : (memory.finishReset newInstanceId audit now).Seals blob :=
    ⟨hkey.trans (memory.adminKey_finishReset _ _ _).symm, hbelongs⟩
  refine ⟨hsynced.sealed (memory.generationAt_finishReset _ _ _) hblob hseals ?_
    fun _ => hid, settled_of_seals hblob hseals⟩
  rw [adminKey_finishReset]
  exact hsynced.keyNext

theorem Synced.finishRotation (hsynced : memory.Synced dir) {newKey : AesKeyType}
    {blob : Sealed PersistedSnapshot} (hkey : dir.adminKey = some newKey)
    (hblob : dir.snapshot = some blob) (hbelongs : blob.key = newKey)
    (hnew : newKey ≠ memory.inner.adminKey) (audit : AuditRecord) (now : ℕ) :
    (memory.finishRotation newKey audit now).Synced dir ∧
      (memory.finishRotation newKey audit now).Settled dir := by
  -- the snapshot is not under the old key, so it has the instance id in memory
  have hid : blob.plain.instanceId = memory.inner.instanceId := by
    apply (hsynced.owned blob hblob).resolve_left
    rw [hbelongs]
    exact hnew
  have hseals : (memory.finishRotation newKey audit now).Seals blob :=
    ⟨hbelongs, hid.trans (memory.instanceId_finishRotation _ _ _).symm⟩
  refine ⟨hsynced.sealed (memory.generationAt_finishRotation _ _ _) hblob hseals
    (fun _ => hkey) ?_, settled_of_seals hblob hseals⟩
  rw [instanceId_finishRotation]
  exact hsynced.idNext

end AuthMemory

theorem CommandMove.reset_synced {bumped : AuthMemory}
    {made : List (StateDir → StateDir)} (hbumped : bumped = memory.bumpRootEpoch)
    (hsynced : memory.Synced dir)
    (hfresh : env.newInstanceId ≠ memory.inner.instanceId)
    (hmade : made <+: resetWrites bumped.inner.adminKey env.newInstanceId
      (resetSnapshot env bumped)) : bumped.Synced (applyAll made dir) := by
  have htrimmed := memory.trimmed_bumpRootEpoch
  rw [← hbumped] at htrimmed
  apply (hsynced.trimmed htrimmed).resetWritten (fun _ => rfl) _ hmade
  rw [htrimmed.instanceId]
  exact hfresh

theorem CommandMove.rotate_synced {newKey : AesKeyType} {bumped : AuthMemory}
    {made : List (StateDir → StateDir)} (hbumped : bumped = memory.bumpRootEpoch)
    (hsynced : memory.Synced dir) (hnew : newKey ≠ memory.inner.adminKey)
    (hmade : made <+: rotateWrites newKey (rotateSnapshot env bumped)) :
    bumped.Synced (applyAll made dir) := by
  have htrimmed := memory.trimmed_bumpRootEpoch
  rw [← hbumped] at htrimmed
  apply (hsynced.trimmed htrimmed).rotateWritten (fun _ => rfl) rfl _ hmade
  rw [htrimmed.adminKey]
  exact hnew

/-- The staged file is gone. -/
theorem AuthMemory.Synced.dropNextId (hsynced : memory.Synced dir) :
    memory.Synced { dir with instanceIdNext := none } :=
  hsynced.identity rfl rfl hsynced.keyNext fun hnext => by cases hnext

theorem AuthMemory.Synced.dropNextKey (hsynced : memory.Synced dir) :
    memory.Synced { dir with adminKeyNext := none } :=
  hsynced.identity rfl rfl (fun hnext => by cases hnext) hsynced.idNext

/-- A replacement of the identity that did not come to its end. -/
theorem ReplaceCut.synced {writes : List (StateDir → StateDir)}
    {installed : StateDir → Prop} {remove : StateDir → StateDir}
    (hcut : ReplaceCut base dir writes installed remove stop last dir')
    (hwritten : ∀ made, made <+: writes → base.Synced (applyAll made dir))
    (hremove : ∀ dir, base.Synced dir → base.Synced (remove dir)) :
    last.Synced dir' ∧ (stop ≠ .stopped → last.Settled dir') ∧
      ∀ index, last.generationAt index = base.generationAt index := by
  have hquiet : AuthMemory.Quiet base base.failClosed := AuthMemory.quiet_failClosed
  cases hcut with
  | failed hmade =>
      exact ⟨(hwritten _ hmade).trimmed hquiet.trimmed,
        fun _ => AuthMemory.settled_failClosed _, hquiet.trimmed.generationAt⟩
  | stopped hmade =>
      exact ⟨hwritten _ hmade, fun hstop => absurd rfl hstop, fun _ => rfl⟩
  | removed hmade hinstalled =>
      exact ⟨hremove _ (hwritten _ hmade), fun hstop => absurd rfl hstop,
        fun _ => rfl⟩

/-- Whether a program was ended by the end of its process. -/
def Stopped {Value : Type} (ended : Except Interruption Value) : Prop :=
  ended = .error .stopped

/-- A command keeps the directory from falling behind. -/
theorem CommandMove.synced {ended : Except Interruption AuthResponse}
    (hmove : CommandMove crypto config env memory dir command ended last dir')
    (hkept : memory.Kept) (hsynced : memory.Synced dir)
    (hsettled : memory.Settled dir)
    (hfresh : command = .reset → env.newInstanceId ≠ memory.inner.instanceId)
    (hinstalls : ∀ response, ended = .ok response →
      Reinstalled env memory dir' command) :
    last.Synced dir' ∧ (¬Stopped ended → last.Settled dir') ∧
      ∀ index, (memory.generationAt index).asU32 ≤ (last.generationAt index).asU32 := by
  have hsame : ∀ {after : AuthMemory}, (∀ index,
      after.generationAt index = memory.generationAt index) → ∀ index,
        (memory.generationAt index).asU32 ≤ (after.generationAt index).asU32 := by
    intro after hequal index
    rw [hequal]
  have hgoes : ∀ {reason : Interruption} {Value : Type},
      ¬Stopped (.error reason : Except Interruption Value) → reason ≠ .stopped :=
    fun hgoes hreason => hgoes (congrArg _ hreason)
  have hbumpedSame := memory.trimmed_bumpRootEpoch.generationAt
  cases hmove with
  | refused => exact ⟨hsynced, fun _ => hsettled, fun _ => le_rfl⟩
  | claimRefused =>
      have hquiet : AuthMemory.Quiet memory
          (memory.pruneExpiredAdminReplays (env.clock 0)) :=
        AuthMemory.quiet_pruneExpiredAdminReplays _
      have htrimmed := hquiet.trimmed
      exact ⟨hsynced.trimmed htrimmed, fun _ => hsettled.trimmed htrimmed rfl,
        hsame htrimmed.generationAt⟩
  | listed => exact ⟨hsynced, fun _ => hsettled, fun _ => le_rfl⟩
  | status => exact ⟨hsynced, fun _ => hsettled, fun _ => le_rfl⟩
  | appended happends =>
      refine ⟨happends.synced hkept hsynced hsettled _,
        fun _ => hsettled.congr happends.root happends.safeMode rfl, fun index => ?_⟩
      rw [happends.generationAt hkept memory.inner.adminKey]
      exact happends.le_issued hkept memory.inner.adminKey index
  | appendCut happends hcut =>
      obtain ⟨hlast, hequal⟩ := AppendCut.synced happends hcut hkept hsynced
      exact ⟨hlast,
        fun hstop => AppendCut.settled happends hcut (hgoes hstop) hsettled,
        hsame hequal⟩
  | @collected kept removed hopen hcollected =>
      have htrimmed := AuthMemory.trimmed_collected hcollected
      have haudited := htrimmed.trans
        (kept.trimmed_pushAuditRecord (gcAudit env removed))
      have hcompacted : kept.Synced (dir.compacted kept.inner.adminKey
          (kept.buildSnapshot.pushAudit (gcAudit env removed))) :=
        (hsynced.trimmed htrimmed).compacted (fun _ => rfl) (.inl rfl)
      refine ⟨hcompacted.trimmed (kept.trimmed_pushAuditRecord _), fun _ => ?_,
        hsame haudited.generationAt⟩
      apply AuthMemory.settled_of_seals rfl
      exact ⟨(kept.trimmed_pushAuditRecord _).adminKey.symm,
        (kept.trimmed_pushAuditRecord _).instanceId.symm⟩
  | @collectCut kept _ removed _ _ hopen hcollected hcut =>
      have htrimmed := AuthMemory.trimmed_collected hcollected
      obtain ⟨hlast, hequal⟩ := hcut.synced (hsynced.trimmed htrimmed) fun _ => rfl
      exact ⟨hlast, fun hstop => hcut.settled (hgoes hstop),
        hsame fun index => (hequal index).trans (htrimmed.generationAt index)⟩
  | @reset bumped made _ hbumped hmade hinstalled hremoved =>
      have hwritten := CommandMove.reset_synced hbumped hsynced (hfresh rfl) hmade
      have hfinal : bumped.Synced dir' := by
        rcases hremoved with rfl | rfl
        · exact hwritten
        · exact hwritten.dropNextId
      have hid : dir'.instanceId = some env.newInstanceId := by
        rcases hremoved with rfl | rfl
        · exact hinstalled
        · exact hinstalled
      obtain ⟨blob, hblob, hkey, hbelongs⟩ := hinstalls _ rfl
      have hroot : memory.inner.adminKey = bumped.inner.adminKey := by
        rw [hbumped]
        rfl
      obtain ⟨hafter, hfit⟩ := hfinal.finishReset hid hblob (hkey.trans hroot) hbelongs
        (resetAudit env) (env.clock 1)
      refine ⟨hafter, fun _ => hfit, hsame fun index => ?_⟩
      rw [AuthMemory.generationAt_finishReset, hbumped, hbumpedSame]
  | resetCut hbumped hcut =>
      obtain ⟨hlast, hstill, hequal⟩ := hcut.synced
        (fun made => CommandMove.reset_synced hbumped hsynced (hfresh rfl))
        fun _ => AuthMemory.Synced.dropNextId
      refine ⟨hlast, fun hstop => hstill (hgoes hstop), hsame fun index => ?_⟩
      rw [hequal, hbumped, hbumpedSame]
  | @rotated newKey bumped made _ hnew hbumped hmade hinstalled hremoved =>
      have hwritten := CommandMove.rotate_synced hbumped hsynced hnew hmade
      have hfinal : bumped.Synced dir' := by
        rcases hremoved with rfl | rfl
        · exact hwritten
        · exact hwritten.dropNextKey
      have hkey : dir'.adminKey = some newKey := by
        rcases hremoved with rfl | rfl
        · exact hinstalled
        · exact hinstalled
      obtain ⟨blob, hblob, hbelongs⟩ := hinstalls _ rfl
      have hroot : memory.inner.adminKey = bumped.inner.adminKey := by
        rw [hbumped]
        rfl
      obtain ⟨hafter, hfit⟩ := hfinal.finishRotation hkey hblob hbelongs
        (hroot ▸ hnew) (rotateAudit env) (env.clock 1)
      have hforgot : AuthMemory.Trimmed (bumped.finishRotation newKey (rotateAudit env)
          (env.clock 1)) { bumped.finishRotation newKey (rotateAudit env)
            (env.clock 1) with adminReplays := ∅, adminReplayOrder := [] } :=
        AuthMemory.quiet_forgetReplays.trimmed
      refine ⟨hafter.trimmed hforgot, fun _ => hfit.trimmed hforgot rfl,
        hsame fun index => ?_⟩
      rw [hforgot.generationAt, AuthMemory.generationAt_finishRotation, hbumped,
        hbumpedSame]
  | rotateCut hnew hbumped hcut =>
      obtain ⟨hlast, hstill, hequal⟩ := hcut.synced
        (fun made => CommandMove.rotate_synced hbumped hsynced hnew)
        fun _ => AuthMemory.Synced.dropNextKey
      refine ⟨hlast, fun hstop => hstill (hgoes hstop), hsame fun index => ?_⟩
      rw [hequal, hbumped, hbumpedSame]

/-- A tick keeps the directory from falling behind. -/
theorem TickMove.synced {now : Seconds} {ended : Except Interruption Unit}
    (hmove : TickMove now memory dir ended last dir') (hsynced : memory.Synced dir)
    (hsettled : memory.Settled dir) :
    last.Synced dir' ∧ (¬Stopped ended → last.Settled dir') ∧
      ∀ index, last.generationAt index = memory.generationAt index := by
  have htrimmed : AuthMemory.Trimmed memory
      ((memory.tickLeases now).pruneExpiredAdminReplays now) :=
    (AuthMemory.trimmed_tickLeases _).trans
      (AuthMemory.quiet_pruneExpiredAdminReplays _).trimmed
  have hsafe : ((memory.tickLeases now).pruneExpiredAdminReplays now).inner.safeMode =
      memory.inner.safeMode :=
    congrArg Settings.safeMode (memory.settings_tickLeases now)
  cases hmove with
  | ticked hpruned =>
      rw [hpruned]
      exact ⟨hsynced.trimmed htrimmed, fun _ => hsettled.trimmed htrimmed hsafe,
        htrimmed.generationAt⟩
  | @compacted pruned hpruned hopen =>
      rw [← hpruned] at htrimmed
      have hcompacted : pruned.Synced
          (dir.compacted pruned.inner.adminKey pruned.buildSnapshot) :=
        (hsynced.trimmed htrimmed).compacted (fun _ => rfl) (.inl rfl)
      have hstamped : AuthMemory.Trimmed pruned { pruned with lastSnapshotAt := now } :=
        (AuthMemory.quiet_setLastSnapshotAt _).trimmed
      exact ⟨hcompacted.trimmed hstamped,
        fun _ => AuthMemory.settled_of_seals rfl ⟨rfl, rfl⟩, htrimmed.generationAt⟩
  | @compactCut pruned _ _ _ hpruned hopen hcut =>
      rw [← hpruned] at htrimmed
      obtain ⟨hlast, hequal⟩ := hcut.synced (hsynced.trimmed htrimmed) fun _ => rfl
      exact ⟨hlast, fun hgoes => hcut.settled fun hstop => hgoes (congrArg _ hstop),
        fun index => (hequal index).trans (htrimmed.generationAt index)⟩

/-! ## Starts -/

theorem instanceId_of_load {adminKey : AesKeyType} {instanceId : InstanceId}
    {state : PersistedSnapshot}
    (hload :
      tryLoadPersistedState crypto config adminKey instanceId dir = .ok state) :
    state.instanceId = instanceId ∧ ∀ blob, dir.snapshot = some blob →
      blob.key = adminKey ∧ blob.plain.instanceId = instanceId := by
  obtain ⟨base, records, hloaded, hfold⟩ := tryLoadPersistedState_eq_ok_iff.mp hload
  constructor
  · refine Fallible.foldlM_preserves (motive := fun snapshot : PersistedSnapshot =>
      snapshot.instanceId = instanceId) ?_ hfold hloaded.instanceId_eq
    intro record _ snapshot next hsame happly
    cases record with
    | adminReplay record =>
        cases happly
        exact hsame
    | audit record =>
        cases happly
        exact hsame
    | mutation mutation audit =>
        obtain ⟨middle, hmiddle, hnext⟩ := Fallible.bind_eq_ok.mp happly
        cases hnext
        cases mutation with
        | issue entry =>
            cases hmiddle
            exact hsame
        | renew keyId expiresAt =>
            obtain ⟨entries, -, rfl⟩ := updateSnapshotEntry_eq_ok hmiddle
            exact hsame
        | revoke keyId atTime =>
            obtain ⟨entries, -, rfl⟩ := updateSnapshotEntry_eq_ok hmiddle
            exact hsame
        | legacyProtocol policy =>
            cases hmiddle
            exact hsame
  · intro blob hblob
    rcases hloaded.snapshot with hsnapshot | ⟨hnone, -⟩
    · rw [hblob] at hsnapshot
      cases hsnapshot
      exact ⟨rfl, hloaded.instanceId_eq⟩
    · rw [hblob] at hnone
      cases hnone

/-- A server starts with the generations it loads. -/
theorem AuthMemory.generationAt_restored {state : PersistedSnapshot}
    (hsound : state.Sound) (adminKey : AesKeyType) (instanceId : InstanceId)
    (now lastSnapshotAt index : ℕ) :
    ((restoredMemory config adminKey instanceId (some state) false now
      lastSnapshotAt).restoreLeases now).generationAt index =
        state.generationAt index := by
  have hloaded : ∀ found, some state = some found → found.Sound := by
    intro found hfound
    cases hfound
    exact hsound
  rw [(trimmed_restoreLeases now).generationAt, AuthMemory.generationAt,
    snapshotGenerations_restored config adminKey instanceId hloaded]
  exact getD_growGenerations _ _ _

theorem AuthMemory.safeMode_restored (adminKey : AesKeyType)
    (instanceId : InstanceId) (loaded : Option PersistedSnapshot) (safeMode : Bool)
    (now lastSnapshotAt : ℕ) :
    ((restoredMemory config adminKey instanceId loaded safeMode now
      lastSnapshotAt).restoreLeases now).inner.safeMode = safeMode :=
  congrArg Settings.safeMode (AuthMemory.settings_restoreLeases _ now)

/-- The tombstone times are no generations. -/
theorem generationAt_normalizeTombstoneTimes {state normal : PersistedSnapshot}
    {now : ℕ} {changed : Bool}
    (hnormal : normalizeTombstoneTimes state now = (normal, changed)) :
    normal.instanceId = state.instanceId ∧
      ∀ index, normal.generationAt index = state.generationAt index := by
  rw [normalizeTombstoneTimes] at hnormal
  obtain ⟨rfl, -⟩ := Prod.mk.inj hnormal
  exact ⟨rfl, fun _ => rfl⟩

/-- The server that starts on a directory that loads. -/
theorem synced_restored {mid : StateDir} {adminKey : AesKeyType}
    {instanceId : InstanceId} {state normal : PersistedSnapshot}
    (hkey : mid.adminKey = some adminKey) (hid : mid.instanceId = some instanceId)
    (hload : tryLoadPersistedState crypto config adminKey instanceId mid = .ok state)
    (hbelongs : normal.instanceId = state.instanceId)
    (hgenerations : ∀ index, normal.generationAt index = state.generationAt index)
    (hsound : normal.Sound) (now lastSnapshotAt : ℕ)
    (hdir : dir' = mid ∨ dir' = mid.compacted adminKey normal) :
    AuthMemory.Synced ((restoredMemory config adminKey instanceId (some normal) false
      now lastSnapshotAt).restoreLeases now) dir' ∧
      AuthMemory.Settled ((restoredMemory config adminKey instanceId (some normal) false
        now lastSnapshotAt).restoreLeases now) dir' := by
  have hrestored : ∀ index, AuthMemory.generationAt ((restoredMemory config adminKey
      instanceId (some normal) false now lastSnapshotAt).restoreLeases now) index =
        normal.generationAt index :=
    AuthMemory.generationAt_restored hsound adminKey instanceId now lastSnapshotAt
  have htrimmed : AuthMemory.Trimmed
      (restoredMemory config adminKey instanceId (some normal) false now
        lastSnapshotAt)
      ((restoredMemory config adminKey instanceId (some normal) false now
        lastSnapshotAt).restoreLeases now) := AuthMemory.trimmed_restoreLeases now
  generalize (restoredMemory config adminKey instanceId (some normal) false
    now lastSnapshotAt).restoreLeases now = memory at hrestored htrimmed ⊢
  have hadmin : memory.inner.adminKey = adminKey := htrimmed.adminKey
  have hinstance : memory.inner.instanceId = instanceId := htrimmed.instanceId
  obtain ⟨hstate, hsnapshot⟩ := instanceId_of_load hload
  have hequal : ∀ index, memory.generationAt index = mid.generationAt index := by
    intro index
    rw [hrestored, hgenerations, generationAt_of_load hload]
  have hseals : ∀ blob, dir'.snapshot = some blob → memory.Seals blob := by
    intro blob hblob
    rw [AuthMemory.Seals, hadmin, hinstance]
    rcases hdir with rfl | rfl
    · exact hsnapshot blob hblob
    · cases hblob
      exact ⟨rfl, hbelongs.trans hstate⟩
  refine ⟨⟨fun index => ?_, fun blob hblob => .inl (hseals blob hblob).1,
    fun blob hblob hother => absurd (hseals blob hblob) hother, fun _ => ?_,
    fun _ => ?_⟩,
    fun _ => hseals⟩
  · rcases hdir with rfl | rfl
    · rw [hequal]
    · rw [hrestored]
      exact le_rfl
  · rw [hadmin]
    rcases hdir with rfl | rfl
    · exact hkey
    · exact hkey
  · rw [hinstance]
    rcases hdir with rfl | rfl
    · exact hid
    · exact hid

/-- A start takes no generation from the directory, and a server that does not
start in safe mode has them all. -/
theorem StartMove.synced {env : StartSurroundings} {started : Option AuthMemory}
    (hmove : StartMove crypto config env dir started dir') (hdir : dir.Sound) :
    (∀ memory, started = some memory → memory.inner.safeMode = false →
      memory.Synced dir' ∧ memory.Settled dir' ∧
        ∀ index generation, dir.Retains index generation →
          generation.asU32 ≤ (memory.generationAt index).asU32) ∧
      ∀ index generation, dir.Retains index generation →
        dir'.Retains index generation := by
  cases hmove with
  | safeMode hwrites hkey hid =>
      refine ⟨?_, fun index generation hkept => hkept.startWrites hwrites⟩
      intro memory hstarted hopen
      cases hstarted
      rw [AuthMemory.safeMode_restored] at hopen
      cases hopen
  | @loaded mid _ adminKey instanceId state normal changed hwrites hkey hid hload
      hnormal hfinal =>
      obtain ⟨hbelongs, hgenerations⟩ := generationAt_normalizeTombstoneTimes hnormal
      have hsound := sound_normalizeTombstoneTimes
        (sound_of_load (hdir.startWrites hwrites) hload) hnormal
      have hequal : ∀ index, normal.generationAt index = mid.generationAt index :=
        fun index => (hgenerations index).trans (generationAt_of_load hload index)
      have hcases : dir' = mid ∨ dir' = mid.compacted adminKey normal := by
        rw [hfinal]
        cases changed with
        | true => exact .inr rfl
        | false => exact .inl rfl
      constructor
      · intro memory hstarted _
        cases hstarted
        obtain ⟨hsynced, hsettled⟩ := synced_restored hkey.1.1 hid.1 hload hbelongs
          hgenerations hsound (env.clock 0) (env.clock 1) hcases
        refine ⟨hsynced, hsettled, fun index generation hkept => ?_⟩
        rw [AuthMemory.generationAt_restored hsound, hequal]
        exact (hkept.startWrites hwrites).replayed
      · intro index generation hkept
        rcases hcases with rfl | rfl
        · exact hkept.startWrites hwrites
        · exact (hkept.startWrites hwrites).compacted (hequal index)
  | cut hwrites =>
      refine ⟨fun _ hstarted => ?_, fun index generation hkept =>
        hkept.startWrites hwrites⟩
      cases hstarted
  | @normalizeCut mid adminKey instanceId state normal made hwrites hkey hid hload
      hnormal hmade =>
      obtain ⟨-, hgenerations⟩ := generationAt_normalizeTombstoneTimes hnormal
      refine ⟨fun _ hstarted => ?_, fun index generation hkept => ?_⟩
      · cases hstarted
      have hequal : normal.generationAt index = mid.generationAt index :=
        (hgenerations index).trans (generationAt_of_load hload index)
      have hmid := hkept.startWrites hwrites
      refine applyAll_prefix_cons (motive := (·.Retains index generation)) hmid
        (fun made hmade => ?_) hmade
      refine applyAll_prefix_cons (motive := (·.Retains index generation))
        (hmid.installSnapshot hequal) (fun made hmade => ?_) hmade
      rw [List.prefix_nil.mp hmade]
      exact hmid.compacted hequal

end PbMapper.Auth

import PbMapper.Auth.StartMoves

/-!
# What a directory contains

A property of every snapshot and of every record of the log is kept by whatever
a server does, if the snapshots it builds and the records it plans have it.
-/

namespace PbMapper.Auth

open PbMapper.Core MachineWord

/-- The snapshot of the directory is `good`, and so is every record of its log. -/
structure StateDir.Only (good : PersistedSnapshot → Prop)
    (fine : WalRecord → Prop) (dir : StateDir) : Prop where
  snapshot : ∀ blob, dir.snapshot = some blob → good blob.plain
  wal : ∀ blob, .entire blob ∈ dir.frames → fine blob.plain

variable {good : PersistedSnapshot → Prop} {fine : WalRecord → Prop}
  {dir dir' : StateDir}

namespace StateDir.Only

theorem empty : StateDir.empty.Only good fine where
  snapshot _ hblob := by cases hblob
  wal _ hblob := absurd hblob List.not_mem_nil

theorem appendFrame (hdir : dir.Only good fine) {frame : WalFrame}
    (hframe : ∀ blob, frame = .entire blob → fine blob.plain) :
    (dir.appendFrame frame).Only good fine := by
  refine ⟨hdir.snapshot, fun blob hblob => ?_⟩
  rcases List.mem_append.mp hblob with hold | hnew
  · exact hdir.wal blob hold
  · exact hframe blob (List.mem_singleton.mp hnew).symm

theorem truncateWal (hdir : dir.Only good fine) : dir.truncateWal.Only good fine :=
  ⟨hdir.snapshot, fun _ hblob => absurd hblob List.not_mem_nil⟩

theorem installSnapshot (hdir : dir.Only good fine) (adminKey : AesKeyType)
    {snapshot : PersistedSnapshot} (hsnapshot : good snapshot) :
    (Auth.installSnapshot adminKey snapshot dir).Only good fine := by
  refine ⟨fun blob hblob => ?_, hdir.wal⟩
  cases hblob
  exact hsnapshot

/-- The identity files do not matter. -/
theorem congr (hdir : dir.Only good fine)
    (hsnapshot : dir'.snapshot = dir.snapshot)
    (hwal : dir'.frames = dir.frames) : dir'.Only good fine := by
  refine ⟨fun blob hblob => hdir.snapshot blob (hsnapshot ▸ hblob), ?_⟩
  rw [hwal]
  exact hdir.wal

theorem appendLeaves {frame : WalFrame} (hdir : dir.Only good fine)
    (hframe : ∀ blob, frame = .entire blob → fine blob.plain)
    (hleaves : AppendLeaves frame dir dir') : dir'.Only good fine := by
  cases hleaves with
  | nothing => exact hdir
  | opened => exact hdir.congr rfl rfl
  | torn => exact hdir.appendFrame fun _ htorn => by cases htorn
  | whole => exact hdir.appendFrame hframe

/-- The writes of a new snapshot. -/
theorem written {adminKey : AesKeyType} {snapshot : PersistedSnapshot}
    {made : List (StateDir → StateDir)} (hdir : dir.Only good fine)
    (hsnapshot : good snapshot)
    (hmade : made <+:
      [Auth.installSnapshot adminKey snapshot, StateDir.truncateWal]) :
    (applyAll made dir).Only good fine := by
  refine applyAll_preserves (fun change hchange dir hdir => ?_) hdir
  rcases List.mem_cons.mp (hmade.subset hchange) with rfl | hchange
  · exact hdir.installSnapshot adminKey hsnapshot
  · rw [List.mem_singleton.mp hchange]
    exact hdir.truncateWal

theorem resetWritten {adminKey : AesKeyType} {newInstanceId : InstanceId}
    {snapshot : PersistedSnapshot} {made : List (StateDir → StateDir)}
    (hdir : dir.Only good fine) (hsnapshot : good snapshot)
    (hmade : made <+: resetWrites adminKey newInstanceId snapshot) :
    (applyAll made dir).Only good fine := by
  refine applyAll_preserves (fun change hchange dir hdir => ?_) hdir
  have hmem := hmade.subset hchange
  simp only [resetWrites, List.mem_cons, List.not_mem_nil, or_false] at hmem
  rcases hmem with rfl | rfl | rfl | rfl
  · exact hdir.congr rfl rfl
  · exact hdir.installSnapshot adminKey hsnapshot
  · exact hdir.truncateWal
  · exact hdir.congr rfl rfl

theorem rotateWritten {newKey : AesKeyType} {snapshot : PersistedSnapshot}
    {made : List (StateDir → StateDir)} (hdir : dir.Only good fine)
    (hsnapshot : good snapshot)
    (hmade : made <+: rotateWrites newKey snapshot) :
    (applyAll made dir).Only good fine := by
  refine applyAll_preserves (fun change hchange dir hdir => ?_) hdir
  have hmem := hmade.subset hchange
  simp only [rotateWrites, List.mem_cons, List.not_mem_nil, or_false] at hmem
  rcases hmem with rfl | rfl | rfl | rfl
  · exact hdir.congr rfl rfl
  · exact hdir.installSnapshot newKey hsnapshot
  · exact hdir.truncateWal
  · exact hdir.congr rfl rfl

end StateDir.Only

/-! ## Moves -/

variable {crypto : AuthCrypto} {config : AuthConfig} {env : Surroundings}
  {memory base last : AuthMemory} {command : AuthCommand} {record : WalRecord}
  {stop : Interruption}

theorem only_entire {adminKey : AesKeyType} (hrecord : fine record)
    (blob : Sealed WalRecord)
    (hblob : WalFrame.entire ⟨adminKey, record⟩ = .entire blob) :
    fine blob.plain := by
  cases hblob
  exact hrecord

theorem AppendCut.only (hcut : AppendCut base dir record stop last dir')
    (hrecord : fine record) (hdir : dir.Only good fine) : dir'.Only good fine := by
  cases hcut with
  | retryable hretryable hsame =>
      exact hdir.appendLeaves (only_entire hrecord)
        (hsame.leaves (.entire ⟨base.inner.adminKey, record⟩))
  | uncertain hleaves => exact hdir.appendLeaves (only_entire hrecord) hleaves
  | stopped hleaves => exact hdir.appendLeaves (only_entire hrecord) hleaves

theorem CompactCut.only {snapshot : PersistedSnapshot}
    (hcut : CompactCut base dir snapshot stop last dir')
    (hsnapshot : good snapshot)
    (hdir : dir.Only good fine) : dir'.Only good fine := by
  cases hcut with
  | failed hmade => exact hdir.written hsnapshot hmade
  | stopped hmade => exact hdir.written hsnapshot hmade

/-- What a command may write from `memory` is good. -/
structure WritesOnly (crypto : AuthCrypto) (config : AuthConfig)
    (env : Surroundings) (memory : AuthMemory) (command : AuthCommand)
    (good : PersistedSnapshot → Prop) (fine : WalRecord → Prop) : Prop where
  record : ∀ base record result published,
    Appends crypto config env memory command base record result published →
      fine record
  collected : ∀ kept removed,
    memory.collectGarbage (env.clock 0) = (kept, removed) →
      good (kept.buildSnapshot.pushAudit (gcAudit env removed))
  reset : good (resetSnapshot env memory.bumpRootEpoch)
  rotated : good (rotateSnapshot env memory.bumpRootEpoch)

theorem CommandMove.only {ended : Except Interruption AuthResponse}
    (hmove : CommandMove crypto config env memory dir command ended last dir')
    (hwrites : WritesOnly crypto config env memory command good fine)
    (hdir : dir.Only good fine) : dir'.Only good fine := by
  cases hmove with
  | refused => exact hdir
  | claimRefused => exact hdir
  | listed => exact hdir
  | status => exact hdir
  | appended happends =>
      exact hdir.appendFrame (only_entire (hwrites.record _ _ _ _ happends))
  | appendCut happends hcut => exact hcut.only (hwrites.record _ _ _ _ happends) hdir
  | collected hopen hcollected =>
      exact (hdir.installSnapshot _ (hwrites.collected _ _ hcollected)).truncateWal
  | collectCut hopen hcollected hcut =>
      exact hcut.only (hwrites.collected _ _ hcollected) hdir
  | reset hbumped hmade hinstalled hremoved =>
      rw [hbumped] at hmade
      have hwritten := hdir.resetWritten hwrites.reset hmade
      rcases hremoved with rfl | rfl
      · exact hwritten
      · exact hwritten.congr rfl rfl
  | resetCut hbumped hcut =>
      rw [hbumped] at hcut
      cases hcut with
      | failed hmade => exact hdir.resetWritten hwrites.reset hmade
      | stopped hmade => exact hdir.resetWritten hwrites.reset hmade
      | removed hmade =>
          exact (hdir.resetWritten hwrites.reset hmade).congr rfl rfl
  | rotated hnew hbumped hmade hinstalled hremoved =>
      rw [hbumped] at hmade
      have hwritten := hdir.rotateWritten hwrites.rotated hmade
      rcases hremoved with rfl | rfl
      · exact hwritten
      · exact hwritten.congr rfl rfl
  | rotateCut hnew hbumped hcut =>
      rw [hbumped] at hcut
      cases hcut with
      | failed hmade => exact hdir.rotateWritten hwrites.rotated hmade
      | stopped hmade => exact hdir.rotateWritten hwrites.rotated hmade
      | removed hmade =>
          exact (hdir.rotateWritten hwrites.rotated hmade).congr rfl rfl

theorem TickMove.only {now : Seconds} {ended : Except Interruption Unit}
    (hmove : TickMove now memory dir ended last dir')
    (hgood :
      good ((memory.tickLeases now).pruneExpiredAdminReplays now).buildSnapshot)
    (hdir : dir.Only good fine) : dir'.Only good fine := by
  cases hmove with
  | ticked => exact hdir
  | compacted hpruned hopen =>
      rw [hpruned]
      exact (hdir.installSnapshot _ hgood).truncateWal
  | compactCut hpruned hopen hcut =>
      rw [hpruned] at hcut
      exact hcut.only hgood hdir

theorem StateDir.Only.startWrites (hdir : dir.Only good fine)
    (hwrites : StartWrites crypto dir dir') : dir'.Only good fine := by
  induction hwrites with
  | refl => exact hdir
  | tail _ hwrite ih =>
      cases hwrite with
      | truncateForKey => exact ih.truncateWal
      | truncateForId => exact ih.truncateWal
      | _ => exact ih.congr rfl rfl

/-! ## Loading -/

/-- What is true of the snapshot a directory is loaded from stays true as the
records of the log are applied to it. -/
theorem StateDir.Only.loaded {adminKey : AesKeyType} {instanceId : InstanceId}
    {state : PersistedSnapshot} (hdir : dir.Only good fine)
    (hinitial : good (initialSnapshot config instanceId))
    (hgrown : ∀ snapshot capacity, good snapshot → good (snapshot.grown capacity))
    (hrecord : ∀ snapshot record next, good snapshot → fine record →
      applyWalRecord snapshot record = .ok next → good next)
    (hload :
      tryLoadPersistedState crypto config adminKey instanceId dir = .ok state) :
    good state := by
  obtain ⟨base, records, hloaded, hfold⟩ := tryLoadPersistedState_eq_ok_iff.mp hload
  have hbase : good base := by
    rcases hloaded.snapshot with hsnapshot | ⟨-, rfl⟩
    · exact hdir.snapshot _ hsnapshot
    · exact hinitial
  refine Fallible.foldlM_preserves ?_ hfold (hgrown base _ hbase)
  intro record hmem snapshot next hsnapshot happly
  refine hrecord snapshot record next hsnapshot (hdir.wal ⟨adminKey, record⟩ ?_) happly
  rw [hloaded.wal]
  exact List.mem_map_of_mem hmem

end PbMapper.Auth

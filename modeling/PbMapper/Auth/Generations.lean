import PbMapper.Auth.Staged
import PbMapper.Foundation.Overwrites

/-!
# Generations of a directory

The generation a directory gives a row: that of the snapshot, overwritten by the
issues of the log.  A start may drop the log, but only for a snapshot that belongs
to a staged identity; if that snapshot has the generation too, no start loses it.
-/

namespace PbMapper.Auth

open PbMapper.Core MachineWord

/-! ## Replaying generations -/

/-- The generation a frame gives the row at `index`. -/
def WalFrame.issued (index : ℕ) : WalFrame → Option Generation
  | .entire ⟨_, .mutation (.issue entry) _⟩ =>
      if entry.keyId.slot.asIndex = index then some entry.keyId.generation
      else none
  | _ => none

def PersistedSnapshot.generationAt (snapshot : PersistedSnapshot) (index : ℕ) :
    Generation :=
  snapshot.generations.getD index .first

namespace StateDir

/-- The generation of a row before the log is applied. -/
def snapshotGeneration (dir : StateDir) (index : ℕ) : Generation :=
  dir.snapshot.elim .first (·.plain.generationAt index)

def generationAt (dir : StateDir) (index : ℕ) : Generation :=
  Overwrites.replay (·.issued index) (dir.snapshotGeneration index) dir.frames

end StateDir

theorem getD_growGenerations (generations : List Generation) (length index : ℕ) :
    (growGenerations generations length).getD index .first =
      generations.getD index .first := by
  rw [growGenerations, List.getD_eq_getElem?_getD, List.getD_eq_getElem?_getD,
    List.getElem?_append]
  split
  · rfl
  · rename_i hnot
    rw [List.getElem?_replicate, List.getElem?_eq_none (Nat.le_of_not_lt hnot)]
    split <;> rfl

theorem getD_set_growGenerations (generations : List Generation)
    (generation : Generation) (row index : ℕ) :
    ((growGenerations generations (row + 1)).set row generation).getD index .first =
      if row = index then generation else generations.getD index .first := by
  have hroom : row < (growGenerations generations (row + 1)).length := by
    rw [growGenerations, List.length_append, List.length_replicate]
    omega
  split
  · rename_i hrow
    rw [← hrow, List.getD_eq_getElem?_getD, List.getElem?_set_self hroom,
      Option.getD_some]
  · rename_i hrow
    rw [List.getD_eq_getElem?_getD, List.getElem?_set_ne hrow,
      ← List.getD_eq_getElem?_getD, getD_growGenerations]

/-- A record gives a loaded row the generation its frame gives it. -/
theorem generationAt_applyWalRecord {snapshot next : PersistedSnapshot}
    {record : WalRecord} (happly : applyWalRecord snapshot record = .ok next)
    (adminKey : AesKeyType) (index : ℕ) :
    next.generationAt index =
      ((WalFrame.entire ⟨adminKey, record⟩).issued index).getD
        (snapshot.generationAt index) := by
  cases record with
  | adminReplay record =>
      cases happly
      rfl
  | audit record =>
      cases happly
      rfl
  | mutation mutation audit =>
      obtain ⟨middle, hmiddle, hnext⟩ := Fallible.bind_eq_ok.mp happly
      cases hnext
      cases mutation with
      | issue entry =>
          cases hmiddle
          change List.getD _ index _ = _
          rw [getD_set_growGenerations, WalFrame.issued]
          split <;> rfl
      | renew keyId expiresAt =>
          obtain ⟨entries, -, rfl⟩ := updateSnapshotEntry_eq_ok hmiddle
          rfl
      | revoke keyId atTime =>
          obtain ⟨entries, -, rfl⟩ := updateSnapshotEntry_eq_ok hmiddle
          rfl
      | legacyProtocol policy =>
          cases hmiddle
          rfl

theorem generationAt_foldlM {records : List WalRecord}
    {snapshot loaded : PersistedSnapshot}
    (hfold : records.foldlM applyWalRecord snapshot = .ok loaded)
    (adminKey : AesKeyType) (index : ℕ) :
    loaded.generationAt index =
      Overwrites.replay (·.issued index) (snapshot.generationAt index)
        (entireFrames adminKey records) := by
  induction records generalizing snapshot with
  | nil =>
      cases hfold
      rfl
  | cons record records ih =>
      rw [List.foldlM_cons] at hfold
      obtain ⟨middle, hmiddle, hrest⟩ := Fallible.bind_eq_ok.mp hfold
      rw [ih hrest, generationAt_applyWalRecord hmiddle adminKey index]
      rfl

variable {crypto : AuthCrypto} {config : AuthConfig} {dir dir' : StateDir}
  {index : ℕ} {generation : Generation}

/-- A directory that loads gives every row its generation. -/
theorem generationAt_of_load {adminKey : AesKeyType} {instanceId : InstanceId}
    {state : PersistedSnapshot}
    (hload :
      tryLoadPersistedState crypto config adminKey instanceId dir = .ok state)
    (index : ℕ) : state.generationAt index = dir.generationAt index := by
  obtain ⟨base, records, hloaded, hfold⟩ := tryLoadPersistedState_eq_ok_iff.mp hload
  have hbase : (base.grown config.maxTemporaryKeys).generationAt index =
      dir.snapshotGeneration index := by
    change (growGenerations base.generations config.maxTemporaryKeys).getD index
      .first = _
    rw [getD_growGenerations, StateDir.snapshotGeneration]
    rcases hloaded.snapshot with hsnapshot | ⟨hnone, hinitial⟩
    · rw [hsnapshot]
      rfl
    · rw [hnone, hinitial, initialSnapshot, List.getD_eq_getElem?_getD,
        List.getElem?_replicate]
      split <;> rfl
  rw [generationAt_foldlM hfold adminKey index, hbase, StateDir.generationAt,
    hloaded.wal]

namespace StateDir

theorem generationAt_appendFrame (dir : StateDir) (frame : WalFrame) (index : ℕ) :
    (dir.appendFrame frame).generationAt index =
      (frame.issued index).getD (dir.generationAt index) :=
  Overwrites.replay_concat _ dir.frames frame

theorem generationAt_truncateWal (dir : StateDir) (index : ℕ) :
    dir.truncateWal.generationAt index = dir.snapshotGeneration index := rfl

/-- The identity files do not matter. -/
theorem generationAt_congr (hsnapshot : dir'.snapshot = dir.snapshot)
    (hwal : dir'.frames = dir.frames) :
    dir'.generationAt index = dir.generationAt index := by
  rw [generationAt, snapshotGeneration, hsnapshot, hwal]
  rfl

/-- A new snapshot with the generation does not lose it. -/
theorem le_generationAt_installSnapshot {adminKey : AesKeyType}
    {snapshot : PersistedSnapshot}
    (hsnapshot : generation.asU32 ≤ (snapshot.generationAt index).asU32)
    (hdir : generation.asU32 ≤ (dir.generationAt index).asU32) :
    generation.asU32 ≤
      ((installSnapshot adminKey snapshot dir).generationAt index).asU32 :=
  Overwrites.replay_of_start
    (motive := fun found : Generation => generation.asU32 ≤ found.asU32)
    hsnapshot hdir

/-! ## Snapshots of staged identities -/

/-- A staged identity is the one of the snapshot, and not in place yet. -/
def Promotable (dir : StateDir) (blob : Sealed PersistedSnapshot) : Prop :=
  (dir.adminKeyNext = some blob.key ∧ dir.adminKey ≠ some blob.key) ∨
    (dir.instanceIdNext = some blob.plain.instanceId ∧
      dir.instanceId ≠ some blob.plain.instanceId)

theorem opensWith_eq_true {key : AesKeyType} {blob : Sealed PersistedSnapshot}
    (hopens : opensWith key blob = true) : blob.key = key := by
  rw [opensWith] at hopens
  cases hparse : parseAdminKey key with
  | error message =>
      rw [hparse] at hopens
      cases hopens
  | ok parsed =>
      rw [hparse] at hopens
      simp only [openBlob] at hopens
      split at hopens
      · rename_i hkey
        exact hkey.trans (parseAdminKey_eq_ok hparse)
      · cases hopens

theorem KeyStaged.promotable {next : AesKeyType} (hstaged : dir.KeyStaged next) :
    ∃ blob, dir.snapshot = some blob ∧ dir.Promotable blob := by
  obtain ⟨current, blob, hcurrent, hblob, hclosed, hnext, hopens⟩ := hstaged
  have hkey := opensWith_eq_true hopens
  refine ⟨blob, hblob, .inl ⟨hkey ▸ hnext, fun hsame => ?_⟩⟩
  rw [hcurrent, hkey] at hsame
  rw [Option.some.inj hsame, hopens] at hclosed
  cases hclosed

theorem IdStaged.promotable {next : InstanceId} (hstaged : dir.IdStaged next) :
    ∃ blob, dir.snapshot = some blob ∧ dir.Promotable blob := by
  obtain ⟨current, blob, -, hblob, hcurrent, hdead, hnext, hbelongs⟩ := hstaged
  refine ⟨blob, hblob, .inr ⟨hbelongs ▸ hnext, fun hsame => ?_⟩⟩
  rw [hcurrent] at hsame
  exact hdead (Option.some.inj hsame).symm

/-! ## Generations no start loses -/

/-- Whatever a start finishes or drops, the row has at least this generation. -/
structure Retains (dir : StateDir) (index : ℕ) (generation : Generation) :
    Prop where
  replayed : generation.asU32 ≤ (dir.generationAt index).asU32
  promoted : ∀ blob, dir.snapshot = some blob → dir.Promotable blob →
    generation.asU32 ≤ (blob.plain.generationAt index).asU32

theorem Retains.mono {least : Generation} (hdir : dir.Retains index generation)
    (hleast : least.asU32 ≤ generation.asU32) : dir.Retains index least :=
  ⟨hleast.trans hdir.replayed,
    fun blob hblob hpromotable => hleast.trans (hdir.promoted blob hblob hpromotable)⟩

theorem Retains.truncateWal (hdir : dir.Retains index generation)
    (hstaged : ∃ blob, dir.snapshot = some blob ∧ dir.Promotable blob) :
    dir.truncateWal.Retains index generation := by
  obtain ⟨blob, hblob, hpromotable⟩ := hstaged
  refine ⟨?_, hdir.promoted⟩
  rw [generationAt_truncateWal, snapshotGeneration, hblob]
  exact hdir.promoted blob hblob hpromotable

/-- Identity files change, and nothing becomes promotable by it. -/
theorem Retains.congr (hdir : dir.Retains index generation)
    (hsnapshot : dir'.snapshot = dir.snapshot) (hwal : dir'.frames = dir.frames)
    (hpromotable : ∀ blob, dir'.Promotable blob → dir.Promotable blob) :
    dir'.Retains index generation := by
  refine ⟨?_, fun blob hblob hstaged => ?_⟩
  · rw [generationAt_congr hsnapshot hwal]
    exact hdir.replayed
  · exact hdir.promoted blob (hsnapshot ▸ hblob) (hpromotable blob hstaged)

/-- The snapshots a start writes have the generations of the directory. -/
theorem Retains.installSnapshot (hdir : dir.Retains index generation)
    {adminKey : AesKeyType} {snapshot : PersistedSnapshot}
    (hsnapshot : snapshot.generationAt index = dir.generationAt index) :
    (Auth.installSnapshot adminKey snapshot dir).Retains index generation := by
  have hkept : generation.asU32 ≤ (snapshot.generationAt index).asU32 := by
    rw [hsnapshot]
    exact hdir.replayed
  refine ⟨le_generationAt_installSnapshot hkept hdir.replayed, ?_⟩
  intro blob hblob hpromotable
  cases hblob
  exact hkept

theorem Retains.compacted (hdir : dir.Retains index generation)
    {adminKey : AesKeyType} {snapshot : PersistedSnapshot}
    (hsnapshot : snapshot.generationAt index = dir.generationAt index) :
    (dir.compacted adminKey snapshot).Retains index generation := by
  refine ⟨?_, (hdir.installSnapshot hsnapshot).promoted⟩
  change generation.asU32 ≤ (snapshot.generationAt index).asU32
  rw [hsnapshot]
  exact hdir.replayed

/-- No write of a start loses a generation. -/
theorem Retains.startWrite (hdir : dir.Retains index generation)
    (hwrite : StartWrite crypto dir dir') : dir'.Retains index generation := by
  cases hwrite with
  | seedKey hnone =>
      refine hdir.congr rfl rfl fun blob hstaged => ?_
      exact hstaged.imp_left fun hkey => ⟨hkey.1, by simp [hnone]⟩
  | truncateForKey hstaged => exact hdir.truncateWal hstaged.promotable
  | @promoteKey next hstaged hwal =>
      refine hdir.congr rfl rfl fun blob hpromotable => ?_
      refine hpromotable.imp_left fun hkey => ?_
      obtain ⟨-, -, -, -, -, hnext, -⟩ := hstaged
      exact absurd (hnext.symm.trans hkey.1) hkey.2
  | dropNextKey =>
      refine hdir.congr rfl rfl fun blob hpromotable => ?_
      exact hpromotable.imp_left fun hkey => by cases hkey.1
  | writeId hnone =>
      refine hdir.congr rfl rfl fun blob hstaged => ?_
      exact hstaged.imp_right fun hid => ⟨hid.1, by simp [hnone]⟩
  | truncateForId hstaged => exact hdir.truncateWal hstaged.promotable
  | promoteId hstaged hwal =>
      refine hdir.congr rfl rfl fun blob hpromotable => ?_
      refine hpromotable.imp_right fun hid => ?_
      obtain ⟨-, -, -, -, -, -, hnext, -⟩ := hstaged
      exact absurd (hnext.symm.trans hid.1) hid.2
  | dropNextId =>
      refine hdir.congr rfl rfl fun blob hpromotable => ?_
      exact hpromotable.imp_right fun hid => by cases hid.1

theorem Retains.startWrites (hdir : dir.Retains index generation)
    (hwrites : StartWrites crypto dir dir') : dir'.Retains index generation := by
  induction hwrites with
  | refl => exact hdir
  | tail _ hwrite ih => exact ih.startWrite hwrite

end StateDir

end PbMapper.Auth

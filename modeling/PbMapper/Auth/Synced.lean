import PbMapper.Auth.Generations
import PbMapper.Auth.Settings

/-!
# The directory of a server

A directory that is not behind its server: what a restart would load gives every
row at least the generation the memory gives it, however far the last change of the
identity got.
-/

namespace PbMapper.Auth

open PbMapper.Core MachineWord Effect

/-! ## Generations of the memory -/

namespace AuthMemory

def generationAt (memory : AuthMemory) (index : ℕ) : Generation :=
  memory.snapshotGenerations.getD index .first

variable {memory memory' : AuthMemory} {dir dir' : StateDir} {index : ℕ}

theorem Trimmed.generationAt (htrimmed : Trimmed memory memory') (index : ℕ) :
    memory'.generationAt index = memory.generationAt index := by
  rw [AuthMemory.generationAt, htrimmed.snapshotGenerations]
  rfl

theorem generationAt_of_slot {slot : SlotHot}
    (hslot : memory.slot? index = some slot) :
    memory.generationAt index = slot.generation := by
  have hlt := (List.getElem?_eq_some_iff.mp hslot).1
  rw [slot?] at hslot
  rw [generationAt, snapshotGenerations, List.getD_eq_getElem?_getD,
    List.getElem?_append_left (by rwa [List.length_map]), List.getElem?_map, hslot]
  rfl

/-- A row is replaced in the table. -/
theorem getD_modify_generations (slots : List SlotHot) (high : List Generation)
    (slot : SlotHot) {row : ℕ} (hrow : row < slots.length) (index : ℕ) :
    ((slots.modify row fun _ => slot).map (·.generation) ++ high).getD index .first =
      if row = index then slot.generation
      else (slots.map (·.generation) ++ high).getD index .first := by
  have hset : (slots.modify row fun _ => slot).map (·.generation) =
      (slots.map (·.generation)).set row slot.generation := by
    apply List.ext_getElem?
    intro other
    rw [List.getElem?_map, List.getElem?_modify, List.getElem?_set, List.length_map,
      if_pos hrow, List.getElem?_map]
    split
    · rename_i hsame
      rw [← hsame, List.getElem?_eq_getElem hrow]
      rfl
    · exact congrArg _ Option.map_id'
  have hroom : row < (slots.map (·.generation)).length := by rwa [List.length_map]
  rw [hset, ← List.set_append_left _ _ hroom, List.getD_eq_getElem?_getD,
    List.getElem?_set]
  split
  · rw [if_pos (by rw [List.length_append]; omega), Option.getD_some]
  · rw [List.getD_eq_getElem?_getD]

/-- An issue gives its row the new generation. -/
theorem generationAt_publishIssue {entry : PersistedEntry} {free : SlotHot}
    (hslot : memory.slot? entry.keyId.slot.asIndex = some free) (index : ℕ) :
    (memory.publishIssue entry).generationAt index =
      if entry.keyId.slot.asIndex = index then entry.keyId.generation
      else memory.generationAt index := by
  rw [(trimmed_publishIssue entry).generationAt]
  exact getD_modify_generations memory.inner.slots memory.inner.highSlotGenerations _
    (List.getElem?_eq_some_iff.mp hslot).1 index

theorem root_publishIssue (memory : AuthMemory) (entry : PersistedEntry) :
    (memory.publishIssue entry).inner.adminKey = memory.inner.adminKey ∧
      (memory.publishIssue entry).inner.instanceId = memory.inner.instanceId :=
  ⟨(trimmed_publishIssue entry).adminKey, (trimmed_publishIssue entry).instanceId⟩

/-! ## The directory of a server -/

/-- The snapshot belongs to the identity in memory. -/
def Seals (memory : AuthMemory) (blob : Sealed PersistedSnapshot) : Prop :=
  blob.key = memory.inner.adminKey ∧ blob.plain.instanceId = memory.inner.instanceId

/-- The directory is not behind, however far the last change of the identity got:
a snapshot for another identity has all generations. -/
structure Synced (memory : AuthMemory) (dir : StateDir) : Prop where
  replayed : ∀ index,
    (memory.generationAt index).asU32 ≤ (dir.generationAt index).asU32
  owned : ∀ blob, dir.snapshot = some blob → blob.key = memory.inner.adminKey ∨
    blob.plain.instanceId = memory.inner.instanceId
  foreign : ∀ blob, dir.snapshot = some blob → ¬memory.Seals blob → ∀ index,
    (memory.generationAt index).asU32 ≤ (blob.plain.generationAt index).asU32
  keyNext : dir.adminKeyNext = some memory.inner.adminKey →
    dir.adminKey = some memory.inner.adminKey
  idNext : dir.instanceIdNext = some memory.inner.instanceId →
    dir.instanceId = some memory.inner.instanceId

/-- While keys can be issued, the snapshot belongs to the identity in memory. -/
def Settled (memory : AuthMemory) (dir : StateDir) : Prop :=
  memory.inner.safeMode = false → ∀ blob, dir.snapshot = some blob →
    memory.Seals blob

theorem Synced.not_seals (hsynced : memory.Synced dir)
    {blob : Sealed PersistedSnapshot}
    (hpromotable : dir.Promotable blob) : ¬memory.Seals blob := by
  rintro ⟨hkey, hid⟩
  rcases hpromotable with ⟨hnext, hlive⟩ | ⟨hnext, hlive⟩
  · rw [hkey] at hnext hlive
    exact hlive (hsynced.keyNext hnext)
  · rw [hid] at hnext hlive
    exact hlive (hsynced.idNext hnext)

/-- A server that is gone leaves its generations in its directory. -/
theorem Synced.retains (hsynced : memory.Synced dir) (index : ℕ) :
    dir.Retains index (memory.generationAt index) :=
  ⟨hsynced.replayed index, fun blob hblob hpromotable =>
    hsynced.foreign blob hblob (hsynced.not_seals hpromotable) index⟩

theorem Synced.trimmed (hsynced : memory.Synced dir)
    (htrimmed : Trimmed memory memory') : memory'.Synced dir := by
  have hseals : ∀ blob, memory'.Seals blob ↔ memory.Seals blob := by
    intro blob
    rw [Seals, Seals, htrimmed.adminKey, htrimmed.instanceId]
  constructor
  · intro index
    rw [htrimmed.generationAt]
    exact hsynced.replayed index
  · rw [htrimmed.adminKey, htrimmed.instanceId]
    exact hsynced.owned
  · intro blob hblob hother index
    rw [htrimmed.generationAt]
    exact hsynced.foreign blob hblob (fun hown => hother ((hseals blob).mpr hown)) index
  · rw [htrimmed.adminKey]
    exact hsynced.keyNext
  · rw [htrimmed.instanceId]
    exact hsynced.idNext

theorem Settled.trimmed (hsettled : memory.Settled dir)
    (htrimmed : Trimmed memory memory')
    (hsafe : memory'.inner.safeMode = memory.inner.safeMode) :
    memory'.Settled dir := by
  rw [Settled, hsafe]
  intro hopen blob hblob
  rw [Seals, htrimmed.adminKey, htrimmed.instanceId]
  exact hsettled hopen blob hblob

theorem settled_failClosed (dir : StateDir) : memory.failClosed.Settled dir := by
  intro hopen
  have hclosed : memory.failClosed.inner.safeMode = true :=
    congrArg Settings.safeMode memory.settings_failClosed
  rw [hclosed] at hopen
  cases hopen

/-! ## Files -/

/-- The snapshot and the log are the same, and no staged identity is the one in
memory. -/
theorem Synced.identity (hsynced : memory.Synced dir)
    (hsnapshot : dir'.snapshot = dir.snapshot) (hwal : dir'.frames = dir.frames)
    (hkey : dir'.adminKeyNext = some memory.inner.adminKey →
      dir'.adminKey = some memory.inner.adminKey)
    (hid : dir'.instanceIdNext = some memory.inner.instanceId →
      dir'.instanceId = some memory.inner.instanceId) : memory.Synced dir' := by
  refine ⟨fun index => ?_, ?_, ?_, hkey, hid⟩
  · rw [StateDir.generationAt_congr hsnapshot hwal]
    exact hsynced.replayed index
  · rw [hsnapshot]
    exact hsynced.owned
  · rw [hsnapshot]
    exact hsynced.foreign

theorem Synced.appendFrame (hsynced : memory.Synced dir) {frame : WalFrame}
    (hframe : ∀ index, (memory.generationAt index).asU32 ≤
      ((frame.issued index).getD (memory.generationAt index)).asU32) :
    memory.Synced (dir.appendFrame frame) := by
  refine ⟨fun index => ?_, hsynced.owned, hsynced.foreign, hsynced.keyNext,
    hsynced.idNext⟩
  have hissued := hframe index
  rw [StateDir.generationAt_appendFrame]
  cases hframe : frame.issued index with
  | none => exact hsynced.replayed index
  | some generation =>
      rw [hframe] at hissued
      exact hissued

theorem Synced.appendLeaves (hsynced : memory.Synced dir) {frame : WalFrame}
    (hframe : ∀ index, (memory.generationAt index).asU32 ≤
      ((frame.issued index).getD (memory.generationAt index)).asU32)
    (hleaves : AppendLeaves frame dir dir') : memory.Synced dir' := by
  cases hleaves with
  | nothing => exact hsynced
  | opened => exact hsynced.identity rfl rfl hsynced.keyNext hsynced.idNext
  | torn => exact hsynced.appendFrame fun _ => le_rfl
  | whole => exact hsynced.appendFrame hframe

theorem Synced.installSnapshot (hsynced : memory.Synced dir) {key : AesKeyType}
    {snapshot : PersistedSnapshot}
    (hgenerations : ∀ index, snapshot.generationAt index = memory.generationAt index)
    (howned : key = memory.inner.adminKey ∨
      snapshot.instanceId = memory.inner.instanceId) :
    memory.Synced (Auth.installSnapshot key snapshot dir) := by
  have hcovered : ∀ index, (memory.generationAt index).asU32 ≤
      (snapshot.generationAt index).asU32 := by
    intro index
    rw [hgenerations]
  refine ⟨fun index => ?_, ?_, ?_, hsynced.keyNext, hsynced.idNext⟩
  · exact StateDir.le_generationAt_installSnapshot (hcovered index)
      (hsynced.replayed index)
  · intro blob hblob
    cases hblob
    exact howned
  · intro blob hblob _ index
    cases hblob
    exact hcovered index

/-- The log is dropped once the snapshot has the generations. -/
theorem Synced.compacted (hsynced : memory.Synced dir) {key : AesKeyType}
    {snapshot : PersistedSnapshot}
    (hgenerations : ∀ index, snapshot.generationAt index = memory.generationAt index)
    (howned : key = memory.inner.adminKey ∨
      snapshot.instanceId = memory.inner.instanceId) :
    memory.Synced (dir.compacted key snapshot) := by
  have hinstalled : memory.Synced (Auth.installSnapshot key snapshot dir) :=
    hsynced.installSnapshot hgenerations howned
  refine ⟨fun index => ?_, hinstalled.owned, hinstalled.foreign, hinstalled.keyNext,
    hinstalled.idNext⟩
  rw [← hgenerations index]
  exact le_rfl

end AuthMemory

/-- What holds before the changes and after every first part of them. -/
theorem applyAll_prefix_cons {motive : StateDir → Prop} {dir : StateDir}
    {change : StateDir → StateDir} {changes made : List (StateDir → StateDir)}
    (hdir : motive dir)
    (hrest : ∀ made, made <+: changes → motive (applyAll made (change dir)))
    (hmade : made <+: change :: changes) : motive (applyAll made dir) := by
  rcases List.prefix_cons_iff.mp hmade with rfl | ⟨rest, rfl, hrestMade⟩
  · exact hdir
  · exact hrest rest hrestMade

namespace AuthMemory

variable {memory : AuthMemory} {dir : StateDir} {made : List (StateDir → StateDir)}

theorem Synced.written (hsynced : memory.Synced dir) {key : AesKeyType}
    {snapshot : PersistedSnapshot}
    (hgenerations : ∀ index, snapshot.generationAt index = memory.generationAt index)
    (howned : key = memory.inner.adminKey ∨
      snapshot.instanceId = memory.inner.instanceId)
    (hmade : made <+: [Auth.installSnapshot key snapshot, StateDir.truncateWal]) :
    memory.Synced (applyAll made dir) := by
  refine applyAll_prefix_cons hsynced (fun made hmade => ?_) hmade
  refine applyAll_prefix_cons (hsynced.installSnapshot hgenerations howned)
    (fun made hmade => ?_) hmade
  rw [List.prefix_nil.mp hmade]
  exact hsynced.compacted hgenerations howned

/-- Every part of a reset that was made. -/
theorem Synced.resetWritten (hsynced : memory.Synced dir)
    {newInstanceId : InstanceId} {snapshot : PersistedSnapshot}
    (hgenerations : ∀ index, snapshot.generationAt index = memory.generationAt index)
    (hfresh : newInstanceId ≠ memory.inner.instanceId)
    (hmade : made <+: resetWrites memory.inner.adminKey newInstanceId snapshot) :
    memory.Synced (applyAll made dir) := by
  have hother : some newInstanceId ≠ some memory.inner.instanceId :=
    fun hsame => hfresh (Option.some.inj hsame)
  have hstaged : memory.Synced { dir with instanceIdNext := some newInstanceId } :=
    hsynced.identity rfl rfl hsynced.keyNext fun hnext => absurd hnext hother
  refine applyAll_prefix_cons hsynced (fun made hmade => ?_) hmade
  refine applyAll_prefix_cons hstaged (fun made hmade => ?_) hmade
  refine applyAll_prefix_cons (hstaged.installSnapshot hgenerations (.inl rfl))
    (fun made hmade => ?_) hmade
  have hcompacted : memory.Synced (StateDir.compacted
      { dir with instanceIdNext := some newInstanceId } memory.inner.adminKey
        snapshot) := hstaged.compacted hgenerations (.inl rfl)
  refine applyAll_prefix_cons hcompacted (fun made hmade => ?_) hmade
  rw [List.prefix_nil.mp hmade]
  exact hcompacted.identity rfl rfl hcompacted.keyNext fun hnext => absurd hnext hother

/-- Every part of a rotation that was made. -/
theorem Synced.rotateWritten (hsynced : memory.Synced dir) {newKey : AesKeyType}
    {snapshot : PersistedSnapshot}
    (hgenerations : ∀ index, snapshot.generationAt index = memory.generationAt index)
    (hid : snapshot.instanceId = memory.inner.instanceId)
    (hnew : newKey ≠ memory.inner.adminKey)
    (hmade : made <+: rotateWrites newKey snapshot) :
    memory.Synced (applyAll made dir) := by
  have hother : some newKey ≠ some memory.inner.adminKey :=
    fun hsame => hnew (Option.some.inj hsame)
  have hstaged : memory.Synced { dir with adminKeyNext := some newKey } :=
    hsynced.identity rfl rfl (fun hnext => absurd hnext hother) hsynced.idNext
  refine applyAll_prefix_cons hsynced (fun made hmade => ?_) hmade
  refine applyAll_prefix_cons hstaged (fun made hmade => ?_) hmade
  refine applyAll_prefix_cons (hstaged.installSnapshot hgenerations (.inr hid))
    (fun made hmade => ?_) hmade
  have hcompacted : memory.Synced (StateDir.compacted
      { dir with adminKeyNext := some newKey } newKey snapshot) :=
    hstaged.compacted hgenerations (.inr hid)
  refine applyAll_prefix_cons hcompacted (fun made hmade => ?_) hmade
  rw [List.prefix_nil.mp hmade]
  exact hcompacted.identity rfl rfl (fun hnext => absurd hnext hother)
    hcompacted.idNext

end AuthMemory

end PbMapper.Auth

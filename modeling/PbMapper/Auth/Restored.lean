import PbMapper.Auth.Contents
import PbMapper.Auth.Keys

/-!
# The memory a server starts with

A sound directory is loaded to a sound snapshot, and the table, the leases and
the timers that are restored from one are in order.  Everything a server writes
keeps the directory sound.
-/

namespace PbMapper.Auth

open PbMapper.Core MachineWord

/-! ## Filling the table -/

/-- The table once the entries `done` are restored. -/
structure Filling (capacity : ℕ) (generations : List Generation) (now : ℕ)
    (done : List PersistedEntry) (table : RestoredTable) : Prop where
  length : table.slots.length = capacity
  untouched : ∀ (index : ℕ) (slot : SlotHot), table.slots[index]? = some slot →
    (∀ entry ∈ done, entry.keyId.slot.asIndex ≠ index) → slot.state = .free
  bounded : ∀ (index : ℕ) (slot : SlotHot), table.slots[index]? = some slot →
    slot.expiresAt ≤ u64Max
  described : ∀ (index : ℕ) (slot : SlotHot), table.slots[index]? = some slot →
    slot.state ≠ .free →
      (table.cold.lookup (AuthMemory.rowKeyId slot index)).isSome
  live : ∀ (index : ℕ) (slot : SlotHot), table.slots[index]? = some slot →
    slot.state = .active → slot.lease.isSome
  cold : ∀ keyId, (table.cold.lookup keyId).isSome →
    ∃ slot : SlotHot, table.slots[keyId.slot.asIndex]? = some slot ∧
      slot.holds keyId = true
  leased : ∀ id lease, table.leaseHeap[id]? = some lease → id ≠ 0 →
    ∃ (index : ℕ) (slot : SlotHot), table.slots[index]? = some slot ∧
      slot.state = .active ∧ slot.lease = some id
  generations : table.slots.map (·.generation) =
    (emptyTable capacity generations).map (·.generation)
  held : ∀ (index : ℕ) (slot : SlotHot), table.slots[index]? = some slot →
    slot.state ≠ .free → ∃ entry ∈ done, entry.keyId.slot.asIndex = index ∧
      slot.generation = entry.keyId.generation ∧
      slot.state = restoredState entry now ∧ slot.expiresAt = entry.expiresAt ∧
      table.cold.lookup entry.keyId = some (restoredCold entry now)
  filled : ∀ entry ∈ done, ∀ slot : SlotHot,
    table.slots[entry.keyId.slot.asIndex]? = some slot →
      slot.generation = entry.keyId.generation → slot.state ≠ .free

theorem restoredState_ne_free {entry : PersistedEntry} (hsound : entry.Sound)
    (now : ℕ) : restoredState entry now ≠ .free := by
  rw [restoredState]
  split
  · exact nofun
  · exact hsound.1

theorem filling_empty (capacity : ℕ) (generations : List Generation) (now : ℕ) :
    Filling capacity generations now []
      ⟨emptyTable capacity generations, ∅, [.new adminKeyId u64Max]⟩ := by
  have hrow : ∀ (index : ℕ) (slot : SlotHot),
      (emptyTable capacity generations)[index]? = some slot →
        slot.state = .free ∧ slot.expiresAt = 0 := by
    intro index slot hslot
    rw [emptyTable, List.getElem?_map] at hslot
    obtain ⟨found, -, rfl⟩ := Option.map_eq_some_iff.mp hslot
    exact ⟨rfl, rfl⟩
  refine ⟨?_, fun index slot hslot _ => (hrow index slot hslot).1,
    fun index slot hslot => ?_, fun index slot hslot hused => ?_,
    fun index slot hslot hactive => ?_, fun keyId hkey => ?_, ?_, rfl,
    fun index slot hslot hused => absurd (hrow index slot hslot).1 hused,
    fun _ hentry => absurd hentry List.not_mem_nil⟩
  · rw [emptyTable, List.length_map, List.length_range]
  · rw [(hrow index slot hslot).2]
    exact Nat.zero_le _
  · exact absurd (hrow index slot hslot).1 hused
  · rw [(hrow index slot hslot).1] at hactive
    cases hactive
  · cases hkey
  · intro id lease hlease hid
    rw [List.getElem?_singleton] at hlease
    split at hlease
    · exact absurd (by assumption) hid
    · cases hlease

variable {capacity now : ℕ} {generations : List Generation}
  {done : List PersistedEntry} {table : RestoredTable}

theorem Filling.skip (hfilling : Filling capacity generations now done table)
    {entry : PersistedEntry} (hskipped : ∀ slot : SlotHot,
      table.slots[entry.keyId.slot.asIndex]? = some slot →
        slot.generation ≠ entry.keyId.generation) :
    Filling capacity generations now (done ++ [entry]) table :=
  { hfilling with
    untouched := fun index slot hslot hnone =>
      hfilling.untouched index slot hslot fun other hother =>
        hnone other (List.mem_append_left _ hother)
    held := fun index slot hslot hused => by
      obtain ⟨other, hother, hheld⟩ := hfilling.held index slot hslot hused
      exact ⟨other, List.mem_append_left _ hother, hheld⟩
    filled := fun other hother slot hslot hgeneration => by
      rcases List.mem_append.mp hother with hold | hnew
      · exact hfilling.filled other hold slot hslot hgeneration
      · rw [List.mem_singleton.mp hnew] at hslot hgeneration
        exact absurd hgeneration (hskipped slot hslot) }

theorem Filling.restoreEntry
    (hfilling : Filling capacity generations now done table)
    {entry : PersistedEntry} (hsound : entry.Sound)
    (hfresh : ∀ other ∈ done, other.keyId.slot ≠ entry.keyId.slot) :
    Filling capacity generations now (done ++ [entry])
      (restoreEntry now table entry) := by
  rw [Auth.restoreEntry]
  cases hslot : table.slots[entry.keyId.slot.asIndex]? with
  | none =>
      apply hfilling.skip
      intro slot hfound
      rw [hslot] at hfound
      cases hfound
  | some slot =>
      simp only
      split
      · rename_i hgeneration
        apply hfilling.skip
        intro found hfound
        rw [hslot] at hfound
        cases hfound
        exact hgeneration
      rename_i hgeneration
      rw [not_not] at hgeneration
      have hfree : slot.state = .free := by
        apply hfilling.untouched _ slot hslot
        intro other hother heq
        exact hfresh other hother (SlotIndex.ext heq)
      have hused := restoredState_ne_free hsound now
      generalize hrow : ({ slot with
        state := restoredState entry now
        expiresAt := entry.expiresAt
        lease := if restoredState entry now = .active then
          some table.leaseHeap.length else slot.lease } : SlotHot) = row
      have hstate : row.state = restoredState entry now := by rw [← hrow]
      have hkey : AuthMemory.rowKeyId row entry.keyId.slot.asIndex = entry.keyId := by
        apply AuthMemory.rowKeyId_of_generation
        rw [← hrow]
        exact hgeneration
      have hlt := (List.getElem?_eq_some_iff.mp hslot).1
      have hset : ∀ (index : ℕ),
          (table.slots.set entry.keyId.slot.asIndex row)[index]? =
            if entry.keyId.slot.asIndex = index then some row
            else table.slots[index]? := by
        intro index
        rw [List.getElem?_set]
        split
        · rfl
        · rfl
      have hlookup : ∀ other, (table.cold.insert entry.keyId
          (restoredCold entry now)).lookup other =
            if other = entry.keyId then some (restoredCold entry now)
            else table.cold.lookup other :=
        fun other => Table.lookup_insert _ _ _ _
      constructor
      · exact (List.length_set ..).trans hfilling.length
      · intro index found hfound hnone
        have hother : entry.keyId.slot.asIndex ≠ index :=
          hnone entry (List.mem_append_right _ List.mem_cons_self)
        rw [hset, if_neg hother] at hfound
        exact hfilling.untouched index found hfound fun other hmem =>
          hnone other (List.mem_append_left _ hmem)
      · intro index found hfound
        rw [hset] at hfound
        split at hfound
        · cases hfound
          rw [← hrow]
          exact hsound.2
        · exact hfilling.bounded index found hfound
      · intro index found hfound hnotFree
        rw [hset] at hfound
        rw [hlookup]
        split at hfound
        · rename_i heq
          cases hfound
          subst heq
          rw [if_pos hkey]
          rfl
        · split
          · rfl
          · exact hfilling.described index found hfound hnotFree
      · intro index found hfound hactive
        rw [hset] at hfound
        split at hfound
        · cases hfound
          rw [hstate] at hactive
          rw [← hrow]
          simp [hactive]
        · exact hfilling.live index found hfound hactive
      · intro keyId hcold
        rw [hlookup] at hcold
        by_cases hother : keyId = entry.keyId
        · subst hother
          refine ⟨row, ?_, ?_⟩
          · rw [hset, if_pos rfl]
          · rw [SlotHot.holds_iff, hstate, ← hrow]
            exact ⟨hgeneration, hused⟩
        · rw [if_neg hother] at hcold
          obtain ⟨found, hfound, hholds⟩ := hfilling.cold keyId hcold
          refine ⟨found, ?_, hholds⟩
          rw [hset, if_neg]
          · exact hfound
          · intro heq
            rw [← heq, hslot] at hfound
            cases hfound
            exact (SlotHot.holds_iff.mp hholds).2 hfree
      · intro id lease hlease hid
        have hold : ∀ lease, table.leaseHeap[id]? = some lease →
            ∃ (index : ℕ) (found : SlotHot),
              (table.slots.set entry.keyId.slot.asIndex row)[index]? = some found ∧
                found.state = .active ∧ found.lease = some id := by
          intro lease hlease
          obtain ⟨index, found, hfound, hactive, howner⟩ :=
            hfilling.leased id lease hlease hid
          refine ⟨index, found, ?_, hactive, howner⟩
          rw [hset, if_neg]
          · exact hfound
          · rintro rfl
            rw [hslot] at hfound
            cases hfound
            rw [hfree] at hactive
            cases hactive
        by_cases hactive : restoredState entry now = .active
        · rw [if_pos hactive] at hlease
          rcases Nat.lt_or_ge id table.leaseHeap.length with hlt | hge
          · rw [List.getElem?_append_left hlt] at hlease
            exact hold lease hlease
          · have hlast := (List.getElem?_eq_some_iff.mp hlease).1
            rw [List.length_append, List.length_singleton] at hlast
            obtain rfl := Nat.le_antisymm (Nat.le_of_lt_succ hlast) hge
            refine ⟨entry.keyId.slot.asIndex, row, ?_, hstate.trans hactive, ?_⟩
            · rw [hset, if_pos rfl]
            · rw [← hrow]
              exact if_pos hactive
        · rw [if_neg hactive, List.append_nil] at hlease
          exact hold lease hlease
      · rw [← hfilling.generations]
        apply List.ext_getElem?
        intro index
        rw [List.getElem?_map, List.getElem?_map, hset]
        split
        · rename_i heq
          rw [← heq, hslot, ← hrow]
          rfl
        · rfl
      · intro index found hfound hnotFree
        rw [hset] at hfound
        split at hfound
        · rename_i heq
          cases hfound
          refine ⟨entry, List.mem_append_right _ List.mem_cons_self, heq, ?_, hstate,
            ?_, ?_⟩
          · rw [← hrow]
            exact hgeneration
          · rw [← hrow]
          · rw [hlookup, if_pos rfl]
        · rename_i hne
          obtain ⟨other, hother, hindex, hsame, hold, hexpires, hcold⟩ :=
            hfilling.held index found hfound hnotFree
          refine ⟨other, List.mem_append_left _ hother, hindex, hsame, hold, hexpires,
            ?_⟩
          rw [hlookup, if_neg]
          · exact hcold
          · intro hkey
            rw [hkey] at hindex
            exact hne hindex
      · intro other hother found hfound hsame
        rw [hset] at hfound
        split at hfound
        · cases hfound
          rw [hstate]
          exact hused
        · rename_i hne
          rcases List.mem_append.mp hother with hold | hnew
          · exact hfilling.filled other hold found hfound hsame
          · rw [List.mem_singleton.mp hnew] at hne
            exact absurd rfl hne

/-- The table of all entries. -/
theorem filling_entries (capacity : ℕ) {entries : List PersistedEntry}
    (hsound : ∀ entry ∈ entries, entry.Sound) (hdistinct : OnePerSlot entries)
    (now : ℕ) (generations : List Generation) :
    Filling capacity generations now entries (entries.foldl (restoreEntry now)
      ⟨emptyTable capacity generations, ∅, [.new adminKeyId u64Max]⟩) := by
  induction entries using List.reverseRecOn with
  | nil => exact filling_empty capacity generations now
  | append_singleton entries entry ih =>
      rw [List.foldl_append, List.foldl_cons, List.foldl_nil]
      have hsplit := List.pairwise_append.mp hdistinct
      apply (ih (fun other hother => hsound other (List.mem_append_left _ hother))
        hsplit.1).restoreEntry
        (hsound entry (List.mem_append_right _ List.mem_cons_self))
      intro other hother
      exact hsplit.2.2 other hother entry List.mem_cons_self

/-! ## Sound snapshots -/

/-- A snapshot that can be restored. -/
structure PersistedSnapshot.Sound (snapshot : PersistedSnapshot) : Prop where
  entries : ∀ entry ∈ snapshot.entries, entry.Sound
  distinct : OnePerSlot snapshot.entries

namespace AuthMemory

variable {memory : AuthMemory}

/-- The callbacks of the schedule that is rebuilt. -/
def watchedCallbacks (rows : List (KeyId × LeaseId × ℕ)) : List TimerCallback :=
  rows.flatMap fun (keyId, lease, _) =>
    [.retire keyId lease, .reap keyId (some lease)]

def reapedCallbacks (keyIds : List KeyId) : List TimerCallback :=
  keyIds.map fun keyId => .reap keyId none

/-- The memory before its schedule is rebuilt. -/
structure Unscheduled (memory : AuthMemory) (promised : List TimerCallback) :
    Prop where
  timed : memory.Timed []
  owned : memory.Owned promised
  filed : memory.Filed

theorem Filed.scheduleReap (hfiled : memory.Filed) (keyId : KeyId) (deadline : ℕ) :
    (memory.scheduleReap keyId deadline).Filed := by
  apply Filed.scheduleAt
  exact hfiled.quietly rfl rfl

theorem Unscheduled.watchRows {promised : List TimerCallback}
    {rows : List (KeyId × LeaseId × ℕ)} {memory : AuthMemory}
    (hmemory : memory.Unscheduled (watchedCallbacks rows ++ promised))
    (hrows : ∀ row ∈ rows, row.2.2 ≤ u64Max) :
    (rows.foldl (fun memory (keyId, lease, expiresAt) =>
      memory.watch keyId lease expiresAt) memory).Unscheduled promised := by
  induction rows generalizing memory with
  | nil => exact hmemory
  | cons row rows ih =>
      obtain ⟨keyId, lease, expiresAt⟩ := row
      have hexpires := hrows _ List.mem_cons_self
      refine ih ⟨hmemory.timed.watch hexpires, ?_, hmemory.filed.watch _ _ _⟩
        fun row hrow => hrows row (List.mem_cons_of_mem _ hrow)
      exact hmemory.owned.watch

theorem Unscheduled.reapKeys {keyIds : List KeyId} {memory : AuthMemory}
    (hmemory : memory.Unscheduled (reapedCallbacks keyIds)) (now : ℕ) :
    (keyIds.foldl (fun memory keyId =>
      memory.scheduleReap keyId (memory.reapDeadline keyId now)) memory).Kept := by
  induction keyIds generalizing memory with
  | nil => exact ⟨hmemory.timed, hmemory.owned, hmemory.filed⟩
  | cons keyId keyIds ih =>
      exact ih ⟨hmemory.timed.scheduleReap (retentionEnds_le _),
        hmemory.owned.scheduleReap, hmemory.filed.scheduleReap _ _⟩

theorem mem_liveRows {index : ℕ} {slot : SlotHot} {lease : LeaseId}
    (hslot : memory.slot? index = some slot) (hactive : slot.state = .active)
    (hlease : slot.lease = some lease) :
    (rowKeyId slot index, lease, slot.expiresAt) ∈ memory.liveRows := by
  rw [liveRows, List.mem_filterMap]
  refine ⟨(slot, index), List.mem_zipIdx_iff_getElem?.mpr hslot, ?_⟩
  simp only
  rw [if_pos hactive, hlease, Option.map_some]

theorem expiresAt_liveRows (hfiled : memory.Filed) (row : KeyId × LeaseId × ℕ)
    (hrow : row ∈ memory.liveRows) : row.2.2 ≤ u64Max := by
  obtain ⟨⟨slot, index⟩, hslot, hmapped⟩ := List.mem_filterMap.mp hrow
  simp only at hmapped
  split at hmapped
  · obtain ⟨lease, -, rfl⟩ := Option.map_eq_some_iff.mp hmapped
    exact hfiled.rows index slot (List.mem_zipIdx_iff_getElem?.mp hslot)
  · cases hmapped

theorem mem_deadKeys {index : ℕ} {slot : SlotHot}
    (hslot : memory.slot? index = some slot)
    (hdead : slot.state = .expired ∨ slot.state = .revoked) :
    rowKeyId slot index ∈ memory.deadKeys := by
  rw [deadKeys, List.mem_append, List.mem_filterMap]
  exact .inl ⟨(slot, index), List.mem_zipIdx_iff_getElem?.mpr hslot, if_pos hdead⟩

/-- The schedule of a memory that owes its timers. -/
theorem kept_restoreLeases
    (hmemory : memory.Unscheduled
      (watchedCallbacks memory.liveRows ++ reapedCallbacks memory.deadKeys))
    (now : ℕ) : (memory.restoreLeases now).Kept := by
  apply Unscheduled.reapKeys
  exact hmemory.watchRows (expiresAt_liveRows hmemory.filed)

end AuthMemory

theorem sound_restoreHighEntry {entry : PersistedEntry} (hsound : entry.Sound)
    (now : ℕ) : (restoreHighEntry now entry).Sound := by
  rw [restoreHighEntry]
  split
  · exact ⟨nofun, hsound.2⟩
  · exact hsound

theorem keyId_restoreHighEntry (now : ℕ) (entry : PersistedEntry) :
    (restoreHighEntry now entry).keyId = entry.keyId := by
  rw [restoreHighEntry]
  split <;> rfl

/-- The entries above a table of `capacity` rows. -/
theorem filed_high {capacity : ℕ} {state : PersistedSnapshot}
    (hsound : state.Sound) (now : ℕ) :
    (∀ entry ∈ (splitHighSlotState state capacity).2.map (restoreHighEntry now),
      entry.Sound ∧ capacity ≤ entry.keyId.slot.asIndex) ∧
      OnePerSlot
        ((splitHighSlotState state capacity).2.map (restoreHighEntry now)) := by
  constructor
  · intro entry hentry
    obtain ⟨found, hfound, rfl⟩ := List.mem_map.mp hentry
    obtain ⟨hmem, hindex⟩ := List.mem_filter.mp hfound
    refine ⟨sound_restoreHighEntry (hsound.entries found hmem) now, ?_⟩
    rw [keyId_restoreHighEntry]
    exact of_decide_eq_true hindex
  · have hfiltered := hsound.distinct.filter fun entry =>
      decide (capacity ≤ entry.keyId.slot.asIndex)
    rw [onePerSlot_iff] at hfiltered ⊢
    rw [List.map_map]
    have hkeys : (·.keyId) ∘ restoreHighEntry now = PersistedEntry.keyId :=
      funext (keyId_restoreHighEntry now)
    rw [hkeys]
    exact hfiltered

/-- The table a server starts with. -/
def restoredTable (config : AuthConfig) (loaded : Option PersistedSnapshot)
    (now : ℕ) : RestoredTable :=
  (loaded.elim [] (·.entries)).foldl (restoreEntry now)
    ⟨emptyTable config.maxTemporaryKeys (loaded.elim [] (·.generations)), ∅,
      [.new adminKeyId u64Max]⟩

theorem filling_restored (config : AuthConfig) {loaded : Option PersistedSnapshot}
    (hsound : ∀ state, loaded = some state → state.Sound) (now : ℕ) :
    Filling config.maxTemporaryKeys (loaded.elim [] (·.generations)) now
      (loaded.elim [] (·.entries)) (restoredTable config loaded now) := by
  cases loaded with
  | none => exact filling_empty config.maxTemporaryKeys [] now
  | some state =>
      exact filling_entries config.maxTemporaryKeys (hsound state rfl).entries
        (hsound state rfl).distinct now state.generations

/-- The restored memory owes its timers. -/
theorem unscheduled_restored (config : AuthConfig) (adminKey : AesKeyType)
    (instanceId : InstanceId) {loaded : Option PersistedSnapshot}
    (hsound : ∀ state, loaded = some state → state.Sound) (safeMode : Bool)
    {now : ℕ} (hnow : now ≤ u64Max) (lastSnapshotAt : ℕ) {memory : AuthMemory}
    (hmemory : memory = restoredMemory config adminKey instanceId loaded safeMode now
      lastSnapshotAt) :
    memory.Unscheduled (AuthMemory.watchedCallbacks memory.liveRows ++
      AuthMemory.reapedCallbacks memory.deadKeys) := by
  have hfilling := filling_restored config hsound now
  generalize htable : restoredTable config loaded now = table at hfilling
  have hslots : memory.inner.slots = table.slots := by rw [hmemory, ← htable]; rfl
  have hcold : memory.inner.cold = table.cold := by rw [hmemory, ← htable]; rfl
  have hleases : memory.leaseHeap = table.leaseHeap := by rw [hmemory, ← htable]; rfl
  have hrow : ∀ index, memory.slot? index = table.slots[index]? := by
    intro index
    rw [AuthMemory.slot?, hslots]
  have hsize : memory.inner.slots.length = config.maxTemporaryKeys := by
    rw [hslots]
    exact hfilling.length
  have hadmin : memory.inner.adminLease = 0 := by rw [hmemory]; rfl
  have hhigh : memory.inner.highSlotEntries = (loaded.elim ([], [])
      (splitHighSlotState · config.maxTemporaryKeys)).2.map
        (restoreHighEntry now) := by
    rw [hmemory]
    rfl
  refine ⟨?_, ⟨?_, ?_, ?_, ?_, ?_⟩, ?_, ?_, ?_⟩
  · obtain ⟨hwheel, hradix, hlevels, hticks, -⟩ := AuthMemory.newWheel_timed
    have hschedule : memory.leases = ⟨newWheel, now, ∅⟩ := by rw [hmemory]; rfl
    have htimers : memory.timerHeap = [] := by rw [hmemory]; rfl
    refine ⟨?_, ?_, ?_, ?_, ?_, fun timer callback hpending => ?_⟩
    · rw [hschedule]
      exact hwheel
    · rw [hschedule]
      exact hradix
    · rw [hschedule]
      exact hlevels
    · rw [hschedule]
      exact hticks.trans_le (Nat.zero_le now)
    · rw [hschedule]
      exact hnow
    · rw [AuthMemory.Pending, htimers] at hpending
      cases hpending
  · rw [hsize]
    exact config.keys_le
  · intro index slot hslot hused
    right
    have hfound := hslot
    rw [hrow] at hfound
    cases hstate : slot.state with
    | free => exact absurd hstate hused
    | active =>
        obtain ⟨lease, hlease⟩ :=
          Option.isSome_iff_exists.mp (hfilling.live index slot hfound hstate)
        refine ⟨some lease, List.mem_append_left _ (List.mem_flatMap.mpr
          ⟨_, AuthMemory.mem_liveRows hslot hstate hlease, ?_⟩)⟩
        exact List.mem_cons_of_mem _ List.mem_cons_self
    | expired =>
        exact ⟨none, List.mem_append_right _ (List.mem_map.mpr
          ⟨_, AuthMemory.mem_deadKeys hslot (.inl hstate), rfl⟩)⟩
    | revoked =>
        exact ⟨none, List.mem_append_right _ (List.mem_map.mpr
          ⟨_, AuthMemory.mem_deadKeys hslot (.inr hstate), rfl⟩)⟩
  · intro index slot hslot hused
    rw [hrow] at hslot
    rw [hcold]
    exact hfilling.described index slot hslot hused
  · intro keyId hkey
    rw [hcold] at hkey
    rw [hrow]
    exact hfilling.cold keyId hkey
  · intro id lease hlease hlive hnot
    right
    rw [AuthMemory.lease?, hleases] at hlease
    rw [hadmin] at hnot
    obtain ⟨index, slot, hslot, hactive, howner⟩ :=
      hfilling.leased id lease hlease hnot
    rw [← hrow] at hslot
    refine ⟨_, List.mem_append_left _ (List.mem_flatMap.mpr
      ⟨_, AuthMemory.mem_liveRows hslot hactive howner, List.mem_cons_self⟩)⟩
  · intro index slot hslot
    rw [hrow] at hslot
    exact hfilling.bounded index slot hslot
  · rw [hhigh, hsize]
    cases loaded with
    | none => exact fun _ hentry => absurd hentry List.not_mem_nil
    | some state => exact (filed_high (hsound state rfl) now).1
  · rw [hhigh]
    cases loaded with
    | none => exact List.Pairwise.nil
    | some state => exact (filed_high (hsound state rfl) now).2

namespace AuthMemory

/-- The restored memory has the generations that were loaded. -/
theorem snapshotGenerations_restored (config : AuthConfig) (adminKey : AesKeyType)
    (instanceId : InstanceId) {loaded : Option PersistedSnapshot}
    (hsound : ∀ state, loaded = some state → state.Sound) (safeMode : Bool)
    (now lastSnapshotAt : ℕ) :
    (restoredMemory config adminKey instanceId loaded safeMode now
      lastSnapshotAt).snapshotGenerations =
        growGenerations (loaded.elim [] (·.generations)) config.maxTemporaryKeys := by
  have hrows := (filling_restored config hsound now).generations
  have htable : ∀ generations : List Generation,
      (emptyTable config.maxTemporaryKeys generations).map (·.generation) ++
        generations.drop config.maxTemporaryKeys =
          growGenerations generations config.maxTemporaryKeys := by
    intro generations
    apply List.ext_getElem?
    intro index
    rw [growGenerations, emptyTable, List.map_map, List.getElem?_append,
      List.getElem?_append, List.length_map, List.length_range]
    simp only [List.getElem?_map, List.getElem?_drop, List.getElem?_replicate]
    by_cases hlow : index < config.maxTemporaryKeys
    · rw [if_pos hlow, List.getElem?_range hlow]
      by_cases hknown : index < generations.length
      · simp [hknown]
      · have hroom : index - generations.length <
            config.maxTemporaryKeys - generations.length := by omega
        simp [hknown, hroom]
    · have hindex : config.maxTemporaryKeys + (index - config.maxTemporaryKeys) =
          index := by omega
      have hroom : ¬index - generations.length <
          config.maxTemporaryKeys - generations.length := by omega
      rw [if_neg hlow, hindex, if_neg hroom]
      split
      · rfl
      · exact List.getElem?_eq_none (by omega)
  cases loaded with
  | none =>
      rw [← htable, Option.elim_none, List.drop_nil]
      exact congrArg (· ++ []) hrows
  | some state =>
      rw [← htable]
      exact congrArg (· ++ state.generations.drop config.maxTemporaryKeys) hrows

theorem trimmed_scheduleReap {memory : AuthMemory} (keyId : KeyId) (deadline : ℕ) :
    Trimmed memory (memory.scheduleReap keyId deadline) := by
  refine Trimmed.trans ?_ (trimmed_scheduleAt _ _)
  exact trimmed_of_inner rfl

/-- The timers are no keys. -/
theorem trimmed_restoreLeases {memory : AuthMemory} (now : ℕ) :
    Trimmed memory (memory.restoreLeases now) := by
  have hreaps : ∀ (keyIds : List KeyId) (memory : AuthMemory), Trimmed memory
      (keyIds.foldl (fun memory keyId =>
        memory.scheduleReap keyId (memory.reapDeadline keyId now)) memory) := by
    intro keyIds
    induction keyIds with
    | nil => exact Trimmed.refl
    | cons keyId keyIds ih => exact fun _ => (trimmed_scheduleReap _ _).trans (ih _)
  have hwatches : ∀ (rows : List (KeyId × LeaseId × ℕ)) (memory : AuthMemory),
      Trimmed memory (rows.foldl (fun memory (keyId, lease, expiresAt) =>
        memory.watch keyId lease expiresAt) memory) := by
    intro rows
    induction rows with
    | nil => exact Trimmed.refl
    | cons row rows ih => exact fun _ => (trimmed_watch _ _ _).trans (ih _)
  exact (hwatches _ _).trans (hreaps _ _)

end AuthMemory

/-! ## Sound directories -/

def WalRecord.Sound : WalRecord → Prop
  | .mutation (.issue entry) _ => entry.Sound
  | .mutation (.renew _ expiresAt) _ => expiresAt ≤ u64Max
  | .mutation (.revoke _ _) _ | .mutation (.legacyProtocol _) _ => True
  | .audit _ | .adminReplay _ => True

/-- Everything in the directory can be restored. -/
abbrev StateDir.Sound (dir : StateDir) : Prop :=
  dir.Only PersistedSnapshot.Sound WalRecord.Sound

variable {dir : StateDir}

/-! ## Loading -/

/-- A record changes one entry. -/
theorem updateSnapshotEntry_eq_ok {snapshot updated : PersistedSnapshot}
    {keyId : KeyId} {operation : String} {change : PersistedEntry → PersistedEntry}
    (hupdate :
      updateSnapshotEntry snapshot keyId operation change = .ok updated) :
    ∃ entries, updateEntry keyId change snapshot.entries = some entries ∧
      updated = { snapshot with entries := entries } := by
  rw [updateSnapshotEntry] at hupdate
  split at hupdate
  · rename_i entries hentries
    exact ⟨entries, hentries, (Except.ok.inj hupdate).symm⟩
  · cases hupdate

theorem PersistedSnapshot.Sound.updateEntry {snapshot : PersistedSnapshot}
    (hsound : snapshot.Sound) {keyId : KeyId}
    {change : PersistedEntry → PersistedEntry}
    (hkey : ∀ entry, (change entry).keyId = entry.keyId)
    (hchange : ∀ entry, entry.Sound → (change entry).Sound)
    {entries : List PersistedEntry}
    (hupdate : updateEntry keyId change snapshot.entries = some entries) :
    PersistedSnapshot.Sound { snapshot with entries := entries } := by
  refine ⟨updateEntry_preserves hchange hupdate hsound.entries, ?_⟩
  have hdistinct := hsound.distinct
  rw [onePerSlot_iff] at hdistinct ⊢
  simp only
  rw [keyIds_updateEntry hkey hupdate]
  exact hdistinct

theorem PersistedSnapshot.Sound.applyMutation {snapshot next : PersistedSnapshot}
    (hsound : snapshot.Sound) {mutation : StateMutation} {audit : AuditRecord}
    (hmutation : (WalRecord.mutation mutation audit).Sound)
    (happly : applyPersistedMutation snapshot mutation = .ok next) :
    next.Sound := by
  cases mutation with
  | issue entry =>
      cases happly
      refine ⟨fun other hother => ?_, ?_⟩
      · rcases List.mem_append.mp hother with hold | hnew
        · exact hsound.entries other (List.mem_of_mem_filter hold)
        · rw [List.mem_singleton.mp hnew]
          exact hmutation
      · refine List.pairwise_append.mpr ⟨hsound.distinct.filter _,
          List.pairwise_singleton _ _, fun other hother last hlast => ?_⟩
        rw [List.mem_singleton.mp hlast]
        have hindex := of_decide_eq_true (List.mem_filter.mp hother).2
        exact fun heq => hindex (congrArg SlotIndex.asIndex heq)
  | renew keyId expiresAt =>
      obtain ⟨entries, hentries, rfl⟩ := updateSnapshotEntry_eq_ok happly
      refine hsound.updateEntry ?_ ?_ hentries
      · exact fun _ => rfl
      · exact fun _ _ => ⟨nofun, hmutation⟩
  | revoke keyId atTime =>
      obtain ⟨entries, hentries, rfl⟩ := updateSnapshotEntry_eq_ok happly
      refine hsound.updateEntry ?_ ?_ hentries
      · exact fun _ => rfl
      · exact fun _ hentry => ⟨nofun, hentry.2⟩
  | legacyProtocol policy =>
      cases happly
      exact ⟨hsound.entries, hsound.distinct⟩

theorem PersistedSnapshot.Sound.applyRecord {snapshot next : PersistedSnapshot}
    (hsound : snapshot.Sound) {record : WalRecord} (hrecord : record.Sound)
    (happly : applyWalRecord snapshot record = .ok next) : next.Sound := by
  cases record with
  | mutation mutation audit =>
      obtain ⟨middle, hmiddle, hnext⟩ := Fallible.bind_eq_ok.mp happly
      have hmutated := hsound.applyMutation hrecord hmiddle
      cases hnext
      exact ⟨hmutated.entries, hmutated.distinct⟩
  | audit audit =>
      cases happly
      exact ⟨hsound.entries, hsound.distinct⟩
  | adminReplay replay =>
      cases happly
      exact ⟨hsound.entries, hsound.distinct⟩

/-- A sound directory is loaded to a sound snapshot. -/
theorem sound_of_load {crypto : AuthCrypto} {config : AuthConfig}
    {adminKey : AesKeyType} {instanceId : InstanceId} {state : PersistedSnapshot}
    (hdir : dir.Sound)
    (hload : tryLoadPersistedState crypto config adminKey instanceId dir = .ok state) :
    state.Sound := by
  refine hdir.loaded ?_ ?_ ?_ hload
  · exact ⟨fun _ hentry => absurd hentry List.not_mem_nil, List.Pairwise.nil⟩
  · exact fun _ _ hsound => ⟨hsound.entries, hsound.distinct⟩
  · exact fun _ _ _ hsound hrecord => hsound.applyRecord hrecord

theorem sound_normalizeTombstoneTimes {snapshot normal : PersistedSnapshot}
    {changed : Bool} {now : ℕ} (hsound : snapshot.Sound)
    (hnormal : normalizeTombstoneTimes snapshot now = (normal, changed)) :
    normal.Sound := by
  cases hnormal
  have hentry : ∀ entry,
      (normalizeEntry snapshot.auditRecords now entry).keyId = entry.keyId ∧
        (entry.Sound → (normalizeEntry snapshot.auditRecords now entry).Sound) := by
    intro entry
    rw [normalizeEntry]
    split
    · exact ⟨rfl, id⟩
    · exact ⟨rfl, id⟩
  refine ⟨fun entry hmem => ?_, ?_⟩
  · obtain ⟨found, hfound, rfl⟩ := List.mem_map.mp hmem
    exact (hentry found).2 (hsound.entries found hfound)
  · have hdistinct := hsound.distinct
    rw [onePerSlot_iff] at hdistinct ⊢
    simp only
    have hkeys : PersistedEntry.keyId ∘ normalizeEntry snapshot.auditRecords now =
        PersistedEntry.keyId := funext fun entry => (hentry entry).1
    rw [List.map_map, hkeys]
    exact hdistinct

/-! ## Writing -/

namespace AuthMemory

variable {memory : AuthMemory}

theorem mem_tableEntries {entry : PersistedEntry} :
    entry ∈ memory.tableEntries ↔
      ∃ index slot, memory.slot? index = some slot ∧
        memory.rowEntry slot index = some entry := by
  rw [tableEntries, List.mem_filterMap]
  constructor
  · rintro ⟨⟨slot, index⟩, hslot, hentry⟩
    exact ⟨index, slot, List.mem_zipIdx_iff_getElem?.mp hslot, hentry⟩
  · rintro ⟨index, slot, hslot, hentry⟩
    exact ⟨(slot, index), List.mem_zipIdx_iff_getElem?.mpr hslot, hentry⟩

theorem rowEntry_eq_some {slot : SlotHot} {index : ℕ} {entry : PersistedEntry}
    (hentry : memory.rowEntry slot index = some entry) :
    slot.state ≠ .free ∧ entry.keyId = rowKeyId slot index ∧
      entry.state = slot.state ∧ entry.expiresAt = slot.expiresAt := by
  rw [rowEntry] at hentry
  split at hentry
  · cases hentry
  · rename_i hused
    obtain ⟨cold, -, rfl⟩ := Option.map_eq_some_iff.mp hentry
    exact ⟨hused, rfl, rfl, rfl⟩

/-- The rows of the table are distinct. -/
theorem onePerSlot_tableEntries (hsize : memory.inner.slots.length ≤ 2 ^ 32) :
    OnePerSlot memory.tableEntries := by
  rw [OnePerSlot, tableEntries, List.pairwise_filterMap]
  have hindices : memory.inner.slots.zipIdx.Pairwise
      fun left right => left.2 ≠ right.2 := by
    have hnodup : (List.range' 0 memory.inner.slots.length).Nodup :=
      List.nodup_range'
    rw [← List.zipIdx_map_snd, List.nodup_iff_pairwise_ne,
      List.pairwise_map] at hnodup
    exact hnodup
  refine hindices.imp_of_mem ?_
  rintro ⟨left, i⟩ ⟨right, j⟩ hleft hright hne entry hentry other hother heq
  obtain ⟨-, hkey, -⟩ := rowEntry_eq_some hentry
  obtain ⟨-, hkey', -⟩ := rowEntry_eq_some hother
  have hi := (List.getElem?_eq_some_iff.mp
    (List.mem_zipIdx_iff_getElem?.mp hleft)).1
  have hj := (List.getElem?_eq_some_iff.mp
    (List.mem_zipIdx_iff_getElem?.mp hright)).1
  have hindex := congrArg SlotIndex.asIndex heq
  rw [hkey, hkey', slot_rowKeyId left (hi.trans_le hsize),
    slot_rowKeyId right (hj.trans_le hsize)] at hindex
  exact hne hindex

theorem Kept.size (hkept : memory.Kept) : memory.inner.slots.length ≤ 2 ^ 32 :=
  hkept.owned.size.trans (by decide)

/-- What a server with its memory in order writes. -/
theorem Kept.sound_buildSnapshot (hkept : memory.Kept) :
    memory.buildSnapshot.Sound := by
  constructor
  · intro entry hentry
    rcases List.mem_append.mp hentry with htable | hhigh
    · obtain ⟨index, slot, hslot, hrow⟩ := mem_tableEntries.mp htable
      obtain ⟨hused, -, hstate, hexpires⟩ := rowEntry_eq_some hrow
      refine ⟨?_, ?_⟩
      · rw [hstate]
        exact hused
      · rw [hexpires]
        exact hkept.filed.rows index slot hslot
    · exact (hkept.filed.high entry hhigh).1
  · refine List.pairwise_append.mpr ⟨onePerSlot_tableEntries hkept.size,
      hkept.filed.distinct, fun entry htable high hhigh heq => ?_⟩
    obtain ⟨index, slot, hslot, hrow⟩ := mem_tableEntries.mp htable
    obtain ⟨-, hkey, -⟩ := rowEntry_eq_some hrow
    have hlt := (List.getElem?_eq_some_iff.mp hslot).1
    have habove := (hkept.filed.high high hhigh).2
    rw [← heq, hkey, slot_rowKeyId slot (hlt.trans_le hkept.size)] at habove
    exact absurd hlt (Nat.not_lt.mpr habove)

theorem sound_emptySnapshot (instanceId : InstanceId)
    (replays : List AdminReplayRecord) :
    (memory.emptySnapshot instanceId replays).Sound :=
  ⟨fun _ hentry => absurd hentry List.not_mem_nil, List.Pairwise.nil⟩

end AuthMemory

theorem PersistedSnapshot.pushAudit_eq (snapshot : PersistedSnapshot)
    (record : AuditRecord) :
    ∃ records, snapshot.pushAudit record =
      { snapshot with auditRecords := records } :=
  ⟨_, rfl⟩

theorem PersistedSnapshot.Sound.pushAudit {snapshot : PersistedSnapshot}
    (hsound : snapshot.Sound) (record : AuditRecord) :
    (snapshot.pushAudit record).Sound := by
  obtain ⟨records, hpushed⟩ := snapshot.pushAudit_eq record
  rw [hpushed]
  exact ⟨hsound.entries, hsound.distinct⟩

/-! ## Moves keep the directory sound -/

variable {crypto : AuthCrypto} {config : AuthConfig} {env : Surroundings}
  {memory base published last : AuthMemory} {dir' : StateDir}
  {command : AuthCommand} {record : WalRecord}
  {result : Except AuthFailure AuthResponse} {stop : Interruption}

theorem Appends.sound_record
    (happends :
      Appends crypto config env memory command base record result published) :
    record.Sound := by
  cases happends with
  | issue hplan haudit hpublished =>
      have hplanned := AuthMemory.plannedIssue hplan
      refine ⟨?_, ?_⟩
      · rw [hplanned.state]
        exact nofun
      · rw [hplanned.expiresAt]
        exact AuthMemory.satAdd_u64Max_le _ _
  | renew hplan =>
      rw [(AuthMemory.plannedRenew hplan).expiresAt_eq]
      exact AuthMemory.satAdd_u64Max_le _ _
  | renewLost hplan =>
      change _ ≤ u64Max
      rw [(AuthMemory.plannedRenew hplan).expiresAt_eq]
      exact AuthMemory.satAdd_u64Max_le _ _
  | _ => trivial

theorem CommandMove.sound {ended : Except Interruption AuthResponse}
    (hmove : CommandMove crypto config env memory dir command ended last dir')
    (hkept : memory.Kept) (hdir : dir.Sound) : dir'.Sound := by
  refine hmove.only ⟨?_, ?_, ?_, ?_⟩ hdir
  · exact fun _ _ _ _ happends => happends.sound_record
  · intro kept removed hcollected
    have hgc := hkept.collectGarbage (env.clock 0)
    rw [hcollected] at hgc
    exact hgc.sound_buildSnapshot.pushAudit _
  · exact (AuthMemory.sound_emptySnapshot _ _).pushAudit _
  · exact (AuthMemory.sound_emptySnapshot _ _).pushAudit _

theorem TickMove.sound {now : Seconds} {ended : Except Interruption Unit}
    (hmove : TickMove now memory dir ended last dir') (hkept : memory.Kept)
    (hdir : dir.Sound) : dir'.Sound :=
  hmove.only ((hkept.tickLeases (u64_le now)).quiet
    (AuthMemory.quiet_pruneExpiredAdminReplays _)).sound_buildSnapshot hdir

/-- A start finds and leaves a sound directory, and its memory is in order. -/
theorem StartMove.kept {env : StartSurroundings} {started : Option AuthMemory}
    (hmove : StartMove crypto config env dir started dir') (hdir : dir.Sound) :
    dir'.Sound ∧ ∀ memory, started = some memory → memory.Kept := by
  cases hmove with
  | safeMode hwrites hkey hid =>
      refine ⟨hdir.startWrites hwrites, ?_⟩
      rintro memory hstarted
      cases hstarted
      refine AuthMemory.kept_restoreLeases (unscheduled_restored config _ _ ?_ true
        (u64_le _) _ rfl) _
      exact fun _ hnone => nomatch hnone
  | loaded hwrites hkey hid hload hnormal hfinal =>
      have hmid := hdir.startWrites hwrites
      have hsound := sound_normalizeTombstoneTimes (sound_of_load hmid hload) hnormal
      constructor
      · rw [hfinal]
        split
        · exact (hmid.installSnapshot _ hsound).truncateWal
        · exact hmid
      · rintro memory hstarted
        cases hstarted
        refine AuthMemory.kept_restoreLeases (unscheduled_restored config _ _ ?_ false
          (u64_le _) _ rfl) _
        rintro state hstate
        cases hstate
        exact hsound
  | cut hwrites => exact ⟨hdir.startWrites hwrites, fun _ hnone => nomatch hnone⟩
  | normalizeCut hwrites hkey hid hload hnormal hmade =>
      have hmid := hdir.startWrites hwrites
      have hsound := sound_normalizeTombstoneTimes (sound_of_load hmid hload) hnormal
      exact ⟨hmid.written hsound hmade, fun _ hnone => nomatch hnone⟩

end PbMapper.Auth

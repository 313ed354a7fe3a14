import PbMapper.Auth.Kept

/-!
# Which keys there are

A key is held by its row or by an entry above the table.  Only an issue makes
the memory hold a key it did not hold, and only an issue changes a generation.
-/

namespace PbMapper.Auth

open MachineWord

namespace AuthMemory

/-- A row of the table or an entry above it belongs to the key. -/
def Holds (memory : AuthMemory) (keyId : KeyId) : Prop :=
  (∃ slot, memory.slot? keyId.slot.asIndex = some slot ∧
    slot.holds keyId = true) ∨
    ∃ entry ∈ memory.inner.highSlotEntries, entry.keyId = keyId

/-- Keys may be gone, and no other row has changed its key. -/
structure Trimmed (memory memory' : AuthMemory) : Prop where
  length : memory'.inner.slots.length = memory.inner.slots.length
  rows : ∀ index slot', memory'.slot? index = some slot' →
    ∃ slot, memory.slot? index = some slot ∧
      slot'.generation = slot.generation ∧ (slot'.state ≠ .free → slot.state ≠ .free)
  high : ∀ entry' ∈ memory'.inner.highSlotEntries,
    ∃ entry ∈ memory.inner.highSlotEntries, entry.keyId = entry'.keyId
  highGenerations :
    memory'.inner.highSlotGenerations = memory.inner.highSlotGenerations
  adminKey : memory'.inner.adminKey = memory.inner.adminKey
  instanceId : memory'.inner.instanceId = memory.inner.instanceId

variable {memory memory' memory'' : AuthMemory}

theorem Trimmed.refl (memory : AuthMemory) : Trimmed memory memory :=
  ⟨rfl, fun _ slot hslot => ⟨slot, hslot, rfl, id⟩,
    fun entry hentry => ⟨entry, hentry, rfl⟩, rfl, rfl, rfl⟩

theorem Trimmed.trans (hfirst : Trimmed memory memory')
    (hsecond : Trimmed memory' memory'') : Trimmed memory memory'' where
  length := hsecond.length.trans hfirst.length
  rows index slot'' hslot'' := by
    obtain ⟨slot', hslot', hgeneration', hused'⟩ := hsecond.rows index slot'' hslot''
    obtain ⟨slot, hslot, hgeneration, hused⟩ := hfirst.rows index slot' hslot'
    exact ⟨slot, hslot, hgeneration'.trans hgeneration, hused ∘ hused'⟩
  high entry'' hentry'' := by
    obtain ⟨entry', hentry', hkey'⟩ := hsecond.high entry'' hentry''
    obtain ⟨entry, hentry, hkey⟩ := hfirst.high entry' hentry'
    exact ⟨entry, hentry, hkey.trans hkey'⟩
  highGenerations := hsecond.highGenerations.trans hfirst.highGenerations
  adminKey := hsecond.adminKey.trans hfirst.adminKey
  instanceId := hsecond.instanceId.trans hfirst.instanceId

theorem Trimmed.snapshotGenerations (htrimmed : Trimmed memory memory') :
    memory'.snapshotGenerations = memory.snapshotGenerations := by
  rw [AuthMemory.snapshotGenerations, AuthMemory.snapshotGenerations,
    htrimmed.highGenerations]
  congr 1
  apply List.ext_getElem?
  intro index
  rw [List.getElem?_map, List.getElem?_map]
  cases hslot' : memory'.inner.slots[index]? with
  | none =>
      rw [List.getElem?_eq_none_iff, htrimmed.length,
        ← List.getElem?_eq_none_iff] at hslot'
      rw [hslot']
  | some slot' =>
      obtain ⟨slot, hslot, hgeneration, -⟩ := htrimmed.rows index slot' hslot'
      rw [slot?] at hslot
      rw [hslot, Option.map_some, Option.map_some, hgeneration]

theorem Quiet.trimmed (hquiet : Quiet memory memory') :
    Trimmed memory memory' where
  length := congrArg List.length hquiet.slots
  rows index slot hslot := by
    rw [hquiet.slot?] at hslot
    exact ⟨slot, hslot, rfl, id⟩
  high entry hentry := by
    rw [hquiet.high] at hentry
    exact ⟨entry, hentry, rfl⟩
  highGenerations := hquiet.highGenerations
  adminKey := hquiet.adminKey
  instanceId := hquiet.instanceId

/-! ## Rows and callbacks -/

/-- A row is changed, and keeps its key. -/
theorem trimmed_updateSlot {index : ℕ} {change : SlotHot → SlotHot}
    (hgeneration : ∀ slot, (change slot).generation = slot.generation)
    (hused : ∀ slot, memory.slot? index = some slot →
      (change slot).state ≠ .free → slot.state ≠ .free) :
    Trimmed memory (memory.updateSlot index change) := by
  refine ⟨List.length_modify .., fun other slot' hslot' => ?_,
    fun entry hentry => ⟨entry, hentry, rfl⟩, rfl, rfl, rfl⟩
  rw [slot?_updateSlot] at hslot'
  obtain ⟨slot, hslot, rfl⟩ := Option.map_eq_some_iff.mp hslot'
  refine ⟨slot, hslot, ?_, ?_⟩
  · split
    · exact hgeneration slot
    · rfl
  · split
    · rename_i hother
      subst hother
      exact hused slot hslot
    · exact id

/-- Timers and schedule are no keys. -/
theorem trimmed_of_inner (hinner : memory'.inner = memory.inner) :
    Trimmed memory memory' := by
  refine ⟨by rw [hinner], fun index slot hslot => ?_, fun entry hentry => ?_,
    by rw [hinner], by rw [hinner], by rw [hinner]⟩
  · rw [slot?, hinner] at hslot
    exact ⟨slot, hslot, rfl, id⟩
  · rw [hinner] at hentry
    exact ⟨entry, hentry, rfl⟩

theorem trimmed_fire (memory : AuthMemory) (timer : TimerId) :
    Trimmed memory (memory.fire timer) := by
  have hran := ran_fire memory timer
  refine ⟨hran.length, ?_, ?_, hran.field (·.highSlotGenerations) rfl,
    hran.field (·.adminKey) rfl, hran.field (·.instanceId) rfl⟩
  · intro index slot' hslot'
    rcases fire_cases memory timer with ⟨callback, -, hfire⟩ | ⟨-, hfire⟩
    · rw [hfire] at hslot'
      cases callback with
      | retire keyId lease =>
          rw [runCallback, slot?_retire] at hslot'
          obtain ⟨slot, hslot, rfl⟩ := Option.map_eq_some_iff.mp hslot'
          refine ⟨slot, hslot, ?_, ?_⟩
          · split <;> rfl
          · split
            · rename_i hactive
              exact fun _ => (SlotHot.holds_iff.mp hactive.2.1).2
            · exact id
      | reap keyId lease =>
          rw [runCallback, slot?_reap] at hslot'
          obtain ⟨slot, hslot, rfl⟩ := Option.map_eq_some_iff.mp hslot'
          refine ⟨slot, hslot, ?_, ?_⟩
          · split <;> rfl
          · split
            · exact fun hfree => absurd rfl hfree
            · exact id
    · rw [hfire] at hslot'
      exact ⟨slot', hslot', rfl, id⟩
  · intro entry hentry
    refine ⟨entry, ?_, rfl⟩
    rcases fire_cases memory timer with ⟨callback, -, hfire⟩ | ⟨-, hfire⟩
    · rw [hfire] at hentry
      cases callback with
      | retire keyId lease =>
          rw [runCallback, highSlotEntries_retire] at hentry
          exact hentry
      | reap keyId lease =>
          rw [runCallback, highSlotEntries_reap] at hentry
          split at hentry
          · exact List.mem_of_mem_filter hentry
          · exact hentry
    · rw [hfire] at hentry
      exact hentry

theorem trimmed_fires (timers : List TimerId) (memory : AuthMemory) :
    Trimmed memory (timers.foldl AuthMemory.fire memory) := by
  induction timers generalizing memory with
  | nil => exact .refl memory
  | cons timer timers ih => exact (trimmed_fire memory timer).trans (ih _)

theorem trimmed_scheduleAt (deadline : ℕ) (timer : TimerId) :
    Trimmed memory (memory.scheduleAt deadline timer) := by
  rw [scheduleAt_eq]
  refine Trimmed.trans ?_ (trimmed_fires _ _)
  exact trimmed_of_inner rfl

theorem trimmed_watch (keyId : KeyId) (lease : LeaseId) (expiresAt : ℕ) :
    Trimmed memory (memory.watch keyId lease expiresAt) := by
  have hstaged : Trimmed memory
      (((memory.allocateTimer (.retire keyId lease)).1.allocateTimer
        (.reap keyId (some lease))).1.setStages keyId
          ⟨some memory.timerHeap.length, some (memory.allocateTimer
            (.retire keyId lease)).1.timerHeap.length⟩) :=
    trimmed_of_inner rfl
  exact (hstaged.trans (trimmed_scheduleAt _ _)).trans (trimmed_scheduleAt _ _)

/-! ## Commands -/

theorem trimmed_publishIssue (entry : PersistedEntry) :
    Trimmed (memory.updateSlot entry.keyId.slot.asIndex fun _ =>
        ⟨entry.keyId.generation, .active, entry.expiresAt,
          some memory.leaseHeap.length⟩)
      (memory.publishIssue entry) := by
  have hcold : Trimmed (memory.updateSlot entry.keyId.slot.asIndex fun _ =>
        ⟨entry.keyId.generation, .active, entry.expiresAt,
          some memory.leaseHeap.length⟩)
      (((memory.allocateLease (.new entry.keyId entry.expiresAt)).1.updateSlot
        entry.keyId.slot.asIndex fun _ =>
          ⟨entry.keyId.generation, .active, entry.expiresAt,
            some memory.leaseHeap.length⟩).setCold entry.keyId
              ⟨entry.issuedAt, entry.label, 0⟩) :=
    ⟨rfl, fun _ slot hslot => ⟨slot, hslot, rfl, id⟩,
      fun high hhigh => ⟨high, hhigh, rfl⟩, rfl, rfl, rfl⟩
  exact hcold.trans (trimmed_watch _ _ _)

theorem trimmed_renewLease (keyId : KeyId) (expiresAt : ℕ) :
    Trimmed memory (memory.renewLease keyId expiresAt) := by
  rw [renewLease]
  split
  · exact .refl memory
  · split
    · exact (trimmed_scheduleAt _ _).trans (trimmed_scheduleAt _ _)
    · exact .refl memory

theorem trimmed_renewRow (checks : List (AuthContext × ℕ)) (keyId : KeyId)
    (slot : SlotHot) (expiresAt : ℕ) :
    Trimmed memory (memory.renewRow checks keyId slot expiresAt) := by
  have hmoved : Trimmed memory (memory.updateSlot keyId.slot.asIndex
      ({ · with expiresAt := expiresAt })) :=
    trimmed_updateSlot (fun _ => rfl) fun _ _ => id
  rw [renewRow]
  simp only
  split
  · have hensured : ∀ (memory : AuthMemory) (check : AuthContext × ℕ),
        Quiet memory (memory.ensureActive check.1 check.2).2 :=
      fun _ check => quiet_ensureActive check.1 check.2
    have hchecked := (quiet_foldl hensured checks
        (memory.updateSlot keyId.slot.asIndex
          ({ · with expiresAt := expiresAt }))).trimmed
    exact ((hmoved.trans hchecked).trans
      (quiet_setLeaseExpiry _ expiresAt).trimmed).trans (trimmed_renewLease _ _)
  · have hleased : Trimmed (memory.updateSlot keyId.slot.asIndex
        ({ · with expiresAt := expiresAt }))
        (((memory.updateSlot keyId.slot.asIndex
          ({ · with expiresAt := expiresAt })).allocateLease
            (.new keyId expiresAt)).1.updateSlot keyId.slot.asIndex
              ({ · with lease := some memory.leaseHeap.length })) := by
      refine Trimmed.trans ?_ (trimmed_updateSlot ?_ ?_)
      · exact trimmed_of_inner rfl
      · exact fun _ => rfl
      · exact fun _ _ => id
    exact (hmoved.trans hleased).trans (trimmed_watch _ _ _)

theorem trimmed_updateHigh {keyId : KeyId}
    {change : PersistedEntry → PersistedEntry}
    (hkey : ∀ entry, (change entry).keyId = entry.keyId)
    {entries : List PersistedEntry}
    (hupdate : updateEntry keyId change memory.inner.highSlotEntries =
      some entries) :
    Trimmed memory
      (memory.updateInner ({ · with highSlotEntries := entries })) := by
  refine ⟨rfl, fun _ slot hslot => ⟨slot, hslot, rfl, id⟩, fun entry hentry => ?_,
    rfl, rfl, rfl⟩
  have hkeys := keyIds_updateEntry hkey hupdate
  have hmem : entry.keyId ∈ entries.map (·.keyId) := List.mem_map_of_mem hentry
  rw [hkeys] at hmem
  exact List.mem_map.mp hmem

theorem trimmed_fireStage (keyId : KeyId) (which : Stages → Option TimerId) :
    Trimmed memory (memory.fireStage keyId which) := by
  have hstage : (memory.stage keyId which).1.inner = memory.inner := by
    rw [stage]
    split
    · rfl
    · simp only
      split <;> rfl
  rw [fireStage]
  split
  · rename_i after timer hfound
    rw [hfound] at hstage
    exact (trimmed_of_inner hstage).trans (trimmed_fire _ _)
  · rename_i after hfound
    rw [hfound] at hstage
    exact trimmed_of_inner hstage

theorem trimmed_endKey (keyId : KeyId) : Trimmed memory (memory.endKey keyId) :=
  ((trimmed_fireStage keyId Stages.retire).trans
    (trimmed_fireStage keyId Stages.reap)).trans (trimmed_of_inner rfl)

theorem trimmed_collectGarbage (now : ℕ) :
    Trimmed memory (memory.collectGarbage now).1 := by
  rw [collectGarbage]
  simp only
  generalize memory.collectable now = keyIds
  induction keyIds generalizing memory with
  | nil => exact .refl memory
  | cons keyId keyIds ih => exact (trimmed_endKey keyId).trans ih

theorem trimmed_revokeRow {keyId : KeyId} {slot : SlotHot}
    (hslot : memory.slot? keyId.slot.asIndex = some slot)
    (hholds : slot.holds keyId = true) :
    Trimmed memory (memory.revokeRow keyId slot) := by
  have hrevoked : Trimmed memory (memory.updateSlot keyId.slot.asIndex
      ({ · with state := .revoked })) := by
    apply trimmed_updateSlot
    · exact fun _ => rfl
    · intro found hfound _
      rw [hslot] at hfound
      cases hfound
      exact (SlotHot.holds_iff.mp hholds).2
  rw [revokeRow]
  refine Trimmed.trans ?_ (trimmed_fireStage _ _)
  split
  · exact hrevoked.trans (quiet_recordCancel _ _).trimmed
  · exact hrevoked

theorem trimmed_publishRenew {checks : List (AuthContext × ℕ)} {keyId : KeyId}
    {expiresAt : ℕ} {renewed : AuthMemory}
    (hpublish : memory.publishRenew checks keyId expiresAt = .ok renewed) :
    Trimmed memory renewed := by
  rcases publishRenew_eq_ok hpublish with
    ⟨slot, -, -, -, rfl⟩ | ⟨entries, -, hupdate, rfl⟩
  · exact trimmed_renewRow _ _ _ _
  · refine trimmed_updateHigh ?_ hupdate
    exact fun _ => rfl

theorem trimmed_publishRevoke {keyId : KeyId} {now : ℕ} {revoked : AuthMemory}
    (hpublish : memory.publishRevoke keyId now = .ok revoked) :
    Trimmed memory revoked := by
  rcases publishRevoke_eq_ok hpublish with
    ⟨slot, hslot, hholds, rfl⟩ | ⟨entries, -, hupdate, rfl⟩
  · exact trimmed_revokeRow hslot hholds
  · refine Trimmed.trans ?_ (trimmed_fireStage _ _)
    refine trimmed_updateHigh ?_ hupdate
    exact fun _ => rfl

theorem trimmed_dropSchedule (now : ℕ) :
    Trimmed memory (memory.dropSchedule now) := by
  rw [dropSchedule]
  refine Trimmed.trans ?_ (trimmed_fires _ _)
  exact trimmed_of_inner rfl

theorem trimmed_wipe (now : ℕ) : Trimmed memory (memory.wipe now) :=
  quiet_cancelAllTemporaryLeases.trimmed.trans (trimmed_dropSchedule now)

theorem trimmed_tickSecond : Trimmed memory memory.tickSecond := by
  rw [tickSecond_eq]
  refine Trimmed.trans ?_ (trimmed_fires _ _)
  exact trimmed_of_inner rfl

theorem trimmed_tickSeconds (count : ℕ) (memory : AuthMemory) :
    Trimmed memory (tickSeconds count memory) := by
  induction count generalizing memory with
  | zero => exact .refl memory
  | succ count ih => exact trimmed_tickSecond.trans (ih _)

theorem trimmed_tickLeases (now : ℕ) : Trimmed memory (memory.tickLeases now) := by
  rw [tickLeases]
  split
  · exact trimmed_dropSchedule now
  · exact trimmed_tickSeconds _ _

end AuthMemory

/-! ## Commands that append a record -/

variable {crypto : AuthCrypto} {config : AuthConfig} {env : Surroundings}
  {memory base published : AuthMemory} {command : AuthCommand} {record : WalRecord}
  {result : Except AuthFailure AuthResponse}

theorem Appends.trimmed_base
    (happends :
      Appends crypto config env memory command base record result published) :
    AuthMemory.Trimmed memory base := by
  cases happends with
  | claim hpruned =>
      rw [hpruned]
      exact (AuthMemory.quiet_pruneExpiredAdminReplays _).trimmed
  | _ => exact .refl memory

/-- Only an issue makes a key. -/
theorem Appends.trimmed
    (happends :
      Appends crypto config env memory command base record result published)
    (hother : ∀ entry audit, record ≠ .mutation (.issue entry) audit) :
    AuthMemory.Trimmed memory published := by
  have hpushed : ∀ audit, AuthMemory.Trimmed memory (memory.pushAuditRecord audit) :=
    fun audit => (AuthMemory.quiet_pushAuditRecord audit).trimmed
  have hchecked : ∀ audit (checks : List CredentialCheck), AuthMemory.Trimmed memory
      (checks.foldl (AuthMemory.check crypto) (memory.pushAuditRecord audit)) :=
    fun audit checks => (hpushed audit).trans
      (AuthMemory.quiet_foldl (fun _ => AuthMemory.quiet_check crypto) _ _).trimmed
  cases happends with
  | claim hpruned =>
      rw [hpruned]
      exact (AuthMemory.quiet_pruneExpiredAdminReplays _).trimmed.trans
        (AuthMemory.quiet_admitMutation _).trimmed
  | issue => exact absurd rfl (hother _ _)
  | «show» => exact hpushed _
  | renew hplan haudit hbetween hpublish =>
      rw [hbetween] at hpublish
      exact (hchecked _ _).trans (AuthMemory.trimmed_publishRenew hpublish)
  | renewLost hplan haudit hbetween hpublish =>
      rw [hbetween]
      exact hchecked _ _
  | revoke hplan haudit hbefore hpublish =>
      rw [hbefore] at hpublish
      exact (hpushed _).trans (AuthMemory.trimmed_publishRevoke hpublish)
  | revokeLost hplan haudit hbefore hpublish =>
      rw [hbefore]
      exact hpushed _
  | setLegacyProtocol =>
      exact (hpushed _).trans (AuthMemory.quiet_setLegacyProtocol _).trimmed
  | audit => exact hpushed _

end PbMapper.Auth

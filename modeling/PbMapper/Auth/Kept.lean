import PbMapper.Auth.Moves
import PbMapper.Auth.Upkeep

/-!
# The memory in order

The invariant of the memory of a running server, and that everything the actor
does keeps it.
-/

namespace PbMapper.Auth

open MachineWord

/-! ## Entries -/

/-- An entry of a key, with a time a word can hold. -/
def PersistedEntry.Sound (entry : PersistedEntry) : Prop :=
  entry.state ≠ .free ∧ entry.expiresAt ≤ u64Max

/-- Every slot has one entry at most. -/
def OnePerSlot (entries : List PersistedEntry) : Prop :=
  entries.Pairwise fun left right => left.keyId.slot ≠ right.keyId.slot

theorem OnePerSlot.filter {entries : List PersistedEntry}
    (hentries : OnePerSlot entries) (keep : PersistedEntry → Bool) :
    OnePerSlot (entries.filter keep) :=
  List.Pairwise.filter keep hentries

/-- Changing an entry keeps what is true of all, and the slots. -/
theorem updateEntry_preserves {keyId : KeyId}
    {change : PersistedEntry → PersistedEntry} {motive : PersistedEntry → Prop}
    (hchange : ∀ entry, motive entry → motive (change entry))
    {entries changed : List PersistedEntry}
    (hupdate : updateEntry keyId change entries = some changed)
    (hentries : ∀ entry ∈ entries, motive entry) :
    ∀ entry ∈ changed, motive entry := by
  induction entries generalizing changed with
  | nil => cases hupdate
  | cons first rest ih =>
      rw [updateEntry] at hupdate
      have hrest : ∀ entry ∈ rest, motive entry :=
        fun entry hentry => hentries entry (List.mem_cons_of_mem _ hentry)
      have hfirst := hentries first List.mem_cons_self
      split at hupdate
      · cases Option.some.inj hupdate
        intro entry hentry
        rcases List.mem_cons.mp hentry with rfl | hentry
        · exact hchange first hfirst
        · exact hrest entry hentry
      · obtain ⟨updated, hupdated, rfl⟩ := Option.map_eq_some_iff.mp hupdate
        intro entry hentry
        rcases List.mem_cons.mp hentry with rfl | hentry
        · exact hfirst
        · exact ih hupdated hrest entry hentry

theorem keyIds_updateEntry {keyId : KeyId}
    {change : PersistedEntry → PersistedEntry}
    (hchange : ∀ entry, (change entry).keyId = entry.keyId)
    {entries changed : List PersistedEntry}
    (hupdate : updateEntry keyId change entries = some changed) :
    changed.map (·.keyId) = entries.map (·.keyId) := by
  induction entries generalizing changed with
  | nil => cases hupdate
  | cons first rest ih =>
      rw [updateEntry] at hupdate
      split at hupdate
      · cases Option.some.inj hupdate
        rw [List.map_cons, List.map_cons, hchange]
      · obtain ⟨updated, hupdated, rfl⟩ := Option.map_eq_some_iff.mp hupdate
        rw [List.map_cons, List.map_cons, ih hupdated]

/-- One entry a slot is a property of the keys. -/
theorem onePerSlot_iff {entries : List PersistedEntry} :
    OnePerSlot entries ↔
      (entries.map (·.keyId)).Pairwise fun left right => left.slot ≠ right.slot := by
  rw [List.pairwise_map, OnePerSlot]

namespace AuthMemory

/-! ## The invariant -/

/-- The rows and the entries above them can be written to a snapshot. -/
structure Filed (memory : AuthMemory) : Prop where
  rows : ∀ index slot, memory.slot? index = some slot → slot.expiresAt ≤ u64Max
  high : ∀ entry ∈ memory.inner.highSlotEntries, entry.Sound ∧
    memory.inner.slots.length ≤ entry.keyId.slot.asIndex
  distinct : OnePerSlot memory.inner.highSlotEntries

/-- Rows and timers in order. -/
structure Kept (memory : AuthMemory) : Prop where
  timed : memory.Timed []
  owned : memory.Owned []
  filed : memory.Filed

variable {memory : AuthMemory}

theorem Filed.fire (hfiled : memory.Filed) (timer : TimerId) :
    (memory.fire timer).Filed := by
  rcases fire_cases memory timer with ⟨callback, -, hfire⟩ | ⟨-, hfire⟩
  · rw [hfire]
    cases callback with
    | retire keyId lease =>
        have hframed : Framed (memory.spend timer)
            ((memory.spend timer).retire keyId lease) :=
          framed_retire keyId lease
        refine ⟨fun index slot hslot => ?_, ?_, ?_⟩
        · rw [runCallback, slot?_retire] at hslot
          obtain ⟨before, hbefore, rfl⟩ := Option.map_eq_some_iff.mp hslot
          have hbound := hfiled.rows index before hbefore
          split <;> exact hbound
        · rw [runCallback, hframed.length, highSlotEntries_retire]
          exact hfiled.high
        · rw [runCallback, highSlotEntries_retire]
          exact hfiled.distinct
    | reap keyId lease =>
        have hframed : Framed (memory.spend timer)
            ((memory.spend timer).reap keyId) := framed_reap keyId
        refine ⟨fun index slot hslot => ?_, ?_, ?_⟩
        · rw [runCallback, slot?_reap] at hslot
          obtain ⟨before, hbefore, rfl⟩ := Option.map_eq_some_iff.mp hslot
          have hbound := hfiled.rows index before hbefore
          split
          · exact Nat.zero_le _
          · exact hbound
        · rw [runCallback, hframed.length, highSlotEntries_reap]
          split
          · exact fun entry hentry =>
              hfiled.high entry (List.mem_of_mem_filter hentry)
          · exact hfiled.high
        · rw [runCallback, highSlotEntries_reap]
          split
          · exact hfiled.distinct.filter _
          · exact hfiled.distinct
  · rw [hfire]
    exact hfiled

theorem Kept.fire (hkept : memory.Kept) (timer : TimerId) :
    (memory.fire timer).Kept :=
  ⟨hkept.timed.fire timer, hkept.owned.fire timer, hkept.filed.fire timer⟩

/-! ## Changes beside rows and timers -/

/-- Rows, keys, timers and schedule are the same, and no lease comes to life. -/
structure Quiet (memory memory' : AuthMemory) : Prop where
  slots : memory'.inner.slots = memory.inner.slots
  high : memory'.inner.highSlotEntries = memory.inner.highSlotEntries
  highGenerations :
    memory'.inner.highSlotGenerations = memory.inner.highSlotGenerations
  adminKey : memory'.inner.adminKey = memory.inner.adminKey
  instanceId : memory'.inner.instanceId = memory.inner.instanceId
  cold : memory'.inner.cold = memory.inner.cold
  adminLease : memory'.inner.adminLease = memory.inner.adminLease
  timerHeap : memory'.timerHeap = memory.timerHeap
  wheel : memory'.leases.wheel = memory.leases.wheel
  now : memory'.leases.now = memory.leases.now
  leases : ∀ id lease, memory'.lease? id = some lease → lease.cancelled = false →
    ∃ before, memory.lease? id = some before ∧ before.cancelled = false

theorem Quiet.refl (memory : AuthMemory) : Quiet memory memory :=
  ⟨rfl, rfl, rfl, rfl, rfl, rfl, rfl, rfl, rfl, rfl, leases_kept rfl⟩

theorem Quiet.trans {memory memory' memory'' : AuthMemory}
    (hfirst : Quiet memory memory') (hsecond : Quiet memory' memory'') :
    Quiet memory memory'' where
  slots := hsecond.slots.trans hfirst.slots
  high := hsecond.high.trans hfirst.high
  highGenerations := hsecond.highGenerations.trans hfirst.highGenerations
  adminKey := hsecond.adminKey.trans hfirst.adminKey
  instanceId := hsecond.instanceId.trans hfirst.instanceId
  cold := hsecond.cold.trans hfirst.cold
  adminLease := hsecond.adminLease.trans hfirst.adminLease
  timerHeap := hsecond.timerHeap.trans hfirst.timerHeap
  wheel := hsecond.wheel.trans hfirst.wheel
  now := hsecond.now.trans hfirst.now
  leases id lease hlease hlive := by
    obtain ⟨middle, hmiddle, hbetween⟩ := hsecond.leases id lease hlease hlive
    exact hfirst.leases id middle hmiddle hbetween

theorem Quiet.slot? {memory memory' : AuthMemory} (hquiet : Quiet memory memory')
    (index : ℕ) : memory'.slot? index = memory.slot? index := by
  rw [AuthMemory.slot?, AuthMemory.slot?, hquiet.slots]

theorem Kept.quiet {memory' : AuthMemory} (hkept : memory.Kept)
    (hquiet : Quiet memory memory') : memory'.Kept := by
  refine ⟨hkept.timed.congr hquiet.timerHeap hquiet.wheel hquiet.now,
    hkept.owned.congr hquiet.slots (fun keyId => ?_) hquiet.adminLease hquiet.leases
      hquiet.timerHeap, ?_, ?_, ?_⟩
  · rw [hquiet.cold]
  · intro index slot hslot
    rw [hquiet.slot?] at hslot
    exact hkept.filed.rows index slot hslot
  · rw [hquiet.high, hquiet.slots]
    exact hkept.filed.high
  · rw [hquiet.high]
    exact hkept.filed.distinct

theorem quiet_recordCancel (reason : CancelReason) (id : LeaseId) :
    Quiet memory (recordCancel reason memory id) := by
  refine ⟨rfl, rfl, rfl, rfl, rfl, rfl, rfl, rfl, rfl, rfl,
    fun other lease hlease hlive => ?_⟩
  rw [lease?_recordCancel] at hlease
  obtain ⟨before, hbefore, rfl⟩ := Option.map_eq_some_iff.mp hlease
  refine ⟨before, hbefore, ?_⟩
  split at hlive
  · cases hlive
  · exact hlive

/-- What single changes do not touch, many of them do not touch. -/
theorem quiet_foldl {Change : Type} {change : AuthMemory → Change → AuthMemory}
    (hchange : ∀ memory item, Quiet memory (change memory item))
    (items : List Change) (memory : AuthMemory) :
    Quiet memory (items.foldl change memory) := by
  induction items generalizing memory with
  | nil => exact .refl memory
  | cons item items ih => exact (hchange memory item).trans (ih _)

theorem quiet_cancelAllTemporaryLeases :
    Quiet memory memory.cancelAllTemporaryLeases :=
  quiet_foldl (fun _ => quiet_recordCancel .rotated) _ memory

theorem quiet_failClosed : Quiet memory memory.failClosed := by
  have hsafe : Quiet memory (memory.updateInner ({ · with safeMode := true })) :=
    ⟨rfl, rfl, rfl, rfl, rfl, rfl, rfl, rfl, rfl, rfl, leases_kept rfl⟩
  exact hsafe.trans quiet_cancelAllTemporaryLeases

theorem pushAuditRecord_eq (memory : AuthMemory) (record : AuditRecord) :
    ∃ records, memory.pushAuditRecord record =
      { memory with inner := { memory.inner with auditRecords := records } } :=
  ⟨_, rfl⟩

theorem quiet_pushAuditRecord (record : AuditRecord) :
    Quiet memory (memory.pushAuditRecord record) := by
  obtain ⟨records, hpushed⟩ := pushAuditRecord_eq memory record
  rw [hpushed]
  exact ⟨rfl, rfl, rfl, rfl, rfl, rfl, rfl, rfl, rfl, rfl, leases_kept rfl⟩

theorem quiet_rememberPreviousRoot : Quiet memory memory.rememberPreviousRoot :=
  ⟨rfl, rfl, rfl, rfl, rfl, rfl, rfl, rfl, rfl, rfl, leases_kept rfl⟩

theorem quiet_bumpRootEpoch : Quiet memory memory.bumpRootEpoch :=
  ⟨rfl, rfl, rfl, rfl, rfl, rfl, rfl, rfl, rfl, rfl, leases_kept rfl⟩

theorem quiet_admitMutation (record : AdminReplayRecord) :
    Quiet memory (memory.admitMutation record) :=
  ⟨rfl, rfl, rfl, rfl, rfl, rfl, rfl, rfl, rfl, rfl, leases_kept rfl⟩

theorem quiet_setLegacyProtocol (allowed : Bool) :
    Quiet memory (memory.updateInner ({ · with legacyProtocolAllowed := allowed })) :=
  ⟨rfl, rfl, rfl, rfl, rfl, rfl, rfl, rfl, rfl, rfl, leases_kept rfl⟩

theorem quiet_pruneExpiredAdminReplays (now : ℕ) :
    Quiet memory (memory.pruneExpiredAdminReplays now) :=
  ⟨rfl, rfl, rfl, rfl, rfl, rfl, rfl, rfl, rfl, rfl, leases_kept rfl⟩

theorem quiet_forgetReplays :
    Quiet memory { memory with adminReplays := ∅, adminReplayOrder := [] } :=
  ⟨rfl, rfl, rfl, rfl, rfl, rfl, rfl, rfl, rfl, rfl, leases_kept rfl⟩

theorem quiet_setLastSnapshotAt (now : ℕ) :
    Quiet memory { memory with lastSnapshotAt := now } :=
  ⟨rfl, rfl, rfl, rfl, rfl, rfl, rfl, rfl, rfl, rfl, leases_kept rfl⟩

theorem quiet_ensureActive (context : AuthContext) (now : ℕ) :
    Quiet memory (memory.ensureActive context now).2 := by
  rw [ensureActive]
  split
  · split
    · exact .refl memory
    · split
      · exact quiet_recordCancel _ _
      · exact .refl memory
  · exact .refl memory

theorem quiet_noticeExpiry (slot : SlotHot) (now : ℕ) :
    Quiet memory (memory.noticeExpiry slot now) := by
  rw [noticeExpiry]
  split
  · split
    · exact quiet_recordCancel _ _
    · exact .refl memory
  · exact .refl memory

theorem quiet_countFailure : Quiet memory memory.countFailure :=
  ⟨rfl, rfl, rfl, rfl, rfl, rfl, rfl, rfl, rfl, rfl, leases_kept rfl⟩

theorem quiet_countSuccess : Quiet memory memory.countSuccess :=
  ⟨rfl, rfl, rfl, rfl, rfl, rfl, rfl, rfl, rfl, rfl, leases_kept rfl⟩

theorem quiet_lookupCredential (crypto : AuthCrypto) (keyId : KeyId)
    (presentedKey : Core.AesKeyType) (now : ℕ) :
    Quiet memory (memory.lookupCredential crypto keyId presentedKey now).2 := by
  rw [lookupCredential]
  split
  · exact quiet_countFailure
  split
  · exact quiet_countFailure
  split
  · exact quiet_countFailure
  split
  · exact (quiet_noticeExpiry _ _).trans quiet_countFailure
  split
  · exact quiet_countSuccess
  · exact quiet_countFailure

theorem quiet_authenticatePresented (crypto : AuthCrypto) (keyId : KeyId)
    (presentedKey : Core.AesKeyType) (now : ℕ) :
    Quiet memory (memory.authenticatePresented crypto keyId presentedKey now).2 := by
  rw [authenticatePresented]
  split
  · split
    · exact quiet_countFailure
    split
    · exact quiet_countSuccess
    · exact .refl memory
  split
  · exact quiet_countFailure
  · exact quiet_lookupCredential crypto keyId presentedKey now

theorem quiet_check (crypto : AuthCrypto) (check : CredentialCheck) :
    Quiet memory (memory.check crypto check) := by
  cases check with
  | lookup keyId presentedKey now =>
      exact quiet_lookupCredential crypto keyId presentedKey now
  | ensureActive context now => exact quiet_ensureActive context now

/-! ## Leases -/

theorem Kept.updateSlot (hkept : memory.Kept) {index : ℕ}
    {change : SlotHot → SlotHot}
    (hgeneration : ∀ slot, (change slot).generation = slot.generation)
    (hstate : ∀ slot, memory.slot? index = some slot →
      ((change slot).state = .free ↔ slot.state = .free))
    (hexpires : ∀ slot, memory.slot? index = some slot →
      (change slot).expiresAt ≤ u64Max) :
    (memory.updateSlot index change).Kept := by
  refine ⟨hkept.timed.congr rfl rfl rfl, hkept.owned.updateSlot hgeneration hstate,
    ?_, ?_, hkept.filed.distinct⟩
  · intro other slot hslot
    rw [slot?_updateSlot] at hslot
    obtain ⟨before, hbefore, rfl⟩ := Option.map_eq_some_iff.mp hslot
    split
    · rename_i hother
      subst hother
      exact hexpires before hbefore
    · exact hkept.filed.rows other before hbefore
  · rw [(framed_updateSlot index change).length]
    exact hkept.filed.high

theorem Filed.quietly {memory' : AuthMemory} (hfiled : memory.Filed)
    (hslots : memory'.inner.slots = memory.inner.slots)
    (hhigh : memory'.inner.highSlotEntries = memory.inner.highSlotEntries) :
    memory'.Filed := by
  refine ⟨fun index slot hslot => ?_, ?_, ?_⟩
  · rw [slot?, hslots] at hslot
    exact hfiled.rows index slot hslot
  · rw [hhigh, hslots]
    exact hfiled.high
  · rw [hhigh]
    exact hfiled.distinct

theorem Filed.scheduleAt (hfiled : memory.Filed) (deadline : ℕ) (timer : TimerId) :
    (memory.scheduleAt deadline timer).Filed := by
  rw [scheduleAt_eq]
  apply fires_preserve fun _ other hother => hother.fire other
  exact hfiled.quietly rfl rfl

theorem Kept.scheduleAt (hkept : memory.Kept) {deadline : ℕ} (timer : TimerId)
    (hdeadline : deadline ≤ u64Max) : (memory.scheduleAt deadline timer).Kept :=
  ⟨(hkept.timed.mono (List.nil_subset _)).scheduleAt hdeadline,
    hkept.owned.scheduleAt deadline timer, hkept.filed.scheduleAt deadline timer⟩

/-! ## Issue -/

/-- The row that is found is the first free one with a generation left. -/
theorem findRow_eq_some {slots : List SlotHot} {index : ℕ}
    {generation : Generation} (hfound : findRow slots = some (index, generation)) :
    ∃ slot, slots[index]? = some slot ∧ slot.state = .free ∧
      slot.generation.next = some generation := by
  obtain ⟨before, ⟨slot, found⟩, after, hsplit, hrow, -⟩ :=
    List.findSome?_eq_some_iff.mp hfound
  have hmem : (slot, found) ∈ slots.zipIdx := by
    rw [hsplit]
    exact List.mem_append_right _ List.mem_cons_self
  simp only at hrow
  split at hrow
  · rename_i hfree
    obtain ⟨following, hnext, heq⟩ := Option.map_eq_some_iff.mp hrow
    cases heq
    exact ⟨slot, List.mem_zipIdx_iff_getElem?.mp hmem, hfree, hnext⟩
  · cases hrow

variable {config : AuthConfig} {clock : Clock}

/-- What is known of an issue that was planned. -/
structure PlannedIssue (memory : AuthMemory) (config : AuthConfig) (clock : Clock)
    (ttl : Duration) (entry : PersistedEntry) : Prop where
  available : memory.inner.safeMode = false
  state : entry.state = .active
  expiresAt : entry.expiresAt = satAdd u64Max (clock 0) ttl.asSecs
  ttl_ge : minTempKeyTtl ≤ ttl
  ttl_le : ttl ≤ config.maxTemporaryKeyTtl
  issuedAt : entry.issuedAt = clock 1
  tombstonedAt : entry.tombstonedAt = none
  row : ∃ index slot generation, memory.slot? index = some slot ∧
    slot.state = .free ∧ slot.generation.next = some generation ∧
      entry.keyId = .new generation (.fromIndex index)

theorem available_of_ensureStoreAvailable
    (hopen : ensureStoreAvailable memory = .ok ()) :
    memory.inner.safeMode = false := by
  rw [ensureStoreAvailable] at hopen
  split at hopen
  · cases hopen
  · rename_i hnot
    exact (Bool.not_eq_true _).mp hnot

theorem validateTtl_eq_ok {ttl : Duration} {now expiresAt : ℕ}
    (hvalid : validateTtl config ttl now = .ok expiresAt) :
    expiresAt = satAdd u64Max now ttl.asSecs ∧ minTempKeyTtl ≤ ttl ∧
      ttl ≤ config.maxTemporaryKeyTtl := by
  rw [validateTtl] at hvalid
  split at hvalid
  · cases hvalid
  split at hvalid
  · cases hvalid
  · cases hvalid
    exact ⟨rfl, Nat.le_of_not_lt (by assumption), Nat.le_of_not_lt (by assumption)⟩

theorem plannedIssue {ttl : Duration} {label : Option String}
    {entry : PersistedEntry}
    (hplan : memory.planIssue config clock ttl label = .ok entry) :
    memory.PlannedIssue config clock ttl entry := by
  rw [planIssue] at hplan
  cases hopen : ensureStoreAvailable memory with
  | error failure =>
      rw [hopen] at hplan
      cases hplan
  | ok value =>
      cases hvalid : validateTtl config ttl (clock 0) with
      | error failure =>
          rw [hopen, hvalid] at hplan
          cases hplan
      | ok expiresAt =>
          cases hlabel : validateLabel label with
          | error failure =>
              rw [hopen, hvalid, hlabel] at hplan
              cases hplan
          | ok label =>
              rw [hopen, hvalid, hlabel] at hplan
              cases hfound : findRow memory.inner.slots with
              | none =>
                  rw [hfound] at hplan
                  cases hplan
              | some found =>
                  obtain ⟨index, generation⟩ := found
                  rw [hfound] at hplan
                  cases hplan
                  obtain ⟨slot, hslot, hfree, hnext⟩ := findRow_eq_some hfound
                  obtain ⟨hexpires, hge, hle⟩ := validateTtl_eq_ok hvalid
                  exact ⟨available_of_ensureStoreAvailable hopen, rfl, hexpires, hge,
                    hle, rfl, rfl, index, slot, generation, hslot, hfree, hnext, rfl⟩

theorem satAdd_u64Max_le (left right : ℕ) : satAdd u64Max left right ≤ u64Max :=
  Nat.min_le_right _ _

/-- The row an issue was planned for. -/
theorem PlannedIssue.slot {ttl : Duration} {entry : PersistedEntry}
    (hplanned : memory.PlannedIssue config clock ttl entry)
    (hsize : memory.inner.slots.length ≤ maxTempKeyCapacity) :
    ∃ slot, memory.slot? entry.keyId.slot.asIndex = some slot ∧
      slot.state = .free ∧ slot.generation.next = some entry.keyId.generation := by
  obtain ⟨index, slot, generation, hslot, hfree, hnext, hkey⟩ := hplanned.row
  have hindex : index < 2 ^ 32 := by
    have hlength := (List.getElem?_eq_some_iff.mp hslot).1
    have hcapacity : maxTempKeyCapacity < 2 ^ 32 := by decide
    omega
  rw [hkey, KeyId.slot_new, SlotIndex.asIndex_fromIndex hindex,
    KeyId.generation_new]
  exact ⟨slot, hslot, hfree, hnext⟩

theorem Filed.watch (hfiled : memory.Filed) (keyId : KeyId) (lease : LeaseId)
    (expiresAt : ℕ) : (memory.watch keyId lease expiresAt).Filed := by
  apply Filed.scheduleAt
  apply Filed.scheduleAt
  exact hfiled.quietly rfl rfl

/-- A planned key is published. -/
theorem Kept.publishIssue (hkept : memory.Kept) {entry : PersistedEntry}
    {free : SlotHot} (hslot : memory.slot? entry.keyId.slot.asIndex = some free)
    (hfree : free.state = .free) (hexpires : entry.expiresAt ≤ u64Max) :
    (memory.publishIssue entry).Kept := by
  have hkey : ∀ lease : Option LeaseId,
      rowKeyId ⟨entry.keyId.generation, .active, entry.expiresAt, lease⟩
        entry.keyId.slot.asIndex = entry.keyId := fun _ => rowKeyId_of_generation rfl
  refine ⟨?_, ?_, ?_⟩
  · apply Timed.watch ?_ hexpires
    exact hkept.timed.congr rfl rfl rfl
  · apply Owned.watch
    have howned := hkept.owned.mono (List.nil_subset
      [.retire entry.keyId memory.leaseHeap.length,
        .reap entry.keyId (some memory.leaseHeap.length)])
    refine (howned.allocateLease List.mem_cons_self).occupy hslot hfree ?_ (hkey _)
      (List.mem_cons_of_mem _ List.mem_cons_self) ⟨entry.issuedAt, entry.label, 0⟩
    exact fun hstate => nomatch hstate
  · apply Filed.watch
    refine ⟨fun index slot hfound => ?_, ?_, hkept.filed.distinct⟩
    · change (AuthMemory.updateSlot _ _ _).slot? index = some slot at hfound
      rw [slot?_updateSlot] at hfound
      obtain ⟨before, hbefore, rfl⟩ := Option.map_eq_some_iff.mp hfound
      split
      · exact hexpires
      · exact hkept.filed.rows index before hbefore
    · intro high hhigh
      refine ⟨(hkept.filed.high high hhigh).1, ?_⟩
      exact (List.length_modify ..).trans_le (hkept.filed.high high hhigh).2

/-! ## Renew -/

/-- What is known of a renewal that was planned. -/
structure PlannedRenew (memory : AuthMemory) (config : AuthConfig) (clock : Clock)
    (keyId : KeyId) (ttl : Duration) (expiresAt : ℕ) : Prop where
  available : memory.inner.safeMode = false
  expiresAt_eq : expiresAt = satAdd u64Max (clock 0) ttl.asSecs
  ttl_ge : minTempKeyTtl ≤ ttl
  ttl_le : ttl ≤ config.maxTemporaryKeyTtl
  current : ∃ current, memory.keyState keyId = .ok current ∧
    current.state = .active ∧ clock 1 < current.expiresAt

theorem plannedRenew {keyId : KeyId} {ttl : Duration} {expiresAt : ℕ}
    {label : Option String}
    (hplan : memory.planRenew config clock keyId ttl = .ok (expiresAt, label)) :
    memory.PlannedRenew config clock keyId ttl expiresAt := by
  rw [planRenew] at hplan
  cases hopen : ensureStoreAvailable memory with
  | error failure =>
      rw [hopen] at hplan
      cases hplan
  | ok value =>
      cases hvalid : validateTtl config ttl (clock 0) with
      | error failure =>
          rw [hopen, hvalid] at hplan
          cases hplan
      | ok expires =>
          cases hstate : memory.keyState keyId with
          | error failure =>
              rw [hopen, hvalid, hstate] at hplan
              cases hplan
          | ok current =>
              rw [hopen, hvalid, hstate] at hplan
              by_cases hdead : current.state ≠ .active ∨ current.expiresAt ≤ clock 1
              · simp only [bind, Except.bind, if_pos hdead] at hplan
                cases hplan
              · simp only [bind, Except.bind, if_neg hdead] at hplan
                cases hplan
                obtain ⟨hexpires, hge, hle⟩ := validateTtl_eq_ok hvalid
                rw [not_or, not_not, Nat.not_le] at hdead
                exact ⟨available_of_ensureStoreAvailable hopen, hexpires, hge, hle,
                  current, hstate, hdead⟩

theorem validateSlotIdentity_eq_ok {slot : SlotHot} {keyId : KeyId}
    (hvalid : validateSlotIdentity slot keyId = .ok ()) :
    slot.holds keyId = true := by
  rw [validateSlotIdentity] at hvalid
  split at hvalid
  · cases hvalid
  · rename_i hnot
    rw [not_or, not_not] at hnot
    exact SlotHot.holds_iff.mpr hnot

theorem quiet_setLeaseExpiry (id : LeaseId) (expiresAt : ℕ) :
    Quiet memory { memory with
      leaseHeap :=
        memory.leaseHeap.modify id ({ · with expiresAt := expiresAt }) } := by
  refine ⟨rfl, rfl, rfl, rfl, rfl, rfl, rfl, rfl, rfl, rfl,
    fun other lease hlease hlive => ?_⟩
  rw [lease?, List.getElem?_modify] at hlease
  obtain ⟨before, hbefore, rfl⟩ := Option.map_eq_some_iff.mp hlease
  refine ⟨before, hbefore, ?_⟩
  split at hlive <;> exact hlive

theorem Kept.renewLease (hkept : memory.Kept) (keyId : KeyId) {expiresAt : ℕ}
    (hexpires : expiresAt ≤ u64Max) : (memory.renewLease keyId expiresAt).Kept := by
  rw [AuthMemory.renewLease]
  split
  · exact hkept
  · split
    · exact (hkept.scheduleAt _ hexpires).scheduleAt _ (retentionEnds_le expiresAt)
    · exact hkept

/-- A row in use gets a lease of its own. -/
theorem Kept.adopt (hkept : memory.Kept) (keyId : KeyId) {expiresAt : ℕ}
    (hexpires : expiresAt ≤ u64Max) (lease : AuthLease) :
    (((memory.allocateLease lease).1.updateSlot keyId.slot.asIndex
      ({ · with lease := some memory.leaseHeap.length })).watch keyId
        memory.leaseHeap.length expiresAt).Kept := by
  refine ⟨?_, ?_, ?_⟩
  · apply Timed.watch ?_ hexpires
    exact hkept.timed.congr rfl rfl rfl
  · apply Owned.watch
    have howned := hkept.owned.mono (List.nil_subset
      [.retire keyId memory.leaseHeap.length,
        .reap keyId (some memory.leaseHeap.length)])
    exact (howned.allocateLease List.mem_cons_self).updateSlot (fun _ => rfl)
      fun _ _ => Iff.rfl
  · apply Filed.watch
    refine ⟨fun index slot hfound => ?_, fun high hhigh => ?_, hkept.filed.distinct⟩
    · rw [slot?_updateSlot] at hfound
      obtain ⟨before, hbefore, rfl⟩ := Option.map_eq_some_iff.mp hfound
      have hbound := hkept.filed.rows index before hbefore
      split <;> exact hbound
    · refine ⟨(hkept.filed.high high hhigh).1, ?_⟩
      exact (List.length_modify ..).trans_le (hkept.filed.high high hhigh).2

theorem Kept.renewRow (hkept : memory.Kept) (checks : List (AuthContext × ℕ))
    (keyId : KeyId) (slot : SlotHot) {expiresAt : ℕ}
    (hexpires : expiresAt ≤ u64Max) :
    (memory.renewRow checks keyId slot expiresAt).Kept := by
  have hmoved : (memory.updateSlot keyId.slot.asIndex
      ({ · with expiresAt := expiresAt })).Kept :=
    hkept.updateSlot (fun _ => rfl) (fun _ _ => Iff.rfl) fun _ _ => hexpires
  rw [AuthMemory.renewRow]
  simp only
  split
  · apply Kept.renewLease ?_ keyId hexpires
    apply Kept.quiet ?_ (quiet_setLeaseExpiry _ expiresAt)
    exact hmoved.quiet (quiet_foldl
      (fun memory (check : AuthContext × ℕ) => quiet_ensureActive check.1 check.2)
      checks _)
  · exact hmoved.adopt keyId hexpires _

/-- An entry above the table is changed. -/
theorem Kept.updateHigh (hkept : memory.Kept) {keyId : KeyId}
    {change : PersistedEntry → PersistedEntry}
    (hkey : ∀ entry, (change entry).keyId = entry.keyId)
    (hsound : ∀ entry, entry.Sound → (change entry).Sound)
    {entries : List PersistedEntry}
    (hupdate : updateEntry keyId change memory.inner.highSlotEntries =
      some entries) :
    (memory.updateInner ({ · with highSlotEntries := entries })).Kept := by
  refine ⟨hkept.timed.congr rfl rfl rfl,
    hkept.owned.congr rfl (fun _ => rfl) rfl (leases_kept rfl) rfl,
    hkept.filed.rows, ?_, ?_⟩
  · apply updateEntry_preserves ?_ hupdate hkept.filed.high
    rintro entry ⟨hentry, hindex⟩
    refine ⟨hsound entry hentry, ?_⟩
    rw [hkey]
    exact hindex
  · have hdistinct := hkept.filed.distinct
    rw [onePerSlot_iff] at hdistinct ⊢
    change (entries.map (·.keyId)).Pairwise _
    rw [keyIds_updateEntry hkey hupdate]
    exact hdistinct

/-- A renewal is of a live key, in its row or above the table. -/
theorem publishRenew_eq_ok {checks : List (AuthContext × ℕ)} {keyId : KeyId}
    {expiresAt : ℕ} {renewed : AuthMemory}
    (hpublish : memory.publishRenew checks keyId expiresAt = .ok renewed) :
    (∃ slot, memory.slot? keyId.slot.asIndex = some slot ∧
        slot.holds keyId = true ∧ slot.state = .active ∧
          renewed = memory.renewRow checks keyId slot expiresAt) ∨
      ∃ entries, memory.slot? keyId.slot.asIndex = none ∧
        updateEntry keyId ({ · with expiresAt := expiresAt, tombstonedAt := none })
          memory.inner.highSlotEntries = some entries ∧
          renewed = memory.updateInner ({ · with highSlotEntries := entries }) := by
  rw [publishRenew] at hpublish
  split at hpublish
  · rename_i slot hslot
    obtain ⟨⟨⟩, hvalid, hpublish⟩ := Fallible.bind_eq_ok.mp hpublish
    by_cases hactive : slot.state = .active
    · simp only [hactive, ne_eq, not_true_eq_false, if_false] at hpublish
      cases hpublish
      exact .inl ⟨slot, hslot, validateSlotIdentity_eq_ok hvalid, hactive, rfl⟩
    · simp only [ne_eq, hactive, not_false_eq_true, if_true] at hpublish
      cases hpublish
  · rename_i hnone
    obtain ⟨entry, hentry, hpublish⟩ := Fallible.bind_eq_ok.mp hpublish
    by_cases hactive : entry.state = .active
    · simp only [hactive, ne_eq, not_true_eq_false, if_false] at hpublish
      split at hpublish
      · rename_i entries hupdate
        cases hpublish
        exact .inr ⟨entries, hnone, hupdate, rfl⟩
      · cases hpublish
    · simp only [ne_eq, hactive, not_false_eq_true, if_true] at hpublish
      cases hpublish

theorem Kept.publishRenew (hkept : memory.Kept) {checks : List (AuthContext × ℕ)}
    {keyId : KeyId} {expiresAt : ℕ} {renewed : AuthMemory}
    (hexpires : expiresAt ≤ u64Max)
    (hpublish : memory.publishRenew checks keyId expiresAt = .ok renewed) :
    renewed.Kept := by
  rcases publishRenew_eq_ok hpublish with
    ⟨slot, -, -, -, rfl⟩ | ⟨entries, -, hupdate, rfl⟩
  · exact hkept.renewRow checks keyId slot hexpires
  · refine hkept.updateHigh ?_ ?_ hupdate
    · exact fun _ => rfl
    · exact fun entry hsound => ⟨hsound.1, hexpires⟩

/-! ## Ends of keys -/

theorem Kept.fireStage (hkept : memory.Kept) (keyId : KeyId)
    (which : Stages → Option TimerId) : (memory.fireStage keyId which).Kept := by
  have hstage : (memory.stage keyId which).1.Kept := by
    rw [stage]
    split
    · exact hkept
    · simp only
      split
      · exact hkept.quiet
          ⟨rfl, rfl, rfl, rfl, rfl, rfl, rfl, rfl, rfl, rfl, leases_kept rfl⟩
      · exact hkept
  rw [AuthMemory.fireStage]
  split
  · rename_i after timer hfound
    rw [hfound] at hstage
    exact hstage.fire timer
  · rename_i after hfound
    rw [hfound] at hstage
    exact hstage

theorem Kept.endKey (hkept : memory.Kept) (keyId : KeyId) :
    (memory.endKey keyId).Kept := by
  have hstages := (hkept.fireStage keyId Stages.retire).fireStage keyId Stages.reap
  exact hstages.quiet
    ⟨rfl, rfl, rfl, rfl, rfl, rfl, rfl, rfl, rfl, rfl, leases_kept rfl⟩

theorem Kept.endKeys (hkept : memory.Kept) (keyIds : List KeyId) :
    (keyIds.foldl AuthMemory.endKey memory).Kept := by
  induction keyIds generalizing memory with
  | nil => exact hkept
  | cons keyId keyIds ih => exact ih (hkept.endKey keyId)

theorem Kept.collectGarbage (hkept : memory.Kept) (now : ℕ) :
    (memory.collectGarbage now).1.Kept :=
  hkept.endKeys _

theorem Kept.revokeRow (hkept : memory.Kept) {keyId : KeyId} {slot : SlotHot}
    (hslot : memory.slot? keyId.slot.asIndex = some slot)
    (hholds : slot.holds keyId = true) : (memory.revokeRow keyId slot).Kept := by
  have hrevoked : (memory.updateSlot keyId.slot.asIndex
      ({ · with state := .revoked })).Kept := by
    apply hkept.updateSlot ?_ ?_ ?_
    · exact fun _ => rfl
    · rintro found hfound
      rw [hslot] at hfound
      cases hfound
      exact iff_of_false (fun h => nomatch h) (SlotHot.holds_iff.mp hholds).2
    · exact fun found hfound => hkept.filed.rows _ found hfound
  rw [AuthMemory.revokeRow]
  apply Kept.fireStage
  split
  · exact hrevoked.quiet (quiet_recordCancel _ _)
  · exact hrevoked

/-- A revocation is of a key in its row or above the table. -/
theorem publishRevoke_eq_ok {keyId : KeyId} {now : ℕ} {revoked : AuthMemory}
    (hpublish : memory.publishRevoke keyId now = .ok revoked) :
    (∃ slot, memory.slot? keyId.slot.asIndex = some slot ∧
        slot.holds keyId = true ∧ revoked = memory.revokeRow keyId slot) ∨
      ∃ entries, memory.slot? keyId.slot.asIndex = none ∧
        updateEntry keyId (revokedEntry now) memory.inner.highSlotEntries =
          some entries ∧ revoked = memory.revokeHigh keyId entries := by
  rw [publishRevoke] at hpublish
  split at hpublish
  · rename_i slot hslot
    obtain ⟨⟨⟩, hvalid, hpublish⟩ := Fallible.bind_eq_ok.mp hpublish
    cases hpublish
    exact .inl ⟨slot, hslot, validateSlotIdentity_eq_ok hvalid, rfl⟩
  · rename_i hnone
    obtain ⟨entry, hentry, hpublish⟩ := Fallible.bind_eq_ok.mp hpublish
    by_cases hactive : entry.state = .active
    · simp only [hactive, ne_eq, not_true_eq_false, if_false] at hpublish
      split at hpublish
      · rename_i entries hupdate
        cases hpublish
        exact .inr ⟨entries, hnone, hupdate, rfl⟩
      · cases hpublish
    · simp only [ne_eq, hactive, not_false_eq_true, if_true] at hpublish
      cases hpublish

theorem Kept.publishRevoke (hkept : memory.Kept) {keyId : KeyId} {now : ℕ}
    {revoked : AuthMemory} (hpublish : memory.publishRevoke keyId now = .ok revoked) :
    revoked.Kept := by
  rcases publishRevoke_eq_ok hpublish with
    ⟨slot, hslot, hholds, rfl⟩ | ⟨entries, -, hupdate, rfl⟩
  · exact hkept.revokeRow hslot hholds
  · apply Kept.fireStage
    refine hkept.updateHigh ?_ ?_ hupdate
    · exact fun _ => rfl
    · exact fun entry hsound => ⟨nofun, hsound.2⟩

/-! ## The schedule -/

theorem Filed.dropSchedule (hfiled : memory.Filed) (now : ℕ) :
    (memory.dropSchedule now).Filed := by
  rw [AuthMemory.dropSchedule]
  apply fires_preserve fun _ timer hmemory => hmemory.fire timer
  exact hfiled.quietly rfl rfl

theorem Owned.dropSchedule {promised : List TimerCallback}
    (howned : memory.Owned promised) (now : ℕ) :
    (memory.dropSchedule now).Owned promised := by
  rw [AuthMemory.dropSchedule]
  apply Owned.fires
  exact howned.updateLeases fun _ => ⟨newWheel, now, ∅⟩

theorem Kept.dropSchedule (hkept : memory.Kept) {now : ℕ} (hnow : now ≤ u64Max) :
    (memory.dropSchedule now).Kept :=
  ⟨(hkept.timed.dropSchedule hnow).1, hkept.owned.dropSchedule now,
    hkept.filed.dropSchedule now⟩

/-- A wipe changes rows and leases. -/
theorem adminLease_wipe (memory : AuthMemory) (now : ℕ) :
    (memory.wipe now).inner.adminLease = memory.inner.adminLease := by
  rw [wipe, dropSchedule]
  rw [(ran_fires _ _).field (·.adminLease) rfl]
  exact quiet_cancelAllTemporaryLeases.adminLease

theorem Kept.wipe (hkept : memory.Kept) {now : ℕ} (hnow : now ≤ u64Max) :
    (memory.wipe now).Kept :=
  (hkept.quiet quiet_cancelAllTemporaryLeases).dropSchedule hnow

theorem Kept.tickSecond (hkept : memory.Kept) (hnow : memory.leases.now < u64Max) :
    memory.tickSecond.Kept := by
  refine ⟨hkept.timed.tickSecond hnow, ?_, ?_⟩
  · rw [tickSecond_eq]
    exact (hkept.owned.updateLeases _).fires _
  · rw [tickSecond_eq]
    apply fires_preserve fun _ timer hmemory => hmemory.fire timer
    exact hkept.filed.quietly rfl rfl

theorem Kept.tickSeconds {count : ℕ} {memory : AuthMemory} (hkept : memory.Kept)
    (hnow : memory.leases.now + count ≤ u64Max) :
    (tickSeconds count memory).Kept := by
  induction count generalizing memory with
  | zero => exact hkept
  | succ count ih =>
      apply ih (hkept.tickSecond (by omega))
      rw [now_tickSecond]
      omega

theorem Kept.tickLeases (hkept : memory.Kept) {now : ℕ} (hnow : now ≤ u64Max) :
    (memory.tickLeases now).Kept := by
  have hbound := hkept.timed.now_le
  rw [AuthMemory.tickLeases]
  split
  · exact hkept.dropSchedule hnow
  · apply hkept.tickSeconds
    omega

/-! ## Reset and rotation -/

theorem Kept.finishReset (hkept : memory.Kept) (newInstanceId : InstanceId)
    (audit : AuditRecord) {now : ℕ} (hnow : now ≤ u64Max) :
    (memory.finishReset newInstanceId audit now).Kept := by
  rw [AuthMemory.finishReset]
  have hpushed : AuthMemory.Quiet memory (memory.pushAuditRecord audit) :=
    quiet_pushAuditRecord audit
  have hremembered := hpushed.trans quiet_rememberPreviousRoot
  have hwiped := (hkept.quiet hremembered).wipe hnow
  generalize (memory.pushAuditRecord audit).rememberPreviousRoot.wipe now = wiped
    at hwiped ⊢
  exact ⟨hwiped.timed.congr rfl rfl rfl,
    hwiped.owned.congr rfl (fun _ => rfl) rfl (leases_kept rfl) rfl,
    hwiped.filed.quietly rfl rfl⟩

/-- The administrator gets a new lease, and the old one is cancelled. -/
theorem Owned.replaceAdminLease {promised : List TimerCallback}
    (howned : memory.Owned promised) (newKey : Core.AesKeyType)
    (lease : AuthLease) :
    (AuthMemory.recordCancel .rotated ((memory.allocateLease lease).1.updateInner
      ({ · with
        adminKey := newKey, adminLease := memory.leaseHeap.length, safeMode := false }))
      memory.inner.adminLease).Owned promised := by
  refine ⟨howned.size, howned.reaped, howned.described, howned.cold, ?_⟩
  intro id found hfound hlive hnot
  rw [lease?_recordCancel] at hfound
  obtain ⟨before, hbefore, rfl⟩ := Option.map_eq_some_iff.mp hfound
  have hold : id ≠ memory.inner.adminLease := by
    rintro rfl
    rw [if_pos rfl] at hlive
    cases hlive
  rw [if_neg hold] at hlive
  have hlt : id < memory.leaseHeap.length := by
    have hle : id < (memory.leaseHeap ++ [lease]).length :=
      (List.getElem?_eq_some_iff.mp hbefore).1
    rw [List.length_append, List.length_singleton] at hle
    exact Nat.lt_of_le_of_ne (Nat.le_of_lt_succ hle) hnot
  have hkept : memory.lease? id = some before := by
    rw [lease?, ← hbefore]
    exact (List.getElem?_append_left hlt).symm
  exact howned.leased id before hkept hlive hold

theorem Kept.finishRotation (hkept : memory.Kept) (newKey : Core.AesKeyType)
    (audit : AuditRecord) {now : ℕ} (hnow : now ≤ u64Max) :
    (memory.finishRotation newKey audit now).Kept := by
  have hpushed : AuthMemory.Quiet memory (memory.pushAuditRecord audit) :=
    quiet_pushAuditRecord audit
  have hremembered := hpushed.trans quiet_rememberPreviousRoot
  have hwiped := (hkept.quiet hremembered).wipe hnow
  have hadmin : ((memory.pushAuditRecord audit).rememberPreviousRoot.wipe
      now).inner.adminLease = memory.inner.adminLease := by
    rw [adminLease_wipe]
    exact hremembered.adminLease
  have howned := hwiped.owned.replaceAdminLease newKey (.new adminKeyId u64Max)
  rw [hadmin] at howned
  exact ⟨hwiped.timed.congr rfl rfl rfl, howned, hwiped.filed.quietly rfl rfl⟩

end AuthMemory

/-! ## Commands and ticks -/

variable {crypto : AuthCrypto} {config : AuthConfig} {env : Surroundings}
  {memory base published last : AuthMemory} {dir dir' : StateDir}
  {command : AuthCommand} {record : WalRecord}
  {result : Except AuthFailure AuthResponse} {stop : Interruption}

theorem u64_le (now : Seconds) : (now : ℕ) ≤ u64Max :=
  Nat.le_pred_of_lt now.isLt

theorem Appends.kept_base
    (happends : Appends crypto config env memory command base record result published)
    (hkept : memory.Kept) : base.Kept := by
  cases happends with
  | claim hpruned =>
      rw [hpruned]
      exact hkept.quiet (AuthMemory.quiet_pruneExpiredAdminReplays _)
  | _ => exact hkept

theorem Appends.kept
    (happends : Appends crypto config env memory command base record result published)
    (hkept : memory.Kept) : published.Kept := by
  have hpushed : ∀ audit, (memory.pushAuditRecord audit).Kept :=
    fun audit => hkept.quiet (AuthMemory.quiet_pushAuditRecord audit)
  cases happends with
  | claim hpruned =>
      rw [hpruned]
      exact (hkept.quiet (AuthMemory.quiet_pruneExpiredAdminReplays _)).quiet
        (AuthMemory.quiet_admitMutation _)
  | issue hplan haudit hpublished =>
      rw [hpublished]
      have hplanned := AuthMemory.plannedIssue hplan
      obtain ⟨slot, hslot, hfree, -⟩ := hplanned.slot hkept.owned.size
      apply (hpushed _).publishIssue ?_ hfree
      · rw [hplanned.expiresAt]
        exact AuthMemory.satAdd_u64Max_le _ _
      · rw [(AuthMemory.quiet_pushAuditRecord _).slot?]
        exact hslot
  | «show» hshown haudit => exact hpushed _
  | renew hplan haudit hbetween hpublish =>
      apply AuthMemory.Kept.publishRenew ?_ ?_ hpublish
      · rw [hbetween]
        exact (hpushed _).quiet (AuthMemory.quiet_foldl
          (fun _ => AuthMemory.quiet_check crypto) _ _)
      · rw [(AuthMemory.plannedRenew hplan).expiresAt_eq]
        exact AuthMemory.satAdd_u64Max_le _ _
  | renewLost hplan haudit hbetween hpublish =>
      rw [hbetween]
      exact (hpushed _).quiet (AuthMemory.quiet_foldl
        (fun _ => AuthMemory.quiet_check crypto) _ _)
  | revoke hplan haudit hbefore hpublish =>
      rw [hbefore] at hpublish
      exact (hpushed _).publishRevoke hpublish
  | revokeLost hplan haudit hbefore hpublish =>
      rw [hbefore]
      exact hpushed _
  | setLegacyProtocol hopen haudit =>
      exact (hpushed _).quiet (AuthMemory.quiet_setLegacyProtocol _)
  | audit haudit => exact hpushed _

theorem AppendCut.kept (hcut : AppendCut base dir record stop last dir')
    (hkept : base.Kept) : last.Kept := by
  cases hcut with
  | retryable => exact hkept
  | uncertain => exact hkept.quiet AuthMemory.quiet_failClosed
  | stopped => exact hkept

theorem CompactCut.kept {snapshot : PersistedSnapshot}
    (hcut : CompactCut base dir snapshot stop last dir') (hkept : base.Kept) :
    last.Kept := by
  cases hcut with
  | failed => exact hkept.quiet AuthMemory.quiet_failClosed
  | stopped => exact hkept

theorem ReplaceCut.kept {writes : List (StateDir → StateDir)}
    {installed : StateDir → Prop} {remove : StateDir → StateDir}
    (hcut : ReplaceCut base dir writes installed remove stop last dir')
    (hkept : base.Kept) : last.Kept := by
  cases hcut with
  | failed => exact hkept.quiet AuthMemory.quiet_failClosed
  | stopped => exact hkept
  | removed => exact hkept

/-- A command keeps the memory in order. -/
theorem CommandMove.kept {ended : Except Interruption AuthResponse}
    (hmove : CommandMove crypto config env memory dir command ended last dir')
    (hkept : memory.Kept) : last.Kept := by
  have hbump := hkept.quiet AuthMemory.quiet_bumpRootEpoch
  cases hmove with
  | refused => exact hkept
  | claimRefused =>
      exact hkept.quiet (AuthMemory.quiet_pruneExpiredAdminReplays _)
  | listed => exact hkept
  | status => exact hkept
  | appended happends => exact happends.kept hkept
  | appendCut happends hcut => exact hcut.kept (happends.kept_base hkept)
  | collected hopen hcollected =>
      have hgc := hkept.collectGarbage (env.clock 0)
      rw [hcollected] at hgc
      exact hgc.quiet (AuthMemory.quiet_pushAuditRecord _)
  | collectCut hopen hcollected hcut =>
      have hgc := hkept.collectGarbage (env.clock 0)
      rw [hcollected] at hgc
      exact hcut.kept hgc
  | reset hbumped =>
      rw [hbumped]
      exact hbump.finishReset _ _ (u64_le _)
  | resetCut hbumped hcut =>
      rw [hbumped] at hcut
      exact hcut.kept hbump
  | rotated hnew hbumped =>
      rw [hbumped]
      exact (hbump.finishRotation _ _ (u64_le _)).quiet
        AuthMemory.quiet_forgetReplays
  | rotateCut hnew hbumped hcut =>
      rw [hbumped] at hcut
      exact hcut.kept hbump

/-- A tick keeps the memory in order. -/
theorem TickMove.kept {now : Seconds} {ended : Except Interruption Unit}
    (hmove : TickMove now memory dir ended last dir') (hkept : memory.Kept) :
    last.Kept := by
  have hticked : ((memory.tickLeases now).pruneExpiredAdminReplays now).Kept :=
    (hkept.tickLeases (u64_le now)).quiet
      (AuthMemory.quiet_pruneExpiredAdminReplays _)
  cases hmove with
  | ticked hpruned =>
      rw [hpruned]
      exact hticked
  | compacted hpruned hopen =>
      rw [hpruned]
      exact hticked.quiet (AuthMemory.quiet_setLastSnapshotAt _)
  | compactCut hpruned hopen hcut =>
      rw [hpruned] at hcut
      exact hcut.kept hticked

end PbMapper.Auth

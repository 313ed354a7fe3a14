import PbMapper.Auth.Authority
import PbMapper.Auth.NoLeak

/-!
# What a reset and a rotation leave

Both drop the schedule, which runs every timer it holds.  The table owns a timer
for each of its keys, so nothing of it is left.  An entry above the table is
forgotten if a reap of it was scheduled, and stays otherwise.  The keys are then
derived from another instance id or another root key, and a new root key has a
lease of its own.
-/

namespace PbMapper.Auth

open PbMapper.Core MachineWord

namespace AuthMemory

variable {memory : AuthMemory} {entry : PersistedEntry}

/-! ## Entries above the table -/

/-- A timer that has not run will reap the key. -/
def Scheduled (memory : AuthMemory) (keyId : KeyId) : Prop :=
  ∃ timer lease, memory.Pending timer (.reap keyId lease)

theorem mem_highSlotEntries_fire
    (habove : memory.slot? entry.keyId.slot.asIndex = none) (timer : TimerId) :
    entry ∈ (memory.fire timer).inner.highSlotEntries ↔
      entry ∈ memory.inner.highSlotEntries ∧
        ∀ lease, ¬memory.Pending timer (.reap entry.keyId lease) := by
  rcases fire_cases memory timer with ⟨callback, hpending, hfire⟩ | ⟨hnone, hfire⟩
  · have hsame : ∀ other, memory.Pending timer other → callback = other := by
      intro other hother
      exact Option.some.inj (Option.some.inj (hpending.symm.trans hother))
    rw [hfire]
    cases callback with
    | retire keyId lease =>
        rw [runCallback, highSlotEntries_retire]
        refine (and_iff_left ?_).symm
        intro other hother
        cases hsame _ hother
    | reap keyId lease =>
        rw [runCallback, highSlotEntries_reap]
        change entry ∈ (if (memory.slot? _).isNone then
          memory.inner.highSlotEntries.filter (·.keyId ≠ keyId)
          else memory.inner.highSlotEntries) ↔ _
        by_cases hkey : entry.keyId = keyId
        · rw [← hkey, habove, Option.isNone_none, if_pos rfl]
          apply iff_of_false
          · simp
          · rintro ⟨-, hother⟩
            rw [← hkey] at hpending
            exact hother lease hpending
        · have hother : ∀ other, ¬memory.Pending timer (.reap entry.keyId other) := by
            intro other hother
            cases hsame _ hother
            exact hkey rfl
          rw [and_iff_left hother]
          split
          · simp [hkey]
          · exact Iff.rfl
  · rw [hfire]
    exact (and_iff_left fun lease => hnone _).symm

theorem slot?_isNone_fire {index : ℕ} (habove : memory.slot? index = none)
    (timer : TimerId) : (memory.fire timer).slot? index = none := by
  rw [slot?, List.getElem?_eq_none_iff] at habove ⊢
  rwa [(ran_fire memory timer).length]

/-- Timers that fire forget the entries they are to reap. -/
theorem mem_highSlotEntries_fires
    (habove : memory.slot? entry.keyId.slot.asIndex = none)
    (timers : List TimerId) :
    entry ∈ (timers.foldl fire memory).inner.highSlotEntries ↔
      entry ∈ memory.inner.highSlotEntries ∧
        ∀ timer ∈ timers, ∀ lease,
          ¬memory.Pending timer (.reap entry.keyId lease) := by
  induction timers generalizing memory with
  | nil =>
      refine (and_iff_left ?_).symm
      exact fun timer htimer => absurd htimer List.not_mem_nil
  | cons timer timers ih =>
      rw [List.foldl_cons, ih (slot?_isNone_fire habove timer),
        mem_highSlotEntries_fire habove, and_assoc, List.forall_mem_cons]
      refine and_congr_right fun _ => and_congr_right fun hfirst => ?_
      refine forall₂_congr fun other hother => forall_congr' fun lease => ?_
      rw [pending_fire, not_and_or, not_not]
      refine ⟨fun hnot hpending => ?_, fun hnot => .inl hnot⟩
      rcases hnot with hnot | rfl
      · exact hnot hpending
      · exact hfirst lease hpending

/-- Every change of a reset or a rotation around the dropped schedule is quiet. -/
theorem mem_highSlotEntries_wipe (hkept : memory.Kept)
    (habove : memory.slot? entry.keyId.slot.asIndex = none) (now : ℕ) :
    entry ∈ (memory.wipe now).inner.highSlotEntries ↔
      entry ∈ memory.inner.highSlotEntries ∧ ¬memory.Scheduled entry.keyId := by
  have hquiet : Quiet memory memory.cancelAllTemporaryLeases :=
    quiet_cancelAllTemporaryLeases
  rw [wipe, dropSchedule, ← hquiet.high]
  rw [← hquiet.slot?] at habove
  have htimed := (hkept.quiet hquiet).timed
  have hscheduled : memory.Scheduled entry.keyId ↔
      memory.cancelAllTemporaryLeases.Scheduled entry.keyId := by
    simp only [Scheduled, Pending, hquiet.timerHeap]
  rw [hscheduled]
  generalize memory.cancelAllTemporaryLeases = cancelled at habove htimed ⊢
  have hdropped : (cancelled.updateLeases fun _ => ⟨newWheel, now, ∅⟩).slot?
      entry.keyId.slot.asIndex = none := habove
  apply (mem_highSlotEntries_fires hdropped _).trans
  refine and_congr_right fun _ => ⟨?_, ?_⟩
  · rintro hnone ⟨timer, lease, hpending⟩
    have hheld := (htimed.held timer _ hpending).resolve_right List.not_mem_nil
    exact hnone timer (mem_lastReleased.mpr ⟨hheld, List.not_mem_nil⟩) lease hpending
  · exact fun hnot timer _ lease hpending => hnot ⟨timer, lease, hpending⟩

/-! ## Empty stores -/

/-- No temporary key is known in any way. -/
structure Cleared (memory : AuthMemory) : Prop where
  holds : ∀ keyId, ¬memory.Holds keyId
  unknown : ∀ keyId, memory.keyState keyId = .error (keyNotFound keyId)
  hidden : ∀ crypto keyId reveal,
    memory.metadataWithCredential crypto keyId reveal = .error (keyNotFound keyId)
  listed : ∀ page pageSize, (memory.actorList page pageSize).items = []
  counted : ∀ state, state ≠ .free → memory.countKeys state = 0
  saved : memory.buildSnapshot.entries = []

theorem validateSlotIdentity_free {slot : SlotHot} (hfree : slot.state = .free)
    (keyId : KeyId) : validateSlotIdentity slot keyId = .error (keyNotFound keyId) :=
  if_pos (.inr hfree)

/-- An empty table with nothing above it has no keys. -/
theorem Drained.cleared (hdrained : memory.Drained)
    (hhigh : memory.inner.highSlotEntries = []) : memory.Cleared := by
  have hmissing : ∀ keyId, memory.highSlotEntry keyId = .error (keyNotFound keyId) := by
    intro keyId
    rw [highSlotEntry, hhigh]
    rfl
  have hfree : ∀ slot ∈ memory.inner.slots, slot.state = .free := by
    intro slot hslot
    obtain ⟨index, hindex⟩ := List.mem_iff_getElem?.mp hslot
    exact hdrained.rows index slot hindex
  have hrows : ∀ row ∈ memory.inner.slots.zipIdx, row.1.state = .free :=
    fun row hrow => hfree _ (List.fst_mem_of_mem_zipIdx hrow)
  have hlisted : memory.listed = [] := by
    have hnone : memory.inner.slots.zipIdx.filterMap (fun row =>
        if row.1.state = .free then none
        else (memory.inner.cold.lookup (rowKeyId row.1 row.2)).map fun cold =>
          (⟨rowKeyId row.1 row.2, slotStateName row.1.state, cold.issuedAt,
            row.1.expiresAt, cold.label⟩ : TemporaryKeyMetadata)) = [] := by
      rw [List.filterMap_eq_nil_iff]
      exact fun row hrow => if_pos (hrows row hrow)
    rw [listed, hhigh]
    change List.mergeSort (List.filterMap _ _ ++ _) _ = _
    rw [hnone]
    simp
  refine ⟨?_, ?_, ?_, ?_, ?_, ?_⟩
  · rintro keyId (⟨slot, hslot, hholds⟩ | ⟨entry, hentry, -⟩)
    · exact (SlotHot.holds_iff.mp hholds).2 (hdrained.rows _ slot hslot)
    · rw [hhigh] at hentry
      exact List.not_mem_nil hentry
  · intro keyId
    rw [keyState]
    split
    · rename_i slot hslot
      rw [validateSlotIdentity_free (hdrained.rows _ slot hslot)]
      rfl
    · rw [hmissing]
      rfl
  · intro crypto keyId reveal
    rw [metadataWithCredential]
    split
    · rename_i slot hslot
      rw [validateSlotIdentity_free (hdrained.rows _ slot hslot)]
      rfl
    · rw [hmissing]
      rfl
  · intro page pageSize
    rw [actorList, hlisted]
    simp
  · intro state hstate
    rw [countKeys, hhigh, List.filter_nil, List.length_nil, Nat.add_zero,
      List.length_eq_zero_iff, List.filter_eq_nil_iff]
    intro slot hslot hsame
    rw [decide_eq_true_iff, hfree slot hslot] at hsame
    exact hstate hsame.symm
  · have hnone : memory.tableEntries = [] := by
      rw [tableEntries, List.filterMap_eq_nil_iff]
      exact fun row hrow => if_pos (hrows row hrow)
    change memory.tableEntries ++ memory.inner.highSlotEntries = []
    rw [hnone, hhigh]
    rfl

/-- What a wipe empties, it empties entirely if every entry above the table is
scheduled. -/
structure Wiped (before after : AuthMemory) : Prop where
  kept : after.Kept
  idle : after.leases.wheel.timers = []
  high : ∀ entry : PersistedEntry,
    before.inner.slots.length ≤ entry.keyId.slot.asIndex →
      (entry ∈ after.inner.highSlotEntries ↔
        entry ∈ before.inner.highSlotEntries ∧ ¬before.Scheduled entry.keyId)
  length : after.inner.slots.length = before.inner.slots.length

theorem Wiped.drained {after : AuthMemory} (hwiped : Wiped memory after) :
    after.Drained := hwiped.kept.drained hwiped.idle

/-- What is left above the table was not scheduled to be reaped. -/
theorem Wiped.mem_highSlotEntries {after : AuthMemory}
    (hwiped : Wiped memory after) (hkept : memory.Kept) :
    entry ∈ after.inner.highSlotEntries ↔
      entry ∈ memory.inner.highSlotEntries ∧ ¬memory.Scheduled entry.keyId := by
  constructor
  · intro hentry
    have habove := (hwiped.kept.filed.high entry hentry).2
    rw [hwiped.length] at habove
    exact (hwiped.high entry habove).mp hentry
  · intro hentry
    exact (hwiped.high entry (hkept.filed.high entry hentry.1).2).mpr hentry

theorem Wiped.cleared_iff {after : AuthMemory} (hwiped : Wiped memory after)
    (hkept : memory.Kept) :
    after.Cleared ↔
      ∀ entry ∈ memory.inner.highSlotEntries, memory.Scheduled entry.keyId := by
  constructor
  · intro hcleared entry hentry
    by_contra hnot
    have hleft := (hwiped.mem_highSlotEntries hkept).mpr ⟨hentry, hnot⟩
    exact hcleared.holds entry.keyId (.inr ⟨entry, hleft, rfl⟩)
  · intro hscheduled
    apply hwiped.drained.cleared
    rw [List.eq_nil_iff_forall_not_mem]
    intro entry hentry
    obtain ⟨hbefore, hnot⟩ := (hwiped.mem_highSlotEntries hkept).mp hentry
    exact hnot (hscheduled entry hbefore)

/-- A wheel without routes holds no timer. -/
theorem timers_of_routes {wheel : TimingWheel TimerId}
    (hroutes : wheel.routes = 0) :
    wheel.timers = [] := by
  rw [List.eq_nil_iff_forall_not_mem]
  intro timer htimer
  obtain ⟨due, hroute⟩ := TimingWheel.mem_timers.mp htimer
  rw [hroutes] at hroute
  exact Multiset.notMem_zero _ hroute

theorem wiped_wipe (hkept : memory.Kept) {now : ℕ} (hnow : now ≤ u64Max) :
    Wiped memory (memory.wipe now) := by
  have hcancelled : Quiet memory memory.cancelAllTemporaryLeases :=
    quiet_cancelAllTemporaryLeases
  refine ⟨hkept.wipe hnow, ?_, ?_, (trimmed_wipe now).length⟩
  · have hleases : (memory.wipe now).leases = ⟨newWheel, now, ∅⟩ :=
      ((hkept.quiet hcancelled).timed.dropSchedule hnow).2.2
    rw [hleases]
    exact timers_of_routes newWheel_timed.2.2.2.2
  · intro entry habove
    exact mem_highSlotEntries_wipe hkept (List.getElem?_eq_none_iff.mpr habove) now

theorem Wiped.of_quiet {before after : AuthMemory} (hwiped : Wiped before after)
    (hquiet : Quiet memory before) : Wiped memory after := by
  refine ⟨hwiped.kept, hwiped.idle, fun entry habove => ?_, ?_⟩
  · have hscheduled : before.Scheduled entry.keyId ↔ memory.Scheduled entry.keyId := by
      simp only [Scheduled, Pending, hquiet.timerHeap]
    rw [← hquiet.slots] at habove
    rw [hwiped.high entry habove, hquiet.high, hscheduled]
  · rw [hwiped.length, hquiet.slots]

/-- The wipe of a reset or a rotation, after the audit. -/
theorem wiped_audited (hkept : memory.Kept) (audit : AuditRecord) {now : ℕ}
    (hnow : now ≤ u64Max) :
    Wiped memory (((memory.pushAuditRecord audit).rememberPreviousRoot).wipe now) := by
  have hpushed : Quiet memory (memory.pushAuditRecord audit) :=
    quiet_pushAuditRecord audit
  have hremembered := hpushed.trans quiet_rememberPreviousRoot
  exact (wiped_wipe (hkept.quiet hremembered) hnow).of_quiet hremembered

theorem Wiped.finishReset (hkept : memory.Kept) (newInstanceId : InstanceId)
    (audit : AuditRecord) {now : ℕ} (hnow : now ≤ u64Max) :
    Wiped memory (memory.finishReset newInstanceId audit now) := by
  have hwiped := wiped_audited hkept audit hnow
  have hfinished := hkept.finishReset newInstanceId audit hnow
  rw [AuthMemory.finishReset] at hfinished ⊢
  generalize (memory.pushAuditRecord audit).rememberPreviousRoot.wipe now = wiped
    at hwiped hfinished ⊢
  exact ⟨hfinished, hwiped.idle, hwiped.high, hwiped.length⟩

theorem Wiped.finishRotation (hkept : memory.Kept) (newKey : AesKeyType)
    (audit : AuditRecord) {now : ℕ} (hnow : now ≤ u64Max) :
    Wiped memory (memory.finishRotation newKey audit now) := by
  have hwiped := wiped_audited hkept audit hnow
  have hfinished := hkept.finishRotation newKey audit hnow
  rw [AuthMemory.finishRotation] at hfinished ⊢
  simp only at hfinished ⊢
  generalize (memory.pushAuditRecord audit).rememberPreviousRoot.wipe now = wiped
    at hwiped hfinished ⊢
  exact ⟨hfinished, hwiped.idle, hwiped.high, hwiped.length⟩

end AuthMemory

/-! ## The root of the keys -/

/-- What a reset and a rotation replace. -/
structure AuthRoot where
  adminKey : AesKeyType
  adminLease : LeaseId
  instanceId : InstanceId
  rootEpoch : ℕ
  previousRoot : Option PreviousRoot

def AuthStateInner.root (inner : AuthStateInner) : AuthRoot :=
  ⟨inner.adminKey, inner.adminLease, inner.instanceId, inner.rootEpoch,
    inner.previousRoot⟩

/-- The next epoch, which remembers the root before. -/
def AuthRoot.superseded (root : AuthRoot) : AuthRoot :=
  { root with
    rootEpoch := wrapAdd u64Max root.rootEpoch 1
    previousRoot := some ⟨root.adminKey, root.instanceId⟩ }

/-- The root after a reset, which has the drawn instance id, and after a rotation,
which has the new key under a lease that no other key had.  The old lease of the
administrator is cancelled. -/
inductive NewRoot (env : Surroundings) (before after : AuthMemory) :
    AuthCommand → Prop where
  | reset
      (hroot : after.inner.root =
        { before.inner.root.superseded with instanceId := env.newInstanceId }) :
      NewRoot env before after .reset
  | rotated {newKey : AesKeyType} {lease : LeaseId}
      (hnew : newKey ≠ before.inner.adminKey)
      (hroot : after.inner.root =
        { before.inner.root.superseded with
          adminKey := newKey, adminLease := lease })
      (hunused : before.lease? lease = none)
      (hlease : after.lease? lease = some (.new adminKeyId u64Max))
      (hold : after.isCancelled before.inner.adminLease = true) :
      NewRoot env before after (.rotateRoot newKey)

namespace AuthMemory

variable {memory : AuthMemory}

theorem inner_cancelAllTemporaryLeases (memory : AuthMemory) :
    memory.cancelAllTemporaryLeases.inner = memory.inner := by
  rw [cancelAllTemporaryLeases]
  refine List.foldlRecOn (motive := fun cancelled : AuthMemory =>
    cancelled.inner = memory.inner) _ _ rfl ?_
  exact fun cancelled hsame id _ => (inner_recordCancel .rotated id).trans hsame

theorem root_wipe (memory : AuthMemory) (now : ℕ) :
    (memory.wipe now).inner.root = memory.inner.root := by
  rw [wipe, dropSchedule, (ran_fires _ _).field AuthStateInner.root rfl]
  exact congrArg AuthStateInner.root memory.inner_cancelAllTemporaryLeases

/-- The root between the wipe and its replacement. -/
theorem root_audited (memory : AuthMemory) (audit : AuditRecord) (now : ℕ) :
    (((memory.bumpRootEpoch.pushAuditRecord audit).rememberPreviousRoot).wipe
      now).inner.root = memory.inner.root.superseded := by
  obtain ⟨records, hpushed⟩ := pushAuditRecord_eq memory.bumpRootEpoch audit
  rw [root_wipe, hpushed]
  rfl

theorem root_finishReset (memory : AuthMemory) (newInstanceId : InstanceId)
    (audit : AuditRecord) (now : ℕ) :
    (memory.bumpRootEpoch.finishReset newInstanceId audit now).inner.root =
      { memory.inner.root.superseded with instanceId := newInstanceId } := by
  rw [← root_audited memory audit now]
  rfl

/-- The new lease is behind all leases, so it is not the one that is cancelled. -/
theorem finishRotation_newRoot (env : Surroundings) {newKey : AesKeyType}
    (hnew : newKey ≠ memory.inner.adminKey)
    (hlt : memory.inner.adminLease < memory.leaseHeap.length)
    (audit : AuditRecord) (now : ℕ) :
    NewRoot env memory (memory.bumpRootEpoch.finishRotation newKey audit now)
      (.rotateRoot newKey) := by
  have hroot := memory.root_audited audit now
  have hretains : Retains memory.bumpRootEpoch
      (((memory.bumpRootEpoch.pushAuditRecord audit).rememberPreviousRoot).wipe
        now) :=
    ((retains_aside (aside_pushAuditRecord audit)).trans
      (retains_aside aside_rememberPreviousRoot)).trans (retains_wipe now)
  have hlength : memory.leaseHeap.length ≤ _ := hretains.length
  rw [finishRotation]
  simp only
  generalize ((memory.bumpRootEpoch.pushAuditRecord audit).rememberPreviousRoot).wipe
    now = wiped at hroot hlength ⊢
  have hother : wiped.leaseHeap.length ≠ memory.bumpRootEpoch.inner.adminLease :=
    (hlt.trans_le hlength).ne'
  have hsame : memory.bumpRootEpoch.inner.adminLease = memory.inner.adminLease := rfl
  refine @NewRoot.rotated _ _ _ _ wiped.leaseHeap.length hnew ?_ ?_ ?_ ?_
  · rw [← hroot]
    rfl
  · exact List.getElem?_eq_none hlength
  · rw [lease?_recordCancel]
    change Option.map _
      ((wiped.leaseHeap ++ [AuthLease.new adminKeyId u64Max])[_]?) = _
    rw [List.getElem?_concat_length, Option.map_some, if_neg hother]
  · rw [isCancelled, lease?_recordCancel, Option.all_map]
    simp [hsame, AuthLease.recordCancel]

end AuthMemory

/-! ## Histories -/

/-- The commands that replace the root of all keys. -/
def AuthCommand.replacesRoot : AuthCommand → Bool
  | .reset | .rotateRoot _ => true
  | _ => false

variable {crypto : AuthCrypto}

section Replaced

variable {config : AuthConfig} {env : Surroundings} {memory last : AuthMemory}
  {dir dir' : StateDir} {command : AuthCommand} {response : AuthResponse}

/-- What a reset and a rotation leave when they succeed. -/
theorem CommandMove.replaces_cases
    (hmove : CommandMove crypto config env memory dir command (.ok response) last
      dir')
    (hreplaces : command.replacesRoot = true) :
    (command = .reset ∧
      last = memory.bumpRootEpoch.finishReset env.newInstanceId (resetAudit env)
        (env.clock 1)) ∨
    ∃ newKey, command = .rotateRoot newKey ∧ newKey ≠ memory.inner.adminKey ∧
      last = { memory.bumpRootEpoch.finishRotation newKey (rotateAudit env)
          (env.clock 1) with
        adminReplays := ∅
        adminReplayOrder := [] } := by
  generalize hended : Except.ok response = ended at hmove
  cases hmove with
  | reset hbumped =>
      rw [hbumped]
      exact .inl ⟨rfl, rfl⟩
  | @rotated newKey _ _ _ hnew hbumped =>
      rw [hbumped]
      exact .inr ⟨newKey, rfl, hnew, rfl⟩
  | appended happends => cases happends <;> cases hreplaces
  | listed | status | collected => cases hreplaces
  | refused | claimRefused | appendCut | collectCut | resetCut | rotateCut =>
      cases hended

theorem CommandMove.wiped
    (hmove : CommandMove crypto config env memory dir command (.ok response) last
      dir')
    (hreplaces : command.replacesRoot = true) (hkept : memory.Kept) :
    AuthMemory.Wiped memory last ∧ last.inner.safeMode = false := by
  have hbump : AuthMemory.Quiet memory memory.bumpRootEpoch :=
    AuthMemory.quiet_bumpRootEpoch
  have hbumped := hkept.quiet hbump
  have hnow := u64_le (env.clock 1)
  rcases hmove.replaces_cases hreplaces with ⟨-, rfl⟩ | ⟨newKey, -, -, rfl⟩
  · have hreset := AuthMemory.Wiped.finishReset hbumped env.newInstanceId
      (resetAudit env) hnow
    exact ⟨hreset.of_quiet hbump, rfl⟩
  · have hrotated := (AuthMemory.Wiped.finishRotation hbumped newKey
      (rotateAudit env) hnow).of_quiet hbump
    exact ⟨⟨hrotated.kept.quiet AuthMemory.quiet_forgetReplays, hrotated.idle,
      hrotated.high, hrotated.length⟩, rfl⟩

theorem CommandMove.newRoot
    (hmove : CommandMove crypto config env memory dir command (.ok response) last
      dir')
    (hreplaces : command.replacesRoot = true)
    (hlt : memory.inner.adminLease < memory.leaseHeap.length) :
    NewRoot env memory last command := by
  rcases hmove.replaces_cases hreplaces with ⟨rfl, rfl⟩ | ⟨newKey, rfl, hnew, rfl⟩
  · exact .reset (memory.root_finishReset _ _ _)
  · cases AuthMemory.finishRotation_newRoot env hnew hlt (rotateAudit env)
      (env.clock 1) with
    | rotated hnew hroot hunused hlease hold =>
        exact .rotated hnew hroot hunused hlease hold

end Replaced

/-- The administrator keeps a lease. -/
theorem CommandMove.adminLease_lt {config : AuthConfig} {env : Surroundings}
    {memory last : AuthMemory} {dir dir' : StateDir} {command : AuthCommand}
    {ended : Except Interruption AuthResponse}
    (hmove : CommandMove crypto config env memory dir command ended last dir')
    (hlt : memory.inner.adminLease < memory.leaseHeap.length) :
    last.inner.adminLease < last.leaseHeap.length := by
  by_cases hother : ∀ newKey, command ≠ .rotateRoot newKey
  · have hretains := hmove.retains hother
    rw [hretains.adminLease]
    exact hlt.trans_le hretains.length
  · push Not at hother
    obtain ⟨newKey, rfl⟩ := hother
    cases hmove with
    | refused => exact hlt
    | appended happends | appendCut happends => cases happends
    | rotated hnew hbumped =>
        rw [hbumped]
        cases AuthMemory.finishRotation_newRoot env hnew hlt (rotateAudit env)
          (env.clock 1) with
        | rotated _ hroot _ hlease =>
            have hadmin := congrArg AuthRoot.adminLease hroot
            exact hadmin.trans_lt (List.getElem?_eq_some_iff.mp hlease).1
    | rotateCut hnew hbumped hcut =>
        have hretains := hcut.retains
        rw [hbumped] at hretains
        rw [hretains.adminLease]
        exact hlt.trans_le hretains.length

/-- Whether a command was answered without a failure. -/
def AuthRecord.succeeded : AuthRecord → Bool
  | .answered _ _ answer => answer.isOk
  | .started _ => false

/-- The last command was answered without a failure. -/
def AuthHistory.succeeded (history : AuthHistory) : Bool :=
  history.records.getLast?.any (·.succeeded)

theorem AuthHistory.adminLease_lt_of_reachable {history : AuthHistory}
    (hreachable : (authSystem crypto).Reachable history) {server : AuthServer}
    (hserver : history.server = some server) :
    server.memory.inner.adminLease < server.memory.leaseHeap.length := by
  refine hreachable.invariant (motive := fun history => ∀ server,
    history.server = some server →
      server.memory.inner.adminLease < server.memory.leaseHeap.length)
    ?_ ?_ server hserver
  · rintro history rfl server hserver
    cases hserver
  · intro history event next hlt hstep server hserver
    have hkeeps : event.Keeps →
        server.memory.inner.adminLease < server.memory.leaseHeap.length := by
      intro hevent
      obtain ⟨before, hbefore, hretains⟩ := step_retains hstep hevent hserver
      rw [hretains.adminLease]
      exact (hlt before hbefore).trans_le hretains.length
    cases step_moves hstep with
    | started _ hmove =>
        cases hserver
        exact hmove.adminLease_lt
    | startCut => cases hserver
    | answered hbefore hmove =>
        cases hserver
        exact hmove.adminLease_lt (hlt _ hbefore)
    | commandStopped => cases hserver
    | ticked | tickStopped | authenticate | check | stop => exact hkeeps trivial

/-- A reset or a rotation that succeeds empties the table, cancels every temporary
lease, replaces the root and opens the store.  The entries above the table stay, but
for those that were scheduled to be reaped: those that were live at the last start
were not.  So it leaves no key at all, also for a later snapshot, exactly if all of
them were scheduled. -/
theorem cleared_iff_scheduled {history next : AuthHistory}
    (hreachable : (authSystem crypto).Reachable history)
    {server after : AuthServer}
    (hserver : history.server = some server) {env : Surroundings}
    {authority : LeaseId} {command : AuthCommand} {outcomes : List FileOutcome}
    (hreplaces : command.replacesRoot = true)
    (hstep : (authSystem crypto).step history
      (.command env authority command outcomes) next)
    (hsucceeded : next.succeeded = true) (hafter : next.server = some after) :
    after.memory.Drained ∧ after.memory.inner.safeMode = false ∧
      NewRoot env server.memory after.memory command ∧
      (∀ entry : PersistedEntry, entry ∈ after.memory.inner.highSlotEntries ↔
        entry ∈ server.memory.inner.highSlotEntries ∧
          ¬server.memory.Scheduled entry.keyId) ∧
      (after.memory.Cleared ↔ ∀ entry ∈ server.memory.inner.highSlotEntries,
        server.memory.Scheduled entry.keyId) := by
  have hkept := (coherent_of_reachable hreachable).server server hserver
  have hlt := AuthHistory.adminLease_lt_of_reachable hreachable hserver
  cases step_moves hstep with
  | @answered running _ _ _ _ result last dir hrunning hmove =>
      rw [hserver] at hrunning
      cases hrunning
      cases hafter
      have hok : result.isOk = true := by
        rw [AuthHistory.succeeded, List.getLast?_concat, Option.any_some] at hsucceeded
        exact hsucceeded
      cases result with
      | error failure => cases hok
      | ok response =>
      obtain ⟨hwiped, hopen⟩ := hmove.wiped hreplaces hkept
      exact ⟨hwiped.drained, hopen, hmove.newRoot hreplaces hlt,
        fun entry => hwiped.mem_highSlotEntries hkept, hwiped.cleared_iff hkept⟩
  | commandStopped => cases hafter

/-- A reset of a server that restarted with one live key in its table. -/
theorem cleared_after_reset :
    ∃ (history next : AuthHistory) (server after : AuthServer),
    AuthHistory.play [.sampleStart 1 100 [],
      .sampleCommand 100 0 (.issue (.fromSecs 20) none) [], .stop,
      .sampleStart 0 105 []] = some history ∧
      history.server = some server ∧ next.server = some after ∧
      server.memory.inner.slots.map (·.state) = [.active] ∧
      after.memory.Drained ∧ after.memory.Cleared := by
  have hrun : (AuthHistory.play [.sampleStart 1 100 [],
      .sampleCommand 100 0 (.issue (.fromSecs 20) none) [], .stop,
      .sampleStart 0 105 []]).bind (fun history =>
        (history.step .sample (.sampleCommand 106 0 .reset [])).bind fun next =>
          history.server.bind fun server => next.server.map fun _ =>
            (next.succeeded, server.memory.inner.highSlotEntries,
              server.memory.inner.slots.map (·.state))) =
              some (true, [], [.active]) := by
    decide +kernel
  obtain ⟨history, hplay, hrest⟩ := Option.bind_eq_some_iff.mp hrun
  obtain ⟨next, hstep, hservers⟩ := Option.bind_eq_some_iff.mp hrest
  obtain ⟨server, hserver, hlast⟩ := Option.bind_eq_some_iff.mp hservers
  obtain ⟨after, hafter, hended⟩ := Option.map_eq_some_iff.mp hlast
  obtain ⟨hsucceeded, hread⟩ := Prod.mk.inj hended
  obtain ⟨hhigh, hstates⟩ := Prod.mk.inj hread
  obtain ⟨hdrained, -, -, -, hcleared⟩ := cleared_iff_scheduled
    (AuthHistory.reachable_play hplay) hserver rfl hstep hsucceeded hafter
  rw [hhigh] at hcleared
  exact ⟨history, next, server, after, hplay, hserver, hafter, hstates, hdrained,
    hcleared.mpr fun _ hentry => absurd hentry List.not_mem_nil⟩

end PbMapper.Auth

import PbMapper.Auth.Histories

/-!
# Keys and their stages

The handles the actor keeps of a key's timers.  They lead to timers of that key
only, a key in the table can be reaped through them, and a lease belongs to one
key.
-/

namespace PbMapper.Auth

open PbMapper.Core MachineWord

namespace AuthMemory

/-! ## The invariant -/

/-- The actor has a handle of a reap of the key that has not run. -/
def Reapable (memory : AuthMemory) (keyId : KeyId) : Prop :=
  ∃ stages timer callback, memory.leases.stages.lookup keyId = some stages ∧
    stages.reap = some timer ∧ memory.Pending timer callback

/-- A lease of the key. -/
def LeaseOf (memory : AuthMemory) (lease : LeaseId) (keyId : KeyId) : Prop :=
  (memory.lease? lease).map (·.keyId) = some keyId

/-- The stages are in order.  Those of the `awaiting` keys are still to be
set. -/
structure Staged (memory : AuthMemory) (awaiting : List KeyId) : Prop where
  size : memory.inner.slots.length ≤ maxTempKeyCapacity
  bounded : ∀ keyId stages timer, memory.leases.stages.lookup keyId = some stages →
    stages.retire = some timer ∨ stages.reap = some timer →
      timer < memory.timerHeap.length
  retires : ∀ keyId stages timer callback,
    memory.leases.stages.lookup keyId = some stages →
      stages.retire = some timer → memory.Pending timer callback →
        ∃ lease, callback = .retire keyId lease
  reaps : ∀ keyId stages timer callback,
    memory.leases.stages.lookup keyId = some stages →
      stages.reap = some timer → memory.Pending timer callback →
        ∃ lease, callback = .reap keyId lease
  owners : ∀ timer keyId lease, memory.Pending timer (.retire keyId lease) →
    memory.LeaseOf lease keyId
  leased : ∀ index slot lease, memory.slot? index = some slot →
    slot.lease = some lease → memory.LeaseOf lease (rowKeyId slot index)
  staged : ∀ index slot, memory.slot? index = some slot → slot.state ≠ .free →
    rowKeyId slot index ∈ awaiting ∨ memory.Reapable (rowKeyId slot index)

variable {memory : AuthMemory} {awaiting : List KeyId} {keyId : KeyId}

theorem Staged.index_lt (hstaged : memory.Staged awaiting) {index : ℕ}
    {slot : SlotHot} (hslot : memory.slot? index = some slot) :
    index < 2 ^ 32 := by
  have hlength := (List.getElem?_eq_some_iff.mp hslot).1
  have hsize := hstaged.size
  have hcapacity : maxTempKeyCapacity < 2 ^ 32 := by decide
  omega

/-- Changes that keep stages and timers, and the keys of leases and rows. -/
theorem Staged.congr {memory' : AuthMemory} (hstaged : memory.Staged awaiting)
    (hlength : memory'.inner.slots.length = memory.inner.slots.length)
    (hrow : ∀ index slot, memory'.slot? index = some slot →
      ∃ before, memory.slot? index = some before ∧
        slot.generation = before.generation ∧ slot.lease = before.lease ∧
          (slot.state ≠ .free → before.state ≠ .free))
    (htimers : memory'.timerHeap = memory.timerHeap)
    (hstages : memory'.leases.stages = memory.leases.stages)
    (hleases : ∀ lease keyId, memory.LeaseOf lease keyId →
      memory'.LeaseOf lease keyId) : memory'.Staged awaiting := by
  have hpending : ∀ timer callback,
      memory'.Pending timer callback ↔ memory.Pending timer callback := by
    intro timer callback
    rw [Pending, Pending, htimers]
  constructor
  · rw [hlength]
    exact hstaged.size
  · rw [hstages, htimers]
    exact hstaged.bounded
  · rw [hstages]
    intro keyId stages timer callback hlookup hretire hpend
    exact hstaged.retires keyId stages timer callback hlookup hretire
      ((hpending _ _).mp hpend)
  · rw [hstages]
    intro keyId stages timer callback hlookup hreap hpend
    exact hstaged.reaps keyId stages timer callback hlookup hreap
      ((hpending _ _).mp hpend)
  · intro timer keyId lease hpend
    exact hleases _ _ (hstaged.owners timer keyId lease ((hpending _ _).mp hpend))
  · intro index slot lease hslot hlease
    obtain ⟨before, hbefore, hgeneration, hsame, -⟩ := hrow index slot hslot
    rw [hsame] at hlease
    rw [rowKeyId, hgeneration]
    exact hleases _ _ (hstaged.leased index before lease hbefore hlease)
  · intro index slot hslot hused
    obtain ⟨before, hbefore, hgeneration, -, hstate⟩ := hrow index slot hslot
    have hkey : rowKeyId slot index = rowKeyId before index := by
      rw [rowKeyId, hgeneration, rowKeyId]
    rw [hkey]
    refine (hstaged.staged index before hbefore (hstate hused)).imp_right ?_
    rintro ⟨stages, timer, callback, hlookup, hreap, hpend⟩
    exact ⟨stages, timer, callback, hstages ▸ hlookup, hreap,
      (hpending _ _).mpr hpend⟩

/-! ## Firing -/

theorem leaseOf_fire {lease : LeaseId} {timer : TimerId} :
    (memory.fire timer).LeaseOf lease keyId ↔ memory.LeaseOf lease keyId := by
  rcases fire_cases memory timer with ⟨callback, -, hfire⟩ | ⟨-, hfire⟩
  · rw [hfire]
    cases callback with
    | retire other id =>
        rw [runCallback, LeaseOf, lease?_retire, Option.map_map, LeaseOf]
        refine iff_of_eq (congrArg (· = some keyId) (congrArg (Option.map · _) ?_))
        funext found
        rw [Function.comp_apply]
        split <;> rfl
    | reap other owner =>
        rw [runCallback, LeaseOf, lease?_reap]
        rfl
  · rw [hfire]

/-- A timer that fires leaves a row as it was, with an expired state, or free. -/
theorem slot?_fire {index : ℕ} {timer : TimerId} {slot : SlotHot}
    (hslot : (memory.fire timer).slot? index = some slot) :
    ∃ before, memory.slot? index = some before ∧
      slot.generation = before.generation ∧
        (slot.lease = before.lease ∨ slot.lease = none) ∧
          (slot.state ≠ .free → before.state ≠ .free) := by
  rcases fire_cases memory timer with ⟨callback, -, hfire⟩ | ⟨-, hfire⟩
  · rw [hfire] at hslot
    cases callback with
    | retire other expired =>
        rw [runCallback, slot?_retire] at hslot
        obtain ⟨before, hbefore, rfl⟩ := Option.map_eq_some_iff.mp hslot
        refine ⟨before, hbefore, ?_⟩
        split
        · rename_i hactive
          refine ⟨rfl, .inl rfl, fun _ => ?_⟩
          rw [hactive.2.2]
          exact fun hfree => by cases hfree
        · exact ⟨rfl, .inl rfl, id⟩
    | reap other owner =>
        rw [runCallback, slot?_reap] at hslot
        obtain ⟨before, hbefore, rfl⟩ := Option.map_eq_some_iff.mp hslot
        refine ⟨before, hbefore, ?_⟩
        split
        · exact ⟨rfl, .inr rfl, fun hused => absurd rfl hused⟩
        · exact ⟨rfl, .inl rfl, id⟩
  · rw [hfire] at hslot
    exact ⟨slot, hslot, rfl, .inl rfl, id⟩

/-- A reap of the key of a row frees it. -/
theorem Staged.freed (hstaged : memory.Staged awaiting) {index : ℕ}
    {timer : TimerId} {lease : Option LeaseId} {slot : SlotHot}
    (hpending : memory.Pending timer (.reap (rowKeyId slot index) lease))
    (hslot : memory.slot? index = some slot) (hused : slot.state ≠ .free) :
    (memory.fire timer).slot? index = some slot.retire := by
  rcases fire_cases memory timer with
    ⟨callback, hfound, hfire⟩ | ⟨hnone, -⟩
  · cases Option.some.inj (Option.some.inj (hpending.symm.trans hfound))
    rw [hfire, runCallback, slot?_reap]
    change (memory.slot? index).map _ = _
    rw [hslot, Option.map_some, if_pos]
    exact ⟨(slot_rowKeyId slot (hstaged.index_lt hslot)).symm,
      holds_rowKeyId index hused⟩
  · exact absurd hpending (hnone _)

theorem Staged.fire (hstaged : memory.Staged awaiting) (timer : TimerId) :
    (memory.fire timer).Staged awaiting := by
  have hleases := leases_fire memory timer
  constructor
  · rw [(ran_fire memory timer).length]
    exact hstaged.size
  · rw [hleases, timerHeap_length_fire]
    exact hstaged.bounded
  · rw [hleases]
    intro keyId stages other callback hlookup hretire hpend
    exact hstaged.retires keyId stages other callback hlookup hretire
      (pending_fire.mp hpend).1
  · rw [hleases]
    intro keyId stages other callback hlookup hreap hpend
    exact hstaged.reaps keyId stages other callback hlookup hreap
      (pending_fire.mp hpend).1
  · intro other keyId lease hpend
    exact leaseOf_fire.mpr
      (hstaged.owners other keyId lease (pending_fire.mp hpend).1)
  · intro index slot lease hslot hlease
    obtain ⟨before, hbefore, hgeneration, hsame | hnone, -⟩ := slot?_fire hslot
    · rw [hsame] at hlease
      rw [rowKeyId, hgeneration]
      exact leaseOf_fire.mpr (hstaged.leased index before lease hbefore hlease)
    · rw [hnone] at hlease
      cases hlease
  · intro index slot hslot hused
    obtain ⟨before, hbefore, hgeneration, -, hstate⟩ := slot?_fire hslot
    have hkey : rowKeyId slot index = rowKeyId before index := by
      rw [rowKeyId, hgeneration, rowKeyId]
    rw [hkey]
    refine (hstaged.staged index before hbefore (hstate hused)).imp_right ?_
    rintro ⟨stages, reap, callback, hlookup, hreap, hpend⟩
    refine ⟨stages, reap, callback, hleases ▸ hlookup, hreap,
      pending_fire.mpr ⟨hpend, ?_⟩⟩
    -- The reap that fires frees the row.
    rintro rfl
    obtain ⟨lease, rfl⟩ := hstaged.reaps _ _ _ _ hlookup hreap hpend
    have hfreed := hstaged.freed hpend hbefore (hstate hused)
    rw [hslot] at hfreed
    cases hfreed
    exact hused rfl

theorem Staged.fires (hstaged : memory.Staged awaiting)
    (timers : List TimerId) :
    (timers.foldl AuthMemory.fire memory).Staged awaiting :=
  fires_preserve (motive := (·.Staged awaiting))
    (fun _ timer hmemory => hmemory.fire timer) timers hstaged

/-! ## Changes beside stages -/

/-- Quiet, and stages and the keys of leases are the same. -/
structure Aside (memory memory' : AuthMemory) : Prop
    extends Quiet memory memory' where
  stages : memory'.leases.stages = memory.leases.stages
  leaseKeys : memory'.leaseHeap.map (·.keyId) = memory.leaseHeap.map (·.keyId)

theorem Aside.refl (memory : AuthMemory) : Aside memory memory :=
  ⟨.refl memory, rfl, rfl⟩

theorem Aside.trans {memory memory' memory'' : AuthMemory}
    (hfirst : Aside memory memory') (hsecond : Aside memory' memory'') :
    Aside memory memory'' :=
  ⟨hfirst.toQuiet.trans hsecond.toQuiet, hsecond.stages.trans hfirst.stages,
    hsecond.leaseKeys.trans hfirst.leaseKeys⟩

theorem leaseOf_iff_of_keys {memory' : AuthMemory}
    (hkeys : memory'.leaseHeap.map (·.keyId) = memory.leaseHeap.map (·.keyId))
    {lease : LeaseId} :
    memory'.LeaseOf lease keyId ↔ memory.LeaseOf lease keyId := by
  rw [LeaseOf, LeaseOf, lease?, lease?, ← List.getElem?_map, hkeys,
    List.getElem?_map]

theorem Staged.aside {memory' : AuthMemory} (hstaged : memory.Staged awaiting)
    (haside : Aside memory memory') : memory'.Staged awaiting := by
  refine hstaged.congr (by rw [haside.slots]) (fun index slot hslot => ?_)
    haside.timerHeap haside.stages
    fun lease keyId => (leaseOf_iff_of_keys haside.leaseKeys).mpr
  rw [haside.toQuiet.slot?] at hslot
  exact ⟨slot, hslot, rfl, rfl, fun hused => hused⟩

theorem map_keyId_modify (leases : List AuthLease) (id : LeaseId)
    {change : AuthLease → AuthLease}
    (hchange : ∀ lease, (change lease).keyId = lease.keyId) :
    (leases.modify id change).map (·.keyId) = leases.map (·.keyId) := by
  apply List.ext_getElem?
  intro index
  rw [List.getElem?_map, List.getElem?_map, List.getElem?_modify]
  change Option.map _ (Option.map _ _) = _
  rw [Option.map_map]
  refine congrArg (Option.map · _) (funext fun lease => ?_)
  rw [Function.comp_apply]
  split
  · exact hchange lease
  · rfl

theorem aside_recordCancel (reason : CancelReason) (id : LeaseId) :
    Aside memory (recordCancel reason memory id) :=
  ⟨quiet_recordCancel reason id, rfl, map_keyId_modify _ id fun _ => rfl⟩

theorem aside_setLeaseExpiry (id : LeaseId) (expiresAt : ℕ) :
    Aside memory { memory with
      leaseHeap :=
        memory.leaseHeap.modify id ({ · with expiresAt := expiresAt }) } :=
  ⟨quiet_setLeaseExpiry id expiresAt, rfl, map_keyId_modify _ id fun _ => rfl⟩

theorem aside_foldl {Change : Type} {change : AuthMemory → Change → AuthMemory}
    (hchange : ∀ memory item, Aside memory (change memory item))
    (items : List Change) (memory : AuthMemory) :
    Aside memory (items.foldl change memory) := by
  induction items generalizing memory with
  | nil => exact .refl memory
  | cons item items ih => exact (hchange memory item).trans (ih _)

theorem aside_cancelAllTemporaryLeases :
    Aside memory memory.cancelAllTemporaryLeases :=
  aside_foldl (fun _ => aside_recordCancel .rotated) _ memory

theorem aside_failClosed : Aside memory memory.failClosed := by
  have hcancelled : Aside (memory.updateInner ({ · with safeMode := true }))
      memory.failClosed := aside_cancelAllTemporaryLeases
  exact ⟨quiet_failClosed, hcancelled.stages, hcancelled.leaseKeys⟩

theorem aside_pushAuditRecord (record : AuditRecord) :
    Aside memory (memory.pushAuditRecord record) := by
  have hquiet : Quiet memory (memory.pushAuditRecord record) :=
    quiet_pushAuditRecord record
  obtain ⟨records, hpushed⟩ := pushAuditRecord_eq memory record
  rw [hpushed] at hquiet ⊢
  exact ⟨hquiet, rfl, rfl⟩

theorem aside_rememberPreviousRoot : Aside memory memory.rememberPreviousRoot :=
  ⟨quiet_rememberPreviousRoot, rfl, rfl⟩

theorem aside_bumpRootEpoch : Aside memory memory.bumpRootEpoch :=
  ⟨quiet_bumpRootEpoch, rfl, rfl⟩

theorem aside_admitMutation (record : AdminReplayRecord) :
    Aside memory (memory.admitMutation record) :=
  ⟨quiet_admitMutation record, rfl, rfl⟩

theorem aside_setLegacyProtocol (allowed : Bool) :
    Aside memory (memory.updateInner ({ · with legacyProtocolAllowed := allowed })) :=
  ⟨quiet_setLegacyProtocol allowed, rfl, rfl⟩

theorem aside_pruneExpiredAdminReplays (now : ℕ) :
    Aside memory (memory.pruneExpiredAdminReplays now) :=
  ⟨quiet_pruneExpiredAdminReplays now, rfl, rfl⟩

theorem aside_forgetReplays :
    Aside memory { memory with adminReplays := ∅, adminReplayOrder := [] } :=
  ⟨quiet_forgetReplays, rfl, rfl⟩

theorem aside_setLastSnapshotAt (now : ℕ) :
    Aside memory { memory with lastSnapshotAt := now } :=
  ⟨quiet_setLastSnapshotAt now, rfl, rfl⟩

theorem aside_ensureActive (context : AuthContext) (now : ℕ) :
    Aside memory (memory.ensureActive context now).2 := by
  rw [ensureActive]
  split
  · split
    · exact .refl memory
    · split
      · exact aside_recordCancel _ _
      · exact .refl memory
  · exact .refl memory

theorem aside_countFailure : Aside memory memory.countFailure :=
  ⟨quiet_countFailure, rfl, rfl⟩

theorem aside_noticeExpiry (slot : SlotHot) (now : ℕ) :
    Aside memory (memory.noticeExpiry slot now) := by
  rw [noticeExpiry]
  split
  · split
    · exact aside_recordCancel _ _
    · exact .refl memory
  · exact .refl memory

theorem aside_lookupCredential (crypto : AuthCrypto) (keyId : KeyId)
    (presentedKey : AesKeyType) (now : ℕ) :
    Aside memory (memory.lookupCredential crypto keyId presentedKey now).2 := by
  rw [lookupCredential]
  split
  · exact aside_countFailure
  split
  · exact aside_countFailure
  split
  · exact aside_countFailure
  split
  · exact (aside_noticeExpiry _ _).trans aside_countFailure
  split
  · exact ⟨quiet_countSuccess, rfl, rfl⟩
  · exact aside_countFailure

theorem aside_authenticatePresented (crypto : AuthCrypto) (keyId : KeyId)
    (presentedKey : AesKeyType) (now : ℕ) :
    Aside memory (memory.authenticatePresented crypto keyId presentedKey now).2 := by
  rw [authenticatePresented]
  split
  · split
    · exact aside_countFailure
    split
    · exact ⟨quiet_countSuccess, rfl, rfl⟩
    · exact .refl memory
  split
  · exact aside_countFailure
  · exact aside_lookupCredential crypto keyId presentedKey now

theorem aside_check (crypto : AuthCrypto) (check : CredentialCheck) :
    Aside memory (memory.check crypto check) := by
  cases check with
  | lookup keyId presentedKey now =>
      exact aside_lookupCredential crypto keyId presentedKey now
  | ensureActive context now => exact aside_ensureActive context now

/-! ## Setting stages -/

theorem Staged.updateSlot (hstaged : memory.Staged awaiting) {index : ℕ}
    {change : SlotHot → SlotHot}
    (hgeneration : ∀ slot, (change slot).generation = slot.generation)
    (hlease : ∀ slot, (change slot).lease = slot.lease)
    (hstate : ∀ slot, memory.slot? index = some slot →
      (change slot).state ≠ .free → slot.state ≠ .free) :
    (memory.updateSlot index change).Staged awaiting := by
  refine hstaged.congr (framed_updateSlot index change).length
    (fun other slot hslot => ?_) rfl rfl fun _ _ hlease => hlease
  rw [slot?_updateSlot] at hslot
  obtain ⟨before, hbefore, rfl⟩ := Option.map_eq_some_iff.mp hslot
  refine ⟨before, hbefore, ?_⟩
  split
  · rename_i hother
    subst hother
    exact ⟨hgeneration before, hlease before, hstate before hbefore⟩
  · exact ⟨rfl, rfl, fun hused => hused⟩

/-- A new timer is nobody's stage yet. -/
theorem Staged.allocateTimer (hstaged : memory.Staged awaiting)
    (callback : TimerCallback)
    (howner : ∀ keyId lease, callback = .retire keyId lease →
      memory.LeaseOf lease keyId) :
    (memory.allocateTimer callback).1.Staged awaiting := by
  have hold : ∀ keyId stages timer found,
      memory.leases.stages.lookup keyId = some stages →
        stages.retire = some timer ∨ stages.reap = some timer →
          (memory.allocateTimer callback).1.Pending timer found →
            memory.Pending timer found := by
    intro keyId stages timer found hlookup hstage hpend
    refine (pending_allocateTimer.mp hpend).resolve_right fun hnew => ?_
    exact absurd hnew.1
      (Nat.ne_of_lt (hstaged.bounded keyId stages timer hlookup hstage))
  constructor
  · exact hstaged.size
  · intro keyId stages timer hlookup hstage
    refine (hstaged.bounded keyId stages timer hlookup hstage).trans ?_
    change _ < (memory.timerHeap ++ [some callback]).length
    rw [List.length_append]
    exact Nat.lt_succ_self _
  · exact fun keyId stages timer found hlookup hretire hpend =>
      hstaged.retires keyId stages timer found hlookup hretire
        (hold keyId stages timer found hlookup (.inl hretire) hpend)
  · exact fun keyId stages timer found hlookup hreap hpend =>
      hstaged.reaps keyId stages timer found hlookup hreap
        (hold keyId stages timer found hlookup (.inr hreap) hpend)
  · intro timer keyId lease hpend
    rcases pending_allocateTimer.mp hpend with hbefore | ⟨-, hnew⟩
    · exact hstaged.owners timer keyId lease hbefore
    · exact howner keyId lease hnew.symm
  · exact hstaged.leased
  · intro index slot hslot hused
    refine (hstaged.staged index slot hslot hused).imp_right ?_
    rintro ⟨stages, timer, found, hlookup, hreap, hpend⟩
    exact ⟨stages, timer, found, hlookup, hreap,
      pending_allocateTimer.mpr (.inl hpend)⟩

/-- Stages of timers of the key, and a reap that has not run. -/
theorem Staged.setStages (hstaged : memory.Staged (keyId :: awaiting))
    {stages : Stages} {reap : TimerId} {lease : Option LeaseId}
    (hretire : ∀ timer, stages.retire = some timer →
      ∃ lease, memory.Pending timer (.retire keyId lease))
    (hreap : stages.reap = some reap)
    (hpending : memory.Pending reap (.reap keyId lease)) :
    (memory.setStages keyId stages).Staged awaiting := by
  have hlookup : ∀ other, (memory.setStages keyId stages).leases.stages.lookup
      other = if other = keyId then some stages
        else memory.leases.stages.lookup other :=
    fun other => Table.lookup_insert _ keyId other stages
  have hsame : ∀ {timer : TimerId} {callback found : TimerCallback},
      memory.Pending timer callback →
        (memory.setStages keyId stages).Pending timer found → found = callback :=
    fun hone htwo => (Option.some.inj (Option.some.inj (hone.symm.trans htwo))).symm
  constructor
  · exact hstaged.size
  · intro other found timer hfound hstage
    rw [hlookup] at hfound
    split at hfound
    · cases hfound
      rcases hstage with hstage | hstage
      · obtain ⟨owner, hpend⟩ := hretire timer hstage
        exact (List.getElem?_eq_some_iff.mp hpend).1
      · cases hreap.symm.trans hstage
        exact (List.getElem?_eq_some_iff.mp hpending).1
    · exact hstaged.bounded other found timer hfound hstage
  · intro other found timer callback hfound hstage hpend
    rw [hlookup] at hfound
    split at hfound
    · rename_i hother
      cases hfound
      obtain ⟨owner, howner⟩ := hretire timer hstage
      exact ⟨owner, hother ▸ hsame howner hpend⟩
    · exact hstaged.retires other found timer callback hfound hstage hpend
  · intro other found timer callback hfound hstage hpend
    rw [hlookup] at hfound
    split at hfound
    · rename_i hother
      cases hfound
      cases hreap.symm.trans hstage
      exact ⟨lease, hother ▸ hsame hpending hpend⟩
    · exact hstaged.reaps other found timer callback hfound hstage hpend
  · exact hstaged.owners
  · exact hstaged.leased
  · intro index slot hslot hused
    by_cases hkey : rowKeyId slot index = keyId
    · refine .inr ⟨stages, reap, _, ?_, hreap, hpending⟩
      rw [hlookup, if_pos hkey]
    · refine (hstaged.staged index slot hslot hused).imp (fun hmem => ?_) ?_
      · exact (List.mem_cons.mp hmem).resolve_left hkey
      · rintro ⟨found, timer, callback, hfound, hstage, hpend⟩
        refine ⟨found, timer, callback, ?_, hstage, hpend⟩
        rw [hlookup, if_neg hkey]
        exact hfound

theorem Staged.updateWheel (hstaged : memory.Staged awaiting)
    (wheel : TimingWheel TimerId) (now : ℕ) :
    (memory.updateLeases ({ · with wheel := wheel, now := now })).Staged
      awaiting :=
  hstaged.congr rfl (fun _ slot hslot => ⟨slot, hslot, rfl, rfl, id⟩) rfl rfl
    fun _ _ hlease => hlease

theorem Staged.scheduleAt (hstaged : memory.Staged awaiting) (deadline : ℕ)
    (timer : TimerId) : (memory.scheduleAt deadline timer).Staged awaiting := by
  rw [scheduleAt_eq]
  exact (hstaged.updateWheel _ memory.leases.now).fires _

theorem Staged.tickSecond (hstaged : memory.Staged awaiting) :
    memory.tickSecond.Staged awaiting := by
  rw [tickSecond_eq]
  exact (hstaged.updateWheel _ (memory.leases.now + 1)).fires _

theorem Staged.tickSeconds {count : ℕ} {memory : AuthMemory}
    (hstaged : memory.Staged awaiting) :
    (tickSeconds count memory).Staged awaiting := by
  induction count generalizing memory with
  | zero => exact hstaged
  | succ count ih => exact ih hstaged.tickSecond

theorem Staged.watch {lease : LeaseId}
    (hstaged : memory.Staged (keyId :: awaiting))
    (howner : memory.LeaseOf lease keyId) (expiresAt : ℕ) :
    (memory.watch keyId lease expiresAt).Staged awaiting := by
  apply Staged.scheduleAt
  apply Staged.scheduleAt
  have hretire : (memory.allocateTimer (.retire keyId lease)).1.Staged
      (keyId :: awaiting) := by
    refine hstaged.allocateTimer _ fun other found heq => ?_
    cases heq
    exact howner
  have hboth := hretire.allocateTimer (.reap keyId (some lease))
    fun _ _ heq => by cases heq
  refine hboth.setStages (fun timer htimer => ?_) rfl
    (pending_allocateTimer.mpr (.inr ⟨rfl, rfl⟩))
  cases htimer
  exact ⟨lease, pending_allocateTimer.mpr
    (.inl (pending_allocateTimer.mpr (.inr ⟨rfl, rfl⟩)))⟩

theorem Staged.scheduleReap (hstaged : memory.Staged (keyId :: awaiting))
    (deadline : ℕ) : (memory.scheduleReap keyId deadline).Staged awaiting := by
  apply Staged.scheduleAt
  have hreap := hstaged.allocateTimer (.reap keyId none)
    fun _ _ heq => by cases heq
  exact hreap.setStages (fun _ htimer => by cases htimer) rfl
    (pending_allocateTimer.mpr (.inr ⟨rfl, rfl⟩))

theorem leaseOf_watch {lease id : LeaseId} {other : KeyId} {expiresAt : ℕ} :
    (memory.watch keyId lease expiresAt).LeaseOf id other ↔
      memory.LeaseOf id other := by
  have hfires : ∀ (timers : List TimerId) (before : AuthMemory),
      (timers.foldl AuthMemory.fire before).LeaseOf id other ↔
        before.LeaseOf id other := by
    intro timers
    induction timers with
    | nil => exact fun _ => Iff.rfl
    | cons timer timers ih => exact fun before => (ih _).trans leaseOf_fire
  have hschedule : ∀ (before : AuthMemory) (deadline : ℕ) (timer : TimerId),
      (before.scheduleAt deadline timer).LeaseOf id other ↔
        before.LeaseOf id other := by
    intro before deadline timer
    rw [scheduleAt_eq, AuthMemory.release, hfires]
    rfl
  exact (hschedule _ _ _).trans (hschedule _ _ _)

/-! ## Running stages -/

theorem upgradeTimer_eq_some {timer : Option TimerId} {upgraded : TimerId} :
    memory.upgradeTimer timer = some upgraded ↔
      timer = some upgraded ∧ upgraded ∈ memory.leases.wheel.timers := by
  rw [upgradeTimer, Option.filter_eq_some_iff, decide_eq_true_iff]

/-- Firing a stage of a key fires its timer, if it has one the wheel holds; a key
without any is forgotten. -/
theorem fireStage_cases (memory : AuthMemory) (keyId : KeyId)
    {which : Stages → Option TimerId}
    (hwhich : which = Stages.retire ∨ which = Stages.reap) :
    (∃ stages timer, memory.leases.stages.lookup keyId = some stages ∧
        which stages = some timer ∧ timer ∈ memory.leases.wheel.timers ∧
          memory.fireStage keyId which = memory.fire timer) ∨
      (memory.fireStage keyId which = memory.eraseStages keyId ∧
        ∀ stages, memory.leases.stages.lookup keyId = some stages →
          memory.upgradeTimer stages.reap = none) ∨
      memory.fireStage keyId which = memory ∧
        ∀ stages, memory.leases.stages.lookup keyId = some stages →
          memory.upgradeTimer (which stages) = none := by
  rw [fireStage, stage]
  cases hlookup : memory.leases.stages.lookup keyId with
  | none => exact .inr (.inr ⟨rfl, fun _ hstages => by cases hstages⟩)
  | some stages =>
      simp only
      split
      · rename_i after timer hfound
        split at hfound
        · rename_i hboth
          rw [Bool.and_eq_true, Option.isNone_iff_eq_none,
            Option.isNone_iff_eq_none] at hboth
          rcases hwhich with rfl | rfl
          · cases hboth.1.symm.trans (congrArg Prod.snd hfound)
          · cases hboth.2.symm.trans (congrArg Prod.snd hfound)
        · obtain ⟨rfl, hupgrade⟩ := Prod.mk.inj hfound
          obtain ⟨hwhich, hheld⟩ := upgradeTimer_eq_some.mp hupgrade
          exact .inl ⟨stages, timer, rfl, hwhich, hheld, rfl⟩
      · rename_i after hfound
        split at hfound
        · rename_i hboth
          rw [Bool.and_eq_true, Option.isNone_iff_eq_none,
            Option.isNone_iff_eq_none] at hboth
          obtain ⟨rfl, -⟩ := Prod.mk.inj hfound
          refine .inr (.inl ⟨rfl, fun found heq => ?_⟩)
          cases heq
          exact hboth.2
        · obtain ⟨rfl, hupgrade⟩ := Prod.mk.inj hfound
          refine .inr (.inr ⟨rfl, fun found heq => ?_⟩)
          cases heq
          exact hupgrade

theorem not_reapable_of_upgradeTimer (htimed : memory.Timed [])
    (hnone : ∀ stages, memory.leases.stages.lookup keyId = some stages →
      memory.upgradeTimer stages.reap = none) : ¬memory.Reapable keyId := by
  rintro ⟨stages, timer, callback, hlookup, hreap, hpend⟩
  have hheld := (htimed.held timer callback hpend).resolve_right List.not_mem_nil
  have hupgrade := upgradeTimer_eq_some.mpr ⟨hreap, hheld⟩
  rw [hnone stages hlookup] at hupgrade
  cases hupgrade

theorem lookup_eraseStages (memory : AuthMemory) (keyId other : KeyId) :
    (memory.eraseStages keyId).leases.stages.lookup other =
      if other = keyId then none else memory.leases.stages.lookup other :=
  Table.lookup_erase _ _ _

/-- A key that cannot be reaped through its stages is forgotten. -/
theorem Staged.eraseStages (hstaged : memory.Staged awaiting)
    (hnot : ¬memory.Reapable keyId) :
    (memory.eraseStages keyId).Staged awaiting := by
  have hlookup : ∀ {other : KeyId} {stages : Stages},
      (memory.eraseStages keyId).leases.stages.lookup other = some stages →
        memory.leases.stages.lookup other = some stages := by
    intro other stages hfound
    rw [lookup_eraseStages] at hfound
    split at hfound
    · cases hfound
    · exact hfound
  constructor
  · exact hstaged.size
  · exact fun other stages timer hfound =>
      hstaged.bounded other stages timer (hlookup hfound)
  · exact fun other stages timer callback hfound =>
      hstaged.retires other stages timer callback (hlookup hfound)
  · exact fun other stages timer callback hfound =>
      hstaged.reaps other stages timer callback (hlookup hfound)
  · exact hstaged.owners
  · exact hstaged.leased
  · intro index slot hslot hused
    refine (hstaged.staged index slot hslot hused).imp_right fun hreapable => ?_
    have hkey : rowKeyId slot index ≠ keyId := fun heq => hnot (heq ▸ hreapable)
    obtain ⟨stages, timer, callback, hfound, hreap, hpend⟩ := hreapable
    refine ⟨stages, timer, callback, ?_, hreap, hpend⟩
    rw [lookup_eraseStages, if_neg hkey]
    exact hfound

theorem Staged.fireStage (hstaged : memory.Staged awaiting)
    (htimed : memory.Timed []) (keyId : KeyId) {which : Stages → Option TimerId}
    (hwhich : which = Stages.retire ∨ which = Stages.reap) :
    (memory.fireStage keyId which).Staged awaiting := by
  rcases fireStage_cases memory keyId hwhich with
    ⟨stages, timer, -, -, -, hfire⟩ | ⟨hfire, hnone⟩ | ⟨hfire, -⟩
  · rw [hfire]
    exact hstaged.fire timer
  · rw [hfire]
    exact hstaged.eraseStages (not_reapable_of_upgradeTimer htimed hnone)
  · rw [hfire]
    exact hstaged

/-- What was reaped through its stages cannot be so again. -/
theorem not_reapable_fireStage (htimed : memory.Timed []) (keyId : KeyId) :
    ¬(memory.fireStage keyId Stages.reap).Reapable keyId := by
  rcases fireStage_cases memory keyId (.inr rfl) with
    ⟨stages, timer, hlookup, hreap, -, hfire⟩ | ⟨hfire, hnone⟩ | ⟨hfire, hnone⟩
  · rw [hfire]
    rintro ⟨found, other, callback, hfound, hother, hpend⟩
    rw [leases_fire, hlookup] at hfound
    cases hfound
    cases hreap.symm.trans hother
    exact (pending_fire.mp hpend).2 rfl
  · rw [hfire]
    rintro ⟨found, other, callback, hfound, -⟩
    rw [lookup_eraseStages, if_pos rfl] at hfound
    cases hfound
  · rw [hfire]
    exact not_reapable_of_upgradeTimer htimed hnone

theorem Staged.endKey (hstaged : memory.Staged awaiting) (hkept : memory.Kept)
    (keyId : KeyId) : (memory.endKey keyId).Staged awaiting := by
  have hretired := hkept.fireStage keyId Stages.retire
  exact ((hstaged.fireStage hkept.timed keyId (.inl rfl)).fireStage
    hretired.timed keyId (.inr rfl)).eraseStages
      (not_reapable_fireStage hretired.timed keyId)

theorem Staged.endKeys (hstaged : memory.Staged awaiting) (hkept : memory.Kept)
    (keyIds : List KeyId) :
    (keyIds.foldl AuthMemory.endKey memory).Staged awaiting := by
  induction keyIds generalizing memory with
  | nil => exact hstaged
  | cons keyId keyIds ih =>
      exact ih (hstaged.endKey hkept keyId) (hkept.endKey keyId)

/-! ## Commands on keys -/

theorem leaseOf_allocateLease {lease : AuthLease} {id : LeaseId}
    (howner : memory.LeaseOf id keyId) :
    (memory.allocateLease lease).1.LeaseOf id keyId := by
  obtain ⟨found, hfound, hkey⟩ := Option.map_eq_some_iff.mp howner
  have hlt := (List.getElem?_eq_some_iff.mp hfound).1
  rw [LeaseOf, lease?, AuthMemory.allocateLease, List.getElem?_append_left hlt]
  exact howner

theorem leaseOf_new (memory : AuthMemory) (keyId : KeyId) (expiresAt : ℕ) :
    (memory.allocateLease (.new keyId expiresAt)).1.LeaseOf
      memory.leaseHeap.length keyId := by
  rw [LeaseOf, lease?, AuthMemory.allocateLease, List.getElem?_append_right le_rfl,
    Nat.sub_self]
  rfl

theorem Staged.allocateLease (hstaged : memory.Staged awaiting)
    (lease : AuthLease) : (memory.allocateLease lease).1.Staged awaiting :=
  hstaged.congr rfl (fun _ slot hslot => ⟨slot, hslot, rfl, rfl, id⟩) rfl rfl
    fun _ _ => leaseOf_allocateLease

/-- A row of a key whose stages are set next. -/
theorem Staged.putRow (hstaged : memory.Staged awaiting) {index : ℕ}
    {change : SlotHot → SlotHot}
    (hkey : ∀ slot, memory.slot? index = some slot →
      rowKeyId (change slot) index = keyId)
    (hlease : ∀ slot lease, (change slot).lease = some lease →
      memory.LeaseOf lease keyId) :
    (memory.updateSlot index change).Staged (keyId :: awaiting) := by
  have hrow : ∀ other slot, (memory.updateSlot index change).slot? other =
      some slot → rowKeyId slot other = keyId ∧
        (∀ lease, slot.lease = some lease → memory.LeaseOf lease keyId) ∨
          memory.slot? other = some slot := by
    intro other slot hslot
    rw [slot?_updateSlot] at hslot
    obtain ⟨before, hbefore, rfl⟩ := Option.map_eq_some_iff.mp hslot
    split
    · rename_i hother
      subst hother
      exact .inl ⟨hkey before hbefore, hlease before⟩
    · exact .inr hbefore
  refine ⟨(framed_updateSlot index change).length.trans_le hstaged.size,
    hstaged.bounded, hstaged.retires, hstaged.reaps, hstaged.owners, ?_, ?_⟩
  · intro other slot lease hslot hfound
    rcases hrow other slot hslot with ⟨hnew, howner⟩ | hbefore
    · rw [hnew]
      exact howner lease hfound
    · exact hstaged.leased other slot lease hbefore hfound
  · intro other slot hslot hused
    rcases hrow other slot hslot with ⟨hnew, -⟩ | hbefore
    · rw [hnew]
      exact .inl List.mem_cons_self
    · exact (hstaged.staged other slot hbefore hused).imp_left
        (List.mem_cons_of_mem _)

theorem Staged.publishIssue (hstaged : memory.Staged awaiting)
    (entry : PersistedEntry) :
    (memory.publishIssue entry).Staged awaiting := by
  have hput : (((memory.allocateLease (.new entry.keyId entry.expiresAt)).1.updateSlot
      entry.keyId.slot.asIndex fun _ => ⟨entry.keyId.generation, .active,
        entry.expiresAt, some memory.leaseHeap.length⟩).Staged
          (entry.keyId :: awaiting)) := by
    apply (hstaged.allocateLease (.new entry.keyId entry.expiresAt)).putRow
    · exact fun _ _ => rowKeyId_of_generation rfl
    · rintro _ lease heq
      cases heq
      exact leaseOf_new memory entry.keyId entry.expiresAt
  apply Staged.watch
  · exact hput.congr rfl (fun _ slot hslot => ⟨slot, hslot, rfl, rfl, id⟩) rfl rfl
      fun _ _ hlease => hlease
  · exact leaseOf_new memory entry.keyId entry.expiresAt

theorem Staged.renewLease (hstaged : memory.Staged awaiting) (keyId : KeyId)
    (expiresAt : ℕ) : (memory.renewLease keyId expiresAt).Staged awaiting := by
  rw [AuthMemory.renewLease]
  split
  · exact hstaged
  · split
    · exact (hstaged.scheduleAt _ _).scheduleAt _ _
    · exact hstaged

theorem Staged.renewRow (hstaged : memory.Staged awaiting)
    (checks : List (AuthContext × ℕ)) {keyId : KeyId} {slot : SlotHot}
    (hslot : memory.slot? keyId.slot.asIndex = some slot)
    (hholds : slot.holds keyId = true) (expiresAt : ℕ) :
    (memory.renewRow checks keyId slot expiresAt).Staged awaiting := by
  have hmoved : (memory.updateSlot keyId.slot.asIndex
      ({ · with expiresAt := expiresAt })).Staged awaiting := by
    refine hstaged.updateSlot ?_ ?_ ?_
    · exact fun _ => rfl
    · exact fun _ => rfl
    · exact fun _ _ hused => hused
  have hrow : (memory.updateSlot keyId.slot.asIndex
      ({ · with expiresAt := expiresAt })).slot? keyId.slot.asIndex =
        some { slot with expiresAt := expiresAt } := by
    rw [slot?_updateSlot, hslot, Option.map_some, if_pos rfl]
  rw [AuthMemory.renewRow]
  simp only
  generalize memory.updateSlot keyId.slot.asIndex
    ({ · with expiresAt := expiresAt }) = moved at hmoved hrow ⊢
  split
  · apply Staged.renewLease
    refine (hmoved.aside (aside_foldl (fun memory (check : AuthContext × ℕ) =>
      aside_ensureActive check.1 check.2) checks _)).aside ?_
    exact aside_setLeaseExpiry _ expiresAt
  · apply Staged.watch
    · refine (hmoved.allocateLease (.new keyId expiresAt)).putRow
        (fun found hfound => ?_) fun _ lease heq => ?_
      · cases hrow.symm.trans hfound
        exact rowKeyId_of_generation (SlotHot.holds_iff.mp hholds).1
      · cases heq
        exact leaseOf_new moved keyId expiresAt
    · exact leaseOf_new moved keyId expiresAt

theorem Staged.updateHigh (hstaged : memory.Staged awaiting)
    (entries : List PersistedEntry) :
    (memory.updateInner ({ · with highSlotEntries := entries })).Staged awaiting :=
  hstaged.congr rfl (fun _ slot hslot => ⟨slot, hslot, rfl, rfl, id⟩) rfl rfl
    fun _ _ hlease => hlease

theorem Staged.publishRenew (hstaged : memory.Staged awaiting)
    {checks : List (AuthContext × ℕ)} {expiresAt : ℕ} {renewed : AuthMemory}
    (hpublish : memory.publishRenew checks keyId expiresAt = .ok renewed) :
    renewed.Staged awaiting := by
  rcases publishRenew_eq_ok hpublish with
    ⟨slot, hslot, hholds, -, rfl⟩ | ⟨entries, -, -, rfl⟩
  · exact hstaged.renewRow checks hslot hholds expiresAt
  · exact hstaged.updateHigh entries

theorem Staged.revokeRow (hstaged : memory.Staged awaiting)
    (hkept : memory.Kept) {slot : SlotHot}
    (hslot : memory.slot? keyId.slot.asIndex = some slot)
    (hholds : slot.holds keyId = true) :
    (memory.revokeRow keyId slot).Staged awaiting := by
  have hrevoked : (memory.updateSlot keyId.slot.asIndex
      ({ · with state := .revoked })).Staged awaiting := by
    refine hstaged.updateSlot ?_ ?_ ?_
    · exact fun _ => rfl
    · exact fun _ => rfl
    · intro found hfound _
      cases hslot.symm.trans hfound
      exact (SlotHot.holds_iff.mp hholds).2
  have htimed : (memory.updateSlot keyId.slot.asIndex
      ({ · with state := .revoked })).Timed [] := hkept.timed.congr rfl rfl rfl
  rw [AuthMemory.revokeRow]
  split
  · refine (hrevoked.aside (aside_recordCancel _ _)).fireStage ?_ keyId (.inl rfl)
    exact htimed.congr rfl rfl rfl
  · exact hrevoked.fireStage htimed keyId (.inl rfl)

theorem Staged.publishRevoke (hstaged : memory.Staged awaiting)
    (hkept : memory.Kept) {now : ℕ} {revoked : AuthMemory}
    (hpublish : memory.publishRevoke keyId now = .ok revoked) :
    revoked.Staged awaiting := by
  rcases publishRevoke_eq_ok hpublish with
    ⟨slot, hslot, hholds, rfl⟩ | ⟨entries, -, -, rfl⟩
  · exact hstaged.revokeRow hkept hslot hholds
  · exact (hstaged.updateHigh entries).fireStage (hkept.timed.congr rfl rfl rfl)
      keyId (.inl rfl)

/-! ## The schedule -/

/-- A schedule that is dropped frees every row. -/
theorem Staged.dropSchedule (hstaged : memory.Staged []) (hkept : memory.Kept)
    {now : ℕ} (hnow : now ≤ u64Max) : (memory.dropSchedule now).Staged [] := by
  have hnone := (hkept.timed.dropSchedule hnow).2.1
  have howned := hkept.owned.dropSchedule now
  have hunstaged : (memory.updateLeases fun _ => ⟨newWheel, now, ∅⟩).Staged
      (memory.inner.slots.zipIdx.map fun row => rowKeyId row.1 row.2) := by
    constructor
    · exact hstaged.size
    · intro _ _ _ hlookup
      cases hlookup
    · intro _ _ _ _ hlookup
      cases hlookup
    · intro _ _ _ _ hlookup
      cases hlookup
    · exact hstaged.owners
    · exact hstaged.leased
    · intro index slot hslot _
      left
      exact List.mem_map.mpr ⟨(slot, index),
        List.mem_zipIdx_iff_getElem?.mpr hslot, rfl⟩
  have hfired := hunstaged.fires (lastReleased [] memory.leases.wheel.timers)
  refine { hfired with staged := fun index slot hslot hused => ?_ }
  rcases howned.reaped index slot hslot hused with
    ⟨timer, lease, hpending⟩ | ⟨lease, hpromised⟩
  · exact absurd hpending (hnone timer _)
  · exact absurd hpromised List.not_mem_nil

theorem Staged.tickLeases (hstaged : memory.Staged []) (hkept : memory.Kept)
    {now : ℕ} (hnow : now ≤ u64Max) : (memory.tickLeases now).Staged [] := by
  rw [AuthMemory.tickLeases]
  split
  · exact hstaged.dropSchedule hkept hnow
  · exact hstaged.tickSeconds

theorem Staged.wipe (hstaged : memory.Staged []) (hkept : memory.Kept) {now : ℕ}
    (hnow : now ≤ u64Max) : (memory.wipe now).Staged [] :=
  (hstaged.aside aside_cancelAllTemporaryLeases).dropSchedule
    (hkept.quiet quiet_cancelAllTemporaryLeases) hnow

theorem Staged.finishReset (hstaged : memory.Staged []) (hkept : memory.Kept)
    (newInstanceId : InstanceId) (audit : AuditRecord) {now : ℕ}
    (hnow : now ≤ u64Max) :
    (memory.finishReset newInstanceId audit now).Staged [] := by
  rw [AuthMemory.finishReset]
  have hremembered : Aside memory
      (memory.pushAuditRecord audit).rememberPreviousRoot :=
    (aside_pushAuditRecord audit).trans aside_rememberPreviousRoot
  have hwiped := (hstaged.aside hremembered).wipe
    (hkept.quiet hremembered.toQuiet) hnow
  exact hwiped.congr rfl (fun _ slot hslot => ⟨slot, hslot, rfl, rfl, id⟩) rfl rfl
    fun _ _ hlease => hlease

theorem Staged.finishRotation (hstaged : memory.Staged []) (hkept : memory.Kept)
    (newKey : AesKeyType) (audit : AuditRecord) {now : ℕ} (hnow : now ≤ u64Max) :
    (memory.finishRotation newKey audit now).Staged [] := by
  rw [AuthMemory.finishRotation]
  have hremembered : Aside memory
      (memory.pushAuditRecord audit).rememberPreviousRoot :=
    (aside_pushAuditRecord audit).trans aside_rememberPreviousRoot
  have hwiped := (hstaged.aside hremembered).wipe
    (hkept.quiet hremembered.toQuiet) hnow
  simp only
  generalize (memory.pushAuditRecord audit).rememberPreviousRoot.wipe now = wiped
    at hwiped ⊢
  have hallocated := hwiped.allocateLease (.new adminKeyId u64Max)
  refine Staged.aside ?_ (aside_recordCancel _ _)
  exact hallocated.congr rfl (fun _ slot hslot => ⟨slot, hslot, rfl, rfl, id⟩) rfl
    rfl fun _ _ hlease => hlease

end AuthMemory

/-! ## Commands and ticks -/

variable {crypto : AuthCrypto} {config : AuthConfig} {env : Surroundings}
  {memory base published last : AuthMemory} {dir dir' : StateDir}
  {command : AuthCommand} {record : WalRecord}
  {result : Except AuthFailure AuthResponse} {stop : Interruption}

theorem Appends.staged_base
    (happends : Appends crypto config env memory command base record result published)
    (hstaged : memory.Staged []) : base.Staged [] := by
  cases happends with
  | claim hpruned =>
      rw [hpruned]
      exact hstaged.aside (AuthMemory.aside_pruneExpiredAdminReplays _)
  | _ => exact hstaged

theorem Appends.staged
    (happends : Appends crypto config env memory command base record result published)
    (hkept : memory.Kept) (hstaged : memory.Staged []) : published.Staged [] := by
  have hpushed : ∀ audit, (memory.pushAuditRecord audit).Staged [] :=
    fun audit => hstaged.aside (AuthMemory.aside_pushAuditRecord audit)
  have hchecked : ∀ audit, (env.checks.beforeInstall.foldl
      (AuthMemory.check crypto) (memory.pushAuditRecord audit)).Staged [] :=
    fun audit => (hpushed audit).aside
      (AuthMemory.aside_foldl (fun _ => AuthMemory.aside_check crypto) _ _)
  cases happends with
  | claim hpruned =>
      rw [hpruned]
      exact (hstaged.aside (AuthMemory.aside_pruneExpiredAdminReplays _)).aside
        (AuthMemory.aside_admitMutation _)
  | issue hplan haudit hpublished =>
      rw [hpublished]
      exact (hpushed _).publishIssue _
  | «show» hshown haudit => exact hpushed _
  | renew hplan haudit hbetween hpublish =>
      exact (hbetween ▸ hchecked _).publishRenew hpublish
  | renewLost hplan haudit hbetween hpublish =>
      rw [hbetween]
      exact hchecked _
  | revoke hplan haudit hbefore hpublish =>
      rw [hbefore] at hpublish
      exact (hpushed _).publishRevoke
        (hkept.quiet (AuthMemory.quiet_pushAuditRecord _)) hpublish
  | revokeLost hplan haudit hbefore hpublish =>
      rw [hbefore]
      exact hpushed _
  | setLegacyProtocol hopen haudit =>
      exact (hpushed _).aside (AuthMemory.aside_setLegacyProtocol _)
  | audit haudit => exact hpushed _

theorem AppendCut.staged (hcut : AppendCut base dir record stop last dir')
    (hstaged : base.Staged []) : last.Staged [] := by
  cases hcut with
  | retryable => exact hstaged
  | uncertain => exact hstaged.aside AuthMemory.aside_failClosed
  | stopped => exact hstaged

theorem CompactCut.staged {snapshot : PersistedSnapshot}
    (hcut : CompactCut base dir snapshot stop last dir')
    (hstaged : base.Staged []) : last.Staged [] := by
  cases hcut with
  | failed => exact hstaged.aside AuthMemory.aside_failClosed
  | stopped => exact hstaged

theorem ReplaceCut.staged {writes : List (StateDir → StateDir)}
    {installed : StateDir → Prop} {remove : StateDir → StateDir}
    (hcut : ReplaceCut base dir writes installed remove stop last dir')
    (hstaged : base.Staged []) : last.Staged [] := by
  cases hcut with
  | failed => exact hstaged.aside AuthMemory.aside_failClosed
  | stopped => exact hstaged
  | removed => exact hstaged

/-- A command keeps the stages in order. -/
theorem CommandMove.staged {ended : Except Interruption AuthResponse}
    (hmove : CommandMove crypto config env memory dir command ended last dir')
    (hkept : memory.Kept) (hstaged : memory.Staged []) : last.Staged [] := by
  have hbump : memory.bumpRootEpoch.Staged [] :=
    hstaged.aside AuthMemory.aside_bumpRootEpoch
  have hkeptBump := hkept.quiet AuthMemory.quiet_bumpRootEpoch
  have hgc : (memory.collectGarbage (env.clock 0)).1.Staged [] :=
    hstaged.endKeys hkept _
  cases hmove with
  | refused => exact hstaged
  | claimRefused => exact hstaged.aside (AuthMemory.aside_pruneExpiredAdminReplays _)
  | listed => exact hstaged
  | status => exact hstaged
  | appended happends => exact happends.staged hkept hstaged
  | appendCut happends hcut => exact hcut.staged (happends.staged_base hstaged)
  | collected hopen hcollected =>
      rw [hcollected] at hgc
      exact hgc.aside (AuthMemory.aside_pushAuditRecord _)
  | collectCut hopen hcollected hcut =>
      rw [hcollected] at hgc
      exact hcut.staged hgc
  | reset hbumped =>
      rw [hbumped]
      exact hbump.finishReset hkeptBump _ _ (u64_le _)
  | resetCut hbumped hcut =>
      rw [hbumped] at hcut
      exact hcut.staged hbump
  | rotated hnew hbumped =>
      rw [hbumped]
      exact (hbump.finishRotation hkeptBump _ _ (u64_le _)).aside
        AuthMemory.aside_forgetReplays
  | rotateCut hnew hbumped hcut =>
      rw [hbumped] at hcut
      exact hcut.staged hbump

/-- A tick keeps the stages in order. -/
theorem TickMove.staged {now : Seconds} {ended : Except Interruption Unit}
    (hmove : TickMove now memory dir ended last dir') (hkept : memory.Kept)
    (hstaged : memory.Staged []) : last.Staged [] := by
  have hticked : ((memory.tickLeases now).pruneExpiredAdminReplays now).Staged [] :=
    (hstaged.tickLeases hkept (u64_le now)).aside
      (AuthMemory.aside_pruneExpiredAdminReplays _)
  cases hmove with
  | ticked hpruned =>
      rw [hpruned]
      exact hticked
  | compacted hpruned hopen =>
      rw [hpruned]
      exact hticked.aside (AuthMemory.aside_setLastSnapshotAt _)
  | compactCut hpruned hopen hcut =>
      rw [hpruned] at hcut
      exact hcut.staged hticked

/-! ## Starts -/

/-- The leases of the restored rows belong to their keys. -/
def RestoredTable.Leased (table : RestoredTable) : Prop :=
  ∀ (index : ℕ) (slot : SlotHot) (lease : LeaseId),
    table.slots[index]? = some slot → slot.lease = some lease →
      (table.leaseHeap[lease]?).map (·.keyId) =
        some (AuthMemory.rowKeyId slot index)

theorem RestoredTable.Leased.restoreEntry {table : RestoredTable}
    (hleased : table.Leased) (now : ℕ) (entry : PersistedEntry) :
    (restoreEntry now table entry).Leased := by
  have hgrown : ∀ (lease : LeaseId) (keyId : KeyId) (more : List AuthLease),
      (table.leaseHeap[lease]?).map (·.keyId) = some keyId →
        ((table.leaseHeap ++ more)[lease]?).map (·.keyId) = some keyId := by
    intro lease keyId more howner
    obtain ⟨found, hfound, -⟩ := Option.map_eq_some_iff.mp howner
    rw [List.getElem?_append_left (List.getElem?_eq_some_iff.mp hfound).1]
    exact howner
  rw [Auth.restoreEntry]
  cases hslot : table.slots[entry.keyId.slot.asIndex]? with
  | none => exact hleased
  | some slot =>
      simp only
      split
      · exact hleased
      rename_i hgeneration
      rw [not_not] at hgeneration
      intro index found lease hfound hlease
      rw [List.getElem?_set] at hfound
      split at hfound
      · rename_i hindex
        subst hindex
        rw [if_pos (List.getElem?_eq_some_iff.mp hslot).1] at hfound
        cases hfound
        refine (?_ : Option.map _ _ = some entry.keyId).trans
          (congrArg some (AuthMemory.rowKeyId_of_generation hgeneration).symm)
        simp only at hlease
        split at hlease
        · rename_i hactive
          cases hlease
          simp only [hactive, if_true]
          rw [List.getElem?_append_right le_rfl, Nat.sub_self]
          rfl
        · refine hgrown _ _ _ ?_
          have hold := hleased _ slot lease hslot hlease
          rwa [AuthMemory.rowKeyId_of_generation hgeneration] at hold
      · exact hgrown _ _ _ (hleased index found lease hfound hlease)

theorem leased_restoredTable (config : AuthConfig)
    (loaded : Option PersistedSnapshot) (now : ℕ) :
    (restoredTable config loaded now).Leased := by
  have hfold : ∀ (entries : List PersistedEntry) (table : RestoredTable),
      table.Leased → (entries.foldl (restoreEntry now) table).Leased := by
    intro entries
    induction entries with
    | nil => exact fun _ hleased => hleased
    | cons entry entries ih =>
        exact fun table hleased => ih _ (hleased.restoreEntry now entry)
  apply hfold
  intro index slot lease hslot hlease
  simp only [emptyTable, List.getElem?_map] at hslot
  obtain ⟨_, -, rfl⟩ := Option.map_eq_some_iff.mp hslot
  cases hlease

namespace AuthMemory

/-- The stages that a restart rebuilds. -/
theorem Staged.watchAll {rows : List (KeyId × LeaseId × ℕ)} {later : List KeyId}
    {before : AuthMemory} (hbefore : before.Staged (rows.map Prod.fst ++ later))
    (howners : ∀ row ∈ rows, before.LeaseOf row.2.1 row.1) :
    (rows.foldl (fun memory (keyId, lease, expiresAt) =>
      memory.watch keyId lease expiresAt) before).Staged later := by
  induction rows generalizing before with
  | nil => exact hbefore
  | cons row rows ih =>
      have hwatch := hbefore.watch (howners row List.mem_cons_self) row.2.2
      refine ih hwatch fun other hother => ?_
      exact leaseOf_watch.mpr (howners other (List.mem_cons_of_mem _ hother))

theorem staged_restoreLeases {memory : AuthMemory}
    (hstaged : memory.Staged
      (memory.liveRows.map Prod.fst ++ memory.deadKeys)) (now : ℕ) :
    (memory.restoreLeases now).Staged [] := by
  have hreaped : ∀ (keyIds : List KeyId) (before : AuthMemory),
      before.Staged keyIds → (keyIds.foldl (fun memory keyId =>
        memory.scheduleReap keyId (memory.reapDeadline keyId now))
          before).Staged [] := by
    intro keyIds
    induction keyIds with
    | nil => exact fun _ hbefore => hbefore
    | cons keyId keyIds ih =>
        exact fun before hbefore => ih _ (hbefore.scheduleReap _)
  refine hreaped _ _ (hstaged.watchAll fun row hrow => ?_)
  obtain ⟨⟨slot, index⟩, hslot, hmapped⟩ := List.mem_filterMap.mp hrow
  simp only at hmapped
  split at hmapped
  · obtain ⟨lease, hlease, rfl⟩ := Option.map_eq_some_iff.mp hmapped
    exact hstaged.leased index slot lease
      (List.mem_zipIdx_iff_getElem?.mp hslot) hlease
  · cases hmapped

end AuthMemory

theorem staged_restored (config : AuthConfig) (adminKey : AesKeyType)
    (instanceId : InstanceId) {loaded : Option PersistedSnapshot}
    (hsound : ∀ state, loaded = some state → state.Sound) (safeMode : Bool)
    (now lastSnapshotAt : ℕ) {memory : AuthMemory}
    (hmemory : memory = restoredMemory config adminKey instanceId loaded safeMode now
      lastSnapshotAt) :
    memory.Staged (memory.liveRows.map Prod.fst ++ memory.deadKeys) := by
  have hfilling := filling_restored config hsound now
  have hleased := leased_restoredTable config loaded now
  generalize htable : restoredTable config loaded now = table at hfilling hleased
  have hslots : memory.inner.slots = table.slots := by rw [hmemory, ← htable]; rfl
  have hleases : memory.leaseHeap = table.leaseHeap := by rw [hmemory, ← htable]; rfl
  have hstages : memory.leases.stages = ∅ := by rw [hmemory]; rfl
  have htimers : memory.timerHeap = [] := by rw [hmemory]; rfl
  have hrow : ∀ index, memory.slot? index = table.slots[index]? := by
    intro index
    rw [AuthMemory.slot?, hslots]
  have hnone : ∀ (keyId : KeyId) (stages : Stages),
      memory.leases.stages.lookup keyId ≠ some stages := by
    intro keyId stages hfound
    rw [hstages] at hfound
    cases hfound
  refine ⟨?_, ?_, ?_, ?_, ?_, ?_, ?_⟩
  · rw [hslots, hfilling.length]
    exact config.keys_le
  · exact fun keyId stages _ hfound => absurd hfound (hnone keyId stages)
  · exact fun keyId stages _ _ hfound => absurd hfound (hnone keyId stages)
  · exact fun keyId stages _ _ hfound => absurd hfound (hnone keyId stages)
  · intro timer keyId lease hpending
    rw [AuthMemory.Pending, htimers] at hpending
    cases hpending
  · intro index slot lease hslot hlease
    rw [AuthMemory.LeaseOf, AuthMemory.lease?, hleases]
    rw [hrow] at hslot
    exact hleased index slot lease hslot hlease
  · intro index slot hslot hused
    refine .inl (List.mem_append.mpr ?_)
    have hfound := hslot
    rw [hrow] at hfound
    cases hstate : slot.state with
    | free => exact absurd hstate hused
    | active =>
        obtain ⟨lease, hlease⟩ :=
          Option.isSome_iff_exists.mp (hfilling.live index slot hfound hstate)
        exact .inl (List.mem_map.mpr
          ⟨_, AuthMemory.mem_liveRows hslot hstate hlease, rfl⟩)
    | expired => exact .inr (AuthMemory.mem_deadKeys hslot (.inl hstate))
    | revoked => exact .inr (AuthMemory.mem_deadKeys hslot (.inr hstate))

theorem StartMove.staged {env : StartSurroundings} {started : Option AuthMemory}
    (hmove : StartMove crypto config env dir started dir') (hdir : dir.Sound)
    (hstarted : started = some memory) : memory.Staged [] := by
  cases hmove with
  | safeMode hwrites hkey hid =>
      cases hstarted
      refine AuthMemory.staged_restoreLeases (staged_restored config _ _ ?_ true
        _ _ rfl) _
      exact fun _ hnone => nomatch hnone
  | loaded hwrites hkey hid hload hnormal hfinal =>
      have hmid := hdir.startWrites hwrites
      have hsound := sound_normalizeTombstoneTimes (sound_of_load hmid hload) hnormal
      cases hstarted
      refine AuthMemory.staged_restoreLeases (staged_restored config _ _ ?_ false
        _ _ rfl) _
      rintro state hstate
      cases hstate
      exact hsound
  | cut => cases hstarted
  | normalizeCut => cases hstarted

/-! ## Histories -/

/-- In every history the stages of the running server are in order. -/
theorem staged_of_reachable {history : AuthHistory}
    (hreachable : (authSystem crypto).Reachable history) {server : AuthServer}
    (hserver : history.server = some server) : server.memory.Staged [] := by
  have hall : history.Coherent ∧ ∀ server, history.server = some server →
      server.memory.Staged [] := by
    refine hreachable.invariant (motive := fun history => history.Coherent ∧
      ∀ server, history.server = some server → server.memory.Staged []) ?_ ?_
    · rintro history rfl
      exact ⟨⟨.empty, nofun⟩, nofun⟩
    · rintro history event next ⟨hcoherent, hstaged⟩ hstep
      refine ⟨hcoherent.step hstep, fun server hserver => ?_⟩
      cases step_moves hstep with
      | started _ hmove =>
          cases hserver
          exact hmove.staged hcoherent.dir rfl
      | startCut _ hmove => cases hserver
      | answered hbefore hmove =>
          cases hserver
          exact hmove.staged (hcoherent.server _ hbefore) (hstaged _ hbefore)
      | commandStopped => cases hserver
      | ticked hbefore hmove =>
          cases hserver
          exact hmove.staged (hcoherent.server _ hbefore) (hstaged _ hbefore)
      | tickStopped => cases hserver
      | authenticate hbefore =>
          cases hserver
          exact (hstaged _ hbefore).aside
            (AuthMemory.aside_authenticatePresented crypto _ _ _)
      | check hbefore =>
          cases hserver
          exact (hstaged _ hbefore).aside (AuthMemory.aside_check crypto _)
      | stop => cases hserver
  exact hall.2 server hserver

end PbMapper.Auth

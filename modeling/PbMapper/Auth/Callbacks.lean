import PbMapper.Auth.Leases
import PbMapper.Auth.Snapshot

/-!
# What callbacks do

The two callbacks row by row, and what firing timers leaves as it was.
-/

namespace PbMapper.Auth

/-! ## Rows and their keys -/

theorem SlotIndex.asIndex_fromIndex {index : ℕ} (hindex : index < 2 ^ 32) :
    (SlotIndex.fromIndex index).asIndex = index :=
  Nat.mod_eq_of_lt hindex

@[simp]
theorem SlotIndex.fromIndex_asIndex (slot : SlotIndex) :
    SlotIndex.fromIndex slot.asIndex = slot :=
  SlotIndex.ext (SlotIndex.asIndex_fromIndex slot.lt)

theorem SlotHot.holds_iff {slot : SlotHot} {keyId : KeyId} :
    slot.holds keyId = true ↔
      slot.generation = keyId.generation ∧ slot.state ≠ .free := by
  simp [SlotHot.holds]

namespace AuthMemory

@[simp]
theorem generation_rowKeyId (slot : SlotHot) (index : ℕ) :
    (rowKeyId slot index).generation = slot.generation :=
  KeyId.generation_new _ _

theorem slot_rowKeyId (slot : SlotHot) {index : ℕ} (hindex : index < 2 ^ 32) :
    (rowKeyId slot index).slot.asIndex = index := by
  rw [rowKeyId, KeyId.slot_new]
  exact SlotIndex.asIndex_fromIndex hindex

/-- The key of the row a key id points at. -/
theorem rowKeyId_of_generation {slot : SlotHot} {keyId : KeyId}
    (hgeneration : slot.generation = keyId.generation) :
    rowKeyId slot keyId.slot.asIndex = keyId := by
  rw [rowKeyId, hgeneration, SlotIndex.fromIndex_asIndex,
    KeyId.new_generation_slot]

theorem holds_rowKeyId {slot : SlotHot} (index : ℕ) (hstate : slot.state ≠ .free) :
    slot.holds (rowKeyId slot index) = true :=
  SlotHot.holds_iff.mpr ⟨(generation_rowKeyId slot index).symm, hstate⟩

variable {memory : AuthMemory}

/-! ## Fields -/

@[simp]
theorem slot?_updateSlot (index other : ℕ) (change : SlotHot → SlotHot) :
    (memory.updateSlot index change).slot? other =
      (memory.slot? other).map fun slot =>
        if other = index then change slot else slot := by
  rw [slot?, updateSlot, updateInner, List.getElem?_modify]
  change Option.map _ (memory.slot? other) = _
  refine congrArg (Option.map · _) (funext fun slot => ?_)
  simp only [eq_comm]

theorem lease?_recordCancel (reason : CancelReason) (id other : LeaseId) :
    (recordCancel reason memory id).lease? other =
      (memory.lease? other).map fun lease =>
        if other = id then lease.recordCancel reason else lease := by
  rw [lease?, recordCancel, List.getElem?_modify]
  change Option.map _ (memory.lease? other) = _
  refine congrArg (Option.map · _) (funext fun lease => ?_)
  simp only [eq_comm]

@[simp]
theorem inner_recordCancel (reason : CancelReason) (id : LeaseId) :
    (recordCancel reason memory id).inner = memory.inner := rfl

theorem lookup_modifyCold (keyId other : KeyId)
    (change : ColdMetadata → ColdMetadata) :
    (memory.modifyCold keyId change).inner.cold.lookup other =
      (memory.inner.cold.lookup other).map fun cold =>
        if other = keyId then change cold else cold := by
  rw [modifyCold]
  cases hcold : memory.inner.cold.lookup keyId with
  | none =>
      by_cases hother : other = keyId
      · subst hother
        rw [hcold, Option.map_none]
      · simp [hother]
  | some cold =>
      simp only [setCold, updateInner, Table.lookup_insert]
      by_cases hother : other = keyId
      · subst hother
        rw [hcold, if_pos rfl, Option.map_some, if_pos rfl]
      · simp [hother]

/-! ## The frame of a callback -/

/-- Everything but the rows, their descriptions and the leases is the same. -/
structure Framed (memory memory' : AuthMemory) : Prop where
  timerHeap : memory'.timerHeap = memory.timerHeap
  leases : memory'.leases = memory.leases
  adminReplays : memory'.adminReplays = memory.adminReplays
  adminReplayOrder : memory'.adminReplayOrder = memory.adminReplayOrder
  lastSnapshotAt : memory'.lastSnapshotAt = memory.lastSnapshotAt
  inner : { memory'.inner with
      slots := memory.inner.slots
      cold := memory.inner.cold
      highSlotEntries := memory.inner.highSlotEntries } = memory.inner
  length : memory'.inner.slots.length = memory.inner.slots.length

theorem Framed.refl (memory : AuthMemory) : Framed memory memory :=
  ⟨rfl, rfl, rfl, rfl, rfl, rfl, rfl⟩

theorem Framed.trans {memory memory' memory'' : AuthMemory}
    (hfirst : Framed memory memory') (hsecond : Framed memory' memory'') :
    Framed memory memory'' where
  timerHeap := hsecond.timerHeap.trans hfirst.timerHeap
  leases := hsecond.leases.trans hfirst.leases
  adminReplays := hsecond.adminReplays.trans hfirst.adminReplays
  adminReplayOrder := hsecond.adminReplayOrder.trans hfirst.adminReplayOrder
  lastSnapshotAt := hsecond.lastSnapshotAt.trans hfirst.lastSnapshotAt
  inner := by
    have heq := hfirst.inner
    rw [← hsecond.inner] at heq
    exact heq
  length := hsecond.length.trans hfirst.length

theorem framed_recordCancel (reason : CancelReason) (id : LeaseId) :
    Framed memory (recordCancel reason memory id) :=
  ⟨rfl, rfl, rfl, rfl, rfl, rfl, rfl⟩

theorem framed_updateSlot (index : ℕ) (change : SlotHot → SlotHot) :
    Framed memory (memory.updateSlot index change) :=
  ⟨rfl, rfl, rfl, rfl, rfl, rfl, List.length_modify ..⟩

theorem framed_modifyCold (keyId : KeyId) (change : ColdMetadata → ColdMetadata) :
    Framed memory (memory.modifyCold keyId change) := by
  rw [modifyCold]
  split
  · exact ⟨rfl, rfl, rfl, rfl, rfl, rfl, rfl⟩
  · exact .refl memory

theorem framed_eraseCold (keyId : KeyId) :
    Framed memory (memory.eraseCold keyId) :=
  ⟨rfl, rfl, rfl, rfl, rfl, rfl, rfl⟩

theorem framed_retire (keyId : KeyId) (lease : LeaseId) :
    Framed memory (memory.retire keyId lease) := by
  rw [retire]
  simp only
  split
  · exact framed_recordCancel .expired lease
  · split
    · exact framed_recordCancel .expired lease
    · exact ((framed_recordCancel .expired lease).trans
        (framed_updateSlot _ _)).trans (framed_modifyCold _ _)

theorem framed_reap (keyId : KeyId) : Framed memory (memory.reap keyId) := by
  rw [reap]
  split
  · split
    · exact (framed_updateSlot _ _).trans (framed_eraseCold _)
    · exact .refl memory
  · exact ⟨rfl, rfl, rfl, rfl, rfl, rfl, rfl⟩

theorem framed_runCallback (callback : TimerCallback) :
    Framed memory (memory.runCallback callback) := by
  cases callback with
  | retire keyId lease => exact framed_retire keyId lease
  | reap keyId lease => exact framed_reap keyId

theorem Framed.adminLease {memory' : AuthMemory}
    (hframed : Framed memory memory') :
    memory'.inner.adminLease = memory.inner.adminLease := by
  have hinner := congrArg AuthStateInner.adminLease hframed.inner
  exact hinner

/-! ## Callbacks, row by row -/

theorem slot?_retire (keyId : KeyId) (lease : LeaseId) (index : ℕ) :
    (memory.retire keyId lease).slot? index =
      (memory.slot? index).map fun slot =>
        if index = keyId.slot.asIndex ∧ slot.holds keyId = true ∧
            slot.state = .active then
          { slot with state := .expired }
        else slot := by
  have hcancel : ∀ index, (recordCancel .expired memory lease).slot? index =
      memory.slot? index := fun _ => rfl
  rw [retire]
  simp only [hcancel]
  cases hslot : memory.slot? keyId.slot.asIndex with
  | none =>
      rw [hcancel]
      by_cases hindex : index = keyId.slot.asIndex
      · simp [hindex, hslot]
      · simp [hindex]
  | some slot =>
      simp only
      split
      · rename_i hnot
        rw [hcancel]
        by_cases hindex : index = keyId.slot.asIndex
        · subst hindex
          simp only [Bool.or_eq_true, Bool.not_eq_eq_eq_not, Bool.not_true,
            bne_iff_ne] at hnot
          rw [hslot, Option.map_some, if_neg]
          rintro ⟨-, hholds, hactive⟩
          rcases hnot with hnot | hnot
          · rw [hholds] at hnot
            cases hnot
          · exact hnot hactive
        · simp [hindex]
      · rename_i hlive
        simp only [Bool.or_eq_true, Bool.not_eq_eq_eq_not, Bool.not_true,
          bne_iff_ne, not_or, Bool.not_eq_false, ne_eq, not_not] at hlive
        have hmodify : ((((recordCancel .expired memory lease).updateSlot
            keyId.slot.asIndex ({ · with state := .expired })).modifyCold keyId
              ({ · with tombstonedAt := slot.expiresAt }))).slot? index =
            ((recordCancel .expired memory lease).updateSlot
              keyId.slot.asIndex ({ · with state := .expired })).slot? index := by
          rw [modifyCold]
          split <;> rfl
        rw [hmodify, slot?_updateSlot, hcancel]
        by_cases hindex : index = keyId.slot.asIndex
        · subst hindex
          rw [hslot, Option.map_some, Option.map_some, if_pos rfl,
            if_pos ⟨rfl, hlive⟩]
        · simp [hindex]

theorem slot?_reap (keyId : KeyId) (index : ℕ) :
    (memory.reap keyId).slot? index =
      (memory.slot? index).map fun slot =>
        if index = keyId.slot.asIndex ∧ slot.holds keyId = true then slot.retire
        else slot := by
  rw [reap]
  cases hslot : memory.slot? keyId.slot.asIndex with
  | none =>
      change memory.slot? index = _
      by_cases hindex : index = keyId.slot.asIndex
      · simp [hindex, hslot]
      · simp [hindex]
  | some slot =>
      simp only
      by_cases hholds : slot.holds keyId = true
      · rw [if_pos hholds]
        change (memory.updateSlot keyId.slot.asIndex SlotHot.retire).slot? index = _
        rw [slot?_updateSlot]
        by_cases hindex : index = keyId.slot.asIndex
        · subst hindex
          rw [hslot, Option.map_some, Option.map_some, if_pos rfl,
            if_pos ⟨rfl, hholds⟩]
        · simp [hindex]
      · rw [if_neg hholds]
        by_cases hindex : index = keyId.slot.asIndex
        · subst hindex
          rw [hslot, Option.map_some, if_neg fun h => hholds h.2]
        · simp [hindex]

theorem lookup_cold_retire (keyId other : KeyId) (lease : LeaseId) :
    ((memory.retire keyId lease).inner.cold.lookup other).isSome =
      (memory.inner.cold.lookup other).isSome := by
  rw [retire]
  simp only
  split
  · rfl
  · split
    · rfl
    · rw [lookup_modifyCold, Option.isSome_map]
      rfl

theorem lookup_cold_retire_of_ne {keyId other : KeyId} (hne : other ≠ keyId)
    (lease : LeaseId) :
    (memory.retire keyId lease).inner.cold.lookup other =
      memory.inner.cold.lookup other := by
  rw [retire]
  simp only
  split
  · rfl
  · split
    · rfl
    · rw [lookup_modifyCold]
      simp only [if_neg hne, Option.map_id']
      rfl

/-- A reap forgets its key if the key holds its row or has none. -/
theorem lookup_cold_reap (keyId other : KeyId) :
    (memory.reap keyId).inner.cold.lookup other =
      if other = keyId ∧ (memory.slot? keyId.slot.asIndex).all (·.holds keyId) then
        none
      else memory.inner.cold.lookup other := by
  rw [reap]
  cases hslot : memory.slot? keyId.slot.asIndex with
  | none =>
      simp only [eraseCold, updateInner, Table.lookup_erase, Option.all_none,
        and_true]
  | some slot =>
      simp only [Option.all_some]
      by_cases hholds : slot.holds keyId = true
      · rw [if_pos hholds]
        simp only [eraseCold, updateSlot, updateInner, Table.lookup_erase, hholds,
          and_true]
      · rw [if_neg hholds, if_neg fun h => hholds h.2]

theorem lease?_retire (keyId : KeyId) (lease other : LeaseId) :
    (memory.retire keyId lease).lease? other =
      (memory.lease? other).map fun found =>
        if other = lease then found.recordCancel .expired else found := by
  rw [← lease?_recordCancel .expired lease other, retire]
  simp only
  split
  · rfl
  · split
    · rfl
    · rw [modifyCold]
      split <;> rfl

theorem lease?_reap (keyId : KeyId) (other : LeaseId) :
    (memory.reap keyId).lease? other = memory.lease? other := by
  rw [reap]
  split
  · split <;> rfl
  · rfl

theorem highSlotEntries_retire (keyId : KeyId) (lease : LeaseId) :
    (memory.retire keyId lease).inner.highSlotEntries =
      memory.inner.highSlotEntries := by
  rw [retire]
  simp only
  split
  · rfl
  · split
    · rfl
    · rw [modifyCold]
      split <;> rfl

/-- A reap forgets an entry above the table. -/
theorem highSlotEntries_reap (keyId : KeyId) :
    (memory.reap keyId).inner.highSlotEntries =
      if (memory.slot? keyId.slot.asIndex).isNone then
        memory.inner.highSlotEntries.filter (·.keyId ≠ keyId)
      else memory.inner.highSlotEntries := by
  rw [reap]
  cases memory.slot? keyId.slot.asIndex with
  | none => rfl
  | some slot =>
      simp only [Option.isNone_some, Bool.false_eq_true, if_false]
      split <;> rfl

/-! ## Firing -/

/-- A timer that has not run. -/
def Pending (memory : AuthMemory) (timer : TimerId) (callback : TimerCallback) :
    Prop :=
  memory.timerHeap[timer]? = some (some callback)

/-- The timer taken out of the heap. -/
def spend (memory : AuthMemory) (timer : TimerId) : AuthMemory :=
  { memory with timerHeap := memory.timerHeap.set timer none }

theorem pending_spend {timer other : TimerId} {callback : TimerCallback} :
    (memory.spend timer).Pending other callback ↔
      memory.Pending other callback ∧ other ≠ timer := by
  rw [Pending, Pending, spend, List.getElem?_set]
  by_cases heq : timer = other
  · subst heq
    simp only [if_true, ne_eq, not_true_eq_false, and_false, iff_false]
    split
    · exact fun h => Option.some_ne_none callback (Option.some.inj h).symm
    · exact Option.some_ne_none _ |>.symm
  · rw [if_neg heq]
    exact ⟨fun h => ⟨h, Ne.symm heq⟩, And.left⟩

/-- A timer fires its callback, or has run before. -/
theorem fire_cases (memory : AuthMemory) (timer : TimerId) :
    (∃ callback, memory.Pending timer callback ∧
        memory.fire timer = (memory.spend timer).runCallback callback) ∨
      (∀ callback, ¬memory.Pending timer callback) ∧ memory.fire timer = memory := by
  rw [fire]
  cases hfound : memory.timerHeap[timer]? with
  | none =>
      refine .inr ⟨fun callback hpending => ?_, rfl⟩
      rw [Pending, hfound] at hpending
      cases hpending
  | some found =>
      cases found with
      | none =>
          refine .inr ⟨fun callback hpending => ?_, rfl⟩
          rw [Pending, hfound] at hpending
          cases hpending
      | some callback => exact .inl ⟨callback, hfound, rfl⟩

theorem leases_fire (memory : AuthMemory) (timer : TimerId) :
    (memory.fire timer).leases = memory.leases := by
  rcases fire_cases memory timer with ⟨callback, -, hfire⟩ | ⟨-, hfire⟩
  · rw [hfire, (framed_runCallback callback).leases]
    rfl
  · rw [hfire]

theorem pending_fire {timer other : TimerId} {callback : TimerCallback} :
    (memory.fire timer).Pending other callback ↔
      memory.Pending other callback ∧ other ≠ timer := by
  rcases fire_cases memory timer with ⟨fired, -, hfire⟩ | ⟨hnone, hfire⟩
  · rw [hfire, Pending, (framed_runCallback fired).timerHeap]
    exact pending_spend
  · rw [hfire]
    refine ⟨fun hpending => ⟨hpending, ?_⟩, And.left⟩
    rintro rfl
    exact hnone callback hpending

theorem timerHeap_length_fire (memory : AuthMemory) (timer : TimerId) :
    (memory.fire timer).timerHeap.length = memory.timerHeap.length := by
  rcases fire_cases memory timer with ⟨callback, -, hfire⟩ | ⟨-, hfire⟩
  · rw [hfire, (framed_runCallback callback).timerHeap]
    exact List.length_set ..
  · rw [hfire]

theorem leases_fires (timers : List TimerId) (memory : AuthMemory) :
    (timers.foldl fire memory).leases = memory.leases := by
  induction timers generalizing memory with
  | nil => rfl
  | cons timer timers ih => rw [List.foldl_cons, ih, leases_fire]

theorem pending_fires {timers : List TimerId} {memory : AuthMemory}
    {timer : TimerId} {callback : TimerCallback} :
    (timers.foldl fire memory).Pending timer callback ↔
      memory.Pending timer callback ∧ timer ∉ timers := by
  induction timers generalizing memory with
  | nil => simp
  | cons fired timers ih =>
      rw [List.foldl_cons, ih, pending_fire, List.mem_cons, not_or, and_assoc]

/-- What firing timers leaves as it was. -/
structure Ran (memory memory' : AuthMemory) : Prop where
  leases : memory'.leases = memory.leases
  adminReplays : memory'.adminReplays = memory.adminReplays
  adminReplayOrder : memory'.adminReplayOrder = memory.adminReplayOrder
  lastSnapshotAt : memory'.lastSnapshotAt = memory.lastSnapshotAt
  inner : { memory'.inner with
      slots := memory.inner.slots
      cold := memory.inner.cold
      highSlotEntries := memory.inner.highSlotEntries } = memory.inner
  length : memory'.inner.slots.length = memory.inner.slots.length

theorem Ran.refl (memory : AuthMemory) : Ran memory memory :=
  ⟨rfl, rfl, rfl, rfl, rfl, rfl⟩

theorem Ran.trans {memory memory' memory'' : AuthMemory}
    (hfirst : Ran memory memory') (hsecond : Ran memory' memory'') :
    Ran memory memory'' where
  leases := hsecond.leases.trans hfirst.leases
  adminReplays := hsecond.adminReplays.trans hfirst.adminReplays
  adminReplayOrder := hsecond.adminReplayOrder.trans hfirst.adminReplayOrder
  lastSnapshotAt := hsecond.lastSnapshotAt.trans hfirst.lastSnapshotAt
  inner := by
    have heq := hfirst.inner
    rw [← hsecond.inner] at heq
    exact heq
  length := hsecond.length.trans hfirst.length

/-- A field of the shared state that no callback writes. -/
theorem Ran.field {memory memory' : AuthMemory} {Field : Type}
    (hran : Ran memory memory') (field : AuthStateInner → Field)
    (hfield : field { memory'.inner with
      slots := memory.inner.slots
      cold := memory.inner.cold
      highSlotEntries := memory.inner.highSlotEntries } = field memory'.inner) :
    field memory'.inner = field memory.inner :=
  hfield.symm.trans (congrArg field hran.inner)

theorem ran_fire (memory : AuthMemory) (timer : TimerId) :
    Ran memory (memory.fire timer) := by
  rcases fire_cases memory timer with ⟨callback, -, hfire⟩ | ⟨-, hfire⟩
  · rw [hfire]
    have hframed : Framed (memory.spend timer)
        ((memory.spend timer).runCallback callback) :=
      framed_runCallback callback
    exact ⟨hframed.leases, hframed.adminReplays, hframed.adminReplayOrder,
      hframed.lastSnapshotAt, hframed.inner, hframed.length⟩
  · rw [hfire]
    exact .refl memory

theorem ran_fires (timers : List TimerId) (memory : AuthMemory) :
    Ran memory (timers.foldl fire memory) := by
  induction timers generalizing memory with
  | nil => exact .refl memory
  | cons timer timers ih => exact (ran_fire memory timer).trans (ih _)

/-- What one callback keeps, firing any timers keeps. -/
theorem fires_preserve {motive : AuthMemory → Prop}
    (hfire : ∀ memory timer, motive memory → motive (memory.fire timer))
    (timers : List TimerId) {memory : AuthMemory} (hmemory : motive memory) :
    motive (timers.foldl fire memory) := by
  induction timers generalizing memory with
  | nil => exact hmemory
  | cons timer timers ih => exact ih (hfire memory timer hmemory)

end AuthMemory

end PbMapper.Auth

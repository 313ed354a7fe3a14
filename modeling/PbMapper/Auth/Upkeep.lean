import PbMapper.Auth.Callbacks

/-!
# Timers and what they own

Two invariants of the memory.  The wheel holds every timer that has not run, so
a timer runs at the latest when the wheel lets go of it.  And every row in use has
a timer that will free it, every lease that is not cancelled one that will cancel
it.
-/

namespace PbMapper.Auth

open MachineWord

namespace AuthMemory

/-! ## The wheel -/

/-- The wheel is sound and holds the timers that have not run, but for `loose`
ones, which have not been scheduled yet. -/
structure Timed (memory : AuthMemory) (loose : List TimerId) : Prop where
  wellFormed : memory.leases.wheel.WellFormed
  radix : memory.leases.wheel.radix = 64
  levels : memory.leases.wheel.levels.length = 5
  ticks_le : memory.leases.wheel.ticks ≤ memory.leases.now
  now_le : memory.leases.now ≤ u64Max
  held : ∀ timer callback, memory.Pending timer callback →
    timer ∈ memory.leases.wheel.timers ∨ timer ∈ loose

theorem newWheel_timed :
    newWheel.WellFormed ∧ newWheel.radix = 64 ∧ newWheel.levels.length = 5 ∧
      newWheel.ticks = 0 ∧ newWheel.routes = 0 :=
  ⟨TimingWheel.wellFormed_new (by decide) (by decide +kernel), rfl,
    by decide +kernel, rfl, TimingWheel.routes_new⟩

variable {memory : AuthMemory} {loose : List TimerId}

/-- Firing timers keeps the wheel as it is. -/
theorem Timed.fires (htimed : memory.Timed loose) (timers : List TimerId) :
    (timers.foldl fire memory).Timed loose := by
  have hleases := leases_fires timers memory
  refine ⟨?_, ?_, ?_, ?_, ?_, fun timer callback hpending => ?_⟩
  · rw [hleases]
    exact htimed.wellFormed
  · rw [hleases]
    exact htimed.radix
  · rw [hleases]
    exact htimed.levels
  · rw [hleases]
    exact htimed.ticks_le
  · rw [hleases]
    exact htimed.now_le
  · rw [hleases]
    exact htimed.held timer callback (pending_fires.mp hpending).1

theorem Timed.fire (htimed : memory.Timed loose) (timer : TimerId) :
    (memory.fire timer).Timed loose :=
  htimed.fires [timer]

/-- A change that leaves timers and schedule alone. -/
theorem Timed.congr {memory' : AuthMemory} (htimed : memory.Timed loose)
    (htimers : memory'.timerHeap = memory.timerHeap)
    (hwheel : memory'.leases.wheel = memory.leases.wheel)
    (hnow : memory'.leases.now = memory.leases.now) : memory'.Timed loose := by
  refine ⟨?_, ?_, ?_, ?_, ?_, fun timer callback hpending => ?_⟩
  · rw [hwheel]
    exact htimed.wellFormed
  · rw [hwheel]
    exact htimed.radix
  · rw [hwheel]
    exact htimed.levels
  · rw [hwheel, hnow]
    exact htimed.ticks_le
  · rw [hnow]
    exact htimed.now_le
  · rw [hwheel]
    rw [Pending, htimers] at hpending
    exact htimed.held timer callback hpending

theorem pending_allocateTimer {callback found : TimerCallback} {timer : TimerId} :
    (memory.allocateTimer callback).1.Pending timer found ↔
      memory.Pending timer found ∨
        timer = memory.timerHeap.length ∧ found = callback := by
  rw [Pending, Pending, allocateTimer, List.getElem?_append]
  split
  · rename_i hlt
    exact ⟨Or.inl, fun h => h.resolve_right fun h => absurd h.1 (Nat.ne_of_lt hlt)⟩
  · rename_i hge
    have hnone : memory.timerHeap[timer]? = none :=
      List.getElem?_eq_none (Nat.le_of_not_lt hge)
    rw [hnone]
    constructor
    · intro hfound
      obtain ⟨hindex, heq⟩ := List.getElem?_eq_some_iff.mp hfound
      have hzero : timer - memory.timerHeap.length = 0 :=
        Nat.lt_one_iff.mp hindex
      have hle : memory.timerHeap.length ≤ timer := Nat.le_of_not_lt hge
      refine .inr ⟨Nat.le_antisymm (Nat.sub_eq_zero_iff_le.mp hzero) hle, ?_⟩
      simp only [hzero, List.getElem_cons_zero, Option.some.injEq] at heq
      exact heq.symm
    · rintro (hnot | ⟨rfl, rfl⟩)
      · cases hnot
      · rw [Nat.sub_self]
        rfl

theorem Timed.allocateTimer (htimed : memory.Timed loose)
    (callback : TimerCallback) :
    (memory.allocateTimer callback).1.Timed
    (memory.timerHeap.length :: loose) where
  wellFormed := htimed.wellFormed
  radix := htimed.radix
  levels := htimed.levels
  ticks_le := htimed.ticks_le
  now_le := htimed.now_le
  held timer found hpending := by
    rcases pending_allocateTimer.mp hpending with hold | ⟨rfl, -⟩
    · exact (htimed.held timer found hold).imp_right (List.mem_cons_of_mem _)
    · exact .inr List.mem_cons_self

/-- Letting go of timers fires those the wheel does not hold. -/
theorem Timed.release {dropped : List TimerId}
    (htimed : memory.Timed (dropped ++ loose)) :
    (memory.release dropped).Timed loose := by
  have hfired := htimed.fires (lastReleased memory.leases.wheel.timers dropped)
  refine ⟨hfired.wellFormed, hfired.radix, hfired.levels, hfired.ticks_le,
    hfired.now_le, fun timer callback hpending => ?_⟩
  rcases hfired.held timer callback hpending with hwheel | hloose
  · exact .inl hwheel
  · rcases List.mem_append.mp hloose with hdropped | hloose
    · left
      rw [AuthMemory.release, leases_fires]
      by_contra hnot
      exact (pending_fires.mp hpending).2 (mem_lastReleased.mpr ⟨hdropped, hnot⟩)
    · exact .inr hloose

theorem scheduleAt_eq (memory : AuthMemory) (deadline : ℕ) (timer : TimerId) :
    memory.scheduleAt deadline timer =
      (memory.updateLeases ({ · with
        wheel := (memory.leases.wheel.schedule (deadline - memory.leases.now)
          timer).1 })).release
        (memory.leases.wheel.schedule (deadline - memory.leases.now) timer).2 :=
  rfl

theorem tickSecond_eq (memory : AuthMemory) :
    memory.tickSecond =
      (memory.updateLeases fun leases =>
        { leases with
          wheel := memory.leases.wheel.tick.1
          now := leases.now + 1 }).release memory.leases.wheel.tick.2 :=
  rfl

/-- A timer with a deadline is in the wheel, or has run at once. -/
theorem Timed.scheduleAt {timer : TimerId} {deadline : ℕ}
    (htimed : memory.Timed (timer :: loose)) (hdeadline : deadline ≤ u64Max) :
    (memory.scheduleAt deadline timer).Timed loose := by
  have hticks := htimed.ticks_le
  have hnow := htimed.now_le
  have hheld := htimed.held
  rw [scheduleAt_eq]
  by_cases hrange : 0 < deadline - memory.leases.now ∧
      deadline - memory.leases.now ≤ memory.leases.wheel.maxDelay
  · have hlevels : 0 < memory.leases.wheel.levels.length := by
      rw [htimed.levels]
      decide
    have hclock : memory.leases.wheel.ticks + (deadline - memory.leases.now) <
        2 ^ 64 := by
      have hmax : u64Max < 2 ^ 64 := by decide
      omega
    obtain ⟨hwheel, hshape, hdropped, hroutes⟩ :=
      htimed.wellFormed.scheduled timer hlevels hrange.1 hrange.2 hclock
    rw [hdropped]
    apply Timed.release
    refine ⟨hwheel, hshape.radix_eq.trans htimed.radix,
      hshape.length_eq.trans htimed.levels, hshape.ticks_eq.trans_le hticks, hnow,
      fun other callback hpending => ?_⟩
    have hmem : ∀ other, (other = timer ∨
        other ∈ memory.leases.wheel.timers) →
          other ∈ (memory.leases.wheel.schedule (deadline - memory.leases.now)
            timer).1.timers := by
      intro other hother
      rw [TimingWheel.mem_timers, hroutes]
      rcases hother with rfl | hother
      · exact ⟨_, Multiset.mem_cons_self _ _⟩
      · obtain ⟨due, hdue⟩ := TimingWheel.mem_timers.mp hother
        exact ⟨due, Multiset.mem_cons_of_mem hdue⟩
    rcases hheld other callback hpending with hin | hloose
    · exact .inl (hmem other (.inr hin))
    · rcases List.mem_cons.mp hloose with rfl | hloose
      · exact .inl (hmem other (.inl rfl))
      · exact .inr hloose
  · have hschedule : memory.leases.wheel.schedule
        (deadline - memory.leases.now) timer = (memory.leases.wheel, [timer]) := by
      rw [TimingWheel.schedule, if_pos (by omega)]
    rw [hschedule]
    exact Timed.release (htimed.congr rfl rfl rfl)

/-- A second of the clock. -/
theorem Timed.tickSecond (htimed : memory.Timed loose)
    (hnow : memory.leases.now < u64Max) : memory.tickSecond.Timed loose := by
  have hticks := htimed.ticks_le
  have hroom : memory.leases.wheel.ticks + 1 < 2 ^ 64 := by
    have hmax : u64Max < 2 ^ 64 := by decide
    omega
  obtain ⟨hwheel, hclock, hradix, hlength, hroutes⟩ :=
    htimed.wellFormed.ticked hroom
  rw [tickSecond_eq]
  apply Timed.release
  refine ⟨hwheel, hradix.trans htimed.radix, hlength.trans htimed.levels,
    hclock.trans_le (Nat.add_le_add_right hticks 1), hnow,
    fun timer callback hpending => ?_⟩
  rcases htimed.held timer callback hpending with hin | hloose
  · obtain ⟨due, hdue⟩ := TimingWheel.mem_timers.mp hin
    rw [← hroutes] at hdue
    rcases Multiset.mem_add.mp hdue with hdropped | hkept
    · obtain ⟨other, hother, heq⟩ := List.mem_map.mp hdropped
      obtain rfl : other = timer := congrArg Prod.snd heq
      exact .inr (List.mem_append_left _ hother)
    · exact .inl (TimingWheel.mem_timers.mpr ⟨due, hkept⟩)
  · exact .inr (List.mem_append_right _ hloose)

theorem now_tickSecond (memory : AuthMemory) :
    memory.tickSecond.leases.now = memory.leases.now + 1 := by
  rw [tickSecond_eq, AuthMemory.release, leases_fires]
  rfl

/-- A new schedule holds nothing, and every timer of the old one has run. -/
theorem Timed.dropSchedule {now : ℕ} (htimed : memory.Timed [])
    (hnow : now ≤ u64Max) :
    (memory.dropSchedule now).Timed [] ∧
      (∀ timer callback, ¬(memory.dropSchedule now).Pending timer callback) ∧
      (memory.dropSchedule now).leases = ⟨newWheel, now, ∅⟩ := by
  obtain ⟨hwheel, hradix, hlevels, hticks, -⟩ := newWheel_timed
  have hleases : (memory.dropSchedule now).leases = ⟨newWheel, now, ∅⟩ := by
    rw [AuthMemory.dropSchedule]
    exact leases_fires _ _
  have hnone : ∀ timer callback,
      ¬(memory.dropSchedule now).Pending timer callback := by
    intro timer callback hpending
    rw [AuthMemory.dropSchedule] at hpending
    obtain ⟨hbefore, hkept⟩ := pending_fires.mp hpending
    have hin := (htimed.held timer callback hbefore).resolve_right List.not_mem_nil
    exact hkept (mem_lastReleased.mpr ⟨hin, List.not_mem_nil⟩)
  refine ⟨?_, hnone, hleases⟩
  refine ⟨?_, ?_, ?_, ?_, ?_, fun timer callback hpending =>
    absurd hpending (hnone timer callback)⟩
  · rw [hleases]
    exact hwheel
  · rw [hleases]
    exact hradix
  · rw [hleases]
    exact hlevels
  · rw [hleases]
    exact hticks.trans_le (Nat.zero_le now)
  · rw [hleases]
    exact hnow

/-! ## What timers own -/

/-- The memory as callbacks and checks see it keeps its rows, its descriptions
and its leases in order.  `promised` are the callbacks that are still to be given
a timer. -/
structure Owned (memory : AuthMemory) (promised : List TimerCallback) : Prop where
  size : memory.inner.slots.length ≤ maxTempKeyCapacity
  reaped : ∀ index slot, memory.slot? index = some slot → slot.state ≠ .free →
    (∃ timer lease, memory.Pending timer (.reap (rowKeyId slot index) lease)) ∨
      ∃ lease, .reap (rowKeyId slot index) lease ∈ promised
  described : ∀ index slot, memory.slot? index = some slot → slot.state ≠ .free →
    (memory.inner.cold.lookup (rowKeyId slot index)).isSome
  cold : ∀ keyId, (memory.inner.cold.lookup keyId).isSome →
    ∃ slot, memory.slot? keyId.slot.asIndex = some slot ∧ slot.holds keyId = true
  leased : ∀ id lease, memory.lease? id = some lease → lease.cancelled = false →
    id ≠ memory.inner.adminLease →
      (∃ timer keyId, memory.Pending timer (.retire keyId id)) ∨
        ∃ keyId, .retire keyId id ∈ promised

variable {promised : List TimerCallback}

theorem Owned.index_lt (howned : memory.Owned promised) {index : ℕ}
    {slot : SlotHot} (hslot : memory.slot? index = some slot) :
    index < 2 ^ 32 := by
  have hlength := (List.getElem?_eq_some_iff.mp hslot).1
  have hsize := howned.size
  have hcapacity : maxTempKeyCapacity < 2 ^ 32 := by decide
  omega

/-- The key of a row belongs to no other row. -/
theorem Owned.rowKeyId_inj (howned : memory.Owned promised) {index other : ℕ}
    {slot found : SlotHot} (hslot : memory.slot? index = some slot)
    (hfound : memory.slot? other = some found)
    (hkey : rowKeyId slot index = rowKeyId found other) :
    index = other ∧ slot = found := by
  have hindex : index = other := by
    rw [← slot_rowKeyId slot (howned.index_lt hslot), hkey,
      slot_rowKeyId found (howned.index_lt hfound)]
  subst hindex
  exact ⟨rfl, Option.some.inj (hslot.symm.trans hfound)⟩

/-- A row in use is the one its key holds. -/
theorem Owned.holds_iff (howned : memory.Owned promised) {index : ℕ}
    {slot : SlotHot} (hslot : memory.slot? index = some slot) {keyId : KeyId} :
    index = keyId.slot.asIndex ∧ slot.holds keyId = true ↔
      rowKeyId slot index = keyId ∧ slot.state ≠ .free := by
  rw [SlotHot.holds_iff]
  constructor
  · rintro ⟨rfl, hgeneration, hstate⟩
    exact ⟨rowKeyId_of_generation hgeneration, hstate⟩
  · rintro ⟨rfl, hstate⟩
    refine ⟨(slot_rowKeyId slot (howned.index_lt hslot)).symm, ?_, hstate⟩
    exact (generation_rowKeyId slot index).symm

/-- Running a retirement. -/
theorem Owned.retire (howned : memory.Owned promised) {timer : TimerId}
    {keyId : KeyId} {lease : LeaseId}
    (hpending : memory.Pending timer (.retire keyId lease)) :
    ((memory.spend timer).retire keyId lease).Owned promised := by
  have hframed : Framed (memory.spend timer)
      ((memory.spend timer).retire keyId lease) := framed_retire keyId lease
  have hpend : ∀ other callback, memory.Pending other callback →
      callback ≠ .retire keyId lease →
        ((memory.spend timer).retire keyId lease).Pending other callback := by
    intro other callback hother hne
    rw [Pending, hframed.timerHeap]
    refine pending_spend.mpr ⟨hother, ?_⟩
    rintro rfl
    exact hne (Option.some.inj (Option.some.inj (hother.symm.trans hpending)))
  have hrow : ∀ index slot, ((memory.spend timer).retire keyId lease).slot? index =
      some slot → ∃ before, memory.slot? index = some before ∧
        rowKeyId slot index = rowKeyId before index ∧
          (slot.state = .free ↔ before.state = .free) := by
    intro index slot hslot
    rw [slot?_retire] at hslot
    obtain ⟨before, hbefore, rfl⟩ := Option.map_eq_some_iff.mp hslot
    refine ⟨before, hbefore, ?_⟩
    split
    · rename_i hactive
      refine ⟨rfl, iff_of_false (fun h => by cases h) fun h => ?_⟩
      rw [hactive.2.2] at h
      cases h
    · exact ⟨rfl, Iff.rfl⟩
  constructor
  · rw [hframed.length]
    exact howned.size
  · intro index slot hslot hstate
    obtain ⟨before, hbefore, hkey, hfree⟩ := hrow index slot hslot
    rw [hkey]
    refine (howned.reaped index before hbefore (mt hfree.mpr hstate)).imp_left ?_
    rintro ⟨other, owner, hother⟩
    exact ⟨other, owner, hpend other _ hother fun h => by cases h⟩
  · intro index slot hslot hstate
    obtain ⟨before, hbefore, hkey, hfree⟩ := hrow index slot hslot
    rw [lookup_cold_retire, hkey]
    exact howned.described index before hbefore (mt hfree.mpr hstate)
  · intro other hcold
    rw [lookup_cold_retire] at hcold
    obtain ⟨slot, hslot, hholds⟩ := howned.cold other hcold
    have hafter : ((memory.spend timer).retire keyId lease).slot?
        other.slot.asIndex = Option.map _ (memory.slot? other.slot.asIndex) :=
      slot?_retire keyId lease other.slot.asIndex
    rw [hslot, Option.map_some] at hafter
    refine ⟨_, hafter, ?_⟩
    rw [SlotHot.holds_iff] at hholds ⊢
    split
    · exact ⟨hholds.1, fun h => by cases h⟩
    · exact hholds
  · intro id found hfound hlive hnot
    rw [lease?_retire] at hfound
    obtain ⟨before, hbefore, rfl⟩ := Option.map_eq_some_iff.mp hfound
    have hne : id ≠ lease := by
      rintro rfl
      rw [if_pos rfl] at hlive
      cases hlive
    rw [if_neg hne] at hlive
    rw [hframed.adminLease] at hnot
    refine (howned.leased id before hbefore hlive hnot).imp_left ?_
    rintro ⟨other, owner, hother⟩
    refine ⟨other, owner, hpend other _ hother fun h => hne ?_⟩
    exact (TimerCallback.retire.inj h).2

/-- Running a reap. -/
theorem Owned.reap (howned : memory.Owned promised) {timer : TimerId}
    {keyId : KeyId} {lease : Option LeaseId}
    (hpending : memory.Pending timer (.reap keyId lease)) :
    ((memory.spend timer).reap keyId).Owned promised := by
  have hframed : Framed (memory.spend timer)
      ((memory.spend timer).reap keyId) := framed_reap keyId
  have hpend : ∀ other callback, memory.Pending other callback →
      callback ≠ .reap keyId lease →
        ((memory.spend timer).reap keyId).Pending other callback := by
    intro other callback hother hne
    rw [Pending, hframed.timerHeap]
    refine pending_spend.mpr ⟨hother, ?_⟩
    rintro rfl
    exact hne (Option.some.inj (Option.some.inj (hother.symm.trans hpending)))
  have hrow : ∀ index slot, ((memory.spend timer).reap keyId).slot? index =
      some slot → slot.state ≠ .free →
        memory.slot? index = some slot ∧ rowKeyId slot index ≠ keyId := by
    intro index slot hslot hstate
    rw [slot?_reap] at hslot
    obtain ⟨before, hbefore, rfl⟩ := Option.map_eq_some_iff.mp hslot
    split at hstate
    · exact absurd rfl hstate
    · rename_i hnot
      rw [if_neg hnot]
      exact ⟨hbefore, fun hkey => hnot ((howned.holds_iff hbefore).mpr
        ⟨hkey, hstate⟩)⟩
  constructor
  · rw [hframed.length]
    exact howned.size
  · intro index slot hslot hstate
    obtain ⟨hbefore, hkey⟩ := hrow index slot hslot hstate
    refine (howned.reaped index slot hbefore hstate).imp_left ?_
    rintro ⟨other, owner, hother⟩
    exact ⟨other, owner, hpend other _ hother fun h => hkey
      (TimerCallback.reap.inj h).1⟩
  · intro index slot hslot hstate
    obtain ⟨hbefore, hkey⟩ := hrow index slot hslot hstate
    rw [lookup_cold_reap, if_neg fun h => hkey h.1]
    exact howned.described index slot hbefore hstate
  · intro other hcold
    rw [lookup_cold_reap] at hcold
    split at hcold
    · cases hcold
    rename_i hkept
    obtain ⟨slot, hslot, hholds⟩ := howned.cold other hcold
    have hafter : ((memory.spend timer).reap keyId).slot?
        other.slot.asIndex = Option.map _ (memory.slot? other.slot.asIndex) :=
      slot?_reap keyId other.slot.asIndex
    rw [hslot, Option.map_some, if_neg] at hafter
    · exact ⟨slot, hafter, hholds⟩
    · rintro ⟨hindex, hheld⟩
      have hsame : other = keyId := by
        rw [← ((howned.holds_iff hslot).mp ⟨hindex, hheld⟩).1]
        exact ((howned.holds_iff hslot).mp ⟨rfl, hholds⟩).1.symm
      refine hkept ⟨hsame, ?_⟩
      rw [← hindex]
      change (memory.slot? other.slot.asIndex).all _ = true
      rw [hslot]
      exact hheld
  · intro id found hfound hlive hnot
    rw [lease?_reap] at hfound
    rw [hframed.adminLease] at hnot
    refine (howned.leased id found hfound hlive hnot).imp_left ?_
    rintro ⟨other, owner, hother⟩
    exact ⟨other, owner, hpend other _ hother fun h => by cases h⟩

theorem Owned.fire (howned : memory.Owned promised) (timer : TimerId) :
    (memory.fire timer).Owned promised := by
  rcases fire_cases memory timer with ⟨callback, hpending, hfire⟩ | ⟨-, hfire⟩
  · rw [hfire]
    cases callback with
    | retire keyId lease => exact howned.retire hpending
    | reap keyId lease => exact howned.reap hpending
  · rw [hfire]
    exact howned

theorem Owned.fires (howned : memory.Owned promised) (timers : List TimerId) :
    (timers.foldl AuthMemory.fire memory).Owned promised :=
  fires_preserve (motive := (·.Owned promised))
    (fun _ timer hmemory => hmemory.fire timer) timers howned

/-- Changes that keep rows and timers, forget and describe no key, and bring no
lease to life. -/
theorem Owned.congr {memory' : AuthMemory} (howned : memory.Owned promised)
    (hslots : memory'.inner.slots = memory.inner.slots)
    (hcold : ∀ keyId, (memory'.inner.cold.lookup keyId).isSome =
      (memory.inner.cold.lookup keyId).isSome)
    (hadmin : memory'.inner.adminLease = memory.inner.adminLease)
    (hleases : ∀ id lease, memory'.lease? id = some lease →
      lease.cancelled = false →
        ∃ before, memory.lease? id = some before ∧ before.cancelled = false)
    (htimers : memory'.timerHeap = memory.timerHeap) :
    memory'.Owned promised := by
  have hrow : ∀ index, memory'.slot? index = memory.slot? index := by
    intro index
    rw [slot?, slot?, hslots]
  have hpend : ∀ timer callback, memory.Pending timer callback →
      memory'.Pending timer callback := by
    intro timer callback hpending
    rw [Pending, htimers]
    exact hpending
  constructor
  · rw [hslots]
    exact howned.size
  · intro index slot hslot hstate
    rw [hrow] at hslot
    refine (howned.reaped index slot hslot hstate).imp_left ?_
    rintro ⟨timer, lease, hpending⟩
    exact ⟨timer, lease, hpend _ _ hpending⟩
  · intro index slot hslot hstate
    rw [hrow] at hslot
    rw [hcold]
    exact howned.described index slot hslot hstate
  · intro keyId hkey
    rw [hcold] at hkey
    rw [hrow]
    exact howned.cold keyId hkey
  · intro id lease hlease hlive hnot
    obtain ⟨before, hbefore, halive⟩ := hleases id lease hlease hlive
    rw [hadmin] at hnot
    refine (howned.leased id before hbefore halive hnot).imp_left ?_
    rintro ⟨timer, keyId, hpending⟩
    exact ⟨timer, keyId, hpend _ _ hpending⟩

/-- The leases as they are. -/
theorem leases_kept {memory' : AuthMemory}
    (hleases : memory'.leaseHeap = memory.leaseHeap) (id : LeaseId)
    (lease : AuthLease) (hlease : memory'.lease? id = some lease)
    (hlive : lease.cancelled = false) :
    ∃ before, memory.lease? id = some before ∧ before.cancelled = false := by
  rw [lease?, hleases] at hlease
  exact ⟨lease, hlease, hlive⟩

theorem Owned.updateLeases (howned : memory.Owned promised)
    (change : Leases → Leases) : (memory.updateLeases change).Owned promised :=
  howned.congr rfl (fun _ => rfl) rfl (leases_kept rfl) rfl

theorem Owned.scheduleAt (howned : memory.Owned promised) (deadline : ℕ)
    (timer : TimerId) : (memory.scheduleAt deadline timer).Owned promised := by
  rw [scheduleAt_eq]
  exact (howned.updateLeases _).fires _

/-- A row that keeps its generation, and is in use if it was. -/
theorem Owned.updateSlot (howned : memory.Owned promised) {index : ℕ}
    {change : SlotHot → SlotHot}
    (hgeneration : ∀ slot, (change slot).generation = slot.generation)
    (hstate : ∀ slot, memory.slot? index = some slot →
      ((change slot).state = .free ↔ slot.state = .free)) :
    (memory.updateSlot index change).Owned promised := by
  have hrow : ∀ other slot, (memory.updateSlot index change).slot? other =
      some slot → ∃ before, memory.slot? other = some before ∧
        rowKeyId slot other = rowKeyId before other ∧
          (slot.state = .free ↔ before.state = .free) := by
    intro other slot hslot
    rw [slot?_updateSlot] at hslot
    obtain ⟨before, hbefore, rfl⟩ := Option.map_eq_some_iff.mp hslot
    refine ⟨before, hbefore, ?_⟩
    split
    · rename_i hother
      subst hother
      refine ⟨?_, hstate before hbefore⟩
      rw [rowKeyId, rowKeyId, hgeneration]
    · exact ⟨rfl, Iff.rfl⟩
  constructor
  · rw [(framed_updateSlot index change).length]
    exact howned.size
  · intro other slot hslot hused
    obtain ⟨before, hbefore, hkey, hfree⟩ := hrow other slot hslot
    rw [hkey]
    exact howned.reaped other before hbefore (mt hfree.mpr hused)
  · intro other slot hslot hused
    obtain ⟨before, hbefore, hkey, hfree⟩ := hrow other slot hslot
    rw [hkey]
    exact howned.described other before hbefore (mt hfree.mpr hused)
  · intro keyId hcold
    obtain ⟨slot, hslot, hholds⟩ := howned.cold keyId hcold
    refine ⟨_, (slot?_updateSlot _ _ _).trans (congrArg _ hslot), ?_⟩
    rw [SlotHot.holds_iff] at hholds ⊢
    split
    · rename_i hother
      subst hother
      exact ⟨(hgeneration slot).trans hholds.1,
        mt (hstate slot hslot).mp hholds.2⟩
    · exact hholds
  · exact howned.leased

/-- A free row is given to a key that is promised a reap. -/
theorem Owned.occupy (howned : memory.Owned promised) {index : ℕ}
    {free row : SlotHot} {keyId : KeyId} {lease : Option LeaseId}
    (hslot : memory.slot? index = some free) (hfree : free.state = .free)
    (hrow : row.state ≠ .free) (hkey : rowKeyId row index = keyId)
    (hpromised : .reap keyId lease ∈ promised) (cold : ColdMetadata) :
    ((memory.updateSlot index fun _ => row).setCold keyId cold).Owned promised := by
  have hindex := howned.index_lt hslot
  have hslots : ∀ other,
      ((memory.updateSlot index fun _ => row).setCold keyId cold).slot? other =
        (memory.slot? other).map fun slot => if other = index then row else slot :=
    fun other => slot?_updateSlot index other fun _ => row
  have hfresh : ∀ other, (memory.inner.cold.lookup other).isSome →
      other.slot.asIndex ≠ index := by
    rintro other hcold rfl
    obtain ⟨slot, hfound, hholds⟩ := howned.cold other hcold
    rw [hslot] at hfound
    rw [Option.some.inj hfound] at hfree
    exact (SlotHot.holds_iff.mp hholds).2 hfree
  have hlookup : ∀ other,
      ((memory.updateSlot index fun _ => row).setCold keyId cold).inner.cold.lookup
        other = if other = keyId then some cold
          else memory.inner.cold.lookup other :=
    fun other => Table.lookup_insert _ keyId other cold
  constructor
  · exact (framed_updateSlot index fun _ => row).length.trans_le howned.size
  · intro other slot hfound hstate
    rw [hslots] at hfound
    obtain ⟨before, hbefore, rfl⟩ := Option.map_eq_some_iff.mp hfound
    split
    · rename_i hother
      subst hother
      rw [hkey]
      exact .inr ⟨lease, hpromised⟩
    · rename_i hother
      rw [if_neg hother] at hstate
      exact howned.reaped other before hbefore hstate
  · intro other slot hfound hstate
    rw [hslots] at hfound
    obtain ⟨before, hbefore, rfl⟩ := Option.map_eq_some_iff.mp hfound
    rw [hlookup]
    by_cases hother : other = index
    · subst hother
      rw [if_pos rfl, if_pos hkey]
      rfl
    · rw [if_neg hother] at hstate ⊢
      split
      · rfl
      · exact howned.described other before hbefore hstate
  · intro other hcold
    rw [hlookup] at hcold
    rw [hslots]
    by_cases hother : other = keyId
    · subst hother
      rw [← hkey, slot_rowKeyId row hindex, hslot, Option.map_some, if_pos rfl]
      exact ⟨row, rfl, holds_rowKeyId index hrow⟩
    · rw [if_neg hother] at hcold
      obtain ⟨slot, hfound, hholds⟩ := howned.cold other hcold
      rw [hfound, Option.map_some, if_neg (hfresh other hcold)]
      exact ⟨slot, rfl, hholds⟩
  · exact howned.leased

theorem Owned.allocateTimer {callback : TimerCallback}
    (howned : memory.Owned (callback :: promised)) :
    (memory.allocateTimer callback).1.Owned promised := by
  have hpend : ∀ timer found, memory.Pending timer found →
      (memory.allocateTimer callback).1.Pending timer found :=
    fun timer found hpending => pending_allocateTimer.mpr (.inl hpending)
  have hnew : (memory.allocateTimer callback).1.Pending memory.timerHeap.length
      callback := pending_allocateTimer.mpr (.inr ⟨rfl, rfl⟩)
  refine ⟨howned.size, ?_, howned.described, howned.cold, ?_⟩
  · intro index slot hslot hstate
    rcases howned.reaped index slot hslot hstate with
      ⟨timer, lease, hpending⟩ | ⟨lease, hpromised⟩
    · exact .inl ⟨timer, lease, hpend _ _ hpending⟩
    · rcases List.mem_cons.mp hpromised with rfl | hpromised
      · exact .inl ⟨_, lease, hnew⟩
      · exact .inr ⟨lease, hpromised⟩
  · intro id lease hlease hlive hnot
    rcases howned.leased id lease hlease hlive hnot with
      ⟨timer, keyId, hpending⟩ | ⟨keyId, hpromised⟩
    · exact .inl ⟨timer, keyId, hpend _ _ hpending⟩
    · rcases List.mem_cons.mp hpromised with rfl | hpromised
      · exact .inl ⟨_, keyId, hnew⟩
      · exact .inr ⟨keyId, hpromised⟩

/-- A new lease is cancelled by a timer it is promised. -/
theorem Owned.allocateLease (howned : memory.Owned promised) {keyId : KeyId}
    {lease : AuthLease}
    (hpromised : .retire keyId memory.leaseHeap.length ∈ promised) :
    (memory.allocateLease lease).1.Owned promised := by
  refine ⟨howned.size, howned.reaped, howned.described, howned.cold, ?_⟩
  intro id found hfound hlive hnot
  by_cases hid : id = memory.leaseHeap.length
  · subst hid
    exact .inr ⟨keyId, hpromised⟩
  · have hlt : id < memory.leaseHeap.length := by
      have hle : id < (memory.leaseHeap ++ [lease]).length :=
        (List.getElem?_eq_some_iff.mp hfound).1
      rw [List.length_append, List.length_singleton] at hle
      exact Nat.lt_of_le_of_ne (Nat.le_of_lt_succ hle) hid
    rw [lease?, AuthMemory.allocateLease, List.getElem?_append_left hlt] at hfound
    exact howned.leased id found hfound hlive hnot

theorem Owned.mono {more : List TimerCallback} (howned : memory.Owned promised)
    (hsubset : promised ⊆ more) : memory.Owned more where
  size := howned.size
  reaped index slot hslot hstate := (howned.reaped index slot hslot hstate).imp_right
    fun ⟨lease, hlease⟩ => ⟨lease, hsubset hlease⟩
  described := howned.described
  cold := howned.cold
  leased id lease hlease hlive hnot :=
    (howned.leased id lease hlease hlive hnot).imp_right
      fun ⟨keyId, hkey⟩ => ⟨keyId, hsubset hkey⟩

/-! ## Scheduling a key -/

theorem Timed.mono {more : List TimerId} (htimed : memory.Timed loose)
    (hsubset : loose ⊆ more) : memory.Timed more where
  wellFormed := htimed.wellFormed
  radix := htimed.radix
  levels := htimed.levels
  ticks_le := htimed.ticks_le
  now_le := htimed.now_le
  held timer callback hpending :=
    (htimed.held timer callback hpending).imp_right (hsubset ·)

theorem retentionEnds_le (tombstonedAt : ℕ) :
    retentionEnds tombstonedAt ≤ u64Max :=
  Nat.min_le_right _ _

theorem Timed.watch {keyId : KeyId} {lease : LeaseId} {expiresAt : ℕ}
    (htimed : memory.Timed []) (hexpires : expiresAt ≤ u64Max) :
    (memory.watch keyId lease expiresAt).Timed [] := by
  have hallocated := (htimed.allocateTimer (.retire keyId lease)).allocateTimer
    (.reap keyId (some lease))
  apply Timed.scheduleAt ?_ (retentionEnds_le expiresAt)
  apply Timed.scheduleAt ?_ hexpires
  exact (hallocated.mono (List.Perm.swap _ _ []).subset).congr rfl rfl rfl

theorem Owned.watch {keyId : KeyId} {lease : LeaseId} {expiresAt : ℕ}
    (howned : memory.Owned
      (.retire keyId lease :: .reap keyId (some lease) :: promised)) :
    (memory.watch keyId lease expiresAt).Owned promised := by
  apply Owned.scheduleAt
  apply Owned.scheduleAt
  exact howned.allocateTimer.allocateTimer.updateLeases _

theorem Timed.scheduleReap {keyId : KeyId} {deadline : ℕ}
    (htimed : memory.Timed []) (hdeadline : deadline ≤ u64Max) :
    (memory.scheduleReap keyId deadline).Timed [] := by
  apply Timed.scheduleAt ?_ hdeadline
  exact (htimed.allocateTimer _).congr rfl rfl rfl

theorem Owned.scheduleReap {keyId : KeyId} {deadline : ℕ}
    (howned : memory.Owned (.reap keyId none :: promised)) :
    (memory.scheduleReap keyId deadline).Owned promised := by
  apply Owned.scheduleAt
  exact howned.allocateTimer.updateLeases _

end AuthMemory

end PbMapper.Auth

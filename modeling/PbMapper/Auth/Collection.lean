import PbMapper.Auth.Staged

/-!
# What a collection frees

A collection picks the dead keys by their rows and ends them through their
timers.  In the table the two agree.  An entry above the table that was live at
the last start has no timers, so a collection counts it and leaves it.
-/

namespace PbMapper.Auth

open PbMapper.Core MachineWord

/-- What a collection at `now` picks above the table. -/
def PersistedEntry.isDue (entry : PersistedEntry) (now : ℕ) : Bool :=
  entry.state ≠ .active ∨ entry.expiresAt ≤ now

namespace AuthMemory

/-! ## The claim on a collection -/

/-- The rows in use, in the table and above it. -/
def rowsInUse (memory : AuthMemory) : ℕ :=
  memory.inner.slots.countP (·.state ≠ .free) +
    memory.inner.highSlotEntries.length

/-- A collection frees the due rows and no others, leaves the leases and the
timers of the others as they are, keeps all generations and counts what it frees;
and another one finds nothing. -/
structure GcExact (memory : AuthMemory) (now : ℕ) : Prop where
  rows : ∀ index slot, memory.slot? index = some slot →
    (memory.collectGarbage now).1.slot? index =
      some (if slot.isCollectable now then slot.retire else slot)
  high : (memory.collectGarbage now).1.inner.highSlotEntries =
    memory.inner.highSlotEntries.filter (!·.isDue now)
  leases : ∀ index slot lease, memory.slot? index = some slot →
    slot.isCollectable now = false → slot.lease = some lease →
      (memory.collectGarbage now).1.lease? lease = memory.lease? lease
  descriptions : ∀ keyId ∉ memory.collectable now,
    (memory.collectGarbage now).1.inner.cold.lookup keyId =
      memory.inner.cold.lookup keyId
  stages : ∀ keyId ∉ memory.collectable now,
    (memory.collectGarbage now).1.leases.stages.lookup keyId =
      memory.leases.stages.lookup keyId
  timers : ∀ timer callback, callback.keyId ∉ memory.collectable now →
    ((memory.collectGarbage now).1.Pending timer callback ↔
      memory.Pending timer callback)
  schedule : (memory.collectGarbage now).1.leases.wheel = memory.leases.wheel ∧
    (memory.collectGarbage now).1.leases.now = memory.leases.now
  generations : (memory.collectGarbage now).1.snapshotGenerations =
    memory.snapshotGenerations
  counted : memory.rowsInUse =
    (memory.collectGarbage now).1.rowsInUse + (memory.collectGarbage now).2
  again : (memory.collectGarbage now).1.collectGarbage now =
    ((memory.collectGarbage now).1, 0)

/-! ## What the end of keys touches -/

/-- Only what belongs to the keys changes. -/
structure Touches (keyIds : List KeyId) (memory after : AuthMemory) : Prop where
  wheel : after.leases.wheel = memory.leases.wheel
  now : after.leases.now = memory.leases.now
  rows : ∀ index slot, memory.slot? index = some slot →
    rowKeyId slot index ∉ keyIds ∨ slot.state = .free →
      after.slot? index = some slot
  leases : ∀ lease, ∀ other ∉ keyIds, memory.LeaseOf lease other →
    after.lease? lease = memory.lease? lease
  cold : ∀ other ∉ keyIds,
    after.inner.cold.lookup other = memory.inner.cold.lookup other
  stages : ∀ other ∉ keyIds,
    after.leases.stages.lookup other = memory.leases.stages.lookup other
  timers : ∀ timer callback, callback.keyId ∉ keyIds →
    (after.Pending timer callback ↔ memory.Pending timer callback)

variable {memory after : AuthMemory} {keyId : KeyId} {keyIds : List KeyId}

theorem Touches.refl (keyIds : List KeyId) (memory : AuthMemory) :
    Touches keyIds memory memory :=
  ⟨rfl, rfl, fun _ _ hslot _ => hslot, fun _ _ _ _ => rfl, fun _ _ => rfl,
    fun _ _ => rfl, fun _ _ _ => Iff.rfl⟩

theorem Touches.trans {middle : AuthMemory} (hfirst : Touches keyIds memory middle)
    (hsecond : Touches keyIds middle after) : Touches keyIds memory after where
  wheel := hsecond.wheel.trans hfirst.wheel
  now := hsecond.now.trans hfirst.now
  rows index slot hslot hother :=
    hsecond.rows index slot (hfirst.rows index slot hslot hother) hother
  leases lease other hnot howner := by
    have hsame := hfirst.leases lease other hnot howner
    rw [← hsame]
    apply hsecond.leases lease other hnot
    rw [LeaseOf, hsame]
    exact howner
  cold other hnot := (hsecond.cold other hnot).trans (hfirst.cold other hnot)
  stages other hnot :=
    (hsecond.stages other hnot).trans (hfirst.stages other hnot)
  timers timer callback hnot :=
    (hsecond.timers timer callback hnot).trans (hfirst.timers timer callback hnot)

theorem Touches.mono {more : List KeyId} (htouches : Touches keyIds memory after)
    (hsubset : keyIds ⊆ more) : Touches more memory after where
  wheel := htouches.wheel
  now := htouches.now
  rows index slot hslot hother :=
    htouches.rows index slot hslot (hother.imp_left (mt (hsubset ·)))
  leases lease other hnot := htouches.leases lease other (mt (hsubset ·) hnot)
  cold other hnot := htouches.cold other (mt (hsubset ·) hnot)
  stages other hnot := htouches.stages other (mt (hsubset ·) hnot)
  timers timer callback hnot := htouches.timers timer callback (mt (hsubset ·) hnot)

/-- A callback of the key. -/
theorem touches_fire {timer : TimerId}
    (hcallback : ∀ callback, memory.Pending timer callback →
      callback.keyId = keyId)
    (howner : ∀ key lease, memory.Pending timer (.retire key lease) →
      memory.LeaseOf lease key) :
    Touches [keyId] memory (memory.fire timer) := by
  have hleases := leases_fire memory timer
  have htimers : ∀ other callback, callback.keyId ∉ [keyId] →
      ((memory.fire timer).Pending other callback ↔
        memory.Pending other callback) := by
    intro other callback hnot
    rw [pending_fire, and_iff_left_iff_imp]
    rintro hpending rfl
    exact hnot (List.mem_singleton.mpr (hcallback callback hpending))
  refine ⟨by rw [hleases], by rw [hleases], ?_, ?_, ?_,
    fun _ _ => by rw [hleases], htimers⟩
  · intro index slot hslot hother
    rcases fire_cases memory timer with ⟨callback, hpending, hfire⟩ | ⟨-, hfire⟩
    · have hkey := hcallback callback hpending
      have hnot : ¬(index = keyId.slot.asIndex ∧ slot.holds keyId = true) := by
        rintro ⟨rfl, hholds⟩
        obtain ⟨hgeneration, hused⟩ := SlotHot.holds_iff.mp hholds
        refine hother.elim (fun hnot => hnot (List.mem_singleton.mpr ?_)) hused
        exact rowKeyId_of_generation hgeneration
      rw [hfire]
      cases callback with
      | retire key lease =>
          cases hkey
          rw [runCallback, slot?_retire]
          change (memory.slot? index).map _ = _
          rw [hslot, Option.map_some, if_neg fun h => hnot ⟨h.1, h.2.1⟩]
      | reap key lease =>
          have hsame : key = keyId := hkey
          subst hsame
          rw [runCallback, slot?_reap]
          change (memory.slot? index).map _ = _
          rw [hslot, Option.map_some, if_neg hnot]
    · rw [hfire]
      exact hslot
  · intro lease other hnot hleaseOf
    rcases fire_cases memory timer with ⟨callback, hpending, hfire⟩ | ⟨-, hfire⟩
    · rw [hfire]
      cases callback with
      | retire key id =>
          have hkey : key = keyId := hcallback _ hpending
          rw [runCallback, lease?_retire]
          change (memory.lease? lease).map _ = _
          have hid : lease ≠ id := by
            rintro rfl
            have hsame := howner key lease hpending
            rw [LeaseOf, show (memory.lease? lease).map (·.keyId) = some other from
              hleaseOf, hkey] at hsame
            exact hnot (List.mem_singleton.mpr (Option.some.inj hsame))
          simp [hid]
      | reap key owner =>
          rw [runCallback, lease?_reap]
          rfl
    · rw [hfire]
  · intro other hnot
    rw [List.mem_singleton] at hnot
    rcases fire_cases memory timer with ⟨callback, hpending, hfire⟩ | ⟨-, hfire⟩
    · have hkey := hcallback callback hpending
      rw [hfire]
      cases callback with
      | retire key lease =>
          cases hkey
          exact lookup_cold_retire_of_ne hnot lease
      | reap key lease =>
          cases hkey
          rw [runCallback, lookup_cold_reap, if_neg fun h => hnot h.1]
          rfl
    · rw [hfire]

theorem touches_eraseStages (keyId : KeyId) (memory : AuthMemory) :
    Touches [keyId] memory (memory.eraseStages keyId) :=
  { Touches.refl [keyId] memory with
    stages := fun other hnot => by
      rw [lookup_eraseStages, if_neg (mt List.mem_singleton.mpr hnot)] }

theorem touches_fireStage (hstaged : memory.Staged []) (keyId : KeyId)
    {which : Stages → Option TimerId}
    (hwhich : which = Stages.retire ∨ which = Stages.reap) :
    Touches [keyId] memory (memory.fireStage keyId which) := by
  rcases fireStage_cases memory keyId hwhich with
    ⟨stages, timer, hlookup, htimer, -, hfire⟩ | ⟨hfire, -⟩ | ⟨hfire, -⟩
  · rw [hfire]
    refine touches_fire (fun callback hpending => ?_)
      fun key lease => hstaged.owners timer key lease
    rcases hwhich with rfl | rfl
    · obtain ⟨lease, rfl⟩ :=
        hstaged.retires keyId stages timer callback hlookup htimer hpending
      rfl
    · obtain ⟨lease, rfl⟩ :=
        hstaged.reaps keyId stages timer callback hlookup htimer hpending
      rfl
  · rw [hfire]
    exact touches_eraseStages keyId memory
  · rw [hfire]
    exact .refl [keyId] memory

theorem touches_endKey (hstaged : memory.Staged []) (hkept : memory.Kept)
    (keyId : KeyId) : Touches [keyId] memory (memory.endKey keyId) :=
  ((touches_fireStage hstaged keyId (.inl rfl)).trans
    (touches_fireStage (hstaged.fireStage hkept.timed keyId (.inl rfl)) keyId
      (.inr rfl))).trans (touches_eraseStages keyId _)

theorem touches_endKeys (hstaged : memory.Staged []) (hkept : memory.Kept)
    (keyIds : List KeyId) :
    Touches keyIds memory (keyIds.foldl AuthMemory.endKey memory) := by
  induction keyIds generalizing memory with
  | nil => exact .refl [] memory
  | cons keyId keyIds ih =>
      have hfirst := touches_endKey hstaged hkept keyId
      have hrest := ih (hstaged.endKey hkept keyId) (hkept.endKey keyId)
      apply (hfirst.mono _).trans (hrest.mono (List.subset_cons_self keyId keyIds))
      exact List.cons_subset_cons keyId (List.nil_subset keyIds)

/-! ## What ending a key frees -/

/-- What touches another key leaves this one as reapable as it was. -/
theorem Touches.reapable {other : KeyId} (htouches : Touches [other] memory after)
    (hstaged : memory.Staged []) (hafter : after.Staged []) (hne : keyId ≠ other) :
    after.Reapable keyId ↔ memory.Reapable keyId := by
  have hnot : keyId ∉ [other] := mt List.mem_singleton.mp hne
  have hlookup := htouches.stages keyId hnot
  constructor
  · rintro ⟨stages, timer, callback, hfound, hreap, hpending⟩
    obtain ⟨lease, rfl⟩ :=
      hafter.reaps keyId stages timer callback hfound hreap hpending
    exact ⟨stages, timer, _, hlookup ▸ hfound, hreap,
      (htouches.timers timer (.reap keyId lease) hnot).mp hpending⟩
  · rintro ⟨stages, timer, callback, hfound, hreap, hpending⟩
    obtain ⟨lease, rfl⟩ :=
      hstaged.reaps keyId stages timer callback hfound hreap hpending
    exact ⟨stages, timer, _, hlookup.trans hfound, hreap,
      (htouches.timers timer (.reap keyId lease) hnot).mpr hpending⟩

/-- The retirement of a key leaves its reap. -/
theorem reapable_retireNow (hstaged : memory.Staged []) (hkept : memory.Kept) :
    (memory.retireNow keyId).Reapable keyId ↔ memory.Reapable keyId := by
  rw [retireNow]
  rcases fireStage_cases memory keyId (.inl rfl) with
    ⟨stages, retire, hlookup, hretire, -, hfire⟩ | ⟨hfire, hnone⟩ | ⟨hfire, -⟩
  · rw [hfire]
    have hleases := leases_fire memory retire
    constructor
    · rintro ⟨found, reap, callback, hfound, hreap, hpending⟩
      exact ⟨found, reap, callback, hleases ▸ hfound, hreap,
        (pending_fire.mp hpending).1⟩
    · rintro ⟨found, reap, callback, hfound, hreap, hpending⟩
      refine ⟨found, reap, callback, hleases.symm ▸ hfound, hreap,
        pending_fire.mpr ⟨hpending, ?_⟩⟩
      rintro rfl
      cases hlookup.symm.trans hfound
      obtain ⟨lease, rfl⟩ := hstaged.reaps keyId stages _ _ hfound hreap hpending
      obtain ⟨owner, howner⟩ :=
        hstaged.retires keyId stages _ _ hfound hretire hpending
      cases howner
  · rw [hfire]
    refine iff_of_false ?_ (not_reapable_of_upgradeTimer hkept.timed hnone)
    rintro ⟨found, reap, callback, hfound, -⟩
    rw [lookup_eraseStages, if_pos rfl] at hfound
    cases hfound
  · rw [hfire]

/-- The retirement of a key leaves its row in use. -/
theorem slot?_retireNow (keyId : KeyId) (hstaged : memory.Staged []) {index : ℕ}
    {slot : SlotHot} (hslot : memory.slot? index = some slot)
    (hused : slot.state ≠ .free) :
    ∃ retired, (memory.retireNow keyId).slot? index = some retired ∧
      retired.generation = slot.generation ∧ retired.state ≠ .free := by
  have hsame : ∃ retired, memory.slot? index = some retired ∧
      retired.generation = slot.generation ∧ retired.state ≠ .free :=
    ⟨slot, hslot, rfl, hused⟩
  rw [retireNow]
  rcases fireStage_cases memory keyId (.inl rfl) with
    ⟨stages, timer, hlookup, hretire, -, hfire⟩ | ⟨hfire, -⟩ | ⟨hfire, -⟩
  · rw [hfire]
    rcases fire_cases memory timer with ⟨callback, hpending, hrun⟩ | ⟨-, hrun⟩
    · obtain ⟨lease, rfl⟩ :=
        hstaged.retires keyId stages timer callback hlookup hretire hpending
      rw [hrun, runCallback, slot?_retire]
      change ∃ retired, (memory.slot? index).map _ = some retired ∧ _
      rw [hslot, Option.map_some]
      refine ⟨_, rfl, ?_⟩
      split
      · exact ⟨rfl, fun hfree => by cases hfree⟩
      · exact ⟨rfl, hused⟩
    · rw [hrun]
      exact hsame
  · rw [hfire]
    exact hsame
  · rw [hfire]
    exact hsame

theorem highSlotEntries_retireNow (keyId : KeyId) (hstaged : memory.Staged []) :
    (memory.retireNow keyId).inner.highSlotEntries =
      memory.inner.highSlotEntries := by
  rw [retireNow]
  rcases fireStage_cases memory keyId (.inl rfl) with
    ⟨stages, timer, hlookup, hretire, -, hfire⟩ | ⟨hfire, -⟩ | ⟨hfire, -⟩
  · rw [hfire]
    rcases fire_cases memory timer with ⟨callback, hpending, hrun⟩ | ⟨-, hrun⟩
    · obtain ⟨lease, rfl⟩ :=
        hstaged.retires keyId stages timer callback hlookup hretire hpending
      rw [hrun, runCallback, highSlotEntries_retire]
      rfl
    · rw [hrun]
  · rw [hfire]
    rfl
  · rw [hfire]

/-- A key with a reap is reaped through its stages. -/
theorem Reapable.fireStage (hreapable : memory.Reapable keyId)
    (hstaged : memory.Staged []) (hkept : memory.Kept) :
    ∃ timer lease, memory.Pending timer (.reap keyId lease) ∧
      memory.fireStage keyId Stages.reap = memory.fire timer := by
  have hreapable' := hreapable
  obtain ⟨stages, timer, callback, hlookup, hreap, hpending⟩ := hreapable
  rcases fireStage_cases memory keyId (.inr rfl) with
    ⟨found, other, hfound, hother, -, hfire⟩ | ⟨-, hnone⟩ | ⟨-, hnone⟩
  · cases hlookup.symm.trans hfound
    cases hreap.symm.trans hother
    obtain ⟨lease, rfl⟩ := hstaged.reaps keyId stages timer _ hlookup hreap hpending
    exact ⟨timer, lease, hpending, hfire⟩
  · exact absurd hreapable' (not_reapable_of_upgradeTimer hkept.timed hnone)
  · exact absurd hreapable' (not_reapable_of_upgradeTimer hkept.timed hnone)

/-- The row of a key with a reap is freed. -/
theorem slot?_endKey (hstaged : memory.Staged []) (hkept : memory.Kept)
    {index : ℕ} {slot : SlotHot} (hslot : memory.slot? index = some slot)
    (hused : slot.state ≠ .free) (hkey : rowKeyId slot index = keyId) :
    (memory.endKey keyId).slot? index = some slot.retire := by
  have hreapable := (hstaged.staged index slot hslot hused).resolve_left nofun
  rw [hkey] at hreapable
  have hretired : (memory.retireNow keyId).Staged [] :=
    hstaged.fireStage hkept.timed _ (.inl rfl)
  obtain ⟨timer, lease, hpending, hfire⟩ :=
    ((reapable_retireNow hstaged hkept).mpr hreapable).fireStage hretired
      (hkept.fireStage _ _)
  obtain ⟨retired, hrow, hgeneration, hstill⟩ :=
    slot?_retireNow keyId hstaged hslot hused
  have hkey' : rowKeyId retired index = keyId := by
    rw [← hkey, rowKeyId, rowKeyId, hgeneration]
  have hreaps : (memory.retireNow keyId).Pending timer
      (.reap (rowKeyId retired index) lease) := by
    rw [hkey']
    exact hpending
  have hfreed := hretired.freed hreaps hrow hstill
  have hretire : retired.retire = slot.retire :=
    congrArg ({ SlotHot.new with generation := · }) hgeneration
  rw [endKey, hfire]
  exact hfreed.trans (congrArg some hretire)

/-- An ended key is forgotten. -/
theorem not_reapable_endKey (memory : AuthMemory) (keyId : KeyId) :
    ¬(memory.endKey keyId).Reapable keyId := by
  rintro ⟨stages, timer, callback, hlookup, -⟩
  rw [endKey, lookup_eraseStages, if_pos rfl] at hlookup
  cases hlookup

/-- A key without a reap stays above the table. -/
theorem highSlotEntries_endKey_of_not (hstaged : memory.Staged [])
    (hkept : memory.Kept) (hnot : ¬memory.Reapable keyId) :
    (memory.endKey keyId).inner.highSlotEntries =
      memory.inner.highSlotEntries := by
  rw [← highSlotEntries_retireNow keyId hstaged]
  have hstill := mt (reapable_retireNow hstaged hkept).mp hnot
  rcases fireStage_cases (memory.retireNow keyId) keyId (.inr rfl) with
    ⟨stages, timer, hlookup, hreap, -, hfire⟩ | ⟨hfire, -⟩ | ⟨hfire, -⟩
  · rw [endKey, hfire]
    rcases fire_cases (memory.retireNow keyId) timer with
      ⟨callback, hpending, -⟩ | ⟨-, hrun⟩
    · exact absurd ⟨stages, timer, callback, hlookup, hreap, hpending⟩ hstill
    · rw [hrun]
      rfl
  · rw [endKey, hfire]
    rfl
  · rw [endKey, hfire]
    rfl

/-- A key with a reap does not stay above the table. -/
theorem highSlotEntries_endKey (hstaged : memory.Staged []) (hkept : memory.Kept)
    (hreapable : memory.Reapable keyId) :
    (memory.endKey keyId).inner.highSlotEntries =
      memory.inner.highSlotEntries.filter (·.keyId ≠ keyId) := by
  have hretired : (memory.retireNow keyId).Staged [] :=
    hstaged.fireStage hkept.timed _ (.inl rfl)
  have hlength : (memory.retireNow keyId).inner.slots.length =
      memory.inner.slots.length :=
    (trimmed_fireStage keyId Stages.retire).length
  obtain ⟨timer, lease, hpending, hfire⟩ :=
    ((reapable_retireNow hstaged hkept).mpr hreapable).fireStage hretired
      (hkept.fireStage _ _)
  rcases fire_cases (memory.retireNow keyId) timer with
    ⟨callback, hfound, hrun⟩ | ⟨hnone, -⟩
  · cases Option.some.inj (Option.some.inj (hpending.symm.trans hfound))
    rw [endKey, hfire, hrun]
    change ((((memory.retireNow keyId).spend timer).reap
      keyId).inner.highSlotEntries) = _
    rw [highSlotEntries_reap]
    change (if ((memory.retireNow keyId).slot? keyId.slot.asIndex).isNone then
      (memory.retireNow keyId).inner.highSlotEntries.filter (·.keyId ≠ keyId)
      else (memory.retireNow keyId).inner.highSlotEntries) = _
    rw [highSlotEntries_retireNow keyId hstaged]
    split
    · rfl
    · rename_i hrow
      -- A key with a row has no entry above the table.
      refine (List.filter_eq_self.mpr fun entry hentry => ?_).symm
      refine decide_eq_true fun hkey => hrow ?_
      rw [Option.isNone_iff_eq_none, slot?, List.getElem?_eq_none_iff, hlength,
        ← hkey]
      exact (hkept.filed.high entry hentry).2
  · exact absurd hpending (hnone _)

/-! ## Ending several keys -/

/-- A row of one of the keys is freed. -/
theorem slot?_endKeys (hstaged : memory.Staged []) (hkept : memory.Kept)
    {index : ℕ} {slot : SlotHot} (hslot : memory.slot? index = some slot)
    (hused : slot.state ≠ .free) (hmem : rowKeyId slot index ∈ keyIds) :
    (keyIds.foldl AuthMemory.endKey memory).slot? index = some slot.retire := by
  induction keyIds generalizing memory with
  | nil => cases hmem
  | cons keyId keyIds ih =>
      have hstaged' := hstaged.endKey hkept keyId
      have hkept' := hkept.endKey keyId
      by_cases hkey : rowKeyId slot index = keyId
      · have hfreed := slot?_endKey hstaged hkept hslot hused hkey
        exact (touches_endKeys hstaged' hkept' keyIds).rows index slot.retire hfreed
          (.inr rfl)
      · have hsame := (touches_endKey hstaged hkept keyId).rows index slot hslot
          (.inl (mt List.mem_singleton.mp hkey))
        exact ih hstaged' hkept' hsame
          ((List.mem_cons.mp hmem).resolve_left hkey)

/-- Keys with a reap do not stay above the table. -/
theorem highSlotEntries_endKeys (hstaged : memory.Staged []) (hkept : memory.Kept)
    (hreapable : ∀ entry ∈ memory.inner.highSlotEntries, entry.keyId ∈ keyIds →
      memory.Reapable entry.keyId) :
    (keyIds.foldl AuthMemory.endKey memory).inner.highSlotEntries =
      memory.inner.highSlotEntries.filter (·.keyId ∉ keyIds) := by
  induction keyIds generalizing memory with
  | nil => simp
  | cons keyId keyIds ih =>
      have hstaged' := hstaged.endKey hkept keyId
      have hfirst : (memory.endKey keyId).inner.highSlotEntries =
          memory.inner.highSlotEntries.filter (·.keyId ≠ keyId) := by
        by_cases hcase : memory.Reapable keyId
        · exact highSlotEntries_endKey hstaged hkept hcase
        · rw [highSlotEntries_endKey_of_not hstaged hkept hcase]
          refine (List.filter_eq_self.mpr fun entry hentry => ?_).symm
          refine decide_eq_true fun hkey => hcase ?_
          rw [← hkey]
          exact hreapable entry hentry (List.mem_cons.mpr (.inl hkey))
      rw [List.foldl_cons, ih hstaged' (hkept.endKey keyId), hfirst,
        List.filter_filter]
      · apply List.filter_congr
        intro entry hentry
        simp [List.mem_cons, not_or, Bool.and_comm]
      · intro entry hentry hmem
        rw [hfirst, List.mem_filter, decide_eq_true_iff] at hentry
        rw [(touches_endKey hstaged hkept keyId).reapable hstaged hstaged' hentry.2]
        exact hreapable entry hentry.1 (List.mem_cons_of_mem keyId hmem)

/-- An entry without a reap stays above the table. -/
theorem mem_highSlotEntries_endKeys (hstaged : memory.Staged [])
    (hkept : memory.Kept) {entry : PersistedEntry}
    (hentry : entry ∈ memory.inner.highSlotEntries)
    (hnot : ¬memory.Reapable entry.keyId) :
    entry ∈ (keyIds.foldl AuthMemory.endKey memory).inner.highSlotEntries := by
  induction keyIds generalizing memory with
  | nil => exact hentry
  | cons keyId keyIds ih =>
      have hstaged' := hstaged.endKey hkept keyId
      apply ih hstaged' (hkept.endKey keyId)
      · by_cases hcase : memory.Reapable keyId
        · rw [highSlotEntries_endKey hstaged hkept hcase, List.mem_filter,
            decide_eq_true_iff]
          refine ⟨hentry, fun hkey => hnot ?_⟩
          rw [hkey]
          exact hcase
        · rw [highSlotEntries_endKey_of_not hstaged hkept hcase]
          exact hentry
      · by_cases hkey : entry.keyId = keyId
        · rw [hkey]
          exact not_reapable_endKey memory keyId
        · rw [(touches_endKey hstaged hkept keyId).reapable hstaged hstaged' hkey]
          exact hnot

/-! ## A collection -/

theorem mem_collectable {now : ℕ} :
    keyId ∈ memory.collectable now ↔
      (∃ index slot, memory.slot? index = some slot ∧
        slot.isCollectable now = true ∧ rowKeyId slot index = keyId) ∨
      ∃ entry ∈ memory.inner.highSlotEntries,
        entry.isDue now = true ∧ entry.keyId = keyId := by
  rw [collectable, List.mem_append]
  apply or_congr
  · rw [List.mem_filterMap]
    constructor
    · rintro ⟨⟨slot, index⟩, hmem, hkey⟩
      rw [Option.ite_none_right_eq_some] at hkey
      exact ⟨index, slot, List.mem_zipIdx_iff_getElem?.mp hmem, hkey.1,
        Option.some.inj hkey.2⟩
    · rintro ⟨index, slot, hslot, hdead, hkey⟩
      refine ⟨(slot, index), List.mem_zipIdx_iff_getElem?.mpr hslot, ?_⟩
      rw [Option.ite_none_right_eq_some]
      exact ⟨hdead, congrArg some hkey⟩
  · rw [List.mem_map]
    exact exists_congr fun entry => by rw [List.mem_filter, and_assoc]; rfl

theorem used_of_isCollectable {slot : SlotHot} {now : ℕ}
    (hdead : slot.isCollectable now = true) : slot.state ≠ .free := by
  intro hfree
  rw [SlotHot.isCollectable, hfree] at hdead
  cases hdead

/-- A key above the table has no row. -/
theorem rowKeyId_ne_keyId (hkept : memory.Kept) {index : ℕ} {slot : SlotHot}
    (hslot : memory.slot? index = some slot) {entry : PersistedEntry}
    (hentry : entry ∈ memory.inner.highSlotEntries) :
    rowKeyId slot index ≠ entry.keyId := by
  intro hkey
  have habove := (hkept.filed.high entry hentry).2
  rw [← hkey, slot_rowKeyId slot (hkept.owned.index_lt hslot)] at habove
  exact habove.not_gt (List.getElem?_eq_some_iff.mp hslot).1

/-- The key of a row is collected with the row only. -/
theorem rowKeyId_mem_collectable (hkept : memory.Kept) (now : ℕ) {index : ℕ}
    {slot : SlotHot} (hslot : memory.slot? index = some slot) :
    rowKeyId slot index ∈ memory.collectable now ↔
      slot.isCollectable now = true := by
  rw [mem_collectable]
  constructor
  · rintro (⟨other, found, hfound, hdead, hkey⟩ | ⟨entry, hentry, -, hkey⟩)
    · obtain ⟨-, rfl⟩ := hkept.owned.rowKeyId_inj hfound hslot hkey
      exact hdead
    · exact absurd hkey.symm (rowKeyId_ne_keyId hkept hslot hentry)
  · exact fun hdead => .inl ⟨index, slot, hslot, hdead, rfl⟩

/-- The key above the table is collected with its entry only. -/
theorem keyId_mem_collectable (hkept : memory.Kept) (now : ℕ)
    {entry : PersistedEntry} (hentry : entry ∈ memory.inner.highSlotEntries) :
    entry.keyId ∈ memory.collectable now ↔ entry.isDue now = true := by
  rw [mem_collectable]
  constructor
  · rintro (⟨index, slot, hslot, -, hkey⟩ | ⟨other, hother, hdue, hkey⟩)
    · exact absurd hkey (rowKeyId_ne_keyId hkept hslot hentry)
    · have hslots : (memory.inner.highSlotEntries.map (·.keyId.slot)).Nodup :=
        List.pairwise_map.mpr hkept.filed.distinct
      have hsame := List.inj_on_of_nodup_map hslots hother hentry
        (congrArg KeyId.slot hkey)
      rw [← hsame]
      exact hdue
  · exact fun hdue => .inr ⟨entry, hentry, hdue, rfl⟩

theorem slot?_collectGarbage (hstaged : memory.Staged []) (hkept : memory.Kept)
    {now index : ℕ} {slot : SlotHot} (hslot : memory.slot? index = some slot) :
    (memory.collectGarbage now).1.slot? index =
      some (if slot.isCollectable now then slot.retire else slot) := by
  have hmem := rowKeyId_mem_collectable hkept now hslot
  rw [collectGarbage]
  split
  · rename_i hdead
    exact slot?_endKeys hstaged hkept hslot (used_of_isCollectable hdead)
      (hmem.mpr hdead)
  · rename_i hlive
    exact (touches_endKeys hstaged hkept _).rows index slot hslot
      (.inl (mt hmem.mp hlive))

/-- The table after a collection. -/
theorem slots_collectGarbage (hstaged : memory.Staged []) (hkept : memory.Kept)
    (now : ℕ) :
    (memory.collectGarbage now).1.inner.slots =
      memory.inner.slots.map fun slot =>
        if slot.isCollectable now then slot.retire else slot := by
  apply List.ext_getElem?
  intro index
  rw [List.getElem?_map]
  cases hslot : memory.slot? index with
  | some slot =>
      rw [show memory.inner.slots[index]? = some slot from hslot, Option.map_some]
      exact slot?_collectGarbage hstaged hkept hslot
  | none =>
      have hlength : (memory.collectGarbage now).1.inner.slots.length =
          memory.inner.slots.length :=
        (trimmed_collectGarbage now).length
      rw [show memory.inner.slots[index]? = none from hslot, Option.map_none,
        List.getElem?_eq_none_iff, hlength]
      exact List.getElem?_eq_none_iff.mp hslot

theorem length_collectableRows (slots : List SlotHot) (now : ℕ) :
    (slots.zipIdx.filterMap fun (slot, index) =>
      if slot.isCollectable now then
        some (KeyId.new slot.generation (SlotIndex.fromIndex index))
      else none).length = slots.countP (·.isCollectable now) := by
  conv_rhs => rw [← List.zipIdx_map_fst 0 slots]
  rw [List.length_filterMap_eq_countP, List.countP_map]
  apply List.countP_congr
  rintro ⟨slot, index⟩ -
  simp

theorem length_collectable (memory : AuthMemory) (now : ℕ) :
    (memory.collectable now).length =
      memory.inner.slots.countP (·.isCollectable now) +
        (memory.inner.highSlotEntries.filter (·.isDue now)).length := by
  rw [collectable, List.length_append, List.length_map, length_collectableRows]
  rfl

theorem rowsInUse_collectGarbage (hstaged : memory.Staged []) (hkept : memory.Kept)
    {now : ℕ}
    (hhigh : (memory.collectGarbage now).1.inner.highSlotEntries =
      memory.inner.highSlotEntries.filter (!·.isDue now)) :
    memory.rowsInUse =
      (memory.collectGarbage now).1.rowsInUse + (memory.collectGarbage now).2 := by
  have hrows : memory.inner.slots.countP (·.state ≠ .free) =
      (memory.collectGarbage now).1.inner.slots.countP (·.state ≠ .free) +
        memory.inner.slots.countP (·.isCollectable now) := by
    rw [slots_collectGarbage hstaged hkept, List.countP_map,
      List.countP_eq_countP_filter_add _ _ (·.isCollectable now), Nat.add_comm,
      List.countP_filter, List.countP_filter]
    refine congrArg₂ (· + ·) (List.countP_congr fun slot _ => ?_)
      (List.countP_congr fun slot _ => ?_)
    · rw [Function.comp_apply]
      split
      · simp_all [SlotHot.retire, SlotHot.new]
      · simp_all
    · rw [Bool.and_eq_true, and_iff_right_iff_imp, decide_eq_true_iff]
      exact used_of_isCollectable
  have hentries := List.length_eq_length_filter_add
    (l := memory.inner.highSlotEntries) (·.isDue now)
  rw [← hhigh] at hentries
  rw [rowsInUse, rowsInUse, hrows, hentries]
  change _ = _ + (memory.collectable now).length
  rw [length_collectable]
  omega

theorem snapshotGenerations_collectGarbage (hstaged : memory.Staged [])
    (hkept : memory.Kept) (now : ℕ) :
    (memory.collectGarbage now).1.snapshotGenerations =
      memory.snapshotGenerations := by
  have hrows : (memory.collectGarbage now).1.inner.slots.map (·.generation) =
      memory.inner.slots.map (·.generation) := by
    rw [slots_collectGarbage hstaged hkept, List.map_map]
    apply List.map_congr_left
    intro slot _
    rw [Function.comp_apply]
    split <;> rfl
  rw [snapshotGenerations, snapshotGenerations, hrows]
  exact congrArg (_ ++ ·) (trimmed_collectGarbage now).highGenerations

/-- Nothing is left to collect. -/
theorem collectGarbage_again (hstaged : memory.Staged []) (hkept : memory.Kept)
    {now : ℕ}
    (hhigh : (memory.collectGarbage now).1.inner.highSlotEntries =
      memory.inner.highSlotEntries.filter (!·.isDue now)) :
    (memory.collectGarbage now).1.collectGarbage now =
      ((memory.collectGarbage now).1, 0) := by
  have hnone : (memory.collectGarbage now).1.collectable now = [] := by
    apply List.eq_nil_iff_forall_not_mem.mpr
    intro keyId hmem
    rw [mem_collectable] at hmem
    rcases hmem with ⟨index, slot, hslot, hdead, -⟩ | ⟨entry, hentry, hdue, -⟩
    · rw [slot?, slots_collectGarbage hstaged hkept, List.getElem?_map] at hslot
      obtain ⟨before, -, rfl⟩ := Option.map_eq_some_iff.mp hslot
      split at hdead
      · cases hdead
      · rename_i hlive
        exact hlive hdead
    · rw [hhigh, List.mem_filter, hdue] at hentry
      cases hentry.2
  rw [collectGarbage, hnone]
  rfl

/-- The keys above the table that a collection can end. -/
theorem gcExact_of_reapable (hstaged : memory.Staged []) (hkept : memory.Kept)
    {now : ℕ} (hreapable : ∀ entry ∈ memory.inner.highSlotEntries,
      entry.isDue now = true → memory.Reapable entry.keyId) :
    memory.GcExact now := by
  have htouches : Touches (memory.collectable now) memory
      (memory.collectGarbage now).1 :=
    touches_endKeys hstaged hkept _
  have hdue : ∀ entry ∈ memory.inner.highSlotEntries,
      (entry.keyId ∈ memory.collectable now ↔ entry.isDue now = true) :=
    fun entry => keyId_mem_collectable hkept now
  have hhigh : (memory.collectGarbage now).1.inner.highSlotEntries =
      memory.inner.highSlotEntries.filter (!·.isDue now) := by
    refine (highSlotEntries_endKeys hstaged hkept fun entry hentry hmem =>
      hreapable entry hentry ((hdue entry hentry).mp hmem)).trans ?_
    apply List.filter_congr
    intro entry hentry
    rw [decide_not, Bool.eq_iff_iff]
    simp [hdue entry hentry]
  constructor
  · exact fun index slot => slot?_collectGarbage hstaged hkept
  · exact hhigh
  · intro index slot lease hslot hlive hlease
    apply htouches.leases lease (rowKeyId slot index) _
      (hstaged.leased index slot lease hslot hlease)
    rw [rowKeyId_mem_collectable hkept now hslot, hlive]
    exact nofun
  · exact htouches.cold
  · exact htouches.stages
  · exact htouches.timers
  · exact ⟨htouches.wheel, htouches.now⟩
  · exact snapshotGenerations_collectGarbage hstaged hkept now
  · exact rowsInUse_collectGarbage hstaged hkept hhigh
  · exact collectGarbage_again hstaged hkept hhigh

end AuthMemory

/-! ## Histories -/

variable {crypto : AuthCrypto}

/-- A collection is exact if the due entries above the table have a reap that has
not run.  Entries that were live at the last start have none. -/
theorem gcExact_iff {history : AuthHistory}
    (hreachable : (authSystem crypto).Reachable history) {server : AuthServer}
    (hserver : history.server = some server) (now : ℕ) :
    server.memory.GcExact now ↔
      ∀ entry ∈ server.memory.inner.highSlotEntries, entry.isDue now = true →
        server.memory.Reapable entry.keyId := by
  have hstaged := staged_of_reachable hreachable hserver
  have hkept := (coherent_of_reachable hreachable).server server hserver
  constructor
  · intro hexact entry hentry hdue
    by_contra hnot
    have hleft : entry ∈ (server.memory.collectGarbage now).1.inner.highSlotEntries :=
      AuthMemory.mem_highSlotEntries_endKeys hstaged hkept hentry hnot
    rw [hexact.high, List.mem_filter, hdue] at hleft
    cases hleft.2
  · exact AuthMemory.gcExact_of_reapable hstaged hkept

/-- A server with one live key and no entries above the table. -/
theorem gcExact_one_issue : ∃ history server,
    AuthHistory.play [.sampleStart 0 100 [],
      .sampleCommand 100 0 (.issue (.fromSecs 20) none) []] = some history ∧
      history.server = some server ∧
      (server.memory.collectGarbage 150).2 = 1 ∧
      server.memory.GcExact 150 := by
  have hrun : ((AuthHistory.play [.sampleStart 0 100 [],
      .sampleCommand 100 0 (.issue (.fromSecs 20) none) []]).bind
        (·.server)).map (fun server => ((server.memory.collectGarbage 150).2,
          server.memory.inner.highSlotEntries)) = some (1, []) := by
    decide +kernel
  obtain ⟨server, hserver, hread⟩ := Option.map_eq_some_iff.mp hrun
  obtain ⟨history, hplay, hserver⟩ := Option.bind_eq_some_iff.mp hserver
  obtain ⟨hremoved, hhigh⟩ := Prod.mk.inj hread
  refine ⟨history, server, hplay, hserver, hremoved, ?_⟩
  rw [gcExact_iff (AuthHistory.reachable_play hplay) hserver, hhigh]
  exact fun _ hentry => absurd hentry List.not_mem_nil

/-- A key above the table that was live at the last start is counted by every
collection after its deadline, and stays. -/
theorem not_gcExact_above_table : ∃ history server,
    AuthHistory.play [.sampleStart 1 100 [],
      .sampleCommand 100 0 (.issue (.fromSecs 20) none) [],
      .sampleCommand 100 0 (.issue (.fromSecs 20) none) [], .stop,
      .sampleStart 0 105 []] = some history ∧
      history.server = some server ∧
      (server.memory.collectGarbage 200).2 = 2 ∧
      ((server.memory.collectGarbage 200).1.collectGarbage 200).2 = 1 ∧
      ¬server.memory.GcExact 200 := by
  have hrun : ((AuthHistory.play [.sampleStart 1 100 [],
      .sampleCommand 100 0 (.issue (.fromSecs 20) none) [],
      .sampleCommand 100 0 (.issue (.fromSecs 20) none) [], .stop,
      .sampleStart 0 105 []]).bind (·.server)).map (fun server =>
        ((server.memory.collectGarbage 200).2,
          ((server.memory.collectGarbage 200).1.collectGarbage 200).2)) =
      some (2, 1) := by
    decide +kernel
  obtain ⟨server, hserver, hread⟩ := Option.map_eq_some_iff.mp hrun
  obtain ⟨history, hplay, hserver⟩ := Option.bind_eq_some_iff.mp hserver
  obtain ⟨hremoved, hagain⟩ := Prod.mk.inj hread
  refine ⟨history, server, hplay, hserver, hremoved, hagain, fun hexact => ?_⟩
  rw [hexact.again] at hagain
  cases hagain

end PbMapper.Auth

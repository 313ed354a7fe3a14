import PbMapper.Auth.Histories

/-!
# No slot is lost

Every row in use has a reap on the wheel, every description belongs to a row in
use, and once the clock is past the deadlines on the wheel nothing is left.
-/

namespace PbMapper.Auth

open PbMapper.Core MachineWord

namespace AuthMemory

variable {memory : AuthMemory}

/-! ## Draining the wheel -/

/-- Every deadline on the wheel is at `bound` or before. -/
def DueBy (memory : AuthMemory) (bound : ℕ) : Prop :=
  ∀ due timer, (due, timer) ∈ memory.leases.wheel.routes →
    memory.leases.now + (due - memory.leases.wheel.ticks) ≤ bound

/-- No row is in use, no key is described and no temporary lease is live. -/
structure Drained (memory : AuthMemory) : Prop where
  rows : ∀ index slot, memory.slot? index = some slot → slot.state = .free
  cold : ∀ keyId, memory.inner.cold.lookup keyId = none
  leases : ∀ id lease, memory.lease? id = some lease →
    id ≠ memory.inner.adminLease → lease.cancelled = true

/-- A wheel that holds no timer has let all of them run. -/
theorem Kept.drained (hkept : memory.Kept)
    (hempty : memory.leases.wheel.timers = []) : memory.Drained := by
  have hnone : ∀ timer callback, ¬memory.Pending timer callback := by
    intro timer callback hpending
    have hheld := hkept.timed.held timer callback hpending
    rw [hempty, or_self] at hheld
    exact absurd hheld List.not_mem_nil
  have hfree : ∀ index slot, memory.slot? index = some slot →
      slot.state = .free := by
    intro index slot hslot
    by_contra hused
    rcases hkept.owned.reaped index slot hslot hused with
      ⟨timer, lease, hpending⟩ | ⟨lease, hpromised⟩
    · exact hnone _ _ hpending
    · exact absurd hpromised List.not_mem_nil
  refine ⟨hfree, fun keyId => ?_, fun id lease hlease hnot => ?_⟩
  · cases hcold : memory.inner.cold.lookup keyId with
    | none => rfl
    | some cold =>
        obtain ⟨slot, hslot, hholds⟩ := hkept.owned.cold keyId (by rw [hcold]; rfl)
        exact absurd (hfree _ slot hslot) (SlotHot.holds_iff.mp hholds).2
  · by_contra hlive
    have hopen := (Bool.not_eq_true _).mp hlive
    rcases hkept.owned.leased id lease hlease hopen hnot with
      ⟨timer, keyId, hpending⟩ | ⟨keyId, hpromised⟩
    · exact hnone _ _ hpending
    · exact absurd hpromised List.not_mem_nil

/-- Past the deadlines on it the wheel is empty. -/
theorem DueBy.timers_eq_nil {bound : ℕ} (hdue : memory.DueBy bound)
    (hnow : bound ≤ memory.leases.now) : memory.leases.wheel.timers = [] := by
  rw [List.eq_nil_iff_forall_not_mem]
  intro timer htimer
  obtain ⟨due, hroute⟩ := TimingWheel.mem_timers.mp htimer
  have hlate := TimingWheel.lt_of_mem_routes hroute
  have hsoon := hdue due timer hroute
  omega

theorem DueBy.quiet {memory' : AuthMemory} {bound : ℕ} (hdue : memory.DueBy bound)
    (hquiet : Quiet memory memory') : memory'.DueBy bound := by
  rw [DueBy, hquiet.wheel, hquiet.now]
  exact hdue

theorem DueBy.tickSecond {bound : ℕ} (hdue : memory.DueBy bound)
    (htimed : memory.Timed []) (hnow : memory.leases.now < u64Max) :
    memory.tickSecond.DueBy bound := by
  have hroom : memory.leases.wheel.ticks + 1 < 2 ^ 64 := by
    have hticks := htimed.ticks_le
    have hmax : u64Max < 2 ^ 64 := by decide
    omega
  obtain ⟨-, hclock, -, -, hroutes⟩ := htimed.wellFormed.ticked hroom
  have hleases : memory.tickSecond.leases.wheel = memory.leases.wheel.tick.1 := by
    rw [tickSecond_eq, AuthMemory.release, leases_fires]
    rfl
  intro due timer hroute
  rw [hleases] at hroute ⊢
  rw [now_tickSecond, hclock]
  have hlate := TimingWheel.lt_of_mem_routes hroute
  have hbefore := hdue due timer (by
    rw [← hroutes]
    exact Multiset.mem_add.mpr (.inr hroute))
  omega

theorem DueBy.tickSeconds {bound count : ℕ} {memory : AuthMemory}
    (hdue : memory.DueBy bound) (htimed : memory.Timed [])
    (hnow : memory.leases.now + count ≤ u64Max) :
    (tickSeconds count memory).DueBy bound := by
  induction count generalizing memory with
  | zero => exact hdue
  | succ count ih =>
      have hlt : memory.leases.now < u64Max := by omega
      apply ih (hdue.tickSecond htimed hlt) (htimed.tickSecond hlt)
      rw [now_tickSecond]
      omega

theorem now_tickSeconds (count : ℕ) (memory : AuthMemory) :
    (tickSeconds count memory).leases.now = memory.leases.now + count := by
  induction count generalizing memory with
  | zero => rfl
  | succ count ih =>
      rw [tickSeconds, ih, now_tickSecond]
      omega

/-- The clock of the wheel follows the ticks, and does not go back. -/
theorem now_tickLeases (memory : AuthMemory) (now : ℕ) :
    (memory.tickLeases now).leases.now = max memory.leases.now now := by
  rw [tickLeases]
  split
  · have hleases : (memory.dropSchedule now).leases = ⟨newWheel, now, ∅⟩ := by
      rw [dropSchedule]
      exact leases_fires _ _
    rw [hleases]
    simp only
    omega
  · rw [now_tickSeconds]
    omega

theorem DueBy.tickLeases {bound now : ℕ} (hdue : memory.DueBy bound)
    (htimed : memory.Timed []) (hnow : now ≤ u64Max) :
    (memory.tickLeases now).DueBy bound := by
  have hbound := htimed.now_le
  rw [AuthMemory.tickLeases]
  split
  · obtain ⟨-, -, hleases⟩ := htimed.dropSchedule hnow
    intro due timer hroute
    rw [hleases, newWheel_timed.2.2.2.2] at hroute
    exact absurd hroute (Multiset.notMem_zero _)
  · apply hdue.tickSeconds htimed
    omega

end AuthMemory

/-! ## Runs of ticks -/

def AuthEvent.IsTick (event : AuthEvent) : Prop :=
  ∃ now outcomes, event = .tick now outcomes

/-- A server whose ticks drain the wheel: until the clock is at `bound` every
deadline is, and then the wheel is empty. -/
def AuthHistory.Draining (bound : ℕ) (passed : Prop) (history : AuthHistory) :
    Prop :=
  ∀ server, history.server = some server → server.memory.Kept ∧
    server.memory.DueBy bound ∧ (passed → bound ≤ server.memory.leases.now)

variable {crypto : AuthCrypto}

/-- One tick, whatever becomes of the compaction. -/
theorem TickMove.quiet {now : Seconds} {memory last : AuthMemory}
    {dir dir' : StateDir} {ended : Except Interruption Unit}
    (hmove : TickMove now memory dir ended last dir') :
    AuthMemory.Quiet (memory.tickLeases now) last := by
  have hpruned : AuthMemory.Quiet (memory.tickLeases now)
      ((memory.tickLeases now).pruneExpiredAdminReplays now) :=
    AuthMemory.quiet_pruneExpiredAdminReplays now
  cases hmove with
  | ticked heq =>
      rw [heq]
      exact hpruned
  | compacted heq hopen =>
      rw [heq]
      exact hpruned.trans (AuthMemory.quiet_setLastSnapshotAt _)
  | compactCut heq hopen hcut =>
      rw [heq] at hcut
      cases hcut with
      | failed => exact hpruned.trans AuthMemory.quiet_failClosed
      | stopped => exact hpruned

theorem AuthHistory.Draining.tick {bound : ℕ} {passed : Prop}
    {history next : AuthHistory} {now : Seconds} {outcomes : List FileOutcome}
    (hdraining : history.Draining bound passed)
    (hstep : (authSystem crypto).step history (.tick now outcomes) next) :
    next.Draining bound (passed ∨ bound ≤ now) := by
  cases step_moves hstep with
  | ticked hserver hmove =>
      rintro server hnext
      cases hnext
      obtain ⟨hkept, hdue, hpassed⟩ := hdraining _ hserver
      have hnow := u64_le now
      refine ⟨hmove.kept hkept,
        (hdue.tickLeases hkept.timed hnow).quiet hmove.quiet, fun hreached => ?_⟩
      rw [hmove.quiet.now, AuthMemory.now_tickLeases]
      rcases hreached with hreached | hreached
      · exact (hpassed hreached).trans (le_max_left _ _)
      · exact hreached.trans (le_max_right _ _)
  | tickStopped hserver hmove => exact nofun

theorem AuthHistory.Draining.run {bound : ℕ} {history last : AuthHistory}
    {events : List AuthEvent} (hdraining : history.Draining bound False)
    (hticks : ∀ event ∈ events, event.IsTick)
    (hrun : (authSystem crypto).Run history events last) :
    last.Draining bound
      (∃ (now : Seconds) (outcomes : List FileOutcome),
        .tick now outcomes ∈ events ∧ bound ≤ now) := by
  induction hrun with
  | nil =>
      intro server hserver
      obtain ⟨hkept, hdue, -⟩ := hdraining server hserver
      exact ⟨hkept, hdue, fun ⟨_, _, hnone, _⟩ => absurd hnone List.not_mem_nil⟩
  | @snoc middle last events event _ hstep ih =>
      obtain ⟨now, outcomes, rfl⟩ :=
        hticks event (List.mem_append_right _ List.mem_cons_self)
      have hmiddle := ih fun other hother =>
        hticks other (List.mem_append_left _ hother)
      intro server hserver
      obtain ⟨hkept, hdue, hpassed⟩ := hmiddle.tick hstep server hserver
      refine ⟨hkept, hdue, ?_⟩
      rintro ⟨time, faults, hmem, hreached⟩
      apply hpassed
      rcases List.mem_append.mp hmem with hearlier | hlast
      · exact .inl ⟨time, faults, hearlier, hreached⟩
      · cases List.mem_singleton.mp hlast
        exact .inr hreached

/-! ## Nothing is lost -/

/-- No row, no description and no lease of the running server outlives the
deadlines on its wheel. -/
structure NoLeak (crypto : AuthCrypto) (history : AuthHistory)
    (memory : AuthMemory) : Prop where
  reaped : ∀ index slot, memory.slot? index = some slot → slot.state ≠ .free →
    ∃ due timer lease, (due, timer) ∈ memory.leases.wheel.routes ∧
      memory.Pending timer (.reap (AuthMemory.rowKeyId slot index) lease)
  described : ∀ index slot, memory.slot? index = some slot → slot.state ≠ .free →
    (memory.inner.cold.lookup (AuthMemory.rowKeyId slot index)).isSome
  cold : ∀ keyId, (memory.inner.cold.lookup keyId).isSome →
    ∃ slot, memory.slot? keyId.slot.asIndex = some slot ∧ slot.holds keyId = true
  drained : ∀ events last server, (authSystem crypto).Run history events last →
    (∀ event ∈ events, event.IsTick) → last.server = some server →
      (∃ (now : Seconds) (outcomes : List FileOutcome),
        .tick now outcomes ∈ events ∧ memory.DueBy now) → server.memory.Drained

theorem noLeak_of_reachable {history : AuthHistory}
    (hreachable : (authSystem crypto).Reachable history) {server : AuthServer}
    (hserver : history.server = some server) :
    NoLeak crypto history server.memory := by
  have hkept := (coherent_of_reachable hreachable).server server hserver
  refine ⟨fun index slot hslot hused => ?_, hkept.owned.described, hkept.owned.cold,
    ?_⟩
  · rcases hkept.owned.reaped index slot hslot hused with
      ⟨timer, lease, hpending⟩ | ⟨lease, hpromised⟩
    · have hheld := (hkept.timed.held timer _ hpending).resolve_right
        List.not_mem_nil
      obtain ⟨due, hroute⟩ := TimingWheel.mem_timers.mp hheld
      exact ⟨due, timer, lease, hroute, hpending⟩
    · exact absurd hpromised List.not_mem_nil
  · rintro events last final hrun hticks hfinal ⟨now, outcomes, htick, hdue⟩
    have hdraining : history.Draining now False := by
      intro running hrunning
      rw [hserver] at hrunning
      cases hrunning
      exact ⟨hkept, hdue, False.elim⟩
    obtain ⟨hlast, hempty, hpassed⟩ := hdraining.run hticks hrun final hfinal
    exact hlast.drained (hempty.timers_eq_nil
      (hpassed ⟨now, outcomes, htick, le_rfl⟩))

/-- A server with one key. -/
theorem noLeak_of_one_issue : ∃ history server,
    AuthHistory.play [.sampleStart 0 100 [],
      .sampleCommand 100 0 (.issue (.fromSecs 20) none) []] = some history ∧
      history.server = some server ∧
      server.memory.inner.slots.map (·.state) = [.active] ∧
      NoLeak .sample history server.memory := by
  have hrun : ((AuthHistory.play [.sampleStart 0 100 [],
      .sampleCommand 100 0 (.issue (.fromSecs 20) none) []]).bind
        (·.server)).map (·.memory.inner.slots.map (·.state)) = some [.active] := by
    decide +kernel
  obtain ⟨server, hserver, hstates⟩ := Option.map_eq_some_iff.mp hrun
  obtain ⟨history, hplay, hserver⟩ := Option.bind_eq_some_iff.mp hserver
  exact ⟨history, server, hplay, hserver, hstates,
    noLeak_of_reachable (AuthHistory.reachable_play hplay) hserver⟩

end PbMapper.Auth

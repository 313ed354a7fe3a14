import PbMapper.Auth.Issues
import PbMapper.Auth.Wipes

/-!
# A store that failed closed

A failed write whose outcome is uncertain cancels every lease of the table and
puts the store in safe mode.  From there no lease comes back to life, and nothing
is issued, renewed, revoked or collected, until the root of the keys is replaced or
the server starts again.
-/

namespace PbMapper.Auth

open PbMapper.Core MachineWord

namespace AuthMemory

variable {memory after : AuthMemory}

/-! ## Leases that only end -/

/-- No row takes a lease, and no lease comes back to life. -/
structure Dwindles (memory after : AuthMemory) : Prop where
  rows : ∀ index slot id, after.slot? index = some slot → slot.lease = some id →
    ∃ before, memory.slot? index = some before ∧ before.lease = some id
  alive : ∀ lease id, after.upgrade lease = some id → memory.upgrade lease = some id
  leases : ∀ id lease, after.lease? id = some lease → lease.cancelled = false →
    ∃ before, memory.lease? id = some before ∧ before.cancelled = false

theorem Dwindles.refl (memory : AuthMemory) : Dwindles memory memory :=
  ⟨fun _ slot _ hslot hlease => ⟨slot, hslot, hlease⟩, fun _ _ halive => halive,
    fun _ lease hlease hlive => ⟨lease, hlease, hlive⟩⟩

theorem Dwindles.trans {middle : AuthMemory} (hfirst : Dwindles memory middle)
    (hsecond : Dwindles middle after) : Dwindles memory after where
  rows index slot id hslot hlease := by
    obtain ⟨before, hbefore, hsame⟩ := hsecond.rows index slot id hslot hlease
    exact hfirst.rows index before id hbefore hsame
  alive lease id halive := hfirst.alive lease id (hsecond.alive lease id halive)
  leases id lease hlease hlive := by
    obtain ⟨before, hbefore, hstill⟩ := hsecond.leases id lease hlease hlive
    exact hfirst.leases id before hbefore hstill

theorem dwindles_of_quiet (hquiet : Quiet memory after) :
    Dwindles memory after where
  rows index slot id hslot hlease := by
    rw [hquiet.slot?] at hslot
    exact ⟨slot, hslot, hlease⟩
  alive lease id halive := by
    rw [upgrade, hquiet.adminLease, hquiet.timerHeap] at halive
    exact halive
  leases := hquiet.leases

/-- A lease lives on as the administrator's, or in a timer that has not run. -/
theorem upgrade_eq_some {lease : Option LeaseId} {id : LeaseId} :
    memory.upgrade lease = some id ↔
      lease = some id ∧ (id = memory.inner.adminLease ∨
        ∃ timer callback, memory.Pending timer callback ∧
          callback.lease = some id) := by
  rw [upgrade, Option.filter_eq_some_iff]
  apply and_congr_right
  intro _
  rw [Bool.or_eq_true, beq_iff_eq, List.any_eq_true]
  apply or_congr_right
  constructor
  · rintro ⟨found, hfound, hany⟩
    obtain ⟨timer, htimer⟩ := List.mem_iff_getElem?.mp hfound
    obtain ⟨callback, rfl, hlease⟩ := (Option.any_eq_true _ _).mp hany
    exact ⟨timer, callback, htimer, beq_iff_eq.mp hlease⟩
  · rintro ⟨timer, callback, hpending, hlease⟩
    apply Exists.intro (some callback)
    exact ⟨List.mem_iff_getElem?.mpr ⟨timer, hpending⟩, beq_iff_eq.mpr hlease⟩

/-- A lease that is live once a timer has run was live before. -/
theorem live_fire {timer : TimerId} {id : LeaseId} {lease : AuthLease}
    (hlease : (memory.fire timer).lease? id = some lease)
    (hlive : lease.cancelled = false) :
    ∃ before, memory.lease? id = some before ∧ before.cancelled = false := by
  rcases fire_cases memory timer with ⟨callback, -, hfire⟩ | ⟨-, hfire⟩
  · rw [hfire] at hlease
    cases callback with
    | retire keyId ended =>
        rw [runCallback, lease?_retire] at hlease
        obtain ⟨before, hbefore, rfl⟩ := Option.map_eq_some_iff.mp hlease
        apply Exists.intro before
        split at hlive
        · cases hlive
        · exact ⟨hbefore, hlive⟩
    | reap keyId ended =>
        rw [runCallback, lease?_reap] at hlease
        exact ⟨lease, hlease, hlive⟩
  · rw [hfire] at hlease
    exact ⟨lease, hlease, hlive⟩

theorem dwindles_fire (memory : AuthMemory) (timer : TimerId) :
    Dwindles memory (memory.fire timer) where
  rows index slot id hslot hlease := by
    obtain ⟨before, hbefore, -, hsame | hnone, -⟩ := slot?_fire hslot
    · exact ⟨before, hbefore, hsame.symm.trans hlease⟩
    · cases hnone.symm.trans hlease
  alive lease id halive := by
    rw [upgrade_eq_some, (ran_fire memory timer).field (·.adminLease) rfl] at halive
    obtain ⟨rfl, hadmin | ⟨other, callback, hpending, hlease⟩⟩ := halive
    · exact upgrade_eq_some.mpr ⟨rfl, .inl hadmin⟩
    · have hbefore := (pending_fire.mp hpending).1
      exact upgrade_eq_some.mpr ⟨rfl, .inr ⟨other, callback, hbefore, hlease⟩⟩
  leases _ _ hlease hlive := live_fire hlease hlive

theorem dwindles_fires (timers : List TimerId) (memory : AuthMemory) :
    Dwindles memory (timers.foldl fire memory) := by
  induction timers generalizing memory with
  | nil => exact .refl memory
  | cons timer timers ih => exact (dwindles_fire memory timer).trans (ih _)

theorem dwindles_updateLeases (change : Leases → Leases) :
    Dwindles memory (memory.updateLeases change) :=
  ⟨fun _ slot _ hslot hlease => ⟨slot, hslot, hlease⟩, fun _ _ halive => halive,
    fun _ lease hlease hlive => ⟨lease, hlease, hlive⟩⟩

theorem dwindles_tickSeconds (count : ℕ) (memory : AuthMemory) :
    Dwindles memory (tickSeconds count memory) := by
  induction count generalizing memory with
  | zero => exact .refl memory
  | succ count ih =>
      have hticked : Dwindles memory memory.tickSecond := by
        rw [tickSecond_eq]
        exact (dwindles_updateLeases _).trans (dwindles_fires _ _)
      exact hticked.trans (ih _)

/-- Time ends leases and starts none. -/
theorem dwindles_tickLeases (now : ℕ) :
    Dwindles memory (memory.tickLeases now) := by
  rw [tickLeases]
  split
  · exact (dwindles_updateLeases fun _ => ⟨newWheel, now, ∅⟩).trans
      (dwindles_fires _ _)
  · exact dwindles_tickSeconds _ _

/-! ## Shut stores -/

/-- Whatever lease of the table is alive is cancelled. -/
def Shut (memory : AuthMemory) : Prop :=
  ∀ index slot id lease, memory.slot? index = some slot →
    memory.upgrade slot.lease = some id → memory.lease? id = some lease →
      lease.cancelled = true

theorem Shut.dwindles (hshut : memory.Shut) (hdwindles : Dwindles memory after) :
    after.Shut := by
  intro index slot id lease hslot halive hlease
  by_contra hlive
  rw [Bool.not_eq_true] at hlive
  have hsame := (upgrade_eq_some.mp halive).1
  obtain ⟨before, hbefore, hheld⟩ := hdwindles.rows index slot id hslot hsame
  obtain ⟨earlier, hearlier, hstill⟩ := hdwindles.leases id lease hlease hlive
  have hupgraded : memory.upgrade before.lease = some id := by
    rw [hheld.trans hsame.symm]
    exact hdwindles.alive slot.lease id halive
  have hcancelled := hshut index before id earlier hbefore hupgraded hearlier
  exact Bool.noConfusion (hstill.symm.trans hcancelled)

theorem Shut.quiet (hshut : memory.Shut) (hquiet : Quiet memory after) :
    after.Shut :=
  hshut.dwindles (dwindles_of_quiet hquiet)

/-- Cancelling leases one after the other cancels each of them. -/
theorem cancelled_foldl {reason : CancelReason} {ids : List LeaseId} {id : LeaseId}
    (hid : id ∈ ids) {lease : AuthLease}
    (hlease : (ids.foldl (recordCancel reason) memory).lease? id = some lease) :
    lease.cancelled = true := by
  induction ids generalizing memory with
  | nil => cases hid
  | cons first ids ih =>
      rw [List.foldl_cons] at hlease
      by_cases hrest : id ∈ ids
      · exact ih hrest hlease
      · have hfirst : id = first := (List.mem_cons.mp hid).resolve_right hrest
        by_contra hlive
        rw [Bool.not_eq_true] at hlive
        have hquiet : Quiet (recordCancel reason memory first)
            (ids.foldl (recordCancel reason) (recordCancel reason memory first)) :=
          quiet_foldl (fun _ => quiet_recordCancel reason) ids _
        obtain ⟨before, hbefore, hstill⟩ := hquiet.leases id lease hlease hlive
        rw [lease?_recordCancel] at hbefore
        obtain ⟨earlier, -, rfl⟩ := Option.map_eq_some_iff.mp hbefore
        rw [if_pos hfirst] at hstill
        cases hstill

/-- A store that fails closed is shut. -/
theorem shut_failClosed (memory : AuthMemory) : memory.failClosed.Shut := by
  intro index slot id lease hslot halive hlease
  have hquiet : Quiet memory memory.failClosed := quiet_failClosed
  rw [hquiet.slot?] at hslot
  have hbefore := (dwindles_of_quiet hquiet).alive slot.lease id halive
  rw [failClosed, cancelAllTemporaryLeases] at hlease
  apply cancelled_foldl _ hlease
  exact List.mem_filterMap.mpr ⟨slot, List.mem_of_getElem? hslot, hbefore⟩

/-- A store in safe mode is shut. -/
def Latched (memory : AuthMemory) : Prop :=
  memory.inner.safeMode = true → memory.Shut

/-- No temporary credential is accepted, and whoever holds a lease of the table is
told that it is not active. -/
structure Closed (memory : AuthMemory) : Prop where
  safeMode : memory.inner.safeMode = true
  refused : ∀ (crypto : AuthCrypto) (keyId : KeyId) (presentedKey : AesKeyType)
    (now : ℕ), keyId.isAdmin = false →
      (memory.authenticatePresented crypto keyId presentedKey now).1.isOk = false
  inactive : ∀ (context : AuthContext) (now index : ℕ) (slot : SlotHot),
    memory.slot? index = some slot → slot.lease = some context.lease →
      (memory.ensureActive context now).1.isOk = false

theorem Shut.closed (hshut : memory.Shut) (hsafe : memory.inner.safeMode = true) :
    memory.Closed where
  safeMode := hsafe
  refused crypto keyId presentedKey now hkey := by
    rw [authenticatePresented, hkey, if_neg Bool.false_ne_true, if_pos hsafe]
    rfl
  inactive context now index slot hslot hheld := by
    rw [ensureActive]
    split
    · rename_i id lease halive hlease
      have hsame : context.lease = id :=
        Option.some.inj (upgrade_eq_some.mp halive).1
      rw [← hheld] at halive
      rw [hsame] at hlease
      rw [if_pos (hshut index slot id lease hslot halive hlease)]
      rfl
    · rfl

end AuthMemory

/-! ## Commands -/

/-- The commands that change keys or who may connect without one. -/
def AuthCommand.changesKeys : AuthCommand → Bool
  | .issue _ _ | .renew _ _ | .revoke _ | .gc | .setLegacyProtocol _ => true
  | _ => false

variable {crypto : AuthCrypto} {config : AuthConfig} {env : Surroundings}
  {memory base published last : AuthMemory} {dir dir' : StateDir}
  {command : AuthCommand} {record : WalRecord} {stop : Interruption}
  {result : Except AuthFailure AuthResponse}

theorem AuthMemory.available_of_planRevoke {keyId : KeyId} {current : KeyState}
    (hplan : memory.planRevoke keyId = .ok current) :
    memory.inner.safeMode = false := by
  rw [AuthMemory.planRevoke] at hplan
  cases hopen : ensureStoreAvailable memory with
  | error failure =>
      rw [hopen] at hplan
      cases hplan
  | ok _ => exact available_of_ensureStoreAvailable hopen

theorem Appends.base_safeMode
    (happends :
      Appends crypto config env memory command base record result published) :
    base.inner.safeMode = memory.inner.safeMode := by
  cases happends with
  | claim hpruned =>
      rw [hpruned]
      rfl
  | _ => rfl

/-- What a store in safe mode still appends changes no key. -/
theorem Appends.closed
    (happends :
      Appends crypto config env memory command base record result published)
    (hsafe : memory.inner.safeMode = true) :
    command.changesKeys = false ∧ AuthMemory.Quiet memory base ∧
      AuthMemory.Quiet memory published := by
  have habsurd : ∀ {claim : Prop}, memory.inner.safeMode = false → claim :=
    fun hopen => Bool.noConfusion (hsafe.symm.trans hopen)
  cases happends with
  | claim hpruned =>
      rw [hpruned]
      have hquiet : AuthMemory.Quiet memory
          (memory.pruneExpiredAdminReplays (env.clock 0)) :=
        AuthMemory.quiet_pruneExpiredAdminReplays _
      exact ⟨rfl, hquiet, hquiet.trans (AuthMemory.quiet_admitMutation _)⟩
  | issue hplan => exact habsurd (AuthMemory.plannedIssue hplan).available
  | renew hplan => exact habsurd (AuthMemory.plannedRenew hplan).available
  | renewLost hplan => exact habsurd (AuthMemory.plannedRenew hplan).available
  | revoke hplan => exact habsurd (AuthMemory.available_of_planRevoke hplan)
  | revokeLost hplan => exact habsurd (AuthMemory.available_of_planRevoke hplan)
  | setLegacyProtocol hopen =>
      exact habsurd (AuthMemory.available_of_ensureStoreAvailable hopen)
  | «show» => exact ⟨rfl, .refl memory, AuthMemory.quiet_pushAuditRecord _⟩
  | audit => exact ⟨rfl, .refl memory, AuthMemory.quiet_pushAuditRecord _⟩

theorem AppendCut.latched (hcut : AppendCut base dir record stop last dir')
    (hlatched : base.Latched) : last.Latched := by
  cases hcut with
  | retryable => exact hlatched
  | uncertain => exact fun _ => base.shut_failClosed
  | stopped => exact hlatched

theorem CompactCut.latched {snapshot : PersistedSnapshot}
    (hcut : CompactCut base dir snapshot stop last dir')
    (hlatched : base.Latched) :
    last.Latched := by
  cases hcut with
  | failed => exact fun _ => base.shut_failClosed
  | stopped => exact hlatched

theorem ReplaceCut.latched {writes : List (StateDir → StateDir)}
    {installed : StateDir → Prop} {remove : StateDir → StateDir}
    (hcut : ReplaceCut base dir writes installed remove stop last dir')
    (hlatched : base.Latched) : last.Latched := by
  cases hcut with
  | failed => exact fun _ => base.shut_failClosed
  | stopped => exact hlatched
  | removed => exact hlatched

theorem AuthMemory.Latched.quiet (hlatched : memory.Latched)
    (hquiet : AuthMemory.Quiet memory last)
    (hsafe : last.inner.safeMode = memory.inner.safeMode) : last.Latched :=
  fun hlast => (hlatched (hsafe.symm.trans hlast)).quiet hquiet

theorem AuthMemory.latched_of_open (hopen : memory.inner.safeMode = false) :
    memory.Latched :=
  fun hsafe => Bool.noConfusion (hopen.symm.trans hsafe)

theorem AuthMemory.safeMode_pushAuditRecord (memory : AuthMemory)
    (record : AuditRecord) :
    (memory.pushAuditRecord record).inner.safeMode = memory.inner.safeMode := by
  obtain ⟨records, hpushed⟩ := pushAuditRecord_eq memory record
  rw [hpushed]

theorem AuthMemory.safeMode_collectGarbage {kept : AuthMemory} {removed now : ℕ}
    (hkept : memory.collectGarbage now = (kept, removed)) :
    kept.inner.safeMode = memory.inner.safeMode := by
  have hsettings := AuthMemory.settings_collectGarbage memory now
  rw [hkept] at hsettings
  exact congrArg Settings.safeMode hsettings

/-- Whatever puts the store in safe mode shuts it, and no command opens it half. -/
theorem CommandMove.latched {ended : Except Interruption AuthResponse}
    (hmove : CommandMove crypto config env memory dir command ended last dir')
    (hlatched : memory.Latched) : last.Latched := by
  have hbumped : memory.bumpRootEpoch.Latched :=
    hlatched.quiet AuthMemory.quiet_bumpRootEpoch rfl
  cases hmove with
  | refused => exact hlatched
  | claimRefused =>
      exact hlatched.quiet (AuthMemory.quiet_pruneExpiredAdminReplays _) rfl
  | listed => exact hlatched
  | status => exact hlatched
  | appended happends =>
      intro hlast
      have hsafe := happends.safeMode.symm.trans hlast
      exact (hlatched hsafe).quiet (happends.closed hsafe).2.2
  | appendCut happends hcut =>
      apply hcut.latched
      intro hbase
      have hsafe := happends.base_safeMode.symm.trans hbase
      exact (hlatched hsafe).quiet (happends.closed hsafe).2.1
  | @collected kept removed hopen hkept =>
      apply AuthMemory.latched_of_open
      calc (kept.pushAuditRecord (gcAudit env removed)).inner.safeMode
          = kept.inner.safeMode := kept.safeMode_pushAuditRecord _
        _ = memory.inner.safeMode := AuthMemory.safeMode_collectGarbage hkept
        _ = false := AuthMemory.available_of_ensureStoreAvailable hopen
  | collectCut hopen hkept hcut =>
      apply hcut.latched
      apply AuthMemory.latched_of_open
      rw [AuthMemory.safeMode_collectGarbage hkept]
      exact AuthMemory.available_of_ensureStoreAvailable hopen
  | reset => exact AuthMemory.latched_of_open rfl
  | resetCut hbump hcut =>
      rw [hbump] at hcut
      exact hcut.latched hbumped
  | rotated => exact AuthMemory.latched_of_open rfl
  | rotateCut hnew hbump hcut =>
      rw [hbump] at hcut
      exact hcut.latched hbumped

theorem isOk_answer {Value : Type} (result : Except AuthFailure Value) :
    (answer result).isOk = result.isOk := by
  cases result <;> rfl

/-- A closed store carries out no command on keys. -/
theorem CommandMove.keeps_keys {ended : Except Interruption AuthResponse}
    (hmove : CommandMove crypto config env memory dir command ended last dir')
    (hsafe : memory.inner.safeMode = true) (hok : ended.isOk = true) :
    command.changesKeys = false := by
  cases hmove with
  | appended happends => exact (happends.closed hsafe).1
  | collected hopen =>
      have havailable := AuthMemory.available_of_ensureStoreAvailable hopen
      exact Bool.noConfusion (hsafe.symm.trans havailable)
  | listed | status | reset | rotated => rfl
  | refused | claimRefused | appendCut | collectCut | resetCut | rotateCut =>
      cases hok

theorem ReplaceCut.stays_closed {writes : List (StateDir → StateDir)}
    {installed : StateDir → Prop} {remove : StateDir → StateDir}
    (hcut : ReplaceCut base dir writes installed remove stop last dir')
    (hsafe : base.inner.safeMode = true) : last.inner.safeMode = true := by
  cases hcut with
  | failed => exact congrArg Settings.safeMode base.settings_failClosed
  | stopped => exact hsafe
  | removed => exact hsafe

/-- Only a replaced root opens a closed store. -/
theorem CommandMove.stays_closed {ended : Except Interruption AuthResponse}
    (hmove : CommandMove crypto config env memory dir command ended last dir')
    (hsafe : memory.inner.safeMode = true)
    (hroot : ended.isOk = true → command.replacesRoot = false) :
    last.inner.safeMode = true := by
  cases hmove with
  | refused | listed | status => exact hsafe
  | claimRefused => exact hsafe
  | appended happends => exact happends.safeMode.trans hsafe
  | appendCut happends hcut =>
      have hbase := happends.base_safeMode.trans hsafe
      cases hcut with
      | retryable => exact hbase
      | uncertain =>
          exact congrArg Settings.safeMode (AuthMemory.settings_failClosed _)
      | stopped => exact hbase
  | collected hopen =>
      have havailable := AuthMemory.available_of_ensureStoreAvailable hopen
      exact Bool.noConfusion (hsafe.symm.trans havailable)
  | collectCut hopen =>
      have havailable := AuthMemory.available_of_ensureStoreAvailable hopen
      exact Bool.noConfusion (hsafe.symm.trans havailable)
  | reset => cases hroot rfl
  | rotated => cases hroot rfl
  | resetCut hbump hcut =>
      apply hcut.stays_closed
      rw [hbump]
      exact hsafe
  | rotateCut hnew hbump hcut =>
      apply hcut.stays_closed
      rw [hbump]
      exact hsafe

/-! ## Ticks and starts -/

theorem TickMove.closed {now : Seconds} {ended : Except Interruption Unit}
    (hmove : TickMove now memory dir ended last dir') (hlatched : memory.Latched) :
    last.Latched ∧
      (memory.inner.safeMode = true → last.inner.safeMode = true) := by
  have hticked : ((memory.tickLeases now).pruneExpiredAdminReplays now).inner.safeMode =
      memory.inner.safeMode :=
    congrArg Settings.safeMode (memory.settings_tickLeases now)
  cases hmove with
  | ticked hpruned =>
      rw [hpruned]
      constructor
      · intro hlast
        have hshut := (hlatched (hticked.symm.trans hlast)).dwindles
          (AuthMemory.dwindles_tickLeases now)
        exact hshut.quiet (AuthMemory.quiet_pruneExpiredAdminReplays _)
      · exact fun hsafe => hticked.trans hsafe
  | compacted hpruned hopen =>
      constructor
      · exact AuthMemory.latched_of_open hopen
      · intro hsafe
        rw [hpruned, hticked, hsafe] at hopen
        cases hopen
  | compactCut hpruned hopen hcut =>
      constructor
      · exact hcut.latched (AuthMemory.latched_of_open hopen)
      · intro hsafe
        rw [hpruned, hticked, hsafe] at hopen
        cases hopen

/-- A server that starts in safe mode has an empty table. -/
theorem AuthMemory.latched_restored (config : AuthConfig) (adminKey : AesKeyType)
    (instanceId : InstanceId) (now lastSnapshotAt : ℕ) :
    ((restoredMemory config adminKey instanceId none true now
      lastSnapshotAt).restoreLeases now).Latched := by
  have hfree : ∀ slot ∈ emptyTable config.maxTemporaryKeys [],
      slot.state = .free ∧ slot.lease = none := by
    intro slot hslot
    rw [emptyTable, List.mem_map] at hslot
    obtain ⟨index, -, rfl⟩ := hslot
    exact ⟨rfl, rfl⟩
  have hrows : ∀ row ∈ (emptyTable config.maxTemporaryKeys []).zipIdx,
      row.1.state = .free :=
    fun row hrow => (hfree _ (List.fst_mem_of_mem_zipIdx hrow)).1
  generalize hmemory : restoredMemory config adminKey instanceId none true now
    lastSnapshotAt = memory
  have hslots : memory.inner.slots = emptyTable config.maxTemporaryKeys [] := by
    rw [← hmemory]
    rfl
  have hhigh : memory.inner.highSlotEntries = [] := by
    rw [← hmemory]
    rfl
  have hlive : memory.liveRows = [] := by
    rw [liveRows, hslots, List.filterMap_eq_nil_iff]
    rintro ⟨slot, index⟩ hrow
    have hstate : slot.state = .free := hrows _ hrow
    simp [hstate]
  have hdead : memory.deadKeys = [] := by
    rw [deadKeys, hslots, hhigh, List.filter_nil, List.map_nil, List.append_nil,
      List.filterMap_eq_nil_iff]
    rintro ⟨slot, index⟩ hrow
    have hstate : slot.state = .free := hrows _ hrow
    simp [hstate]
  rw [restoreLeases, hlive, hdead]
  intro hsafe index slot id lease hslot halive hlease
  rw [slot?, List.foldl_nil, List.foldl_nil, hslots] at hslot
  rw [(hfree slot (List.mem_of_getElem? hslot)).2] at halive
  cases (upgrade_eq_some.mp halive).1

theorem StartMove.latched {env : StartSurroundings}
    (hmove : StartMove crypto config env dir (some memory) dir') :
    memory.Latched := by
  cases hmove with
  | safeMode => exact AuthMemory.latched_restored config _ _ _ _
  | loaded =>
      apply AuthMemory.latched_of_open
      exact AuthMemory.safeMode_restored _ _ _ _ _ _

/-! ## Histories -/

def AuthEvent.isStart : AuthEvent → Bool
  | .start _ _ _ => true
  | _ => false

/-- Whether a command among the `chosen` ones was carried out. -/
def AuthRecord.carriesOut (chosen : AuthCommand → Bool) : AuthRecord → Bool
  | .answered _ command answer => answer.isOk && chosen command
  | .started _ => false

namespace AuthHistory

variable {history next later : AuthHistory}

/-- In every history a server in safe mode is shut. -/
theorem latched_of_reachable (hreachable : (authSystem crypto).Reachable history)
    {server : AuthServer} (hserver : history.server = some server) :
    server.memory.Latched := by
  refine hreachable.invariant (motive := fun history => ∀ server,
    history.server = some server → server.memory.Latched) ?_ ?_ server hserver
  · rintro history rfl server hserver
    cases hserver
  · intro history event next hlatched hstep server hserver
    cases step_moves hstep with
    | started _ hmove =>
        cases hserver
        exact hmove.latched
    | startCut => cases hserver
    | answered hbefore hmove =>
        cases hserver
        exact hmove.latched (hlatched _ hbefore)
    | commandStopped => cases hserver
    | ticked hbefore hmove =>
        cases hserver
        exact (hmove.closed (hlatched _ hbefore)).1
    | tickStopped => cases hserver
    | authenticate hbefore =>
        cases hserver
        apply (hlatched _ hbefore).quiet
          (AuthMemory.quiet_authenticatePresented _ _ _ _)
        exact congrArg Settings.safeMode
          (AuthMemory.settings_authenticatePresented _ _ _ _ _)
    | check hbefore =>
        cases hserver
        apply (hlatched _ hbefore).quiet (AuthMemory.quiet_check _ _)
        exact congrArg Settings.safeMode (AuthMemory.settings_check _ _ _)
    | stop => cases hserver

/-- The server, if one runs, is in safe mode. -/
def InSafeMode (history : AuthHistory) : Prop :=
  ∀ server, history.server = some server → server.memory.inner.safeMode = true

/-- What a step of a server in safe mode answers. -/
theorem InSafeMode.step {event : AuthEvent}
    (hreachable : (authSystem crypto).Reachable history)
    (hsafe : history.InSafeMode) (hstart : event.isStart = false)
    (hstep : history.step crypto event = some next) :
    ∃ answered, next.records = history.records ++ answered ∧
      (∀ record ∈ answered, record.carriesOut (·.changesKeys) = false) ∧
        ((∀ record ∈ answered, record.carriesOut (·.replacesRoot) = false) →
          next.InSafeMode) := by
  have hsilent : ∀ record ∈ ([] : List AuthRecord),
      record.carriesOut (·.changesKeys) = false :=
    fun record hrecord => absurd hrecord List.not_mem_nil
  have hsame : history.records = history.records ++ [] :=
    (List.append_nil history.records).symm
  cases step_moves hstep with
  | started | startCut => cases hstart
  | @answered server env authority command _ result last dir hserver hmove =>
      have hbefore := hsafe server hserver
      refine ⟨_, rfl, ?_, fun hroot server hlast => ?_⟩
      · intro record hrecord
        rw [List.mem_singleton.mp hrecord, AuthRecord.carriesOut]
        cases hok : result.isOk with
        | false => rfl
        | true => exact hmove.keeps_keys hbefore ((isOk_answer result).trans hok)
      · cases hlast
        apply hmove.stays_closed hbefore
        intro hok
        have hkept := hroot _ (List.mem_singleton.mpr rfl)
        rw [AuthRecord.carriesOut, ← isOk_answer, hok] at hkept
        exact hkept
  | commandStopped | tickStopped | stop =>
      exact ⟨[], hsame, hsilent, fun _ server hlast => by cases hlast⟩
  | ticked hserver hmove =>
      refine ⟨[], hsame, hsilent, fun _ server hlast => ?_⟩
      cases hlast
      exact (hmove.closed (latched_of_reachable hreachable hserver)).2
        (hsafe _ hserver)
  | authenticate hserver =>
      refine ⟨[], hsame, hsilent, fun _ server hlast => ?_⟩
      cases hlast
      exact (congrArg Settings.safeMode
        (AuthMemory.settings_authenticatePresented _ _ _ _ _)).trans (hsafe _ hserver)
  | check hserver =>
      refine ⟨[], hsame, hsilent, fun _ server hlast => ?_⟩
      cases hlast
      exact (congrArg Settings.safeMode (AuthMemory.settings_check _ _ _)).trans
        (hsafe _ hserver)

theorem records_of_run {events : List AuthEvent}
    (hrun : (authSystem crypto).Run history events later) :
    history.records <+: later.records := by
  induction hrun with
  | nil => exact List.prefix_rfl
  | snoc hrun hstep ih => exact ih.trans (records_of_kept hstep)

/-- Induction over a run together with what is answered in it. -/
theorem answered_induction
    {motive : List AuthEvent → AuthHistory → List AuthRecord → Prop}
    (hnil : motive [] history [])
    (hsnoc : ∀ {events event middle last earlier added},
      (authSystem crypto).Run history events middle →
        motive events middle earlier → middle.step crypto event = some last →
          last.records = middle.records ++ added →
            motive (events ++ [event]) last (earlier ++ added))
    {events : List AuthEvent} {answered : List AuthRecord}
    (hrun : (authSystem crypto).Run history events later)
    (hrecords : later.records = history.records ++ answered) :
    motive events later answered := by
  induction hrun generalizing answered with
  | nil =>
      have hnone : answered = [] := List.self_eq_append_right.mp hrecords
      rw [hnone]
      exact hnil
  | snoc hrun hstep ih =>
      obtain ⟨earlier, hearlier⟩ := records_of_run hrun
      obtain ⟨added, hadded⟩ := records_of_kept hstep
      have hsplit : answered = earlier ++ added := by
        rw [← hadded, ← hearlier, List.append_assoc] at hrecords
        exact (List.append_cancel_left hrecords).symm
      rw [hsplit]
      exact hsnoc hrun (ih hearlier.symm) hstep hadded.symm

/-- A server in safe mode stays closed over every run without a start, as long as no
reset and no rotation succeeds, and carries out no command on keys. -/
theorem closed_of_run {events : List AuthEvent} {answered : List AuthRecord}
    (hreachable : (authSystem crypto).Reachable history)
    (hsafe : history.InSafeMode)
    (hrun : (authSystem crypto).Run history events later)
    (hstarts : ∀ event ∈ events, event.isStart = false)
    (hrecords : later.records = history.records ++ answered)
    (hroot : ∀ record ∈ answered, record.carriesOut (·.replacesRoot) = false) :
    (∀ server, later.server = some server → server.memory.Closed) ∧
      ∀ record ∈ answered, record.carriesOut (·.changesKeys) = false := by
  have hall : later.InSafeMode ∧
      ∀ record ∈ answered, record.carriesOut (·.changesKeys) = false := by
    refine answered_induction (motive := fun events later answered =>
      (∀ event ∈ events, event.isStart = false) →
        (∀ record ∈ answered, record.carriesOut (·.replacesRoot) = false) →
          later.InSafeMode ∧
            ∀ record ∈ answered, record.carriesOut (·.changesKeys) = false)
      ?_ ?_ hrun hrecords hstarts hroot
    · exact fun _ _ => ⟨hsafe, fun record hrecord => absurd hrecord List.not_mem_nil⟩
    · intro events event middle last earlier added hrun ih hstep hadded hstarts hroot
      obtain ⟨hearlierStarts, hstart⟩ := List.forall_mem_append.mp hstarts
      obtain ⟨hearlierRoot, haddedRoot⟩ := List.forall_mem_append.mp hroot
      obtain ⟨hmiddleSafe, hearlierKept⟩ := ih hearlierStarts hearlierRoot
      obtain ⟨answered, hanswered, haddedKept, hstays⟩ :=
        hmiddleSafe.step (hreachable.run hrun) (hstart event List.mem_cons_self) hstep
      obtain rfl : answered = added :=
        List.append_cancel_left (hanswered.symm.trans hadded)
      exact ⟨hstays haddedRoot,
        List.forall_mem_append.mpr ⟨hearlierKept, haddedKept⟩⟩
  obtain ⟨hlast, hkept⟩ := hall
  apply And.intro _ hkept
  intro server hserver
  have hlatched := latched_of_reachable (hreachable.run hrun) hserver
  have hclosed := hlast server hserver
  exact (hlatched hclosed).closed hclosed

/-- An audit record cannot be appended, then a key is asked for and the garbage is
to be collected. -/
theorem closed_of_failedAppend :
    ∃ (history later : AuthHistory) (server : AuthServer),
    play [.sampleStart 0 100 [], .sampleCommand 100 0 (.issue (.fromSecs 20) none) [],
      .sampleCommand 101 0 (.audit "note" none none)
        [.done, .failed .nothing "denied"]] = some history ∧
      later.server = some server ∧
      server.memory.inner.slots.map (·.state) = [.active] ∧ server.memory.Closed ∧
      ∀ record ∈ later.records.drop history.records.length,
        record.carriesOut (·.changesKeys) = false := by
  have hrun : (play [.sampleStart 0 100 [],
      .sampleCommand 100 0 (.issue (.fromSecs 20) none) [],
      .sampleCommand 101 0 (.audit "note" none none)
        [.done, .failed .nothing "denied"]]).bind (fun history =>
          ([.sampleCommand 102 0 (.issue (.fromSecs 20) none) [], .tick 103 [],
            .sampleCommand 104 0 .gc []].foldlM (AuthHistory.step .sample)
              history).bind fun later =>
            history.server.bind fun before => later.server.map fun server =>
              (before.memory.inner.safeMode, server.memory.inner.slots.map (·.state),
                (later.records.drop history.records.length).all fun record =>
                  !record.carriesOut (·.replacesRoot))) =
        some (true, [.active], true) := by
    decide +kernel
  obtain ⟨history, hplay, hrest⟩ := Option.bind_eq_some_iff.mp hrun
  obtain ⟨later, hfold, hservers⟩ := Option.bind_eq_some_iff.mp hrest
  obtain ⟨before, hbefore, hlast⟩ := Option.bind_eq_some_iff.mp hservers
  obtain ⟨server, hserver, hended⟩ := Option.map_eq_some_iff.mp hlast
  obtain ⟨hsafe, hread⟩ := Prod.mk.inj hended
  obtain ⟨hstates, hroots⟩ := Prod.mk.inj hread
  have hevents : (authSystem .sample).Run history _ later :=
    Transition.System.run_of_foldlM (fun _ _ _ => id) hfold
  have hin : history.InSafeMode := by
    intro found hfound
    cases hbefore.symm.trans hfound
    exact hsafe
  have hclosed := closed_of_run (reachable_play hplay) hin hevents (by decide)
    (List.prefix_iff_eq_append.mp (records_of_run hevents)).symm
    fun record hrecord =>
      (Bool.not_eq_true' _).mp (List.all_eq_true.mp hroots record hrecord)
  exact ⟨history, later, server, hplay, hserver, hstates, hclosed.1 server hserver,
    hclosed.2⟩

end AuthHistory

end PbMapper.Auth

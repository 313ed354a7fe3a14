import PbMapper.Auth.Staged

/-!
# The authority of an administrator

A request of an administrator carries the lease it was authenticated under.  Only
a rotation replaces the current lease, and no lease that was cancelled comes back.
-/

namespace PbMapper.Auth

open PbMapper.Core MachineWord Effect

namespace AuthMemory

/-! ## What keeps the authority -/

/-- The administrator lease is the same, and what was cancelled still is. -/
structure Retains (memory after : AuthMemory) : Prop where
  adminLease : after.inner.adminLease = memory.inner.adminLease
  length : memory.leaseHeap.length ≤ after.leaseHeap.length
  cancelled : ∀ id < memory.leaseHeap.length, memory.isCancelled id = true →
    after.isCancelled id = true

variable {memory after : AuthMemory}

theorem Retains.refl (memory : AuthMemory) : Retains memory memory :=
  ⟨rfl, le_rfl, fun _ _ hcancelled => hcancelled⟩

theorem Retains.trans {middle : AuthMemory} (hfirst : Retains memory middle)
    (hsecond : Retains middle after) : Retains memory after where
  adminLease := hsecond.adminLease.trans hfirst.adminLease
  length := hfirst.length.trans hsecond.length
  cancelled id hid hcancelled :=
    hsecond.cancelled id (hid.trans_le hfirst.length)
      (hfirst.cancelled id hid hcancelled)

theorem retains_of_heap (hadmin : after.inner.adminLease = memory.inner.adminLease)
    (hheap : after.leaseHeap = memory.leaseHeap) : Retains memory after := by
  refine ⟨hadmin, by rw [hheap], fun id _ hcancelled => ?_⟩
  rw [isCancelled, lease?, hheap]
  exact hcancelled

/-- Leases change, and a cancelled one stays so. -/
theorem retains_of_lease? (hadmin : after.inner.adminLease = memory.inner.adminLease)
    (hlease : ∀ id, ∃ change : AuthLease → AuthLease,
      (∀ lease, lease.cancelled = true → (change lease).cancelled = true) ∧
        after.lease? id = (memory.lease? id).map change) : Retains memory after := by
  refine ⟨hadmin, ?_, fun id _ hcancelled => ?_⟩
  · by_contra hlt
    obtain ⟨change, -, hsame⟩ := hlease after.leaseHeap.length
    rw [lease?, List.getElem?_eq_none le_rfl, lease?,
      List.getElem?_eq_getElem (not_le.mp hlt)] at hsame
    cases hsame
  · obtain ⟨change, hchange, hsame⟩ := hlease id
    rw [isCancelled, hsame, Option.all_map]
    rw [isCancelled] at hcancelled
    cases hfound : memory.lease? id with
    | none => rfl
    | some lease =>
        rw [hfound] at hcancelled
        exact hchange lease hcancelled

theorem retains_aside (haside : Aside memory after) : Retains memory after := by
  have hlength : after.leaseHeap.length = memory.leaseHeap.length := by
    have hkeys := congrArg List.length haside.leaseKeys
    rw [List.length_map, List.length_map] at hkeys
    exact hkeys
  refine ⟨haside.adminLease, hlength.ge, fun id _ hcancelled => ?_⟩
  rw [isCancelled] at hcancelled ⊢
  cases hfound : after.lease? id with
  | none => rfl
  | some lease =>
      rw [Option.all_some]
      by_contra hlive
      rw [Bool.not_eq_true] at hlive
      obtain ⟨before, hbefore, hbeforeLive⟩ := haside.leases id lease hfound hlive
      rw [hbefore, Option.all_some, hbeforeLive] at hcancelled
      cases hcancelled

theorem retains_fire (memory : AuthMemory) (timer : TimerId) :
    Retains memory (memory.fire timer) := by
  apply retains_of_lease? ((ran_fire memory timer).field (·.adminLease) rfl)
  intro id
  rcases fire_cases memory timer with ⟨callback, -, hfire⟩ | ⟨-, hfire⟩
  · rw [hfire]
    cases callback with
    | retire keyId lease =>
        refine ⟨_, ?_, lease?_retire keyId lease id⟩
        intro found hfound
        split
        · rfl
        · exact hfound
    | reap keyId lease =>
        refine ⟨fun found => found, fun _ hfound => hfound, ?_⟩
        rw [runCallback, lease?_reap, Option.map_id']
        rfl
  · rw [hfire]
    exact ⟨fun found => found, fun _ hfound => hfound, Option.map_id'.symm⟩

theorem retains_fires (timers : List TimerId) (memory : AuthMemory) :
    Retains memory (timers.foldl AuthMemory.fire memory) := by
  induction timers generalizing memory with
  | nil => exact .refl memory
  | cons timer timers ih => exact (retains_fire memory timer).trans (ih _)

theorem retains_scheduleAt (deadline : ℕ) (timer : TimerId) :
    Retains memory (memory.scheduleAt deadline timer) := by
  rw [scheduleAt_eq]
  apply Retains.trans _ (retains_fires _ _)
  exact retains_of_heap rfl rfl

theorem retains_watch (keyId : KeyId) (lease : LeaseId) (expiresAt : ℕ) :
    Retains memory (memory.watch keyId lease expiresAt) := by
  have hstaged : Retains memory
      (((memory.allocateTimer (.retire keyId lease)).1.allocateTimer
        (.reap keyId (some lease))).1.setStages keyId
          ⟨some memory.timerHeap.length, some (memory.allocateTimer
            (.retire keyId lease)).1.timerHeap.length⟩) :=
    retains_of_heap rfl rfl
  exact (hstaged.trans (retains_scheduleAt _ _)).trans (retains_scheduleAt _ _)

theorem retains_scheduleReap (keyId : KeyId) (deadline : ℕ) :
    Retains memory (memory.scheduleReap keyId deadline) := by
  have hstaged : Retains memory ((memory.allocateTimer (.reap keyId none)).1.setStages
      keyId ⟨none, some memory.timerHeap.length⟩) :=
    retains_of_heap rfl rfl
  exact hstaged.trans (retains_scheduleAt _ _)

theorem retains_watchAll (rows : List (KeyId × LeaseId × ℕ))
    (memory : AuthMemory) :
    Retains memory (rows.foldl
      (fun memory (keyId, lease, expiresAt) => memory.watch keyId lease expiresAt)
      memory) := by
  induction rows generalizing memory with
  | nil => exact .refl memory
  | cons row rows ih =>
      exact (retains_watch row.1 row.2.1 row.2.2).trans (ih _)

theorem retains_restoreLeases (now : ℕ) :
    Retains memory (memory.restoreLeases now) := by
  have hdead : ∀ (keyIds : List KeyId) (memory : AuthMemory),
      Retains memory (keyIds.foldl (fun memory keyId =>
        memory.scheduleReap keyId (memory.reapDeadline keyId now)) memory) := by
    intro keyIds
    induction keyIds with
    | nil => exact fun memory => .refl memory
    | cons keyId keyIds ih =>
        exact fun memory => (retains_scheduleReap keyId _).trans (ih _)
  exact (retains_watchAll memory.liveRows memory).trans (hdead memory.deadKeys _)

theorem retains_allocateLease (lease : AuthLease) :
    Retains memory (memory.allocateLease lease).1 := by
  have hlength : memory.leaseHeap.length ≤
      (memory.allocateLease lease).1.leaseHeap.length := by
    change _ ≤ (memory.leaseHeap ++ [lease]).length
    rw [List.length_append]
    exact Nat.le_add_right _ _
  refine ⟨rfl, hlength, fun id hid hcancelled => ?_⟩
  have hsame : (memory.allocateLease lease).1.lease? id = memory.lease? id :=
    List.getElem?_append_left hid
  rw [isCancelled, hsame]
  exact hcancelled

/-! ## Commands on keys -/

theorem retains_publishIssue (entry : PersistedEntry) :
    Retains memory (memory.publishIssue entry) := by
  have hplaced : Retains (memory.allocateLease (.new entry.keyId entry.expiresAt)).1
      (((memory.allocateLease (.new entry.keyId entry.expiresAt)).1.updateSlot
        entry.keyId.slot.asIndex fun _ =>
          ⟨entry.keyId.generation, .active, entry.expiresAt,
            some memory.leaseHeap.length⟩).setCold entry.keyId
              ⟨entry.issuedAt, entry.label, 0⟩) :=
    retains_of_heap rfl rfl
  exact ((retains_allocateLease _).trans hplaced).trans (retains_watch _ _ _)

theorem retains_renewLease (keyId : KeyId) (expiresAt : ℕ) :
    Retains memory (memory.renewLease keyId expiresAt) := by
  rw [renewLease]
  split
  · exact .refl memory
  · split
    · exact (retains_scheduleAt _ _).trans (retains_scheduleAt _ _)
    · exact .refl memory

theorem retains_renewRow (checks : List (AuthContext × ℕ)) (keyId : KeyId)
    (slot : SlotHot) (expiresAt : ℕ) :
    Retains memory (memory.renewRow checks keyId slot expiresAt) := by
  have hmoved : Retains memory (memory.updateSlot keyId.slot.asIndex
      ({ · with expiresAt := expiresAt })) :=
    retains_of_heap rfl rfl
  rw [renewRow]
  simp only
  split
  · have hensured : ∀ (memory : AuthMemory) (check : AuthContext × ℕ),
        Aside memory (memory.ensureActive check.1 check.2).2 :=
      fun _ check => aside_ensureActive check.1 check.2
    have hchecked := retains_aside (aside_foldl hensured checks
      (memory.updateSlot keyId.slot.asIndex ({ · with expiresAt := expiresAt })))
    exact ((hmoved.trans hchecked).trans
      (retains_aside (aside_setLeaseExpiry _ expiresAt))).trans
        (retains_renewLease _ _)
  · have hplaced : Retains
        ((memory.updateSlot keyId.slot.asIndex
          ({ · with expiresAt := expiresAt })).allocateLease
            (.new keyId expiresAt)).1
        (((memory.updateSlot keyId.slot.asIndex
          ({ · with expiresAt := expiresAt })).allocateLease
            (.new keyId expiresAt)).1.updateSlot keyId.slot.asIndex
              ({ · with lease := some memory.leaseHeap.length })) :=
      retains_of_heap rfl rfl
    exact ((hmoved.trans (retains_allocateLease _)).trans hplaced).trans
      (retains_watch _ _ _)

theorem retains_fireStage (keyId : KeyId) {which : Stages → Option TimerId}
    (hwhich : which = Stages.retire ∨ which = Stages.reap) :
    Retains memory (memory.fireStage keyId which) := by
  rcases fireStage_cases memory keyId hwhich with
    ⟨-, timer, -, -, -, hfire⟩ | ⟨hfire, -⟩ | ⟨hfire, -⟩
  · rw [hfire]
    exact retains_fire memory timer
  · rw [hfire]
    exact retains_of_heap rfl rfl
  · rw [hfire]
    exact .refl memory

theorem retains_endKey (keyId : KeyId) : Retains memory (memory.endKey keyId) :=
  ((retains_fireStage keyId (.inl rfl)).trans
    (retains_fireStage keyId (.inr rfl))).trans (retains_of_heap rfl rfl)

theorem retains_collectGarbage (now : ℕ) :
    Retains memory (memory.collectGarbage now).1 := by
  rw [collectGarbage]
  simp only
  generalize memory.collectable now = keyIds
  induction keyIds generalizing memory with
  | nil => exact .refl memory
  | cons keyId keyIds ih => exact (retains_endKey keyId).trans ih

theorem retains_revokeRow (keyId : KeyId) (slot : SlotHot) :
    Retains memory (memory.revokeRow keyId slot) := by
  have hrevoked : Retains memory (memory.updateSlot keyId.slot.asIndex
      ({ · with state := .revoked })) :=
    retains_of_heap rfl rfl
  rw [revokeRow]
  apply Retains.trans _ (retains_fireStage _ (.inl rfl))
  split
  · exact hrevoked.trans (retains_aside (aside_recordCancel _ _))
  · exact hrevoked

theorem retains_publishRenew {checks : List (AuthContext × ℕ)} {keyId : KeyId}
    {expiresAt : ℕ} {renewed : AuthMemory}
    (hpublish : memory.publishRenew checks keyId expiresAt = .ok renewed) :
    Retains memory renewed := by
  rcases publishRenew_eq_ok hpublish with
    ⟨slot, -, -, -, rfl⟩ | ⟨entries, -, -, rfl⟩
  · exact retains_renewRow _ _ _ _
  · exact retains_of_heap rfl rfl

theorem retains_publishRevoke {keyId : KeyId} {now : ℕ} {revoked : AuthMemory}
    (hpublish : memory.publishRevoke keyId now = .ok revoked) :
    Retains memory revoked := by
  rcases publishRevoke_eq_ok hpublish with
    ⟨slot, -, -, rfl⟩ | ⟨entries, -, -, rfl⟩
  · exact retains_revokeRow _ _
  · apply Retains.trans _ (retains_fireStage _ (.inl rfl))
    exact retains_of_heap rfl rfl

theorem retains_dropSchedule (now : ℕ) :
    Retains memory (memory.dropSchedule now) := by
  rw [dropSchedule]
  apply Retains.trans _ (retains_fires _ _)
  exact retains_of_heap rfl rfl

theorem retains_wipe (now : ℕ) : Retains memory (memory.wipe now) :=
  (retains_aside aside_cancelAllTemporaryLeases).trans (retains_dropSchedule now)

theorem retains_tickSeconds (count : ℕ) (memory : AuthMemory) :
    Retains memory (tickSeconds count memory) := by
  induction count generalizing memory with
  | zero => exact .refl memory
  | succ count ih =>
      apply Retains.trans _ (ih _)
      rw [tickSecond_eq]
      apply Retains.trans _ (retains_fires _ _)
      exact retains_of_heap rfl rfl

theorem retains_tickLeases (now : ℕ) : Retains memory (memory.tickLeases now) := by
  rw [tickLeases]
  split
  · exact retains_dropSchedule now
  · exact retains_tickSeconds _ _

theorem retains_finishReset (newInstanceId : InstanceId) (audit : AuditRecord)
    (now : ℕ) : Retains memory (memory.finishReset newInstanceId audit now) := by
  have hpushed : Retains memory (memory.pushAuditRecord audit) :=
    retains_aside (aside_pushAuditRecord audit)
  exact ((hpushed.trans (retains_aside aside_rememberPreviousRoot)).trans
    (retains_wipe now)).trans (retains_of_heap rfl rfl)

end AuthMemory

/-! ## Commands and ticks -/

variable {crypto : AuthCrypto} {config : AuthConfig} {env : Surroundings}
  {memory base published last : AuthMemory} {dir dir' : StateDir}
  {command : AuthCommand} {record : WalRecord} {stop : Interruption}
  {result : Except AuthFailure AuthResponse}

theorem Appends.retains_base
    (happends :
      Appends crypto config env memory command base record result published) :
    AuthMemory.Retains memory base := by
  cases happends with
  | claim hpruned =>
      rw [hpruned]
      exact AuthMemory.retains_aside (AuthMemory.aside_pruneExpiredAdminReplays _)
  | _ => exact .refl memory

theorem Appends.retains
    (happends :
      Appends crypto config env memory command base record result published) :
    AuthMemory.Retains memory published := by
  have hpushed : ∀ audit, AuthMemory.Retains memory (memory.pushAuditRecord audit) :=
    fun audit => AuthMemory.retains_aside (AuthMemory.aside_pushAuditRecord audit)
  have hchecked : ∀ audit (checks : List CredentialCheck), AuthMemory.Retains memory
      (checks.foldl (AuthMemory.check crypto) (memory.pushAuditRecord audit)) :=
    fun audit checks => (hpushed audit).trans (AuthMemory.retains_aside
      (AuthMemory.aside_foldl (fun _ => AuthMemory.aside_check crypto) _ _))
  cases happends with
  | claim hpruned =>
      rw [hpruned]
      exact (AuthMemory.retains_aside
        (AuthMemory.aside_pruneExpiredAdminReplays _)).trans
          (AuthMemory.retains_aside (AuthMemory.aside_admitMutation _))
  | issue hplan haudit hpublished =>
      rw [hpublished]
      exact (hpushed _).trans (AuthMemory.retains_publishIssue _)
  | «show» => exact hpushed _
  | renew hplan haudit hbetween hpublish =>
      rw [hbetween] at hpublish
      exact (hchecked _ _).trans (AuthMemory.retains_publishRenew hpublish)
  | renewLost hplan haudit hbetween hpublish =>
      rw [hbetween]
      exact hchecked _ _
  | revoke hplan haudit hbefore hpublish =>
      rw [hbefore] at hpublish
      exact (hpushed _).trans (AuthMemory.retains_publishRevoke hpublish)
  | revokeLost hplan haudit hbefore hpublish =>
      rw [hbefore]
      exact hpushed _
  | setLegacyProtocol =>
      exact (hpushed _).trans
        (AuthMemory.retains_aside (AuthMemory.aside_setLegacyProtocol _))
  | audit => exact hpushed _

theorem AppendCut.retains (hcut : AppendCut base dir record stop last dir') :
    AuthMemory.Retains base last := by
  cases hcut with
  | retryable => exact .refl base
  | uncertain => exact AuthMemory.retains_aside AuthMemory.aside_failClosed
  | stopped => exact .refl base

theorem CompactCut.retains {snapshot : PersistedSnapshot}
    (hcut : CompactCut base dir snapshot stop last dir') :
    AuthMemory.Retains base last := by
  cases hcut with
  | failed => exact AuthMemory.retains_aside AuthMemory.aside_failClosed
  | stopped => exact .refl base

theorem ReplaceCut.retains {writes : List (StateDir → StateDir)}
    {installed : StateDir → Prop} {remove : StateDir → StateDir}
    (hcut : ReplaceCut base dir writes installed remove stop last dir') :
    AuthMemory.Retains base last := by
  cases hcut with
  | failed => exact AuthMemory.retains_aside AuthMemory.aside_failClosed
  | stopped => exact .refl base
  | removed => exact .refl base

/-- Only a rotation gives the administrator another lease. -/
theorem CommandMove.retains {ended : Except Interruption AuthResponse}
    (hmove : CommandMove crypto config env memory dir command ended last dir')
    (hother : ∀ newKey, command ≠ .rotateRoot newKey) :
    AuthMemory.Retains memory last := by
  have hbump : AuthMemory.Retains memory memory.bumpRootEpoch :=
    AuthMemory.retains_aside AuthMemory.aside_bumpRootEpoch
  have hcollect : ∀ {kept : AuthMemory} {removed : ℕ},
      memory.collectGarbage (env.clock 0) = (kept, removed) →
        AuthMemory.Retains memory kept := by
    intro kept removed hcollected
    have hretains : AuthMemory.Retains memory
        (memory.collectGarbage (env.clock 0)).1 :=
      AuthMemory.retains_collectGarbage _
    rw [hcollected] at hretains
    exact hretains
  cases hmove with
  | refused => exact .refl memory
  | claimRefused =>
      exact AuthMemory.retains_aside (AuthMemory.aside_pruneExpiredAdminReplays _)
  | listed => exact .refl memory
  | status => exact .refl memory
  | appended happends => exact happends.retains
  | appendCut happends hcut => exact happends.retains_base.trans hcut.retains
  | collected hopen hkept =>
      exact (hcollect hkept).trans
        (AuthMemory.retains_aside (AuthMemory.aside_pushAuditRecord _))
  | collectCut hopen hkept hcut => exact (hcollect hkept).trans hcut.retains
  | reset hbumped =>
      rw [hbumped]
      exact hbump.trans (AuthMemory.retains_finishReset _ _ _)
  | resetCut hbumped hcut =>
      rw [hbumped] at hcut
      exact hbump.trans hcut.retains
  | rotated => exact absurd rfl (hother _)
  | rotateCut => exact absurd rfl (hother _)

theorem TickMove.retains {now : Seconds} {ended : Except Interruption Unit}
    (hmove : TickMove now memory dir ended last dir') :
    AuthMemory.Retains memory last := by
  have hticked : AuthMemory.Retains memory
      ((memory.tickLeases now).pruneExpiredAdminReplays now) :=
    (AuthMemory.retains_tickLeases now).trans
      (AuthMemory.retains_aside (AuthMemory.aside_pruneExpiredAdminReplays _))
  cases hmove with
  | ticked hpruned =>
      rw [hpruned]
      exact hticked
  | compacted hpruned hopen =>
      rw [hpruned]
      exact hticked.trans
        (AuthMemory.retains_aside (AuthMemory.aside_setLastSnapshotAt _))
  | compactCut hpruned hopen hcut =>
      rw [hpruned] at hcut
      exact hticked.trans hcut.retains

/-! ## Starts and steps -/

theorem leaseHeap_restored_pos (config : AuthConfig) (adminKey : AesKeyType)
    (instanceId : InstanceId) (loaded : Option PersistedSnapshot) (safeMode : Bool)
    (now lastSnapshotAt : ℕ) :
    0 < (restoredMemory config adminKey instanceId loaded safeMode now
      lastSnapshotAt).leaseHeap.length := by
  have hfold : ∀ (entries : List PersistedEntry) (table : RestoredTable),
      0 < table.leaseHeap.length →
        0 < (entries.foldl (restoreEntry now) table).leaseHeap.length := by
    intro entries
    induction entries with
    | nil => exact fun _ htable => htable
    | cons entry entries ih =>
        intro table htable
        apply ih
        rw [restoreEntry]
        split
        · exact htable
        · split
          · exact htable
          · rw [List.length_append]
            exact Nat.add_pos_left htable _
  exact hfold _ _ Nat.one_pos

/-- The administrator has a lease from the start. -/
theorem StartMove.adminLease_lt {env : StartSurroundings}
    (hmove : StartMove crypto config env dir (some memory) dir') :
    memory.inner.adminLease < memory.leaseHeap.length := by
  have hrestored : ∀ (restored : AuthMemory) (now : ℕ),
      restored.inner.adminLease < restored.leaseHeap.length →
        (restored.restoreLeases now).inner.adminLease <
          (restored.restoreLeases now).leaseHeap.length := by
    intro restored now hlt
    have hretains : AuthMemory.Retains restored (restored.restoreLeases now) :=
      AuthMemory.retains_restoreLeases now
    rw [hretains.adminLease]
    exact hlt.trans_le hretains.length
  cases hmove with
  | safeMode => exact hrestored _ _ (leaseHeap_restored_pos ..)
  | loaded => exact hrestored _ _ (leaseHeap_restored_pos ..)

/-- The events that neither start a server nor rotate its root. -/
def AuthEvent.Keeps : AuthEvent → Prop
  | .start _ _ _ => False
  | .command _ _ (.rotateRoot _) _ => False
  | _ => True

theorem AuthEvent.keeps_command {authority : LeaseId}
    {outcomes : List FileOutcome}
    (hother : ∀ newKey, command ≠ .rotateRoot newKey) :
    (AuthEvent.command env authority command outcomes).Keeps := by
  cases command with
  | rotateRoot newKey => exact absurd rfl (hother newKey)
  | _ => trivial

theorem AuthHistory.step_retains {history next : AuthHistory} {event : AuthEvent}
    (hstep : history.step crypto event = some next) (hevent : event.Keeps)
    {after : AuthServer} (hafter : next.server = some after) :
    ∃ server, history.server = some server ∧
      AuthMemory.Retains server.memory after.memory := by
  cases step_moves hstep with
  | started => exact absurd hevent id
  | startCut => cases hafter
  | answered hserver hmove =>
      cases hafter
      refine ⟨_, hserver, hmove.retains ?_⟩
      rintro newKey rfl
      exact hevent
  | commandStopped => cases hafter
  | ticked hserver hmove =>
      cases hafter
      exact ⟨_, hserver, hmove.retains⟩
  | tickStopped => cases hafter
  | authenticate hserver =>
      cases hafter
      exact ⟨_, hserver,
        AuthMemory.retains_aside (AuthMemory.aside_authenticatePresented _ _ _ _)⟩
  | check hserver =>
      cases hafter
      exact ⟨_, hserver, AuthMemory.retains_aside (AuthMemory.aside_check _ _)⟩
  | stop => cases hafter

end PbMapper.Auth

import PbMapper.Auth.Staged

/-!
# What work on keys leaves alone

Whether the store is in safe mode, and the administrator mutations it remembers.
Leases, timers, rows, counters and audit records change without them: only an
admitted mutation, the pruning of old ones, a failed write, a reset and a rotation
are about the settings.
-/

namespace PbMapper.Auth

open PbMapper.Core

structure Settings where
  safeMode : Bool
  adminReplays : Finset MutationFingerprint
  adminReplayOrder : List AdminReplayRecord

namespace AuthMemory

variable (memory : AuthMemory)

def settings : Settings :=
  ⟨memory.inner.safeMode, memory.adminReplays, memory.adminReplayOrder⟩

/-! ## Timers -/

@[simp]
theorem settings_updateLeases (change : Leases → Leases) :
    (memory.updateLeases change).settings = memory.settings := rfl

@[simp]
theorem settings_fires (timers : List TimerId) :
    (timers.foldl fire memory).settings = memory.settings := by
  have hran := ran_fires timers memory
  rw [settings, settings, hran.field (·.safeMode) rfl, hran.adminReplays,
    hran.adminReplayOrder]

@[simp]
theorem settings_fire (timer : TimerId) :
    (memory.fire timer).settings = memory.settings :=
  settings_fires memory [timer]

@[simp]
theorem settings_release (dropped : List TimerId) :
    (memory.release dropped).settings = memory.settings :=
  settings_fires memory _

@[simp]
theorem settings_scheduleAt (deadline : ℕ) (timer : TimerId) :
    (memory.scheduleAt deadline timer).settings = memory.settings := by
  rw [scheduleAt_eq, settings_release, settings_updateLeases]

@[simp]
theorem settings_watch (keyId : KeyId) (lease : LeaseId) (expiresAt : ℕ) :
    (memory.watch keyId lease expiresAt).settings = memory.settings := by
  simp only [watch, settings_scheduleAt]
  rfl

@[simp]
theorem settings_scheduleReap (keyId : KeyId) (deadline : ℕ) :
    (memory.scheduleReap keyId deadline).settings = memory.settings := by
  simp only [scheduleReap, settings_scheduleAt]
  rfl

@[simp]
theorem settings_tickSeconds (count : ℕ) :
    (tickSeconds count memory).settings = memory.settings := by
  induction count generalizing memory with
  | zero => rfl
  | succ count ih =>
      rw [tickSeconds, ih, tickSecond_eq, settings_release, settings_updateLeases]

@[simp]
theorem settings_dropSchedule (now : ℕ) :
    (memory.dropSchedule now).settings = memory.settings := by
  rw [dropSchedule, settings_fires]
  rfl

@[simp]
theorem settings_tickLeases (now : ℕ) :
    (memory.tickLeases now).settings = memory.settings := by
  rw [tickLeases]
  split <;> simp

/-! ## Leases -/

/-- What every change keeps, all of them keep. -/
theorem settings_foldl {Change : Type} {change : AuthMemory → Change → AuthMemory}
    (hchange : ∀ memory item, (change memory item).settings = memory.settings)
    (items : List Change) :
    (items.foldl change memory).settings = memory.settings := by
  induction items generalizing memory with
  | nil => rfl
  | cons item items ih => rw [List.foldl_cons, ih, hchange]

@[simp]
theorem settings_recordCancel (reason : CancelReason) (id : LeaseId) :
    (recordCancel reason memory id).settings = memory.settings := rfl

@[simp]
theorem settings_cancelAllTemporaryLeases :
    memory.cancelAllTemporaryLeases.settings = memory.settings :=
  settings_foldl memory (fun memory => settings_recordCancel memory .rotated) _

@[simp]
theorem settings_wipe (now : ℕ) : (memory.wipe now).settings = memory.settings := by
  simp [wipe]

@[simp]
theorem settings_ensureActive (context : AuthContext) (now : ℕ) :
    (memory.ensureActive context now).2.settings = memory.settings := by
  rw [ensureActive]
  split
  · split
    · rfl
    · split <;> rfl
  · rfl

@[simp]
theorem settings_noticeExpiry (slot : SlotHot) (now : ℕ) :
    (memory.noticeExpiry slot now).settings = memory.settings := by
  rw [noticeExpiry]
  split
  · split <;> rfl
  · rfl

@[simp]
theorem settings_countFailure : memory.countFailure.settings = memory.settings := rfl

@[simp]
theorem settings_lookupCredential (crypto : AuthCrypto) (keyId : KeyId)
    (presentedKey : AesKeyType) (now : ℕ) :
    (memory.lookupCredential crypto keyId presentedKey now).2.settings =
      memory.settings := by
  rw [lookupCredential]
  split
  · rfl
  · split
    · rfl
    · split
      · rfl
      · split
        · simp
        · split <;> rfl

@[simp]
theorem settings_authenticatePresented (crypto : AuthCrypto) (keyId : KeyId)
    (presentedKey : AesKeyType) (now : ℕ) :
    (memory.authenticatePresented crypto keyId presentedKey now).2.settings =
      memory.settings := by
  rw [authenticatePresented]
  split
  · split
    · rfl
    · split <;> rfl
  · split
    · rfl
    · exact settings_lookupCredential memory crypto keyId presentedKey now

@[simp]
theorem settings_check (crypto : AuthCrypto) (check : CredentialCheck) :
    (memory.check crypto check).settings = memory.settings := by
  cases check with
  | lookup keyId presentedKey now => exact settings_lookupCredential _ _ _ _ _
  | ensureActive context now => exact settings_ensureActive _ _ _

/-! ## Commands -/

@[simp]
theorem settings_pushAuditRecord (record : AuditRecord) :
    (memory.pushAuditRecord record).settings = memory.settings := by
  obtain ⟨records, hpushed⟩ := pushAuditRecord_eq memory record
  rw [hpushed]
  rfl

@[simp]
theorem settings_rememberPreviousRoot :
    memory.rememberPreviousRoot.settings = memory.settings := rfl

@[simp]
theorem settings_publishIssue (entry : PersistedEntry) :
    (memory.publishIssue entry).settings = memory.settings := by
  simp only [publishIssue, issueLease, settings_watch]
  rfl

@[simp]
theorem settings_renewLease (keyId : KeyId) (expiresAt : ℕ) :
    (memory.renewLease keyId expiresAt).settings = memory.settings := by
  rw [renewLease]
  split
  · rfl
  · split <;> simp

@[simp]
theorem settings_renewRow (checks : List (AuthContext × ℕ)) (keyId : KeyId)
    (slot : SlotHot) (expiresAt : ℕ) :
    (memory.renewRow checks keyId slot expiresAt).settings = memory.settings := by
  have hchecked : ∀ before : AuthMemory, (checks.foldl
      (fun memory check => (memory.ensureActive check.1 check.2).2)
        before).settings = before.settings :=
    fun before => settings_foldl before
      (fun memory check => settings_ensureActive memory check.1 check.2) checks
  simp only [renewRow]
  split
  · rw [settings_renewLease]
    exact hchecked _
  · rw [settings_watch]
    rfl

theorem settings_publishRenew {checks : List (AuthContext × ℕ)} {keyId : KeyId}
    {expiresAt : ℕ} {renewed : AuthMemory}
    (hpublish : memory.publishRenew checks keyId expiresAt = .ok renewed) :
    renewed.settings = memory.settings := by
  rcases publishRenew_eq_ok hpublish with
    ⟨slot, -, -, -, rfl⟩ | ⟨entries, -, -, rfl⟩
  · exact settings_renewRow _ _ _ _ _
  · rfl

theorem settings_fireStage (keyId : KeyId) {which : Stages → Option TimerId}
    (hwhich : which = Stages.retire ∨ which = Stages.reap) :
    (memory.fireStage keyId which).settings = memory.settings := by
  rcases fireStage_cases memory keyId hwhich with
    ⟨-, timer, -, -, -, hfire⟩ | ⟨hfire, -⟩ | ⟨hfire, -⟩
  · rw [hfire, settings_fire]
  · rw [hfire]
    rfl
  · rw [hfire]

@[simp]
theorem settings_retireNow (keyId : KeyId) :
    (memory.retireNow keyId).settings = memory.settings :=
  settings_fireStage _ keyId (.inl rfl)

@[simp]
theorem settings_endKey (keyId : KeyId) :
    (memory.endKey keyId).settings = memory.settings := by
  change ((memory.retireNow keyId).fireStage keyId Stages.reap).settings = _
  rw [settings_fireStage _ keyId (.inr rfl), settings_retireNow]

@[simp]
theorem settings_collectGarbage (now : ℕ) :
    (memory.collectGarbage now).1.settings = memory.settings :=
  settings_foldl _ settings_endKey _

@[simp]
theorem settings_revokeRow (keyId : KeyId) (slot : SlotHot) :
    (memory.revokeRow keyId slot).settings = memory.settings := by
  rw [revokeRow]
  simp only [settings_retireNow]
  split <;> rfl

theorem settings_publishRevoke {keyId : KeyId} {now : ℕ} {revoked : AuthMemory}
    (hpublish : memory.publishRevoke keyId now = .ok revoked) :
    revoked.settings = memory.settings := by
  rcases publishRevoke_eq_ok hpublish with
    ⟨slot, -, -, rfl⟩ | ⟨entries, -, -, rfl⟩
  · exact settings_revokeRow _ _ _
  · rw [revokeHigh, settings_retireNow]
    rfl

@[simp]
theorem settings_setLegacyProtocol (allowed : Bool) :
    (memory.updateInner ({ · with legacyProtocolAllowed := allowed })).settings =
      memory.settings := rfl

theorem settings_reopened (newInstanceId : InstanceId) :
    (memory.updateInner
      ({ · with instanceId := newInstanceId, safeMode := false })).settings =
        { memory.settings with safeMode := false } := rfl

/-- A reset opens the store and keeps what it remembers. -/
theorem settings_finishReset (newInstanceId : InstanceId) (audit : AuditRecord)
    (now : ℕ) :
    (memory.finishReset newInstanceId audit now).settings =
      { memory.settings with safeMode := false } := by
  rw [finishReset, settings_reopened, settings_wipe, settings_rememberPreviousRoot,
    settings_pushAuditRecord]

/-- The store fails closed, and forgets no mutation. -/
theorem settings_failClosed :
    memory.failClosed.settings = { memory.settings with safeMode := true } := by
  rw [failClosed, settings_cancelAllTemporaryLeases]
  rfl

@[simp]
theorem settings_restoreLeases (now : ℕ) :
    (memory.restoreLeases now).settings = memory.settings := by
  rw [restoreLeases]
  simp only
  rw [settings_foldl _ fun memory keyId => settings_scheduleReap memory keyId _]
  exact settings_foldl memory
    (fun memory (row : KeyId × LeaseId × ℕ) =>
      settings_watch memory row.1 row.2.1 row.2.2) _

end AuthMemory

/-! ## Commands that append a record -/

variable {crypto : AuthCrypto} {config : AuthConfig} {env : Surroundings}
  {memory base published : AuthMemory} {command : AuthCommand} {record : WalRecord}
  {result : Except AuthFailure AuthResponse}

/-- Only a claim changes the settings. -/
theorem Appends.settings
    (happends :
      Appends crypto config env memory command base record result published)
    (hother : ∀ claimed, record ≠ .adminReplay claimed) :
    published.settings = memory.settings := by
  have hchecked : ∀ audit, (env.checks.beforeInstall.foldl (AuthMemory.check crypto)
      (memory.pushAuditRecord audit)).settings = memory.settings :=
    fun audit => (AuthMemory.settings_foldl _
      (fun memory check => AuthMemory.settings_check memory crypto check) _).trans
        (AuthMemory.settings_pushAuditRecord memory audit)
  cases happends with
  | claim => exact absurd rfl (hother _)
  | issue hplan haudit hpublished =>
      rw [hpublished, AuthMemory.settings_publishIssue,
        AuthMemory.settings_pushAuditRecord]
  | «show» => rw [AuthMemory.settings_pushAuditRecord]
  | renew hplan haudit hbetween hpublish =>
      rw [AuthMemory.settings_publishRenew _ hpublish, hbetween, hchecked]
  | renewLost hplan haudit hbetween hpublish => rw [hbetween, hchecked]
  | revoke hplan haudit hbefore hpublish =>
      rw [AuthMemory.settings_publishRevoke _ hpublish, hbefore,
        AuthMemory.settings_pushAuditRecord]
  | revokeLost hplan haudit hbefore hpublish =>
      rw [hbefore, AuthMemory.settings_pushAuditRecord]
  | setLegacyProtocol =>
      rw [AuthMemory.settings_setLegacyProtocol, AuthMemory.settings_pushAuditRecord]
  | audit => rw [AuthMemory.settings_pushAuditRecord]

end PbMapper.Auth

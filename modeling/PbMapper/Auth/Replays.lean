import Mathlib.Algebra.Order.BigOperators.Group.List
import PbMapper.Auth.SafeMode

/-!
# Administrator mutations are admitted once

A server remembers the mutations it admitted until they are out of retention, and
a mutation that is out of retention is out of the window of accepted timestamps.
So as long as the server runs with a clock that does not go back, and the root key
is not rotated, no mutation is admitted a second time.
-/

namespace PbMapper.Auth

open PbMapper.Core MachineWord

/-! ## What is remembered -/

/-- The mutations of `admin_replays` and `admin_replay_order`. -/
structure AdminReplays where
  fingerprints : Finset MutationFingerprint
  order : List AdminReplayRecord

namespace AdminReplays

variable {replays : AdminReplays} {fingerprint : MutationFingerprint}
  {clientTimestamp clock now : ℕ}

def pruned (replays : AdminReplays) (now : ℕ) : AdminReplays where
  fingerprints := (replays.order.filter (!·.withinRetention now)).foldl
    (fun fingerprints record => fingerprints.erase record.fingerprint)
    replays.fingerprints
  order := replays.order.filter (·.withinRetention now)

def admitted (replays : AdminReplays) (record : AdminReplayRecord) :
    AdminReplays where
  fingerprints := insert record.fingerprint replays.fingerprints
  order := replays.order ++ [record]

/-- Every mutation in the order is in the set, and none is there twice. -/
structure Remembers (replays : AdminReplays) : Prop where
  exact : ∀ fingerprint, fingerprint ∈ replays.fingerprints ↔
    ∃ record ∈ replays.order, record.fingerprint = fingerprint
  distinct : (replays.order.map (·.fingerprint)).Nodup

theorem mem_foldl_erase {records : List AdminReplayRecord}
    {fingerprints : Finset MutationFingerprint} :
    fingerprint ∈ records.foldl
        (fun fingerprints record => fingerprints.erase record.fingerprint)
        fingerprints ↔
      fingerprint ∈ fingerprints ∧
        ∀ record ∈ records, record.fingerprint ≠ fingerprint := by
  induction records generalizing fingerprints with
  | nil => simp
  | cons record records ih =>
      rw [List.foldl_cons, ih, Finset.mem_erase, List.forall_mem_cons]
      constructor
      · rintro ⟨⟨hne, hmem⟩, hrest⟩
        exact ⟨hmem, hne.symm, hrest⟩
      · rintro ⟨hmem, hne, hrest⟩
        exact ⟨⟨hne.symm, hmem⟩, hrest⟩

theorem Remembers.pruned (hremembers : replays.Remembers) (now : ℕ) :
    (replays.pruned now).Remembers := by
  constructor
  · intro fingerprint
    rw [AdminReplays.pruned, mem_foldl_erase, hremembers.exact]
    constructor
    · rintro ⟨⟨record, hrecord, hsame⟩, hkept⟩
      apply Exists.intro record
      apply And.intro _ hsame
      apply List.mem_filter.mpr
      apply And.intro hrecord
      by_contra hold
      exact hkept record (List.mem_filter.mpr ⟨hrecord, by simpa using hold⟩) hsame
    · rintro ⟨record, hkept, hsame⟩
      obtain ⟨hrecord, hwithin⟩ := List.mem_filter.mp hkept
      apply And.intro ⟨record, hrecord, hsame⟩
      intro dropped hdropped hother
      obtain ⟨hmem, hold⟩ := List.mem_filter.mp hdropped
      have heq : dropped = record :=
        List.inj_on_of_nodup_map hremembers.distinct hmem hrecord
          (hother.trans hsame.symm)
      rw [heq, hwithin] at hold
      cases hold
  · exact hremembers.distinct.sublist (List.Sublist.map _ List.filter_sublist)

theorem Remembers.admitted (hremembers : replays.Remembers)
    {record : AdminReplayRecord}
    (hfresh : record.fingerprint ∉ replays.fingerprints) :
    (replays.admitted record).Remembers := by
  constructor
  · intro fingerprint
    rw [AdminReplays.admitted, Finset.mem_insert, hremembers.exact]
    simp only [List.mem_append, List.mem_singleton]
    constructor
    · rintro (rfl | ⟨other, hother, hsame⟩)
      · exact ⟨record, .inr rfl, rfl⟩
      · exact ⟨other, .inl hother, hsame⟩
    · rintro ⟨other, hother | rfl, hsame⟩
      · exact .inr ⟨other, hother, hsame⟩
      · exact .inl hsame.symm
  · rw [AdminReplays.admitted, List.map_append, List.map_singleton,
      List.nodup_append]
    apply And.intro hremembers.distinct
    apply And.intro (List.nodup_singleton _)
    intro other hother added hadded heq
    obtain ⟨found, hfound, hsame⟩ := List.mem_map.mp hother
    apply hfresh
    rw [hremembers.exact]
    exact ⟨found, hfound, hsame.trans (heq.trans (List.mem_singleton.mp hadded))⟩

/-- A claim with the timestamp is refused from now on: it is remembered as long as it
is in the window, or it has left the window. -/
def Spends (replays : AdminReplays) (clock : ℕ) (fingerprint : MutationFingerprint)
    (clientTimestamp : ℕ) : Prop :=
  (∃ record ∈ replays.order, record.fingerprint = fingerprint ∧
      ∀ now, record.withinRetention now = false →
        clientTimestamp + adminReplayRetention / 2 < now) ∨
    clientTimestamp + adminReplayRetention / 2 < clock

theorem Spends.mono (hspends : replays.Spends clock fingerprint clientTimestamp)
    (hclock : clock ≤ now) : replays.Spends now fingerprint clientTimestamp :=
  hspends.imp_right fun hpast => hpast.trans_le hclock

theorem Spends.pruned (hspends : replays.Spends now fingerprint clientTimestamp) :
    (replays.pruned now).Spends now fingerprint clientTimestamp := by
  rcases hspends with ⟨record, hrecord, hsame, hwindow⟩ | hpast
  · cases hwithin : record.withinRetention now with
    | true =>
        exact .inl ⟨record, List.mem_filter.mpr ⟨hrecord, hwithin⟩, hsame, hwindow⟩
    | false => exact .inr (hwindow now hwithin)
  · exact .inr hpast

theorem Spends.admitted (hspends : replays.Spends clock fingerprint clientTimestamp)
    (record : AdminReplayRecord) :
    (replays.admitted record).Spends clock fingerprint clientTimestamp := by
  apply hspends.imp_left
  rintro ⟨found, hfound, hrest⟩
  exact ⟨found, List.mem_append_left _ hfound, hrest⟩

/-- A mutation that was just admitted. -/
theorem spends_admitted (replays : AdminReplays)
    (hwindow : absDiff now clientTimestamp ≤ adminReplayRetention / 2) :
    (replays.admitted ⟨fingerprint, clientTimestamp, now⟩).Spends clock fingerprint
      clientTimestamp := by
  refine .inl ⟨_, List.mem_append_right _ (List.mem_singleton.mpr rfl), rfl, ?_⟩
  intro later hold
  rw [AdminReplayRecord.withinRetention, decide_eq_false_iff_not] at hold
  simp only [absDiff, adminReplayRetention] at hold hwindow ⊢
  split at hold <;> omega

/-- A claim that is spent is not admitted. -/
theorem Spends.refused (hspends : replays.Spends now fingerprint clientTimestamp)
    (hremembers : replays.Remembers) (hfresh : fingerprint ∉ replays.fingerprints)
    (hwindow : absDiff now clientTimestamp ≤ adminReplayRetention / 2) :
    False := by
  rcases hspends with ⟨record, hrecord, hsame, -⟩ | hpast
  · exact hfresh ((hremembers.exact fingerprint).mpr ⟨record, hrecord, hsame⟩)
  · simp only [absDiff] at hwindow
    omega

/-- The mutations are remembered once each, and every one of `claims` is spent. -/
structure Knows (replays : AdminReplays) (clock : ℕ)
    (claims : List (MutationFingerprint × ℕ)) : Prop where
  remembers : replays.Remembers
  spends : ∀ claimed ∈ claims, replays.Spends clock claimed.1 claimed.2

variable {claims : List (MutationFingerprint × ℕ)}

theorem Knows.mono (hknows : replays.Knows clock claims) (hclock : clock ≤ now) :
    replays.Knows now claims where
  remembers := hknows.remembers
  spends claimed hclaimed := (hknows.spends claimed hclaimed).mono hclock

theorem Knows.pruned (hknows : replays.Knows now claims) :
    (replays.pruned now).Knows now claims where
  remembers := hknows.remembers.pruned now
  spends claimed hclaimed := (hknows.spends claimed hclaimed).pruned

theorem Knows.admitted (hknows : replays.Knows now claims)
    (hfresh : fingerprint ∉ replays.fingerprints)
    (hwindow : absDiff now clientTimestamp ≤ adminReplayRetention / 2) :
    (replays.admitted ⟨fingerprint, clientTimestamp, now⟩).Knows now
      (claims ++ [(fingerprint, clientTimestamp)]) where
  remembers := hknows.remembers.admitted hfresh
  spends claimed hclaimed := by
    rcases List.mem_append.mp hclaimed with hearlier | hlast
    · exact (hknows.spends claimed hearlier).admitted _
    · rw [List.mem_singleton.mp hlast]
      exact spends_admitted replays hwindow

theorem Knows.fewer {fewer : List (MutationFingerprint × ℕ)}
    (hknows : replays.Knows clock claims) (hfewer : fewer ⊆ claims) :
    replays.Knows clock fewer where
  remembers := hknows.remembers
  spends claimed hclaimed := hknows.spends claimed (hfewer hclaimed)

/-- What is admitted was not admitted before. -/
theorem Knows.fresh (hknows : replays.Knows now claims)
    (hfresh : fingerprint ∉ replays.fingerprints)
    (hwindow : absDiff now clientTimestamp ≤ adminReplayRetention / 2) :
    (fingerprint, clientTimestamp) ∉ claims :=
  fun hclaimed => (hknows.spends _ hclaimed).refused hknows.remembers hfresh hwindow

end AdminReplays

def AuthMemory.replays (memory : AuthMemory) : AdminReplays :=
  ⟨memory.adminReplays, memory.adminReplayOrder⟩

def Settings.replays (settings : Settings) : AdminReplays :=
  ⟨settings.adminReplays, settings.adminReplayOrder⟩

theorem AuthMemory.replays_of_settings {memory after : AuthMemory}
    (hsettings : after.settings.replays = memory.settings.replays) :
    after.replays = memory.replays := hsettings

/-! ## Commands -/

variable {crypto : AuthCrypto} {config : AuthConfig} {env : Surroundings}
  {memory base published last : AuthMemory} {dir dir' : StateDir}
  {command : AuthCommand} {record : WalRecord} {stop : Interruption}
  {result : Except AuthFailure AuthResponse}

def AuthCommand.rotates : AuthCommand → Bool
  | .rotateRoot _ => true
  | _ => false

def AuthCommand.claim : AuthCommand → Option (MutationFingerprint × ℕ)
  | .claimAdminMutation fingerprint clientTimestamp =>
      some (fingerprint, clientTimestamp)
  | _ => none

/-- The mutation that an answer admits. -/
def claimed {Failure : Type} (command : AuthCommand)
    (ended : Except Failure AuthResponse) : List (MutationFingerprint × ℕ) :=
  if ended.isOk then command.claim.toList else []

/-- What a command does to the remembered mutations. -/
inductive Remembered (env : Surroundings) (before : AdminReplays) :
    AuthCommand → Except Interruption AuthResponse → AdminReplays → Prop where
  | kept {command : AuthCommand} {ended : Except Interruption AuthResponse}
      (hother : ∀ fingerprint clientTimestamp,
        command = .claimAdminMutation fingerprint clientTimestamp →
          ended.isOk = false) :
      Remembered env before command ended before
  | pruned {command : AuthCommand} {stop : Interruption} :
      Remembered env before command (.error stop) (before.pruned (env.clock 0))
  | admitted {fingerprint : MutationFingerprint} {clientTimestamp : ℕ}
      {ended : Except Interruption AuthResponse}
      (hfresh : fingerprint ∉ (before.pruned (env.clock 0)).fingerprints)
      (hwindow : absDiff (env.clock 0) clientTimestamp ≤ adminReplayRetention / 2) :
      Remembered env before (.claimAdminMutation fingerprint clientTimestamp) ended
        ((before.pruned (env.clock 0)).admitted
          ⟨fingerprint, clientTimestamp, env.clock 0⟩)
  | forgotten {newKey : AesKeyType} {response : AuthResponse} :
      Remembered env before (.rotateRoot newKey) (.ok response) ⟨∅, []⟩

theorem AuthMemory.replays_failClosed (memory : AuthMemory) :
    memory.failClosed.replays = memory.replays := by
  apply AuthMemory.replays_of_settings
  rw [memory.settings_failClosed]
  rfl

theorem AppendCut.replays (hcut : AppendCut base dir record stop last dir') :
    last.replays = base.replays := by
  cases hcut with
  | retryable => rfl
  | uncertain => exact base.replays_failClosed
  | stopped => rfl

theorem CompactCut.replays {snapshot : PersistedSnapshot}
    (hcut : CompactCut base dir snapshot stop last dir') :
    last.replays = base.replays := by
  cases hcut with
  | failed => exact base.replays_failClosed
  | stopped => rfl

theorem ReplaceCut.replays {writes : List (StateDir → StateDir)}
    {installed : StateDir → Prop} {remove : StateDir → StateDir}
    (hcut : ReplaceCut base dir writes installed remove stop last dir') :
    last.replays = base.replays := by
  cases hcut with
  | failed => exact base.replays_failClosed
  | stopped => rfl
  | removed => rfl

theorem AuthMemory.replays_collectGarbage {kept : AuthMemory} {removed now : ℕ}
    (hkept : memory.collectGarbage now = (kept, removed)) :
    kept.replays = memory.replays := by
  have hsettings := memory.settings_collectGarbage now
  rw [hkept] at hsettings
  exact congrArg Settings.replays hsettings

theorem Appends.remembered
    (happends :
      Appends crypto config env memory command base record result published) :
    Remembered env memory.replays command (answer result) published.replays := by
  have hother : (∀ claimed, record ≠ .adminReplay claimed) →
      published.replays = memory.replays :=
    fun hother => congrArg Settings.replays (happends.settings hother)
  cases happends with
  | claim hpruned hfresh hroom hwindow =>
      rw [hpruned] at hfresh ⊢
      exact .admitted hfresh hwindow
  | _ =>
      rw [hother fun claimed hclaimed => by cases hclaimed]
      exact .kept fun fingerprint clientTimestamp hclaim => by cases hclaim

theorem CommandMove.remembered {ended : Except Interruption AuthResponse}
    (hmove : CommandMove crypto config env memory dir command ended last dir') :
    Remembered env memory.replays command ended last.replays := by
  have hsame : ∀ {stop : Interruption}, last.replays = memory.replays →
      Remembered env memory.replays command (.error stop) last.replays := by
    intro stop hlast
    rw [hlast]
    exact .kept fun _ _ _ => rfl
  cases hmove with
  | refused => exact .kept fun _ _ _ => rfl
  | claimRefused => exact .pruned
  | listed | status => exact .kept fun _ _ hclaim => by cases hclaim
  | appended happends => exact happends.remembered
  | appendCut happends hcut =>
      cases happends with
      | claim hpruned =>
          rw [hcut.replays, hpruned]
          exact .pruned
      | _ => exact hsame hcut.replays
  | @collected kept removed hopen hkept =>
      have hcollected : (kept.pushAuditRecord (gcAudit env removed)).replays =
          memory.replays := by
        have hsame := AuthMemory.replays_collectGarbage hkept
        obtain ⟨records, hpushed⟩ :=
          AuthMemory.pushAuditRecord_eq kept (gcAudit env removed)
        rw [hpushed]
        exact hsame
      rw [hcollected]
      exact .kept fun _ _ hclaim => by cases hclaim
  | collectCut hopen hkept hcut =>
      exact hsame (hcut.replays.trans (AuthMemory.replays_collectGarbage hkept))
  | @reset bumped _ _ hbumped =>
      have hreset : (bumped.finishReset env.newInstanceId (resetAudit env)
          (env.clock 1)).replays = memory.replays := by
        apply AuthMemory.replays_of_settings
        rw [AuthMemory.settings_finishReset, hbumped]
        rfl
      rw [hreset]
      exact .kept fun _ _ hclaim => by cases hclaim
  | resetCut hbumped hcut =>
      rw [hbumped] at hcut
      exact hsame hcut.replays
  | rotated => exact .forgotten
  | rotateCut hnew hbumped hcut =>
      rw [hbumped] at hcut
      exact hsame hcut.replays

theorem TickMove.replays {now : Seconds} {ended : Except Interruption Unit}
    (hmove : TickMove now memory dir ended last dir') :
    last.replays = memory.replays.pruned now := by
  have hticked : ((memory.tickLeases now).pruneExpiredAdminReplays now).replays =
      memory.replays.pruned now :=
    congrArg (AdminReplays.pruned · now)
      (congrArg Settings.replays (memory.settings_tickLeases now))
  cases hmove with
  | ticked hpruned => rw [hpruned, hticked]
  | compacted hpruned =>
      rw [← hticked, ← hpruned]
      rfl
  | compactCut hpruned hopen hcut => rw [hcut.replays, hpruned, hticked]

/-- A command without a rotation: what was admitted stays spent, and what it admits
was not admitted before. -/
theorem Remembered.knows {before after : AdminReplays}
    {ended : Except Interruption AuthResponse}
    {claims : List (MutationFingerprint × ℕ)}
    (hmove : Remembered env before command ended after)
    (hroot : ended.isOk = true → command.rotates = false)
    (hknows : before.Knows (env.clock 0) claims) :
    after.Knows (env.clock 0) (claims ++ claimed command ended) ∧
      (claims.Nodup → (claims ++ claimed command ended).Nodup) := by
  have hnone : claimed command ended = [] → ∀ {now : AdminReplays},
      now.Knows (env.clock 0) claims →
        now.Knows (env.clock 0) (claims ++ claimed command ended) ∧
          (claims.Nodup → (claims ++ claimed command ended).Nodup) := by
    intro hclaimed now hnow
    rw [hclaimed, List.append_nil]
    exact ⟨hnow, id⟩
  cases hmove with
  | kept hother =>
      refine hnone ?_ hknows
      rw [claimed]
      split
      · rename_i hok
        cases command with
        | claimAdminMutation fingerprint clientTimestamp =>
            cases hok.symm.trans (hother fingerprint clientTimestamp rfl)
        | _ => rfl
      · rfl
  | pruned => exact hnone rfl hknows.pruned
  | @admitted fingerprint clientTimestamp ended hfresh hwindow =>
      have hadmitted := hknows.pruned.admitted hfresh hwindow
      cases hok : ended.isOk with
      | false =>
          refine hnone ?_ (hadmitted.fewer (List.subset_append_left _ _))
          rw [claimed, hok, if_neg Bool.false_ne_true]
      | true =>
          have hclaimed : claimed (.claimAdminMutation fingerprint clientTimestamp)
              ended = [(fingerprint, clientTimestamp)] := by
            rw [claimed, hok, if_pos rfl]
            rfl
          rw [hclaimed]
          apply And.intro hadmitted
          intro hnodup
          apply List.Nodup.append hnodup (List.nodup_singleton _)
          rw [List.disjoint_singleton]
          exact hknows.pruned.fresh hfresh hwindow
  | forgotten => cases hroot rfl

/-! ## Starts -/

/-- What a server remembers once it has started, unless its directory holds a mutation
twice. -/
theorem StartMove.remembers {env : StartSurroundings}
    (hmove : StartMove crypto config env dir (some memory) dir') :
    memory.replays.Remembers ↔
      (memory.adminReplayOrder.map (·.fingerprint)).Nodup := by
  have hrestored : ∀ (adminKey : AesKeyType) (instanceId : InstanceId)
      (loaded : Option PersistedSnapshot) (safeMode : Bool) (now lastSnapshotAt : ℕ),
      memory = (restoredMemory config adminKey instanceId loaded safeMode now
        lastSnapshotAt).restoreLeases now →
          memory.adminReplays =
            (memory.adminReplayOrder.map (·.fingerprint)).toFinset := by
    intro adminKey instanceId loaded safeMode now lastSnapshotAt hmemory
    have hsettings : memory.settings = (restoredMemory config adminKey instanceId loaded
        safeMode now lastSnapshotAt).settings := by
      rw [hmemory]
      exact AuthMemory.settings_restoreLeases _ now
    have hset := congrArg Settings.adminReplays hsettings
    have horder := congrArg Settings.adminReplayOrder hsettings
    change memory.adminReplayOrder = _ at horder
    rw [horder]
    exact hset
  have hset : memory.adminReplays =
      (memory.adminReplayOrder.map (·.fingerprint)).toFinset := by
    cases hmove with
    | safeMode => exact hrestored _ _ _ _ _ _ rfl
    | loaded => exact hrestored _ _ _ _ _ _ rfl
  constructor
  · exact fun hremembers => hremembers.distinct
  · intro hdistinct
    refine ⟨fun fingerprint => ?_, hdistinct⟩
    rw [AuthMemory.replays, hset, List.mem_toFinset, List.mem_map]

/-! ## Histories -/

/-- When the actor acted, by its first look at the clock. -/
def AuthEvent.time : AuthEvent → Option ℕ
  | .command env _ _ _ => some (env.clock 0)
  | .tick now _ => some now
  | _ => none

def AuthRecord.claimed : AuthRecord → List (MutationFingerprint × ℕ)
  | .answered _ command answer => Auth.claimed command answer
  | .started _ => []

theorem claimed_answer (result : Except AuthFailure AuthResponse) :
    claimed command (answer result) = claimed command result := by
  rw [claimed, claimed, isOk_answer]

namespace AuthHistory

variable {history next later : AuthHistory} {clock : ℕ}
  {claims : List (MutationFingerprint × ℕ)}

/-- The server, if one runs, remembers each mutation once, and every one of `claims`
is spent. -/
def Knows (history : AuthHistory) (clock : ℕ)
    (claims : List (MutationFingerprint × ℕ)) : Prop :=
  ∀ server, history.server = some server → server.memory.replays.Knows clock claims

theorem Knows.mono {now : ℕ} (hknows : history.Knows clock claims)
    (hclock : clock ≤ now) : history.Knows now claims :=
  fun server hserver => (hknows server hserver).mono hclock

/-- What a step admits was not admitted before. -/
theorem Knows.step {event : AuthEvent} (hknows : history.Knows clock claims)
    (htime : ∀ now ∈ event.time, now = clock) (hstart : event.isStart = false)
    (hstep : history.step crypto event = some next) :
    ∃ answered, next.records = history.records ++ answered ∧
      ((∀ record ∈ answered, record.carriesOut (·.rotates) = false) →
        next.Knows clock (claims ++ answered.flatMap AuthRecord.claimed) ∧
          (claims.Nodup →
            (claims ++ answered.flatMap AuthRecord.claimed).Nodup)) := by
  have hsilent : ∀ {last : AuthHistory}, last.records = history.records →
      last.Knows clock claims →
        ∃ answered, last.records = history.records ++ answered ∧
          ((∀ record ∈ answered, record.carriesOut (·.rotates) = false) →
            last.Knows clock (claims ++ answered.flatMap AuthRecord.claimed) ∧
              (claims.Nodup →
                (claims ++ answered.flatMap AuthRecord.claimed).Nodup)) := by
    intro last hrecords hlast
    refine ⟨[], hrecords.trans (List.append_nil _).symm, fun _ => ?_⟩
    rw [List.flatMap_nil, List.append_nil]
    exact ⟨hlast, id⟩
  cases step_moves hstep with
  | started | startCut => cases hstart
  | @answered server env authority command outcomes result last dir hserver hmove =>
      refine ⟨_, rfl, fun hroot => ?_⟩
      have hnow : env.clock 0 = clock := htime _ rfl
      have hkept : (answer result).isOk = true → command.rotates = false := by
        intro hok
        have hrecord := hroot _ (List.mem_singleton.mpr rfl)
        rw [AuthRecord.carriesOut, ← isOk_answer, hok] at hrecord
        exact hrecord
      have hbefore := hknows server hserver
      rw [← hnow] at hbefore ⊢
      obtain ⟨hafter, hnodup⟩ := hmove.remembered.knows hkept hbefore
      rw [claimed_answer] at hafter hnodup
      rw [List.flatMap_singleton, AuthRecord.claimed]
      apply And.intro _ hnodup
      intro found hfound
      cases hfound
      exact hafter
  | commandStopped | tickStopped | stop =>
      exact hsilent rfl fun server hlast => by cases hlast
  | @ticked server now outcomes result last dir hserver hmove =>
      refine hsilent rfl fun found hfound => ?_
      have hnow : now = clock := htime _ rfl
      cases hfound
      rw [hmove.replays, hnow]
      exact (hknows server hserver).pruned
  | authenticate hserver =>
      refine hsilent rfl fun server hlast => ?_
      cases hlast
      rw [AuthMemory.replays_of_settings (congrArg Settings.replays
        (AuthMemory.settings_authenticatePresented _ _ _ _ _))]
      exact hknows _ hserver
  | check hserver =>
      refine hsilent rfl fun server hlast => ?_
      cases hlast
      rw [AuthMemory.replays_of_settings (congrArg Settings.replays
        (AuthMemory.settings_check _ _ _))]
      exact hknows _ hserver

theorem claims_of_run_at {events : List AuthEvent} {answered : List AuthRecord}
    (hknows : ∀ now, history.Knows now [])
    (hrun : (authSystem crypto).Run history events later)
    (hstarts : ∀ event ∈ events, event.isStart = false)
    (htimes : (events.filterMap AuthEvent.time).Pairwise (· ≤ ·))
    (hrecords : later.records = history.records ++ answered)
    (hroot : ∀ record ∈ answered, record.carriesOut (·.rotates) = false)
    (hclock : ∀ now ∈ events.filterMap AuthEvent.time, now ≤ clock) :
    later.Knows clock (answered.flatMap AuthRecord.claimed) ∧
      (answered.flatMap AuthRecord.claimed).Nodup := by
  refine answered_induction (motive := fun events later answered => ∀ clock : ℕ,
    (∀ event ∈ events, event.isStart = false) →
      (events.filterMap AuthEvent.time).Pairwise (· ≤ ·) →
        (∀ record ∈ answered, record.carriesOut (·.rotates) = false) →
          (∀ now ∈ events.filterMap AuthEvent.time, now ≤ clock) →
            later.Knows clock (answered.flatMap AuthRecord.claimed) ∧
              (answered.flatMap AuthRecord.claimed).Nodup)
    ?_ ?_ hrun hrecords clock hstarts htimes hroot hclock
  · exact fun clock _ _ _ _ => ⟨hknows clock, List.nodup_nil⟩
  · intro events event middle last earlier added hrun ih hstep hadded clock hstarts
      htimes hroot hclock
    obtain ⟨hearlierStarts, hstart⟩ := List.forall_mem_append.mp hstarts
    obtain ⟨hearlierRoot, haddedRoot⟩ := List.forall_mem_append.mp hroot
    rw [List.filterMap_append] at htimes hclock
    obtain ⟨hearlierTimes, -, hbetween⟩ := List.pairwise_append.mp htimes
    obtain ⟨hearlierClock, hlastClock⟩ := List.forall_mem_append.mp hclock
    -- The step is made at its own time, or at the end when it has none.
    obtain ⟨now, hnow, hbefore, hlast⟩ : ∃ now, (∀ time ∈ event.time, time = now) ∧
        (∀ time ∈ events.filterMap AuthEvent.time, time ≤ now) ∧ now ≤ clock := by
      cases htime : event.time with
      | none =>
          refine ⟨clock, ?_, hearlierClock, le_rfl⟩
          intro time hnone
          cases hnone
      | some now =>
          have hmem : now ∈ [event].filterMap AuthEvent.time :=
            List.mem_filterMap.mpr ⟨event, List.mem_singleton.mpr rfl, htime⟩
          refine ⟨now, fun _ hsome => (Option.some.inj hsome).symm, ?_, ?_⟩
          · exact fun time hearlierTime => hbetween time hearlierTime now hmem
          · exact hlastClock now hmem
    obtain ⟨hmiddle, hnodup⟩ := ih now hearlierStarts hearlierTimes hearlierRoot hbefore
    obtain ⟨answered, hanswered, hadmits⟩ :=
      hmiddle.step hnow (hstart event List.mem_cons_self) hstep
    obtain rfl : answered = added :=
      List.append_cancel_left (hanswered.symm.trans hadded)
    obtain ⟨hafter, hstill⟩ := hadmits haddedRoot
    rw [List.flatMap_append]
    exact ⟨hafter.mono hlast, hstill hnodup⟩

theorem knows_of_start {config : AuthConfig} {env : StartSurroundings}
    {outcomes : List FileOutcome}
    (hstart : history.step crypto (.start config env outcomes) = some next)
    (hdistinct : ∀ server, next.server = some server →
      (server.memory.adminReplayOrder.map (·.fingerprint)).Nodup) (now : ℕ) :
    next.Knows now [] := by
  intro server hserver
  have hheld := hdistinct server hserver
  cases step_moves hstart with
  | started hidle hmove =>
      cases hserver
      exact ⟨hmove.remembers.mpr hheld, fun claimed hnone => by cases hnone⟩
  | startCut => cases hserver

/-- As long as a server runs, its clock does not go back and the root key is not
rotated, no mutation is admitted twice. -/
theorem claims_of_run {config : AuthConfig} {env : StartSurroundings}
    {outcomes : List FileOutcome} {events : List AuthEvent}
    {answered : List AuthRecord}
    (hstart : history.step crypto (.start config env outcomes) = some next)
    (hdistinct : ∀ server, next.server = some server →
      (server.memory.adminReplayOrder.map (·.fingerprint)).Nodup)
    (hrun : (authSystem crypto).Run next events later)
    (hstarts : ∀ event ∈ events, event.isStart = false)
    (htimes : (events.filterMap AuthEvent.time).Pairwise (· ≤ ·))
    (hrecords : later.records = next.records ++ answered)
    (hroot : ∀ record ∈ answered, record.carriesOut (·.rotates) = false) :
    (answered.flatMap AuthRecord.claimed).Nodup := by
  have hclock : ∀ now ∈ events.filterMap AuthEvent.time,
      now ≤ (events.filterMap AuthEvent.time).sum :=
    fun now hmem => List.le_sum_of_mem hmem
  exact (claims_of_run_at (knows_of_start hstart hdistinct) hrun hstarts htimes
    hrecords hroot hclock).2

/-- A mutation is admitted, asked for again at the end of its retention, and asked for
once more when it is forgotten and its timestamp too old. -/
theorem claims_of_repeats :
    ∃ (history later : AuthHistory) (fingerprint : MutationFingerprint),
    play [.sampleStart 0 1000 []] = some history ∧
      [.sampleCommand 1000 0 (.claimAdminMutation fingerprint 1300) [],
        .sampleCommand 1600 0 (.claimAdminMutation fingerprint 1300) [],
        .sampleCommand 1601 0 (.claimAdminMutation fingerprint 1300) []].foldlM
          (AuthHistory.step .sample) history = some later ∧
      ((later.records.drop history.records.length).flatMap
        AuthRecord.claimed).map (·.2) = [1300] ∧
      ((later.records.drop history.records.length).flatMap
        AuthRecord.claimed).Nodup := by
  have hrun : (play [.sampleStart 0 1000 []]).bind (fun history =>
      ([.sampleCommand 1000 0 (.claimAdminMutation (.replicate 32 7) 1300) [],
        .sampleCommand 1600 0 (.claimAdminMutation (.replicate 32 7) 1300) [],
        .sampleCommand 1601 0
          (.claimAdminMutation (.replicate 32 7) 1300) []].foldlM
            (AuthHistory.step .sample) history).bind fun later =>
        history.server.map fun server =>
          (server.memory.adminReplayOrder.map (·.fingerprint),
            ((later.records.drop history.records.length).flatMap
              AuthRecord.claimed).map (·.2),
            (later.records.drop history.records.length).all fun record =>
              !record.carriesOut (·.rotates))) =
        some ([], [1300], true) := by
    decide +kernel
  obtain ⟨history, hplay, hrest⟩ := Option.bind_eq_some_iff.mp hrun
  obtain ⟨later, hfold, hservers⟩ := Option.bind_eq_some_iff.mp hrest
  obtain ⟨server, hserver, hended⟩ := Option.map_eq_some_iff.mp hservers
  obtain ⟨hheld, hread⟩ := Prod.mk.inj hended
  obtain ⟨hclaims, hroots⟩ := Prod.mk.inj hread
  have hstart : initial.step .sample (.sampleStart 0 1000 []) = some history := by
    simpa only [play, List.foldlM_cons, List.foldlM_nil, bind_pure] using hplay
  have hevents : (authSystem .sample).Run history _ later :=
    Transition.System.run_of_foldlM (fun _ _ _ => id) hfold
  refine ⟨history, later, _, hplay, hfold, hclaims, ?_⟩
  apply claims_of_run hstart _ hevents (by decide) (by decide)
    (List.prefix_iff_eq_append.mp (records_of_run hevents)).symm
    fun record hrecord =>
      (Bool.not_eq_true' _).mp (List.all_eq_true.mp hroots record hrecord)
  intro found hfound
  cases hserver.symm.trans hfound
  rw [hheld]
  exact List.nodup_nil

end AuthHistory

end PbMapper.Auth

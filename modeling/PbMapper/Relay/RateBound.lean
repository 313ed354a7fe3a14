import PbMapper.Foundation.RateEnvelope
import PbMapper.Relay.Iterations

/-!
# New streams per second

The limiter of a namespace is a token bucket that is made full on first use and
discarded when the namespace has no service and no pending stream.  As long as
only full buckets are discarded, the subscriptions it lets through stay within
the envelope of its burst and its rate.
-/

namespace PbMapper.Relay

open RelayState

/-! ## The bucket -/

namespace NamespaceRateLimit

/-- The tokens of a bucket at a later time. -/
def available (limit : NamespaceRateLimit) (now : Instant) : ℚ :=
  min (limit.tokens + max 0 (now - limit.lastRefill) * limit.ratePerSecond)
    limit.burst

variable {limit : NamespaceRateLimit} {now later : Instant}

theorem allow_of_lt (hlt : limit.available now < 1) :
    limit.allow now = (false,
      { limit with tokens := limit.available now, lastRefill := now }) :=
  if_pos hlt

theorem allow_of_le (hle : 1 ≤ limit.available now) :
    limit.allow now = (true,
      { limit with tokens := limit.available now - 1, lastRefill := now }) :=
  if_neg (not_lt.mpr hle)

/-- Waiting in two steps is waiting once. -/
theorem available_le_elapse (hrate : 0 ≤ limit.ratePerSecond)
    (hrefill : limit.lastRefill ≤ now) (hlater : now ≤ later) :
    limit.available later ≤
      min (limit.available now + limit.ratePerSecond * (later - now))
        limit.burst := by
  have hnow : max 0 (now - limit.lastRefill) = now - limit.lastRefill :=
    max_eq_right (sub_nonneg.mpr hrefill)
  have hend : max 0 (later - limit.lastRefill) = later - limit.lastRefill :=
    max_eq_right (sub_nonneg.mpr (hrefill.trans hlater))
  have hadded : 0 ≤ limit.ratePerSecond * (later - now) :=
    mul_nonneg hrate (sub_nonneg.mpr hlater)
  have hsplit : limit.tokens +
        (later - limit.lastRefill) * limit.ratePerSecond =
      limit.tokens + (now - limit.lastRefill) * limit.ratePerSecond +
        limit.ratePerSecond * (later - now) := by ring
  refine le_min ?_ (min_le_right _ _)
  rw [available, available, hnow, hend, hsplit]
  rcases le_total (limit.tokens +
      (now - limit.lastRefill) * limit.ratePerSecond) limit.burst with
    hbelow | habove
  · rw [min_eq_left hbelow]
    exact min_le_left _ _
  · rw [min_eq_right habove]
    exact (min_le_right _ _).trans (le_add_of_nonneg_right hadded)

end NamespaceRateLimit

/-! ## Passing and releasing -/

namespace Manager

variable (settings : Settings) (now : Instant) (manager : Manager)

/-- The subscription reaches the limiter of its namespace. -/
def reachesLimiter (key : ImutableKey) : Bool :=
  (manager.namespaceStreamCounts.lookup (keyNamespace key)).getD 0 <
      settings.maxStreamsPerNamespace &&
    (manager.serverConnMap.lookup key).isSome

/-- The subscriptions that pass the limiter, with the time. -/
def passed : ManagerTask → List (UInt64 × Instant)
  | .subcribe key _ _ _ =>
      if manager.reachesLimiter settings key &&
          (manager.allowNewStream settings now (keyNamespace key)).1 then
        [(keyNamespace key, now)]
      else []
  | _ => []

/-- A namespace without services and without pending streams. -/
def isIdleNamespace (serverConnMap : ServerConnMap)
    (pendingStreams : Table RemoteConnId PendingStream) (nameSpace : UInt64) :
    Bool :=
  !serverConnMap.keys.any (keyNamespace · == nameSpace) &&
    !pendingStreams.entries.any (keyNamespace ·.2.key == nameSpace)

/-- The namespace whose limiter a task discards. -/
def releasedNamespace : ManagerTask → Option UInt64
  | .deRegisterServerConn key connId | .retireServerConn key connId _ =>
      if isIdleNamespace (removeServerConn manager.serverConnMap key connId)
          manager.pendingStreams (keyNamespace key) then
        some (keyNamespace key)
      else none
  | .deRegisterClientConn _ clientId =>
      (manager.pendingStreams.lookup clientId).bind fun pending =>
        if isIdleNamespace manager.serverConnMap
            (manager.pendingStreams.erase clientId)
            (keyNamespace pending.key) then
          some (keyNamespace pending.key)
        else none
  | _ => none

variable {settings now manager}

theorem rateLimits_release (nameSpace : UInt64) :
    (manager.releaseNamespaceRateLimitIfIdle nameSpace).namespaceRateLimits =
      if isIdleNamespace manager.serverConnMap manager.pendingStreams
          nameSpace then manager.namespaceRateLimits.erase nameSpace
      else manager.namespaceRateLimits :=
  apply_ite namespaceRateLimits _ _ _

theorem rateLimits_selectServer (manager : Manager)
    (subscription : Subscription) (list : List ServerConnInfo) :
    (manager.selectServer subscription list).1.namespaceRateLimits =
      manager.namespaceRateLimits := by
  induction list generalizing manager with
  | nil => rfl
  | cons candidate rest ih =>
      unfold selectServer
      split
      · exact ih _
      · rfl

theorem rateLimits_subcribe (subscription : Subscription) :
    (manager.subcribe settings now subscription).1.namespaceRateLimits =
      if manager.reachesLimiter settings subscription.key then
        (manager.allowNewStream settings now
          (keyNamespace subscription.key)).2.namespaceRateLimits
      else manager.namespaceRateLimits := by
  simp only [subcribe, reachesLimiter, Bool.and_eq_true, decide_eq_true_eq]
  split
  · rename_i hfull
    rw [if_neg fun h => absurd h.1 (not_lt.mpr hfull)]
  · rename_i hroom
    split
    · rename_i hlookup
      rw [if_neg (by simp [hlookup])]
    · rename_i hlookup
      rw [if_pos ⟨not_le.mp hroom, by simp [hlookup]⟩]
      split
      · rename_i heq
        rw [heq]
      · rename_i heq
        rw [heq]
        exact rateLimits_selectServer _ _ _

/-- Apart from subscriptions, a task changes the limiters only by discarding
one. -/
theorem rateLimits_handle {task : ManagerTask}
    (hne : ∀ key connId connSender excluded,
      task ≠ .subcribe key connId connSender excluded) :
    (manager.handle settings now task).1.namespaceRateLimits =
      match manager.releasedNamespace task with
      | none => manager.namespaceRateLimits
      | some nameSpace => manager.namespaceRateLimits.erase nameSpace := by
  have hderegistered : ∀ key connId,
      (manager.deRegisterServerConn key connId).namespaceRateLimits =
        match (if isIdleNamespace
            (removeServerConn manager.serverConnMap key connId)
            manager.pendingStreams (keyNamespace key) then
              some (keyNamespace key) else none) with
        | none => manager.namespaceRateLimits
        | some nameSpace => manager.namespaceRateLimits.erase nameSpace := by
    intro key connId
    rw [deRegisterServerConn, rateLimits_release]
    by_cases hidle : isIdleNamespace
      (removeServerConn manager.serverConnMap key connId)
        manager.pendingStreams (keyNamespace key) = true <;>
      simp [dropServerConn, hidle]
  cases task with
  | subcribe => exact absurd rfl (hne _ _ _ _)
  | accept | serverConnActivity | status | shutdown => rfl
  | register key connId needCodec isDatagram protocolVersion connSender =>
      simp only [handle, register, releasedNamespace]
      split <;> rfl
  | stream key stream serverId clientId serverGeneration =>
      simp only [handle, Manager.stream, releasedNamespace]
      repeat' split
      all_goals rfl
  | streamAck serverId clientId serverGeneration =>
      simp only [handle, Manager.streamAck, releasedNamespace]
      repeat' split
      all_goals rfl
  | deRegisterServerConn key connId => exact hderegistered key connId
  | retireServerConn key connId reason => exact hderegistered key connId
  | deRegisterClientConn serverId clientId =>
      simp only [handle, deRegisterClientConn, releasedNamespace,
        removePendingStream]
      cases manager.pendingStreams.lookup clientId with
      | none => cases serverId <;> rfl
      | some pending =>
          by_cases hidle : isIdleNamespace manager.serverConnMap
            (manager.pendingStreams.erase clientId)
              (keyNamespace pending.key) = true <;>
            cases serverId <;>
            simp [rateLimits_release, deregisterConn, hidle]

theorem rateLimits_resume (sent : Bool) (resume : Resume) :
    (manager.resume sent resume).1.namespaceRateLimits =
      manager.namespaceRateLimits := by
  cases resume with
  | done => rfl
  | subcribeResp connId => cases sent <;> rfl
  | streamReq subscription candidate rest =>
      cases sent with
      | true => rfl
      | false => exact rateLimits_selectServer _ _ _

end Manager

namespace RelayState

/-- Whenever a limiter is discarded, it has refilled. -/
def ReleasesFull (settings : Settings) (relay : RelayState) : Event → Prop
  | .receive now =>
      ∀ envelope ∈ relay.queue.head?,
        ∀ nameSpace ∈ relay.manager.releasedNamespace envelope.task,
          ∀ limit ∈ relay.manager.namespaceRateLimits.lookup nameSpace,
            (settings.newStreamsBurst : ℚ) ≤ limit.available now
  | _ => True

-- Quantifying over all namespaces is decidable too, but not in practice.
instance (settings : Settings) (relay : RelayState) (event : Event) :
    Decidable (relay.ReleasesFull settings event) :=
  match event with
  | .receive _ =>
      @Option.decidableForallMem _ _ (fun _ =>
        @Option.decidableForallMem _ _ (fun _ => Option.decidableForallMem _) _) _
  | .arrive | .shutdown | .send | .flush _ | .connection _ _ | .recv _ _ =>
      inferInstanceAs (Decidable True)

end RelayState

/-! ## The envelope along a run -/

/-- The subscriptions of a run that pass a limiter, with the times. -/
def streamPasses (settings : Settings) :
    RelayState → Event → List (UInt64 × Instant) :=
  RelayState.handling fun manager now task => manager.passed settings now task

/-- The times of the passes of a namespace. -/
def passesOf (nameSpace : UInt64) (log : List (UInt64 × Instant)) :
    List Instant :=
  (log.filter (·.1 == nameSpace)).map (·.2)

/-- The new streams of every namespace stay within its burst and rate. -/
def StreamRateBounded (settings : Settings) (log : List (UInt64 × Instant)) :
    Prop :=
  ∀ nameSpace, RateEnvelope.Bounded (settings.newStreamsBurst : ℚ)
    settings.newStreamsPerSecond (passesOf nameSpace log)

/-- The tokens of a namespace: a bucket that does not exist is full. -/
def Manager.tokens (settings : Settings) (manager : Manager) (now : Instant)
    (nameSpace : UInt64) : ℚ :=
  match manager.namespaceRateLimits.lookup nameSpace with
  | none => settings.newStreamsBurst
  | some limit => limit.available now

/-- Buckets have the configured size and rate, and what is left of a namespace's
tokens still fits into its envelope. -/
structure Limited (settings : Settings) (manager : Manager) (now : Instant)
    (log : List (UInt64 × Instant)) : Prop where
  buckets : ∀ nameSpace,
    ∀ limit ∈ manager.namespaceRateLimits.lookup nameSpace,
      limit.ratePerSecond = settings.newStreamsPerSecond ∧
        limit.burst = settings.newStreamsBurst ∧ limit.lastRefill ≤ now
  credit : ∀ nameSpace, RateEnvelope.Credit (settings.newStreamsBurst : ℚ)
    settings.newStreamsPerSecond (passesOf nameSpace log) now
      (manager.tokens settings now nameSpace)

section Envelope

variable {settings : Settings} {manager after : Manager} {now later : Instant}
  {log : List (UInt64 × Instant)}

theorem passesOf_append_ne {nameSpace other : UInt64} (hne : other ≠ nameSpace)
    (time : Instant) :
    passesOf nameSpace (log ++ [(other, time)]) = passesOf nameSpace log := by
  simp [passesOf, hne]

theorem passesOf_append_self (nameSpace : UInt64) (time : Instant) :
    passesOf nameSpace (log ++ [(nameSpace, time)]) =
      passesOf nameSpace log ++ [time] := by
  simp [passesOf]

theorem Limited.congr (hlimited : Limited settings manager now log)
    (hlimits : after.namespaceRateLimits = manager.namespaceRateLimits) :
    Limited settings after now log := by
  refine ⟨?_, fun nameSpace => ?_⟩
  · rw [hlimits]
    exact hlimited.buckets
  · rw [Manager.tokens, hlimits]
    exact hlimited.credit nameSpace

theorem tokens_le_burst (hlimited : Limited settings manager now log)
    (time : Instant) (nameSpace : UInt64) :
    manager.tokens settings time nameSpace ≤ settings.newStreamsBurst := by
  unfold Manager.tokens
  split
  · exact le_rfl
  · rename_i limit hlookup
    rw [← (hlimited.buckets nameSpace limit hlookup).2.1]
    exact min_le_right _ _

/-- Time passes. -/
theorem Limited.elapse (hlimited : Limited settings manager now log)
    (hlater : now ≤ later) : Limited settings manager later log where
  buckets nameSpace limit hlookup := by
    obtain ⟨hrate, hburst, hrefill⟩ := hlimited.buckets nameSpace limit hlookup
    exact ⟨hrate, hburst, hrefill.trans hlater⟩
  credit nameSpace := by
    have hrate : (0 : ℚ) ≤ settings.newStreamsPerSecond := Nat.cast_nonneg _
    refine ((hlimited.credit nameSpace).elapse hrate hlater).mono ?_
    unfold Manager.tokens
    split
    · exact le_min (le_add_of_nonneg_right
        (mul_nonneg hrate (sub_nonneg.mpr hlater))) le_rfl
    · rename_i limit hlookup
      obtain ⟨hrate', hburst, hrefill⟩ :=
        hlimited.buckets nameSpace limit hlookup
      rw [← hrate', ← hburst]
      exact limit.available_le_elapse (hrate' ▸ hrate) hrefill hlater

/-- A refilled bucket is discarded. -/
theorem Limited.erase (hlimited : Limited settings manager now log)
    {nameSpace : UInt64}
    (hfull : ∀ limit ∈ manager.namespaceRateLimits.lookup nameSpace,
      (settings.newStreamsBurst : ℚ) ≤ limit.available now)
    (hlimits : after.namespaceRateLimits =
      manager.namespaceRateLimits.erase nameSpace) :
    Limited settings after now log := by
  refine ⟨fun other limit hlookup => ?_, fun other => ?_⟩
  · rw [hlimits, Table.lookup_erase] at hlookup
    split at hlookup
    · cases hlookup
    · exact hlimited.buckets other limit hlookup
  · rw [Manager.tokens, hlimits, Table.lookup_erase]
    by_cases heq : other = nameSpace
    · rw [if_pos heq]
      dsimp only
      refine (hlimited.credit other).mono ?_
      rw [Manager.tokens, heq]
      split
      · exact le_rfl
      · rename_i limit hlookup
        exact hfull limit hlookup
    · rw [if_neg heq]
      exact hlimited.credit other

theorem NamespaceRateLimit.available_refilled (limit : NamespaceRateLimit)
    {tokens : ℚ} (hle : tokens ≤ limit.burst) :
    ({ limit with tokens, lastRefill := now } :
      NamespaceRateLimit).available now = tokens := by
  simp [NamespaceRateLimit.available, hle]

/-- A subscription asks the limiter of its namespace. -/
theorem Limited.allow (hlimited : Limited settings manager now log)
    (nameSpace : UInt64) :
    Limited settings (manager.allowNewStream settings now nameSpace).2 now
      (log ++ if (manager.allowNewStream settings now nameSpace).1 then
        [(nameSpace, now)] else []) := by
  have hburst : (0 : ℚ) ≤ settings.newStreamsBurst := Nat.cast_nonneg _
  have hrate : (0 : ℚ) ≤ settings.newStreamsPerSecond := Nat.cast_nonneg _
  -- The bucket that is asked has the configured size, and its tokens are those
  -- of the namespace.
  obtain ⟨limit, hlimit, hlimitRate, hlimitBurst, htokens⟩ :
      ∃ limit : NamespaceRateLimit,
        (manager.namespaceRateLimits.lookup nameSpace).getD
          (.new settings.newStreamsPerSecond settings.newStreamsBurst now) =
            limit ∧
        limit.ratePerSecond = settings.newStreamsPerSecond ∧
        limit.burst = settings.newStreamsBurst ∧
        limit.available now = manager.tokens settings now nameSpace := by
    cases hlookup : manager.namespaceRateLimits.lookup nameSpace with
    | none =>
        refine ⟨_, rfl, rfl, rfl, ?_⟩
        rw [Manager.tokens, hlookup]
        simp [NamespaceRateLimit.available, NamespaceRateLimit.new]
    | some limit =>
        obtain ⟨hlimitRate, hlimitBurst, -⟩ :=
          hlimited.buckets nameSpace limit hlookup
        refine ⟨limit, rfl, hlimitRate, hlimitBurst, ?_⟩
        rw [Manager.tokens, hlookup]
  have hcredit := hlimited.credit nameSpace
  have hbelow := tokens_le_burst hlimited now nameSpace
  rw [← htokens] at hcredit hbelow
  have hallow : manager.allowNewStream settings now nameSpace =
      ((limit.allow now).1, { manager with
        namespaceRateLimits :=
          manager.namespaceRateLimits.insert nameSpace (limit.allow now).2 }) := by
    rw [← hlimit]
    rfl
  -- Afterwards only the bucket of the namespace differs.
  have hinsert : ∀ (tokens : ℚ) (more : List (UInt64 × Instant)),
      tokens ≤ limit.burst →
      (∀ other, other ≠ nameSpace →
        passesOf other (log ++ more) = passesOf other log) →
      RateEnvelope.Credit (settings.newStreamsBurst : ℚ)
        settings.newStreamsPerSecond (passesOf nameSpace (log ++ more)) now
          tokens →
      Limited settings { manager with
        namespaceRateLimits := manager.namespaceRateLimits.insert nameSpace
          { limit with tokens, lastRefill := now } } now (log ++ more) := by
    intro tokens more hle hothers hnew
    refine ⟨fun other found hlookup => ?_, fun other => ?_⟩
    · rw [Table.lookup_insert] at hlookup
      split at hlookup
      · cases hlookup
        exact ⟨hlimitRate, hlimitBurst, le_rfl⟩
      · exact hlimited.buckets other found hlookup
    · rw [Manager.tokens, Table.lookup_insert]
      by_cases heq : other = nameSpace
      · subst heq
        rw [if_pos rfl]
        dsimp only
        rw [limit.available_refilled hle]
        exact hnew
      · rw [if_neg heq, hothers other heq]
        exact hlimited.credit other
  rw [hallow]
  rcases lt_or_ge (limit.available now) 1 with hlt | hge
  · rw [NamespaceRateLimit.allow_of_lt hlt]
    refine hinsert _ _ (hlimitBurst ▸ hbelow) (fun other _ => ?_) ?_ <;>
      simp only [Bool.false_eq_true, if_false, List.append_nil]
    exact hcredit
  · rw [NamespaceRateLimit.allow_of_le hge]
    refine hinsert _ _ ?_ (fun other hne => ?_) ?_
    · rw [hlimitBurst]
      linarith
    · exact passesOf_append_ne (Ne.symm hne) now
    · simp only [if_true]
      rw [passesOf_append_self]
      exact hcredit.pass hburst hrate hge

theorem limited_init : Limited settings .new 0 [] where
  buckets _ _ hlookup := by cases hlookup
  credit _ := .nil (Nat.cast_nonneg _) (Nat.cast_nonneg _) 0

theorem limited_handle (task : ManagerTask)
    (hlimited : Limited settings manager now log)
    (hfull : ∀ nameSpace ∈ manager.releasedNamespace task,
      ∀ limit ∈ manager.namespaceRateLimits.lookup nameSpace,
        (settings.newStreamsBurst : ℚ) ≤ limit.available now) :
    Limited settings (manager.handle settings now task).1 now
      (log ++ manager.passed settings now task) := by
  have hother : manager.passed settings now task = [] →
      (∀ key connId connSender excluded,
        task ≠ .subcribe key connId connSender excluded) →
      Limited settings (manager.handle settings now task).1 now
        (log ++ manager.passed settings now task) := by
    intro hnone hne
    have hlimits : (manager.handle settings now task).1.namespaceRateLimits =
        _ := Manager.rateLimits_handle hne
    rw [hnone, List.append_nil]
    cases hreleased : manager.releasedNamespace task with
    | none =>
        rw [hreleased] at hlimits
        exact hlimited.congr hlimits
    | some nameSpace =>
        rw [hreleased] at hlimits
        exact hlimited.erase (hfull nameSpace hreleased) hlimits
  cases task with
  | subcribe key connId connSender excluded =>
      have hlimits : (manager.subcribe settings now
          ⟨key, connId, connSender, excluded⟩).1.namespaceRateLimits = _ :=
        Manager.rateLimits_subcribe _
      by_cases hreaches : manager.reachesLimiter settings key = true
      · rw [if_pos hreaches] at hlimits
        have hallowed := hlimited.allow (keyNamespace key)
        simp only [Manager.passed, hreaches, Bool.true_and]
        exact hallowed.congr hlimits
      · rw [if_neg hreaches] at hlimits
        simp only [Manager.passed, hreaches, Bool.false_and, Bool.false_eq_true,
          if_false, List.append_nil]
        exact hlimited.congr hlimits
  | _ => exact hother rfl fun _ _ _ _ htask => by cases htask

end Envelope

/-- In every run that discards only limiters that have refilled, the new streams
of every namespace stay within its burst and rate. -/
theorem streamRateBounded_of_reachable {settings : Settings}
    {relay : RelayState} {log : List (UInt64 × Instant)}
    (hreachable : (((relaySystem settings).restrict
      (ReleasesFull settings)).logging (streamPasses settings)).Reachable
        (relay, log)) :
    StreamRateBounded settings log := by
  have hlimited : Limited settings relay.manager relay.clock log := by
    refine loggedInvariant_of_reachable
      (motive := fun manager _ now log => Limited settings manager now log)
      limited_init ?_ ?_ hreachable
    · intro relay now envelope queue log hphase hqueue hfull hnow hbefore
      refine limited_handle envelope.task (hbefore.elapse hnow) ?_
      exact hfull envelope (by rw [hqueue]; rfl)
    · intro relay sender outgoing sent log hphase hsent hcondition hbefore
      exact hbefore.congr (Manager.rateLimits_resume sent outgoing.resume)
  exact fun nameSpace => (hlimited.credit nameSpace).bounded

/-! ## A bucket made full again -/

/-- One new stream a second, one at once. -/
def Settings.oneByOne : Settings :=
  { Settings.default with newStreamsPerSecond := 1, newStreamsBurst := 1 }

/-- A subscriber gets a stream and leaves, and so does the only provider. -/
def shortVisit (provider subscriber : Socket) : List Event :=
  connect provider (adminRequest (.register ['a'] false false none)) ++
    [.send, .recv provider false] ++
    connect subscriber (adminRequest (.subcribe ['a'])) ++
    [.send, .send, .connection subscriber .cancel, .receive 0,
      .connection provider .close, .connection provider .post, .receive 0]

/-- Two visits at the same time pass one limiter. -/
theorem shortVisits_unbounded :
    ∃ relay log,
      ((relaySystem Settings.oneByOne).logging
        (streamPasses Settings.oneByOne)).Reachable (relay, log) ∧
      ¬StreamRateBounded Settings.oneByOne log := by
  have hrun : ((shortVisit 0 1 ++ shortVisit 2 3).foldlM
      (Transition.System.logged (streamPasses Settings.oneByOne)
        (RelayState.step Settings.oneByOne)) (RelayState.init, [])).map
          Prod.snd = some [(0, 0), (0, 0)] := by
    decide +kernel
  obtain ⟨⟨relay, log⟩, hfold, rfl⟩ := Option.map_eq_some_iff.mp hrun
  refine ⟨relay, [(0, 0), (0, 0)], Transition.System.reachable_of_foldlM
    (Transition.System.logged_sound fun _ _ _ hstep => hstep) ?_ hfold,
    fun hbounded => ?_⟩
  · exact ⟨rfl, rfl⟩
  · have hle := hbounded 0 0 0 le_rfl
    have htwo : RateEnvelope.between (passesOf 0 [(0, 0), (0, 0)]) (0 : ℚ) 0 =
        2 := by decide
    rw [htwo, sub_self, mul_zero, add_zero] at hle
    have hone : Settings.oneByOne.newStreamsBurst = 1 := rfl
    rw [hone] at hle
    norm_num at hle

/-- One visit passes it once. -/
theorem streamRateBounded_one_visit :
    StreamRateBounded Settings.oneByOne [(0, 0)] := by
  have hrun : ((connect 0 (adminRequest (.register ['a'] false false none)) ++
      [Event.send] ++ connect 1 (adminRequest (.subcribe ['a']))).foldlM
      (Transition.System.logged (streamPasses Settings.oneByOne)
        (Transition.System.checked (ReleasesFull Settings.oneByOne)
          (RelayState.step Settings.oneByOne))) (RelayState.init, [])).map
          Prod.snd = some [(0, 0)] := by
    decide +kernel
  obtain ⟨⟨relay, log⟩, hfold, rfl⟩ := Option.map_eq_some_iff.mp hrun
  have hreachable : (((relaySystem Settings.oneByOne).restrict
      (ReleasesFull Settings.oneByOne)).logging
        (streamPasses Settings.oneByOne)).Reachable (relay, [(0, 0)]) := by
    refine Transition.System.reachable_of_foldlM
      (Transition.System.logged_sound Transition.System.checked_sound) ?_ hfold
    exact ⟨rfl, rfl⟩
  exact streamRateBounded_of_reachable hreachable

end PbMapper.Relay
